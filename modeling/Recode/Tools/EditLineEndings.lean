import Recode.Tools.EditGuarantees

/-! # What an edit leaves alone

Texts are matched with line feeds only, and one line ending is written for all of them. So an edit
leaves the text around its matches alone if and only if the line endings there are the one that the
first line feed of the file has. -/

namespace Recode.EditDiff

open List Utf16

open Splice (Range Ordered splice kept)

/-! ## Units with their line endings -/

/-- A text as units, but for the two that end a line together. -/
def chunks : List UInt16 → List (List UInt16)
  | [] => []
  | [unit] => [[unit]]
  | unit :: next :: text =>
    if unit = carriageReturn ∧ next = newline then [unit, next] :: chunks text
    else [unit] :: chunks (next :: text)

def IsTerminator (chunk : List UInt16) : Prop :=
  chunk = [carriageReturn, newline] ∨ chunk = [carriageReturn] ∨ chunk = [newline]

instance (chunk : List UInt16) : Decidable (IsTerminator chunk) :=
  inferInstanceAs (Decidable (_ ∨ _ ∨ _))

def unitOf (chunk : List UInt16) : UInt16 :=
  if IsTerminator chunk then newline else chunk.headD newline

variable (text : List UInt16)

theorem flatten_chunks : (chunks text).flatten = text := by
  induction text using chunks.induct with
  | case1 => rfl
  | case2 unit => rfl
  | case3 unit next text pair ih =>
    rw [chunks, if_pos pair, flatten_cons, ih]
    rfl
  | case4 unit next text alone ih =>
    rw [chunks, if_neg alone, flatten_cons, ih]
    rfl

theorem mem_chunks {text chunk : List UInt16} (member : chunk ∈ chunks text) :
    chunk = [carriageReturn, newline] ∨ ∃ unit, chunk = [unit] := by
  induction text using chunks.induct with
  | case1 => cases member
  | case2 unit => exact .inr ⟨unit, mem_singleton.mp member⟩
  | case3 unit next text pair ih =>
    rw [chunks, if_pos pair] at member
    rcases mem_cons.mp member with rfl | later
    · rw [pair.1, pair.2]
      exact .inl rfl
    · exact ih later
  | case4 unit next text alone ih =>
    rw [chunks, if_neg alone] at member
    rcases mem_cons.mp member with rfl | later
    · exact .inr ⟨unit, rfl⟩
    · exact ih later

theorem isTerminator_pair : IsTerminator [carriageReturn, newline] := .inl rfl

theorem isTerminator_single {unit : UInt16} :
    IsTerminator [unit] ↔ unit = carriageReturn ∨ unit = newline := by
  constructor
  · rintro (pair | alone | alone)
    · cases pair
    · exact .inl (singleton_inj.mp alone)
    · exact .inr (singleton_inj.mp alone)
  · rintro (rfl | rfl)
    · exact .inr (.inl rfl)
    · exact .inr (.inr rfl)

theorem unitOf_single (unit : UInt16) :
    unitOf [unit] = if unit = carriageReturn then newline else unit := by
  rw [unitOf]
  by_cases returns : unit = carriageReturn
  · rw [if_pos returns, if_pos (isTerminator_single.mpr (.inl returns))]
  rw [if_neg returns]
  by_cases ends : unit = newline
  · rw [if_pos (isTerminator_single.mpr (.inr ends)), ends]
  · rw [if_neg fun terminator => (isTerminator_single.mp terminator).elim returns ends]
    rfl

theorem normalizeToLF_eq : normalizeToLF text = (chunks text).map unitOf := by
  rw [normalizeToLF]
  induction text using chunks.induct with
  | case1 => rfl
  | case2 unit => rw [chunks, map_singleton, unitOf_single, replaceCrLf, map_singleton]
  | case3 unit next text pair ih =>
    rw [chunks, if_pos pair, replaceCrLf, if_pos pair, map_cons, map_cons, ih, pair.1, pair.2]
    rfl
  | case4 unit next text alone ih =>
    rw [chunks, if_neg alone, replaceCrLf, if_neg alone, map_cons, map_cons, ih, unitOf_single]

theorem restoreLineEndings_eq (ending : LineEnding) :
    restoreLineEndings text ending = text.flatMap (restoreUnit ending) := by
  cases ending with
  | crlf => rfl
  | lf =>
    have same : restoreUnit .lf = single := by
      funext unit
      rw [restoreUnit]
      by_cases ends : unit = newline
      · rw [if_pos ends, ends]
        rfl
      · rw [if_neg ends]
    rw [same, flatMap_single]
    rfl

theorem restoreUnit_unitOf {text chunk : List UInt16} (member : chunk ∈ chunks text)
    (ending : LineEnding) :
    restoreUnit ending (unitOf chunk) = chunk ↔ (IsTerminator chunk → chunk = ending.text) := by
  by_cases terminator : IsTerminator chunk
  · rw [unitOf, if_pos terminator, restoreUnit, if_pos rfl]
    exact ⟨fun same _ => same.symm, fun same => (same terminator).symm⟩
  refine iff_of_true ?_ fun ends => absurd ends terminator
  rcases mem_chunks member with rfl | ⟨unit, rfl⟩
  · exact absurd isTerminator_pair terminator
  · rw [isTerminator_single, not_or] at terminator
    rw [unitOf_single, if_neg terminator.1, restoreUnit, if_neg terminator.2]

/-- Writing back makes no chunk longer with line feeds, and none shorter with pairs. -/
theorem restoreUnit_length {text chunk : List UInt16} (member : chunk ∈ chunks text) :
    (restoreUnit .lf (unitOf chunk)).length ≤ chunk.length ∧
      chunk.length ≤ (restoreUnit .crlf (unitOf chunk)).length := by
  rcases mem_chunks member with rfl | ⟨unit, rfl⟩
  · exact ⟨by decide, by decide⟩
  rw [restoreUnit, restoreUnit]
  by_cases ends : unitOf [unit] = newline
  · rw [if_pos ends, if_pos ends]
    exact ⟨Nat.le_refl 1, Nat.le_succ 1⟩
  · rw [if_neg ends, if_neg ends]
    exact ⟨Nat.le_refl 1, Nat.le_refl 1⟩

/-! ## What is written -/

def bytesOf (text : List UInt16) : List UInt8 := Utf8.encode (decode text)

/-- The content of a file before its line endings are normalised. -/
def fileContent (file : List UInt8) : List UInt16 :=
  (stripBom (encode (Utf8.decode file))).2

def fileBom (file : List UInt8) : List UInt16 := (stripBom (encode (Utf8.decode file))).1

/-- The ranges that a call replaces in a file, with the line endings that are written. -/
def regionsOf (nfkc : List UInt16 → List UInt16) (edits : List Edit) (file : List UInt8) :
    List (Range UInt16) :=
  (rangesOf nfkc (contentOf file) edits).map
    (Range.map fun new => restoreLineEndings new (detectLineEnding (fileContent file)))

theorem splice_restored (content : List UInt16) (ranges : List (Range UInt16))
    (ending : LineEnding) :
    restoreLineEndings (splice single 0 (normalizeToLF content) ranges) ending =
      splice (fun chunk => restoreUnit ending (unitOf chunk)) 0 (chunks content)
        (ranges.map (Range.map fun new => restoreLineEndings new ending)) := by
  have rendered : (fun unit => (single unit).flatMap (restoreUnit ending)) =
      restoreUnit ending := by
    funext unit
    rw [flatMap_singleton]
  have news : (fun new => restoreLineEndings new ending) =
      fun new => new.flatMap (restoreUnit ending) := by
    funext new
    rw [restoreLineEndings_eq]
  rw [restoreLineEndings_eq, Splice.flatMap_splice, rendered, normalizeToLF_eq, Splice.splice_map,
    news]

def EndsLine (lines : List (List UInt16)) : Prop :=
  ∀ last, lines.getLast? = some last → IsTerminator last

/-- A line of a content that no region touches. -/
structure UntouchedLine (content : List UInt16) (regions : List (Range UInt16))
    (front line back : List (List UInt16)) (before after : List (Range UInt16)) : Prop where
  content : chunks content = front ++ (line ++ back)
  nonempty : line ≠ []
  starts : EndsLine front
  ends : back ≠ [] → EndsLine line
  regions : regions = before ++ after
  before : ∀ region ∈ before, region.stop ≤ front.length
  after : ∀ region ∈ after, front.length + line.length ≤ region.start

/-- What a call writes differs from the file in the regions only, so every line that no region
touches keeps its bytes. -/
structure Untouched (regions : List (Range UInt16)) (file written : List UInt8) : Prop where
  outside : written = bytesOf (fileBom file ++ splice id 0 (chunks (fileContent file)) regions)
  lines : ∀ front line back before after,
    UntouchedLine (fileContent file) regions front line back before after →
      file = bytesOf (fileBom file ++ front.flatten) ++
        (bytesOf line.flatten ++ bytesOf back.flatten) ∧
      written = bytesOf (fileBom file ++ splice id 0 front before) ++ (bytesOf line.flatten ++
          bytesOf (splice id (front.length + line.length) back after))

/-! ## Bytes -/

theorem bytesOf_append {front back : List UInt16} (apart : Utf16.Apart front back) :
    bytesOf (front ++ back) = bytesOf front ++ bytesOf back := by
  rw [bytesOf, decode, characters_append apart, map_append, Utf8.encode, flatMap_append]
  rfl

theorem measure_of_bytesOf {measure : List UInt16 → Nat} (additive : Splice.Additive measure)
    (lone : ∀ unit, (isHigh unit || isLow unit) = true →
      measure [0xFFFD] = measure [unit])
    {text text' : List UInt16} (same : bytesOf text = bytesOf text') :
    measure text = measure text' := by
  have decoded := congrArg Utf8.decode same
  rw [bytesOf, bytesOf, Utf8.decode_encode, Utf8.decode_encode] at decoded
  rw [← measure_encode_decode additive.append lone text, decoded,
    measure_encode_decode additive.append lone text']

theorem additive_length : Splice.Additive fun text : List UInt16 => text.length :=
  ⟨rfl, fun _ _ => length_append⟩

theorem additive_count : Splice.Additive fun text : List UInt16 => text.count carriageReturn :=
  ⟨rfl, fun _ _ => count_append⟩

theorem count_lone (unit : UInt16) (alone : (isHigh unit || isLow unit) = true) :
    [(0xFFFD : UInt16)].count carriageReturn = [unit].count carriageReturn := by
  have other : unit ≠ carriageReturn := by
    rintro rfl
    cases alone
  rw [count_singleton, count_singleton, if_neg (by decide), if_neg (by simpa using other)]

theorem restoreUnit_count {text chunk : List UInt16} (member : chunk ∈ chunks text) :
    (restoreUnit .lf (unitOf chunk)).count carriageReturn ≤ chunk.count carriageReturn := by
  rcases mem_chunks member with rfl | ⟨unit, rfl⟩
  · decide
  rw [unitOf_single, restoreUnit]
  by_cases returns : unit = carriageReturn
  · rw [if_pos returns, if_pos rfl]
    exact Nat.zero_le _
  rw [if_neg returns]
  by_cases ends : unit = newline
  · rw [if_pos ends]
    exact Nat.zero_le _
  · rw [if_neg ends]

theorem kept_of_bytes {content bom : List UInt16} {regions : List (Range UInt16)}
    {ending : LineEnding}
    (same : bytesOf (bom ++ splice (fun chunk => restoreUnit ending (unitOf chunk)) 0
        (chunks content) regions) = bytesOf (bom ++ splice id 0 (chunks content) regions)) :
    ∀ chunk ∈ kept 0 (chunks content) regions, IsTerminator chunk → chunk = ending.text := by
  have lengths := measure_of_bytesOf additive_length (fun _ _ => rfl) same
  rw [length_append, length_append, Nat.add_left_cancel_iff] at lengths
  intro chunk member terminator
  cases ending with
  | lf =>
    have counts := measure_of_bytesOf additive_count count_lone same
    rw [count_append, count_append, Nat.add_left_cancel_iff] at counts
    have length := Splice.measure_of_splice additive_length
      (fun chunk inside => (restoreUnit_length inside).1) lengths chunk member
    have count := Splice.measure_of_splice additive_count
      (fun chunk inside => restoreUnit_count inside) counts chunk member
    rcases terminator with rfl | rfl | rfl
    · exact absurd length (by decide)
    · exact absurd count (by decide)
    · rfl
  | crlf =>
    have length := Splice.measure_of_splice additive_length
      (fun chunk inside => (restoreUnit_length inside).2) lengths.symm chunk member
    rcases terminator with rfl | rfl | rfl
    · rfl
    · exact absurd length (by decide)
    · exact absurd length (by decide)

/-! ## Untouched lines -/

theorem flatten_ne_nil {content : List UInt16} {lines : List (List UInt16)}
    (members : ∀ chunk ∈ lines, chunk ∈ chunks content) (nonempty : lines ≠ []) :
    lines.flatten ≠ [] := by
  obtain ⟨first, rest, rfl⟩ := exists_cons_of_ne_nil nonempty
  intro none_
  rw [flatten_cons, append_eq_nil_iff] at none_
  rcases mem_chunks (members first mem_cons_self) with same | ⟨unit, same⟩
  · rw [same] at none_
    cases none_.1
  · rw [same] at none_
    cases none_.1

theorem EndsLine.not_high {lines : List (List UInt16)} (ends : EndsLine lines) :
    ∀ last, lines.flatten.getLast? = some last → isHigh last = false := by
  intro last isLast
  rcases eq_nil_or_concat' lines with rfl | ⟨front, chunk, rfl⟩
  · cases isLast
  rw [flatten_append, flatten_singleton] at isLast
  rcases ends chunk getLast?_concat with rfl | rfl | rfl
  · rw [getLast?_append] at isLast
    cases isLast
    rfl
  · rw [getLast?_append] at isLast
    cases isLast
    rfl
  · rw [getLast?_append] at isLast
    cases isLast
    rfl

theorem stripBom_append : (stripBom text).1 ++ (stripBom text).2 = text := by
  cases text with
  | nil => rfl
  | cons unit text =>
    rw [stripBom]
    by_cases mark : unit = 0xFEFF
    · rw [if_pos mark]
      rfl
    · rw [if_neg mark]
      rfl

theorem stripBom_not_high :
    ∀ last, (stripBom text).1.getLast? = some last → isHigh last = false := by
  intro last isLast
  cases text with
  | nil => cases isLast
  | cons unit text =>
    rw [stripBom] at isLast
    by_cases mark : unit = 0xFEFF
    · rw [if_pos mark] at isLast
      cases isLast
      rw [mark]
      rfl
    · rw [if_neg mark] at isLast
      cases isLast

section File

variable {text : List Char} {regions : List (Range UInt16)}

theorem fileText (text : List Char) :
    fileBom (Utf8.encode text) ++ fileContent (Utf8.encode text) = encode text := by
  rw [fileBom, fileContent, stripBom_append, Utf8.decode_encode]

theorem bytesOf_encode (text : List Char) : bytesOf (encode text) = Utf8.encode text := by
  rw [bytesOf, decode_encode]

theorem lines_of_outside {written : List UInt8}
    (ordered : Ordered (chunks (fileContent (Utf8.encode text))).length 0 regions)
    (positive : ∀ region ∈ regions, 0 < region.length)
    (outside : written = bytesOf (fileBom (Utf8.encode text) ++
      splice id 0 (chunks (fileContent (Utf8.encode text))) regions))
    {front line back : List (List UInt16)} {before after : List (Range UInt16)}
    (untouched : UntouchedLine (fileContent (Utf8.encode text)) regions front line back before
      after) :
    Utf8.encode text = bytesOf (fileBom (Utf8.encode text) ++ front.flatten) ++
        (bytesOf line.flatten ++ bytesOf back.flatten) ∧
      written = bytesOf (fileBom (Utf8.encode text) ++ splice id 0 front before) ++
        (bytesOf line.flatten ++
          bytesOf (splice id (front.length + line.length) back after)) := by
  obtain ⟨whole, nonempty, starts, ends, rfl, before_, after_⟩ := untouched
  have content : fileContent (Utf8.encode text) = front.flatten ++
      (line.flatten ++ back.flatten) := by
    rw [← flatten_append, ← flatten_append, ← whole, flatten_chunks]
  have all : encode text =
      (fileBom (Utf8.encode text) ++ front.flatten) ++ (line.flatten ++ back.flatten) := by
    rw [append_assoc, ← content, fileText]
  have notHigh : ∀ last, (fileBom (Utf8.encode text) ++ front.flatten).getLast? = some last →
      isHigh last = false := by
    intro last isLast
    rw [getLast?_append] at isLast
    cases tail : front.flatten.getLast? with
    | some other =>
      rw [tail] at isLast
      exact starts.not_high last (tail.trans isLast)
    | none =>
      rw [tail] at isLast
      exact stripBom_not_high _ last isLast
  have some_line : line.flatten ≠ [] := flatten_ne_nil (fun chunk member => by
    rw [whole]
    exact mem_append_right _ (mem_append_left _ member)) nonempty
  have notLow : ∀ rest head, (line.flatten ++ rest).head? = some head →
      isLow head = false := by
    intro rest head isHead
    refine not_low_of_encode all notHigh head ?_
    obtain ⟨first, units, split⟩ := exists_cons_of_ne_nil some_line
    rw [split] at isHead ⊢
    exact isHead
  have length : (chunks (fileContent (Utf8.encode text))).length =
      front.length + (line.length + back.length) := by
    rw [whole, length_append, length_append]
  rw [length] at ordered
  have apart : ∀ rest, (back = [] → rest = []) → Utf16.Apart line.flatten rest := by
    intro rest none_
    by_cases last : back = []
    · rw [none_ last]
      exact nofun
    · exact apart_of_not_high (ends last).not_high
  have noMore : back = [] → splice id (front.length + line.length) back after = [] := by
    intro last
    have none_ : after = [] := by
      rw [eq_nil_iff_forall_not_mem]
      intro region member
      have inside := (ordered.bounds region (mem_append_right _ member)).2
      have longer := positive region (mem_append_right _ member)
      have later := after_ region member
      rw [last, length_nil] at inside
      rw [Range.stop] at inside
      omega
    rw [none_, last]
    rfl
  have spliced : splice id 0 (chunks (fileContent (Utf8.encode text))) (before ++ after) =
      splice id 0 front before ++ (line.flatten ++
        splice id (front.length + line.length) back after) := by
    have left := ordered.left (Nat.zero_le front.length) before_
    have right := ordered.right (by omega) after_
    have later : Ordered (front.length + (line.length + back.length)) front.length after :=
      Ordered.weaken right (Nat.le_add_right ..)
    rw [← Nat.zero_add front.length] at left later
    rw [whole, Splice.splice_append front (line ++ back) left later, Nat.zero_add,
      Splice.splice_front line back right, flatMap_id]
  constructor
  · have joined : bytesOf (encode text) = _ := congrArg bytesOf all
    rw [bytesOf_append (apart_of_not_low (notLow back.flatten)),
      bytesOf_append (apart back.flatten fun last => by rw [last]; rfl)] at joined
    exact (bytesOf_encode text).symm.trans joined
  · rw [outside, spliced, ← append_assoc,
      bytesOf_append (apart_of_not_low (notLow _)), bytesOf_append (apart _ noMore)]

end File

/-! ## A call of the tool -/

section Call

variable {nfkc : List UInt16 → List UInt16} {edits : List Edit} {path : String}

theorem execute_ok {file : List UInt8} {message : String}
    (done : (execute nfkc path edits file).result = .ok message) :
    ∃ applied, applyEditsToNormalizedContent nfkc (contentOf file) edits path = .ok applied ∧
      (execute nfkc path edits file).file = bytesOf (fileBom file ++
        restoreLineEndings applied.newContent (detectLineEnding (fileContent file))) := by
  rw [execute] at done ⊢
  by_cases empty : edits.length = 0
  · rw [if_pos empty] at done
    cases done
  rw [if_neg empty] at done ⊢
  dsimp only at done ⊢
  rw [← contentOf] at done ⊢
  cases applied : applyEditsToNormalizedContent nfkc (contentOf file) edits path with
  | error message =>
    rw [applied] at done
    cases done
  | ok result => exact ⟨result, rfl, rfl⟩

/-- What a call writes when all old texts are found as they are. -/
theorem written_exact {file : List UInt8} (exact : ¬ Fuzzy nfkc (contentOf file) edits)
    {message : String} (done : (execute nfkc path edits file).result = .ok message) :
    Matched nfkc (contentOf file) edits ∧ (∀ edit ∈ edits, InPlace nfkc (contentOf file) edits edit
        (rangeOf nfkc (baseOf nfkc (contentOf file) edits) edit.normalized)) ∧
      (execute nfkc path edits file).file = bytesOf (fileBom file ++
        splice (fun chunk => restoreUnit (detectLineEnding (fileContent file)) (unitOf chunk)) 0
          (chunks (fileContent file)) (regionsOf nfkc edits file)) := by
  obtain ⟨applied, result, written⟩ := execute_ok done
  obtain ⟨holds, -, rewritten, -⟩ := applyEdits_ok.mp result
  have placed : ∀ edit ∈ edits, InPlace nfkc (contentOf file) edits edit
      (rangeOf nfkc (baseOf nfkc (contentOf file) edits) edit.normalized) := by
    intro edit member
    obtain ⟨index, found⟩ := found_exact exact holds member
    exact inPlace_of_found holds member found
  rw [rewrite_exact holds placed exact, baseOf_exact exact] at rewritten
  refine ⟨holds, placed, ?_⟩
  rw [written, ← Except.ok.inj rewritten, contentOf, ← fileContent, splice_restored]
  rfl

end Call

/-- A call that finds all old texts as they are leaves a file in UTF-8 alone around them if and only
if the line endings there are the ending that is written. -/
theorem execute_untouched (nfkc : List UInt16 → List UInt16) (path : String) (edits : List Edit)
    (text : List Char) (message : String)
    (exact : ¬ Fuzzy nfkc (contentOf (Utf8.encode text)) edits)
    (done : (execute nfkc path edits (Utf8.encode text)).result = .ok message) :
    Untouched (regionsOf nfkc edits (Utf8.encode text)) (Utf8.encode text)
        (execute nfkc path edits (Utf8.encode text)).file ↔
      ∀ chunk ∈ kept 0 (chunks (fileContent (Utf8.encode text)))
          (regionsOf nfkc edits (Utf8.encode text)), IsTerminator chunk →
          chunk = (detectLineEnding (fileContent (Utf8.encode text))).text := by
  obtain ⟨holds, placed, written⟩ := written_exact exact done
  constructor
  · intro untouched
    exact kept_of_bytes (written.symm.trans untouched.outside)
  · intro endings
    have same := Splice.splice_congr fun chunk member =>
      (restoreUnit_unitOf (Splice.mem_of_mem_kept member) _).mpr (endings chunk member)
    have outside := written
    rw [same] at outside
    have length : (baseOf nfkc (contentOf (Utf8.encode text)) edits).length =
        (chunks (fileContent (Utf8.encode text))).length := by
      rw [baseOf_exact exact, contentOf, ← fileContent, normalizeToLF_eq, length_map]
    have ranges := ranges_ordered holds placed
    rw [length] at ranges
    have ordered : Ordered (chunks (fileContent (Utf8.encode text))).length 0
        (regionsOf nfkc edits (Utf8.encode text)) := ranges.map _
    refine ⟨outside, fun front line back before after untouched => ?_⟩
    refine lines_of_outside ordered (fun region member => ?_) outside untouched
    obtain ⟨range, inside, rfl⟩ := mem_map.mp member
    exact (ranges_inPlace placed range inside).1

/-- A call on a file of lines that all end with line feeds. -/
theorem execute_untouched_feeds :
    Untouched (regionsOf id [⟨[97], [99]⟩] (Utf8.encode ['a', '\n', 'b', '\n']))
      (Utf8.encode ['a', '\n', 'b', '\n'])
      (execute id "notes" [⟨[97], [99]⟩] (Utf8.encode ['a', '\n', 'b', '\n'])).file := by
  have applied : applyEditsToNormalizedContent id (contentOf (Utf8.encode ['a', '\n', 'b', '\n']))
      [⟨[97], [99]⟩] "notes" = .ok ⟨_, [99, 10, 98, 10]⟩ :=
    applyEdits_single "notes" (by decide) (by decide) ⟨by decide, by decide⟩ (by decide) (by decide)
  have done : (execute id "notes" [⟨[97], [99]⟩] (Utf8.encode ['a', '\n', 'b', '\n'])).result =
      .ok "Successfully replaced 1 block(s) in notes." := by
    rw [execute, if_neg (by decide)]
    dsimp only
    rw [← contentOf, applied]
    rfl
  have endings : ∀ chunk ∈ chunks (fileContent (Utf8.encode ['a', '\n', 'b', '\n'])),
      IsTerminator chunk →
        chunk = (detectLineEnding (fileContent (Utf8.encode ['a', '\n', 'b', '\n']))).text := by
    decide
  exact (execute_untouched id "notes" [⟨[97], [99]⟩] ['a', '\n', 'b', '\n'] _ (by decide) done).mpr
    fun chunk member => endings chunk (Splice.mem_of_mem_kept member)

/-- The second line ends with a pair, and after an edit of the first one with a line feed. -/
theorem mixed_endings_rewritten :
    (execute id "notes" [⟨[97], [99]⟩] [97, 10, 98, 13, 10]).file = [99, 10, 98, 10] := by
  have applied : applyEditsToNormalizedContent id (contentOf [97, 10, 98, 13, 10])
      [⟨[97], [99]⟩] "notes" = .ok ⟨_, [99, 10, 98, 10]⟩ :=
    applyEdits_single "notes" (by decide) (by decide) ⟨by decide, by decide⟩ (by decide) (by decide)
  rw [execute, if_neg (by decide)]
  dsimp only
  rw [← contentOf, applied]
  decide

end Recode.EditDiff

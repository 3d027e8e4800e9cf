import Recode.Harness.ReadTool

/-! # Reading a file page by page

When no line is too large, each page holds at least one line and the next page starts right after
it, so the pages joined are the file. -/

namespace Recode.Harness.ReadTool

open List Option Utf16 Lines

open Tools (Limit TruncationOptions DEFAULT_MAX_LINES DEFAULT_MAX_BYTES)
open TextTruncation (newline splitLinesForCounting Fits limits whole shortened)

/-! ## The lines of a selection -/

theorem splitOn_joined {lines : List (List UInt16)} (nonempty : lines ≠ [])
    (single : Single newline lines) : (Lines.joined newline lines).splitOn newline = lines :=
  splitOn_intercalate newline single nonempty

theorem counted_joined {lines : List (List UInt16)} (nonempty : lines ≠ [])
    (single : Single newline lines) :
    splitLinesForCounting (Lines.joined newline lines) = lines ∨
      lines = splitLinesForCounting (Lines.joined newline lines) ++ [[]] := by
  have split := splitOn_joined nonempty single
  by_cases finished : (Lines.joined newline lines).getLast? = some newline
  · rw [splitOn_finished finished] at split
    exact .inr split.symm
  by_cases empty : Lines.joined newline lines = []
  · rw [empty, splitOn_nil] at split
    rw [empty, ← split]
    exact .inr rfl
  · rw [splitOn_open empty finished] at split
    exact .inl split

/-! ## One page -/

/-- The selected lines that a page shows. -/
structure Shown (selected : List (List UInt16)) (result : TextTruncation.TruncationResult)
    (count : Nat) : Prop where
  positive : 0 < count
  inside : count ≤ selected.length
  content : result.content = Lines.joined newline (selected.take count)
  small : result.firstLineExceedsLimit = false
  cut : result.truncated = true → count < selected.length ∧ result.outputLines = count
  uncut : result.truncated = false → count = selected.length

/-- What truncation leaves of selected lines that are no larger than its limit. -/
theorem truncateHead_shown {selected : List (List UInt16)} {maxLines maxBytes : Nat}
    (some_line : 1 ≤ maxLines) (nonempty : selected ≠ []) (single : Single newline selected)
    (small : ∀ line ∈ selected, byteLength line ≤ maxBytes) :
    ∃ count, Shown selected (TextTruncation.truncateHead byteLength
      (Lines.joined newline selected) (limits maxLines maxBytes)) count := by
  by_cases fits : Fits (Lines.joined newline selected) maxLines maxBytes
  · rw [TextTruncation.truncateHead_whole fits]
    refine ⟨selected.length, length_pos_iff.mpr nonempty, Nat.le_refl _, ?_, rfl,
      nofun, fun _ => rfl⟩
    exact congrArg (Lines.joined newline) (take_of_length_le (Nat.le_refl _)).symm
  obtain ⟨first, rest, split⟩ := exists_cons_of_ne_nil (TextTruncation.lines_ne_nil fits)
  have among : splitLinesForCounting (Lines.joined newline selected) <+: selected := by
    rcases counted_joined nonempty single with same | same
    · exact ⟨[], (append_nil _).trans same⟩
    · exact ⟨_, same.symm⟩
  have few : byteLength first ≤ maxBytes := by
    apply small
    apply among.subset
    rw [split]
    exact mem_cons_self
  obtain ⟨kept, large, longest, -, result⟩ := TextTruncation.truncateHead_kept fits
    (by rw [split]; exact Nat.not_lt.mpr few)
  have front := longest.front.trans among
  have some_kept : 0 < kept.length := by
    refine longest.longest [first] ?_ ⟨some_line, ?_⟩
    · rw [split]
      exact ⟨rest, rfl⟩
    · rw [TextTruncation.cost_singleton]
      exact few
  have fewer : kept.length < selected.length := by
    refine Nat.lt_of_le_of_ne front.length_le fun same => fits ?_
    have all : kept = selected := front.eq_of_length same
    have within := longest.within
    rw [all] at within
    refine ⟨among.length_le.trans within.1, ?_⟩
    rw [size_joined TextTruncation.additive]
    exact within.2
  rw [result]
  refine ⟨kept.length, some_kept, fewer.le, ?_, rfl, fun _ => ⟨fewer, rfl⟩, nofun⟩
  rw [← prefix_iff_eq_take.mp front]
  rfl

section Pages

variable {bytes : List UInt8} {limit : Option Nat}

abbrev fileLines (bytes : List UInt8) : List (List UInt16) := (textContent bytes).splitOn newline

/-- A page shows some lines from a line on, and names the line after them if there is one. -/
structure PageAt (bytes : List UInt8) (start count : Nat) (page : Page) : Prop where
  positive : 0 < count
  content : page.content = Lines.joined newline (((fileLines bytes).drop start).take count)
  next : page.nextOffset = if start + count < (fileLines bytes).length then some (start + count + 1)
    else none

theorem endLine_le (lines start : Nat) (limit : Option Nat) :
    endLine lines start limit ≤ lines := by
  cases limit with
  | none => exact Nat.le_refl _
  | some asked => exact Nat.min_le_right ..

theorem lt_endLine {lines start : Nat} (inside : start < lines)
    (positive : ∀ asked ∈ limit, 0 < asked) : start < endLine lines start limit := by
  cases limit with
  | none => exact inside
  | some asked => exact Nat.lt_min.mpr ⟨Nat.lt_add_of_pos_right (positive asked rfl), inside⟩

theorem truncateHead_default (content : List UInt16) :
    TextTruncation.truncateHead byteLength content {} =
      TextTruncation.truncateHead byteLength content
        (limits DEFAULT_MAX_LINES DEFAULT_MAX_BYTES) :=
  rfl

/-- What is selected is shown as far as it is not truncated. -/
theorem selected_shown (small : ∀ line ∈ fileLines bytes, byteLength line ≤ DEFAULT_MAX_BYTES)
    {start stop : Nat} (some_line : start < stop) (inside : stop ≤ (fileLines bytes).length)
    (runtimeBuffer : Bool) :
    ∃ count, Shown (((fileLines bytes).take stop).drop start)
      (TextTruncation.Harness.truncateHead runtimeBuffer
        (Lines.joined newline (((fileLines bytes).take stop).drop start)) {}) count := by
  have among : ((fileLines bytes).take stop).drop start ⊆ fileLines bytes :=
    fun line member => mem_of_mem_take (mem_of_mem_drop member)
  rw [TextTruncation.Harness.truncateHead, TextTruncation.Harness.utf8ByteLength_eq,
    truncateHead_default]
  refine truncateHead_shown (by decide) (fun none => ?_)
    (fun line member => single_splitOn _ line (among member)) fun line member =>
      small line (among member)
  have length := congrArg length none
  rw [length_drop, length_take, length_nil] at length
  omega

theorem pageOf_pageAt (path : String) {start stop count : Nat} {userLimitedLines : Option Nat}
    {truncation : TextTruncation.TruncationResult}
    (shown : Shown (((fileLines bytes).take stop).drop start) truncation count)
    (inside : stop ≤ (fileLines bytes).length)
    (limited : ∀ lines ∈ userLimitedLines, lines = stop - start)
    (unlimited : userLimitedLines = none → stop = (fileLines bytes).length) :
    PageAt bytes start count (pageOf path (fileLines bytes) start userLimitedLines truncation) := by
  have length : (((fileLines bytes).take stop).drop start).length = stop - start := by
    rw [length_drop, length_take, Nat.min_eq_left inside]
  have positive := shown.positive
  have upTo := shown.inside
  rw [length] at upTo
  have content := shown.content
  rw [drop_take, take_take, Nat.min_eq_left upTo] at content
  rw [pageOf.eq_def, shown.small, if_neg Bool.false_ne_true]
  by_cases cut : truncation.truncated = true
  · obtain ⟨fewer, lines⟩ := shown.cut cut
    rw [length] at fewer
    have more : start + count < (fileLines bytes).length := by omega
    have next : start + 1 + count - 1 + 1 = start + count + 1 := by omega
    rw [if_pos cut, lines]
    refine ⟨positive, content, ?_⟩
    rw [if_pos more, ← next]
    rfl
  · have all := shown.uncut (Bool.not_eq_true _ ▸ cut)
    rw [length] at all
    rw [if_neg cut]
    cases userLimitedLines with
    | none =>
      refine ⟨positive, content, ?_⟩
      have last := unlimited rfl
      rw [if_neg (by omega)]
      rfl
    | some lines =>
      have same : start + lines = start + count := by rw [limited lines rfl, all]
      dsimp only
      rw [same]
      by_cases more : start + count < (fileLines bytes).length
      · rw [if_pos more]
        refine ⟨positive, content, ?_⟩
        rw [if_pos more]
        rfl
      · rw [if_neg more]
        refine ⟨positive, content, ?_⟩
        rw [if_neg more]
        rfl

theorem readText_page (runtimeBuffer : Bool) (path : String)
    (small : ∀ line ∈ fileLines bytes, byteLength line ≤ DEFAULT_MAX_BYTES)
    (positive : ∀ asked ∈ limit, 0 < asked) {start : Nat}
    (inside : start < (fileLines bytes).length) :
    ∃ page count, readText runtimeBuffer path bytes (some (start + 1)) limit = .ok page ∧
      PageAt bytes start count page := by
  have some_line := lt_endLine inside positive
  have within := endLine_le (fileLines bytes).length start limit
  obtain ⟨count, shown⟩ := selected_shown small some_line within runtimeBuffer
  rw [readText]
  simp only [getD_some, Nat.add_sub_cancel]
  rw [if_neg (Nat.not_le.mpr inside)]
  refine ⟨_, count, rfl, pageOf_pageAt path shown within (fun lines asked => ?_) fun absent => ?_⟩
  · obtain ⟨_, -, rfl⟩ := map_eq_some_iff.mp asked
    rfl
  · rw [map_eq_none_iff] at absent
    rw [absent]
    rfl

/-! ## All pages -/

/-- The pages from a line on: their offsets increase, and joined they are the rest of the file. -/
structure PagesFrom (bytes : List UInt8) (start : Nat) (pages : List (Nat × List UInt16)) :
    Prop where
  first : (pages.map Prod.fst).head? = some (start + 1)
  increasing : (pages.map Prod.fst).Pairwise (· < ·)
  later : ∀ page ∈ pages, start < page.1
  complete : Lines.joined newline (pages.map Prod.snd) =
    Lines.joined newline ((fileLines bytes).drop start)

theorem PagesFrom.ne_nil {start : Nat} {pages : List (Nat × List UInt16)}
    (from_ : PagesFrom bytes start pages) : pages ≠ [] := by
  intro none
  have first := from_.first
  rw [none] at first
  cases first

/-- A page that ends the file. -/
theorem PageAt.last {start count : Nat} {page : Page} (shown : PageAt bytes start count page)
    (ends : ¬ start + count < (fileLines bytes).length) :
    PagesFrom bytes start [(start + 1, page.content)] := by
  refine ⟨rfl, pairwise_singleton .., fun other member => ?_, ?_⟩
  · rw [mem_singleton.mp member]
    exact Nat.lt_succ_self start
  · rw [map_singleton, Lines.joined, intercalate_singleton, shown.content, take_of_length_le]
    rw [length_drop]
    omega

theorem PageAt.cons {start count : Nat} {page : Page} (shown : PageAt bytes start count page)
    (more : start + count < (fileLines bytes).length) {pages : List (Nat × List UInt16)}
    (rest : PagesFrom bytes (start + count) pages) :
    PagesFrom bytes start ((start + 1, page.content) :: pages) := by
  have positive := shown.positive
  refine ⟨rfl, ?_, fun other member => ?_, ?_⟩
  · refine pairwise_cons.mpr ⟨fun offset member => ?_, rest.increasing⟩
    obtain ⟨other, inside, rfl⟩ := mem_map.mp member
    have := rest.later other inside
    omega
  · rcases mem_cons.mp member with rfl | inside
    · exact Nat.lt_succ_self start
    · have := rest.later other inside
      omega
  · have some_front : ((fileLines bytes).drop start).take count ≠ [] := by
      rw [← length_pos_iff, length_take, length_drop]
      omega
    have some_back : (fileLines bytes).drop (start + count) ≠ [] := by
      rw [← length_pos_iff, length_drop]
      omega
    have split := take_append_drop count ((fileLines bytes).drop start)
    rw [drop_drop] at split
    rw [map_cons, joined_cons _ (fun none => rest.ne_nil (map_eq_nil_iff.mp none)),
      rest.complete, shown.content, ← joined_append some_front some_back, split]

theorem execute_text (options : ReadToolOptions) (runtimeBuffer : Bool) (path : String)
    (text : detectSupportedImageMimeType bytes = none) (offset : Option Nat) :
    execute options runtimeBuffer path bytes offset limit =
      .page <$> readText runtimeBuffer path bytes offset limit := by
  rw [execute, text]

/-- Reading on from a line takes at most as many calls as there are lines left. -/
theorem readFrom_pages (options : ReadToolOptions) (runtimeBuffer : Bool) (path : String)
    (text : detectSupportedImageMimeType bytes = none)
    (small : ∀ line ∈ fileLines bytes, byteLength line ≤ DEFAULT_MAX_BYTES)
    (positive : ∀ asked ∈ limit, 0 < asked) {start fuel : Nat}
    (inside : start < (fileLines bytes).length) (enough : (fileLines bytes).length ≤ start + fuel) :
    ∃ pages, readFrom options runtimeBuffer path bytes limit fuel (start + 1) = some pages ∧
      PagesFrom bytes start pages := by
  induction fuel generalizing start with
  | zero => omega
  | succ fuel ih =>
    obtain ⟨page, count, result, shown⟩ := readText_page runtimeBuffer path small positive inside
    have some_line := shown.positive
    have next := shown.next
    rw [readFrom, execute_text options _ path text, result]
    dsimp only [Functor.map, Except.map]
    by_cases more : start + count < (fileLines bytes).length
    · obtain ⟨pages, read, rest⟩ := ih more (by omega)
      rw [if_pos more] at next
      rw [next]
      dsimp only
      rw [read]
      exact ⟨_, rfl, shown.cons more rest⟩
    · rw [if_neg more] at next
      rw [next]
      exact ⟨_, rfl, shown.last more⟩

/-- More calls than are needed change nothing. -/
theorem readFrom_more {options : ReadToolOptions} {runtimeBuffer : Bool} {path : String}
    {fuel offset : Nat}
    {pages : List (Nat × List UInt16)}
    (read : readFrom options runtimeBuffer path bytes limit fuel offset = some pages) {more : Nat}
    (le : fuel ≤ more) : readFrom options runtimeBuffer path bytes limit more offset =
      some pages := by
  induction fuel generalizing offset pages more with
  | zero => cases read
  | succ fuel ih =>
    obtain ⟨more, rfl⟩ : ∃ less, more = less + 1 := ⟨more - 1, by omega⟩
    rw [readFrom] at read ⊢
    rcases result : execute options runtimeBuffer path bytes (some offset) limit with
      message | page | ⟨text, image⟩
    · rw [result] at read
      cases read
    · rw [result] at read
      dsimp only at read ⊢
      cases next : page.nextOffset with
      | none =>
        rw [next] at read
        exact read
      | some offset' =>
        rw [next] at read
        dsimp only at read ⊢
        obtain ⟨rest, later, same⟩ := map_eq_some_iff.mp read
        rw [ih later (by omega), ← same]
        rfl
    · rw [result] at read
      cases read

end Pages

/-- Reading from the first line on, page by page, ends after at most as many calls as the file has
lines, each offset is larger than the one before, and the pages joined are the text. -/
def ReadsWhole (options : ReadToolOptions) (runtimeBuffer : Bool) (path : String)
    (bytes : List UInt8) (limit : Option Nat) : Prop :=
  ∃ pages, (∀ fuel, ((textContent bytes).splitOn newline).length ≤ fuel →
      readFrom options runtimeBuffer path bytes limit fuel 1 = some pages) ∧
    (pages.map Prod.fst).Pairwise (· < ·) ∧
    Lines.joined newline (pages.map Prod.snd) = textContent bytes

theorem readImage_image (options : ReadToolOptions) (bytes : List UInt8) (mimeType : String) :
    ∃ text image, readImage options bytes mimeType = .image text image := by
  rw [readImage]
  split
  · split <;> exact ⟨_, _, rfl⟩
  · split <;> exact ⟨_, _, rfl⟩

/-- A file without too large a line is read whole exactly if it does not begin like an image. -/
theorem readFrom_complete_iff (options : ReadToolOptions) (runtimeBuffer : Bool) (path : String)
    (bytes : List UInt8) (limit : Option Nat)
    (small : ∀ line ∈ (textContent bytes).splitOn newline,
      byteLength line ≤ DEFAULT_MAX_BYTES)
    (positive : ∀ asked ∈ limit, 0 < asked) :
    ReadsWhole options runtimeBuffer path bytes limit ↔
      detectSupportedImageMimeType bytes = none := by
  have some_line : 0 < (fileLines bytes).length :=
    length_pos_iff.mpr (splitOn_ne_nil newline _)
  constructor
  · rintro ⟨pages, read, -⟩
    by_contra image
    obtain ⟨mimeType, found⟩ := ne_none_iff_exists'.mp image
    have none_ := read (_ + 1) (Nat.le_succ _)
    obtain ⟨text, image, result⟩ := readImage_image options bytes mimeType
    rw [readFrom, execute, found] at none_
    simp only [result] at none_
    cases none_
  · intro text
    obtain ⟨pages, read, all⟩ := readFrom_pages options runtimeBuffer path text small positive
      some_line (Nat.le_add_left ..)
    refine ⟨pages, fun fuel enough => readFrom_more read enough, all.increasing, ?_⟩
    rw [all.complete, drop_zero, Lines.joined_splitOn]

theorem readFrom_complete_iff_twoLines :
    ReadsWhole {} true "notes" [0x61, 0x0A, 0x62, 0x0A] (some 1) ∧
      (readFrom {} true "notes" [0x61, 0x0A, 0x62, 0x0A] (some 1) 3 1).map (·.map Prod.fst) =
        some [1, 2, 3] :=
  ⟨(readFrom_complete_iff {} true "notes" [0x61, 0x0A, 0x62, 0x0A] (some 1) (by decide)
    (fun asked same => by
      obtain rfl : 1 = asked := some_inj.mp same
      exact Nat.one_pos)).mpr (by decide), by decide⟩

/-- A note that begins with three letters is attached as an image. -/
theorem gifNotes_not_complete :
    execute {} true "notes" (Utf8.encode "GIF notes".toList) (some 1) none =
        .ok (.image "Read image file [image/gif]" (some ("R0lGIG5vdGVz".toList, "image/gif"))) ∧
      ¬ ReadsWhole {} true "notes" (Utf8.encode "GIF notes".toList) none := by
  refine ⟨by rfl, fun ⟨pages, read, _⟩ => ?_⟩
  have none_ := read 1 (by decide)
  cases none_.symm.trans (by rfl : _ = none)

end Recode.Harness.ReadTool

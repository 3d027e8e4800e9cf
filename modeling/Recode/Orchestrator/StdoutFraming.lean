import Recode.Lib.Json.Parse
import Recode.Orchestrator.IpcGuarantees

/-! # The lines a child process writes

A supervisor collects what its child writes in a buffer and cuts the buffer into lines. The
bound on a line is checked on the whole buffer, before any line is cut off it. A chunk is
therefore harmless exactly when it fits into the bound together with the part of a line that
was left before it. -/

namespace Recode.Orchestrator

open Text
namespace Stdout

open Ipc List

def MAX_STDOUT_BUFFER_CHARS : Nat := 1048576

/-- Why the protocol with a child failed: a line that `JSON.parse` or the access to the fields
of its value refused, or a buffer beyond the bound. -/
inductive ProtocolFailure where
  | invalidOutput (line : String)
  | exceeded
deriving DecidableEq, Repr

/-- The front of the text of a failure; an error's own message follows the first. -/
def ProtocolFailure.text : ProtocolFailure → String
  | .invalidOutput _ => "Invalid RPC output: "
  | .exceeded => "RPC stdout line exceeded the 1 MiB protocol bound"

/-- What a supervisor keeps of a child's output: the buffer, the lines that `handleLine` was
given and the failures of the protocol. -/
structure Reader where
  buffer : List Char := []
  handled : List String := []
  failures : List ProtocolFailure := []

/-- `handleLine` returns: the line has a value, and the value has fields, which `null` has not.
What observers of the value throw is caught. -/
def accepts (line : String) : Bool :=
  match Json.parse line.toList with
  | none => false
  | some .null => false
  | some _ => true

/-- The loop over the lines of the buffer. Each round takes a line off, so as many rounds as the
buffer has characters, and one more, always suffice. -/
def readLines : Nat → Reader → Reader
  | 0, reader => reader
  | fuel + 1, reader =>
    match cutLine reader.buffer with
    | none => reader
    | some (line, rest) =>
      let reader := { reader with buffer := rest }
      if lineOf line = "" then readLines fuel reader
      else
        let reader := { reader with handled := reader.handled ++ [lineOf line] }
        if accepts (lineOf line) then readLines fuel reader
        else { reader with failures := reader.failures ++ [.invalidOutput (lineOf line)] }

def onData (reader : Reader) (chunk : List Char) : Reader :=
  let reader := { reader with buffer := reader.buffer ++ chunk }
  if MAX_STDOUT_BUFFER_CHARS < utf16Length (String.ofList reader.buffer) then
    { reader with failures := reader.failures ++ [.exceeded] }
  else readLines (reader.buffer.length + 1) reader

/-- The lines that a supervisor should handle. -/
def expected (lines : List (List Char)) : List String :=
  (lines.map lineOf).filter (· ≠ "")

/-- The supervisor handled the lines, in order, and the protocol did not fail. -/
def Framed (lines chunks : List (List Char)) : Prop :=
  (chunks.foldl onData {}).handled = expected lines ∧ (chunks.foldl onData {}).failures = []

/-- The text behind the last line feed. -/
def lastPart (text : List Char) : List Char :=
  (text.reverse.takeWhile (· ≠ '\n')).reverse

/-- Every chunk fits into the bound together with the part of a line before it. -/
def Fits : List Char → List (List Char) → Prop
  | _, [] => True
  | held, chunk :: chunks =>
    utf16Length (String.ofList (held ++ chunk)) ≤ MAX_STDOUT_BUFFER_CHARS ∧
      Fits (lastPart (held ++ chunk)) chunks

instance decidableFits : (held : List Char) → (chunks : List (List Char)) →
    Decidable (Fits held chunks)
  | _, [] => isTrue trivial
  | held, chunk :: chunks =>
    have := decidableFits (lastPart (held ++ chunk)) chunks
    inferInstanceAs (Decidable (_ ∧ _))

theorem lastPart_whole {text : List Char} (part : '\n' ∉ text) : lastPart text = text := by
  rw [lastPart, takeWhile_eq_self_iff.mpr, reverse_reverse]
  intro char member
  rw [mem_reverse] at member
  exact decide_eq_true fun same => part (same ▸ member)

theorem lastPart_line (line rest : List Char) :
    lastPart (line ++ '\n' :: rest) = lastPart rest := by
  rw [lastPart, lastPart, reverse_append, reverse_cons, append_assoc, takeWhile_append]
  split
  · rename_i whole
    have all := takeWhile_eq_self_iff.mp (List.Sublist.eq_of_length
      (takeWhile_sublist _) whole)
    rw [takeWhile_eq_self_iff.mpr all, singleton_append,
      takeWhile_cons_of_neg (by decide), append_nil]
  · rfl

/-- What the loop does with a text that begins lines: it handles the whole lines, or the
protocol fails. -/
inductive Handles (reader : Reader) (lines : List (List Char)) (more : List Char) :
    Reader → Prop
  | whole {after : Reader} (done later : List (List Char)) (split : lines = done ++ later)
      (sound : ∀ line ∈ done, lineOf line ≠ "" → accepts (lineOf line))
      (handled : after.handled = reader.handled ++ expected done)
      (failures : after.failures = reader.failures)
      (buffer : after.buffer = lastPart reader.buffer)
      (part : '\n' ∉ after.buffer) (text : after.buffer ++ more = unlines later) :
      Handles reader lines more after
  | failed {after : Reader} (failure : ProtocolFailure)
      (failures : after.failures = reader.failures ++ [failure])
      (unsound : ∃ line ∈ lines, lineOf line ≠ "" ∧ accepts (lineOf line) = false) :
      Handles reader lines more after

theorem expected_blank {line : List Char} (lines : List (List Char)) (blank : lineOf line = "") :
    expected (line :: lines) = expected lines := by
  rw [expected, map_cons, blank]
  rfl

theorem expected_cons {line : List Char} (lines : List (List Char)) (solid : lineOf line ≠ "") :
    expected (line :: lines) = lineOf line :: expected lines :=
  filter_cons_of_pos (decide_eq_true solid)

theorem expected_append (front back : List (List Char)) :
    expected (front ++ back) = expected front ++ expected back := by
  rw [expected, map_append, filter_append]
  rfl

/-- A line in front of those that the loop handles. -/
theorem Handles.cons {reader next after : Reader} {line : List Char} {lines : List (List Char)}
    {more : List Char} (handles : Handles next lines more after)
    (good : lineOf line ≠ "" → accepts (lineOf line))
    (handled : next.handled = reader.handled ++ expected [line])
    (failures : next.failures = reader.failures)
    (buffer : lastPart next.buffer = lastPart reader.buffer) :
    Handles reader (line :: lines) more after := by
  cases handles with
  | whole done later split sound all same rest part text =>
    refine .whole (line :: done) later (by rw [split]; rfl) (forall_mem_cons.mpr ⟨good, sound⟩)
      ?_ (same.trans failures) (rest.trans buffer) part text
    rw [all, handled, append_assoc, ← expected_append]
    rfl
  | failed failure same unsound =>
    obtain ⟨other, member, refused⟩ := unsound
    exact .failed failure (by rw [same, failures])
      ⟨other, mem_cons_of_mem _ member, refused⟩

variable {reader : Reader}

theorem handles_readLines (fuel : Nat) {lines : List (List Char)}
    {more : List Char} (enough : reader.buffer.length < fuel)
    (whole : ∀ line ∈ lines, '\n' ∉ line) (text : reader.buffer ++ more = unlines lines) :
    Handles reader lines more (readLines fuel reader) := by
  induction fuel generalizing reader lines with
  | zero => cases enough
  | succ fuel ih =>
    rw [readLines]
    cases cut : cutLine reader.buffer with
    | none =>
      have part := cutLine_none cut
      refine .whole [] lines rfl (by simp) ?_ rfl (lastPart_whole part).symm part text
      exact (append_nil _).symm
    | some cutting =>
      obtain ⟨line, rest⟩ := cutting
      obtain ⟨split, single⟩ := cutLine_some cut
      rw [split] at text
      obtain ⟨later, rfl, remains⟩ := cut_unlines single whole text
      have shorter : rest.length < fuel := by
        rw [split, length_append, length_cons] at enough
        omega
      have tail : lastPart rest = lastPart reader.buffer := by rw [split, lastPart_line]
      have each : ∀ other ∈ later, '\n' ∉ other :=
        fun other member => whole other (mem_cons_of_mem _ member)
      dsimp only
      by_cases blank : lineOf line = ""
      · rw [if_pos blank]
        let next : Reader := { reader with buffer := rest }
        have handles := ih (show next.buffer.length < fuel from shorter) each remains
        refine handles.cons (fun solid => absurd blank solid) ?_ rfl tail
        rw [expected_blank [] blank]
        exact (append_nil _).symm
      · rw [if_neg blank]
        cases good : accepts (lineOf line) with
        | false => exact .failed _ rfl ⟨line, mem_cons_self, blank, good⟩
        | true =>
          rw [if_pos rfl]
          let next : Reader :=
            { reader with buffer := rest, handled := reader.handled ++ [lineOf line] }
          have handles := ih (show next.buffer.length < fuel from shorter) each remains
          refine handles.cons (fun _ => good) ?_ rfl tail
          rw [expected_cons [] blank]
          rfl

theorem failures_readLines (fuel : Nat) (reader : Reader) :
    ∃ later, (readLines fuel reader).failures = reader.failures ++ later := by
  induction fuel generalizing reader with
  | zero => exact ⟨[], (append_nil _).symm⟩
  | succ fuel ih =>
    rw [readLines]
    split
    · exact ⟨[], (append_nil _).symm⟩
    dsimp only
    split
    · exact ih _
    split
    · exact ih _
    · exact ⟨_, rfl⟩

theorem failures_foldl (failed : reader.failures ≠ [])
    (chunks : List (List Char)) : (chunks.foldl onData reader).failures ≠ [] := by
  induction chunks generalizing reader with
  | nil => exact failed
  | cons chunk chunks ih =>
    apply ih
    rw [onData]
    dsimp only
    split
    · exact append_ne_nil_of_left_ne_nil failed _
    · obtain ⟨later, kept⟩ := failures_readLines ((reader.buffer ++ chunk).length + 1)
        { reader with buffer := reader.buffer ++ chunk }
      rw [kept]
      exact append_ne_nil_of_left_ne_nil failed _

/-- From any reader without a failure the rest of the lines is framed exactly when the rest of
the chunks fits and every line is accepted. -/
theorem framed_from (chunks : List (List Char)) {lines : List (List Char)}
    (whole : ∀ line ∈ lines, '\n' ∉ line) (part : '\n' ∉ reader.buffer)
    (sound : reader.failures = []) (text : reader.buffer ++ chunks.flatten = unlines lines) :
    ((chunks.foldl onData reader).handled = reader.handled ++ expected lines ∧
        (chunks.foldl onData reader).failures = []) ↔ Fits reader.buffer chunks ∧
        ∀ line ∈ lines, lineOf line ≠ "" → accepts (lineOf line) = true := by
  induction chunks generalizing reader lines with
  | nil =>
    have none : lines = [] := by
      cases lines with
      | nil => rfl
      | cons line later =>
        rw [flatten_nil, append_nil] at text
        rw [text, unlines] at part
        exact absurd (mem_append_right _ mem_cons_self) part
    rw [none]
    exact iff_of_true ⟨(append_nil _).symm, sound⟩ ⟨trivial, by simp⟩
  | cons chunk chunks ih =>
    rw [foldl_cons, Fits]
    by_cases fits : utf16Length (String.ofList (reader.buffer ++ chunk)) ≤
        MAX_STDOUT_BUFFER_CHARS
    · let filled : Reader := { reader with buffer := reader.buffer ++ chunk }
      have step : onData reader chunk = readLines (filled.buffer.length + 1) filled := by
        rw [onData]
        exact if_neg (Nat.not_lt.mpr fits)
      have joined : filled.buffer ++ chunks.flatten = unlines lines := by
        rw [← text, flatten_cons, ← append_assoc]
      have handles := handles_readLines (filled.buffer.length + 1) (Nat.lt_succ_self _) whole
        joined
      rw [← step] at handles
      cases handles with
      | whole done later split good handled failures buffer part text =>
        have others := ih (fun line member => whole line
          (by rw [split]; exact mem_append_right _ member)) part
          (failures.trans sound) text
        rw [handled, buffer] at others
        rw [split, expected_append, ← append_assoc]
        refine others.trans ⟨?_, ?_⟩
        · rintro ⟨rest, accepted⟩
          refine ⟨⟨fits, rest⟩, fun line member => ?_⟩
          rcases mem_append.mp member with early | late
          · exact good line early
          · exact accepted line late
        · rintro ⟨⟨_, rest⟩, accepted⟩
          exact ⟨rest, fun line member => accepted line (mem_append_right _ member)⟩
      | failed failure failures unsound =>
        obtain ⟨line, member, solid, refused⟩ := unsound
        apply iff_of_false
        · rintro ⟨_, unfailed⟩
          exact failures_foldl (by rw [failures]; exact concat_ne_nil _ _) chunks unfailed
        · rintro ⟨_, accepted⟩
          rw [accepted line member solid] at refused
          cases refused
    · apply iff_of_false
      · rintro ⟨_, unfailed⟩
        refine failures_foldl ?_ chunks unfailed
        rw [onData]
        dsimp only
        rw [if_pos (Nat.not_le.mp fits)]
        exact concat_ne_nil _ _
      · exact fun both => fits both.1.1

theorem accepts_iff {line : String} (valid : (Json.parse line.toList).isSome = true) :
    accepts line = true ↔ Json.parse line.toList ≠ some .null := by
  rw [accepts]
  cases read : Json.parse line.toList with
  | none =>
    rw [read] at valid
    cases valid
  | some value =>
    cases value with
    | null => simp
    | _ => simp

/-- **Framing of a child's output.** Lines of valid JSON are handled once each, in order and
without a failure of the protocol, exactly when every chunk fits into the bound together with
the part of a line before it, and no line is `null`. -/
theorem framed_iff_fits (lines chunks : List (List Char)) (whole : ∀ line ∈ lines, '\n' ∉ line)
    (valid : ∀ line ∈ lines, lineOf line ≠ "" → (Json.parse (lineOf line).toList).isSome = true)
    (cut : chunks.flatten = unlines lines) :
    Framed lines chunks ↔ Fits [] chunks ∧
      ∀ line ∈ lines, lineOf line ≠ "" → Json.parse (lineOf line).toList ≠ some .null := by
  have framed : Framed lines chunks ↔ Fits [] chunks ∧
      ∀ line ∈ lines, lineOf line ≠ "" → accepts (lineOf line) = true :=
    framed_from chunks whole not_mem_nil rfl cut
  refine framed.trans (and_congr_right fun _ => ?_)
  refine forall_congr' fun line => forall_congr' fun member => forall_congr' fun solid => ?_
  exact accepts_iff (valid line member solid)

/-- Two lines that come in chunks of their own are framed. -/
theorem framed_iff_fits_two : Framed ["\x7b\x7d".toList, "[1]".toList]
    ["\x7b\x7d\n".toList, "[1]\n".toList] := by
  have kinds : ∀ line ∈ ["\x7b\x7d".toList, "[1]".toList],
      (Json.parse (lineOf line).toList).map Json.kind ≠ some .null := by decide +kernel
  refine (framed_iff_fits ["\x7b\x7d".toList, "[1]".toList]
    ["\x7b\x7d\n".toList, "[1]\n".toList] (by decide) (by decide +kernel) (by decide)).mpr
    ⟨by decide +kernel, ?_⟩
  intro line member _ same
  exact kinds line member (by rw [same]; rfl)

/-- A line that holds a number and white space behind it. -/
def spacedOne (spaces : Nat) : List Char := '1' :: replicate spaces ' '

variable (spaces : Nat)

theorem utf16Length_spacedOne : utf16Length (String.ofList (spacedOne spaces)) = spaces + 1 := by
  have digit : (utf16Units '1').length = 1 := by decide
  have space : (utf16Units ' ').length = 1 := by decide
  rw [utf16Length_ofList, spacedOne, map_cons, map_replicate, sum_cons,
    sum_replicate_nat, digit, space, Nat.mul_one, Nat.add_comm]

theorem lineOf_spacedOne : lineOf (spacedOne spaces) = "1" := by
  have blank : ∀ char ∈ replicate spaces ' ', isTrimmed char = true := by
    intro char member
    rw [eq_of_mem_replicate member]
    rfl
  rw [lineOf, trim, String.toList_ofList, spacedOne, dropWhile_cons_of_neg (by decide),
    reverse_cons, reverse_replicate, dropWhile_append_of_pos blank]
  rfl

theorem single_spacedOne : '\n' ∉ spacedOne spaces := by
  rw [spacedOne, mem_cons, not_or]
  exact ⟨by decide, fun member => absurd (eq_of_mem_replicate member) (by decide)⟩

theorem utf16Length_two :
    utf16Length (String.ofList (unlines [spacedOne spaces, spacedOne spaces])) =
      2 * spaces + 4 := by
  have line := utf16Length_spacedOne spaces
  have feed : (utf16Units '\n').length = 1 := by decide
  rw [utf16Length_ofList] at line ⊢
  simp only [unlines, map_append, map_cons, map_nil, sum_append, sum_cons, sum_nil, line, feed]
  omega

/-- Two lines in one chunk that is longer than the bound break the protocol. -/
theorem not_framed_two {spaces : Nat} (long : MAX_STDOUT_BUFFER_CHARS < 2 * spaces + 4) :
    ¬ Framed [spacedOne spaces, spacedOne spaces]
      [unlines [spacedOne spaces, spacedOne spaces]] := by
  intro framed
  have failures := framed.2
  rw [foldl_cons, foldl_nil, onData] at failures
  dsimp only at failures
  rw [nil_append, utf16Length_two, if_pos long] at failures
  cases failures

/-- Two lines of half the bound that come in one chunk break the protocol. -/
theorem halfLines_not_framed :
    ¬ ∀ lines chunks : List (List Char), (∀ line ∈ lines, '\n' ∉ line ∧
        Text.utf16Length (String.ofList line) ≤ MAX_STDOUT_BUFFER_CHARS ∧
        (lineOf line ≠ "" → (Json.parse (lineOf line).toList).isSome = true)) →
      chunks.flatten = unlines lines → Framed lines chunks := by
  intro framed
  obtain ⟨spaces, half⟩ : ∃ spaces, spaces = 524288 := ⟨_, rfl⟩
  have valid : (Json.parse "1".toList).isSome = true := by decide +kernel
  have long : MAX_STDOUT_BUFFER_CHARS < 2 * spaces + 4 := by
    rw [half, MAX_STDOUT_BUFFER_CHARS]
    decide
  apply not_framed_two long
  apply framed
  · intro line member
    rw [mem_cons, mem_singleton, or_self] at member
    rw [member, utf16Length_spacedOne, lineOf_spacedOne, half, MAX_STDOUT_BUFFER_CHARS]
    exact ⟨single_spacedOne _, by decide, fun _ => valid⟩
  · rw [flatten_cons, flatten_nil, append_nil]

end Stdout
end Recode.Orchestrator

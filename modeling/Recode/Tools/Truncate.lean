import Recode.Lib.Utf8

/-! # Truncation of tool outputs

The end of an output within a line limit and a byte limit. The lines are
collected from the last one backwards, and a last line that is too long by
itself is cut at a character. -/

namespace Recode.Tools

open Utf8 List

def DEFAULT_MAX_LINES : Nat := 2000

def DEFAULT_MAX_BYTES : Nat := 50 * 1024

/-- The limit that was hit. -/
inductive Limit
  | lines
  | bytes
deriving DecidableEq

structure TruncationResult where
  content : List Char
  truncated : Bool
  truncatedBy : Option Limit
  totalLines : Nat
  totalBytes : Nat
  outputLines : Nat
  outputBytes : Nat
  lastLinePartial : Bool
  firstLineExceedsLimit : Bool
  maxLines : Nat
  maxBytes : Nat
deriving DecidableEq

structure TruncationOptions where
  maxLines : Option Nat := none
  maxBytes : Option Nat := none

/-- The lines of a content. A final newline starts no further line. -/
def splitLinesForCounting (content : List Char) : List (List Char) :=
  if content.length = 0 then []
  else if content.getLast? = some '\n' then (content.splitOn '\n').dropLast
  else content.splitOn '\n'

/-- The end of a text within a number of bytes, from a character on. -/
def truncateStringToBytesFromEnd (str : List Char) (maxBytes : Nat) : List Char :=
  let buf := encode str
  if buf.length ≤ maxBytes then str
  else decode (buf.drop (characterStart buf (buf.length - maxBytes)))

/-- What the walk over the lines has collected. -/
structure Collected where
  outputLinesArr : List (List Char) := []
  outputBytesCount : Nat := 0
  truncatedBy : Limit := .lines
  lastLinePartial : Bool := false
deriving DecidableEq

/-- The walk over the lines, the last line first. -/
def collectFromEnd (maxLines maxBytes : Nat) : List (List Char) → Collected → Collected
  | [], collected => collected
  | line :: before, collected =>
    if collected.outputLinesArr.length < maxLines then
      let lineBytes := byteLength line + if collected.outputLinesArr.length > 0 then 1 else 0
      if collected.outputBytesCount + lineBytes > maxBytes then
        if collected.outputLinesArr.length = 0 then
          let truncatedLine := truncateStringToBytesFromEnd line maxBytes
          { outputLinesArr := truncatedLine :: collected.outputLinesArr
            outputBytesCount := byteLength truncatedLine
            truncatedBy := .bytes
            lastLinePartial := true }
        else { collected with truncatedBy := .bytes }
      else
        collectFromEnd maxLines maxBytes before
          { collected with
            outputLinesArr := line :: collected.outputLinesArr
            outputBytesCount := collected.outputBytesCount + lineBytes }
    else collected

def truncateTail (content : List Char) (options : TruncationOptions) : TruncationResult :=
  let maxLines := options.maxLines.getD DEFAULT_MAX_LINES
  let maxBytes := options.maxBytes.getD DEFAULT_MAX_BYTES
  let totalBytes := byteLength content
  let lines := splitLinesForCounting content
  let totalLines := lines.length
  if totalLines ≤ maxLines ∧ totalBytes ≤ maxBytes then
    { content := content
      truncated := false
      truncatedBy := none
      totalLines := totalLines
      totalBytes := totalBytes
      outputLines := totalLines
      outputBytes := totalBytes
      lastLinePartial := false
      firstLineExceedsLimit := false
      maxLines := maxLines
      maxBytes := maxBytes }
  else
    let collected := collectFromEnd maxLines maxBytes lines.reverse {}
    let truncatedBy :=
      if collected.outputLinesArr.length ≥ maxLines ∧ collected.outputBytesCount ≤ maxBytes then
        .lines
      else collected.truncatedBy
    let outputContent := ['\n'].intercalate collected.outputLinesArr
    { content := outputContent
      truncated := true
      truncatedBy := some truncatedBy
      totalLines := totalLines
      totalBytes := totalBytes
      outputLines := collected.outputLinesArr.length
      outputBytes := byteLength outputContent
      lastLinePartial := collected.lastLinePartial
      firstLineExceedsLimit := false
      maxLines := maxLines
      maxBytes := maxBytes }

theorem length_splitOn (content : List Char) :
    (content.splitOn '\n').length = content.count '\n' + 1 := by
  induction content with
  | nil => rfl
  | cons char content ih =>
    rw [splitOn_cons_eq_if_modifyHead]
    by_cases newline : char = '\n'
    · rw [newline, count_cons_self, if_pos BEq.rfl, length_cons, ih]
    · rw [count_cons_of_ne newline, if_neg (by simpa using newline), length_modifyHead, ih]

variable {before : List (List Char)} (front : List Char)

theorem splitOn_append_line {line : List Char} (single : '\n' ∉ line) :
    ∃ before last, (front ++ line).splitOn '\n' = before ++ [last ++ line] := by
  induction front with
  | nil => exact ⟨[], [], by rw [nil_append, splitOn_eq_singleton single]; rfl⟩
  | cons char front ih =>
    obtain ⟨before, last, lines⟩ := ih
    rw [cons_append, splitOn_cons_eq_if_modifyHead, lines]
    by_cases newline : char = '\n'
    · exact ⟨[] :: before, last, by rw [newline, if_pos BEq.rfl]; rfl⟩
    · rw [if_neg (by simpa using newline)]
      cases before with
      | nil => exact ⟨[], char :: last, rfl⟩
      | cons first before => exact ⟨(char :: first) :: before, last, rfl⟩

abbrev joined (lines : List (List Char)) : List Char :=
  ['\n'].intercalate lines

theorem splitLines_nil : splitLinesForCounting [] = [] := rfl

theorem splitLines_append (front back : List Char) :
    splitLinesForCounting (front ++ '\n' :: back) =
      front.splitOn '\n' ++ splitLinesForCounting back := by
  have long : (front ++ '\n' :: back).length ≠ 0 := by simp
  rw [splitLinesForCounting, if_neg long, splitOn_append_cons_self]
  cases back with
  | nil =>
    rw [if_pos (by simp), splitOn_nil, dropLast_concat, splitLines_nil, append_nil]
  | cons char back =>
    have last : (front ++ '\n' :: char :: back).getLast? = (char :: back).getLast? := by
      rw [getLast?_append_of_ne_nil _ (cons_ne_nil _ _), getLast?_cons_cons]
    have nonempty : (char :: back).length ≠ 0 := by simp
    rw [last, splitLinesForCounting, if_neg nonempty]
    split
    · rw [dropLast_append_of_ne_nil (splitOn_ne_nil _ _)]
    · rfl

variable {content : List Char} {collected : Collected}

theorem splitLines_open (nonempty : content ≠ []) (opened : content.getLast? ≠ some '\n') :
    splitLinesForCounting content = content.splitOn '\n' := by
  have long : content.length ≠ 0 := fun none => nonempty (length_eq_zero_iff.mp none)
  rw [splitLinesForCounting, if_neg long, if_neg opened]

theorem finished_eq (finished : content.getLast? = some '\n') :
    content = content.dropLast ++ ['\n'] :=
  (dropLast_append_getLast? '\n' finished).symm

/-- The number of lines: the newlines, and one more for an open last line. -/
theorem length_splitLines (content : List Char) :
    (splitLinesForCounting content).length = content.count '\n' +
      if content ≠ [] ∧ content.getLast? ≠ some '\n' then 1 else 0 := by
  by_cases finished : content.getLast? = some '\n'
  · rw [if_neg fun opened => opened.2 finished, finished_eq finished, splitLines_append,
      splitLines_nil, append_nil, length_splitOn, count_append]
    rfl
  · by_cases empty : content = []
    · rw [empty]
      rfl
    · rw [splitLines_open empty finished, length_splitOn, if_pos ⟨empty, finished⟩]

/-- Joining the lines gives the content back, less a final newline. -/
theorem joined_splitLines (content : List Char) :
    joined (splitLinesForCounting content) =
      if content.getLast? = some '\n' then content.dropLast else content := by
  by_cases finished : content.getLast? = some '\n'
  · rw [if_pos finished]
    conv_lhs => rw [finished_eq finished, splitLines_append, splitLines_nil, append_nil]
    exact intercalate_splitOn '\n'
  rw [if_neg finished]
  by_cases empty : content = []
  · rw [empty]
    rfl
  · rw [splitLines_open empty finished]
    exact intercalate_splitOn '\n'

theorem byteLength_joined_splitLines (content : List Char) :
    byteLength (joined (splitLinesForCounting content)) +
      (if content.getLast? = some '\n' then 1 else 0) = byteLength content := by
  rw [joined_splitLines]
  by_cases finished : content.getLast? = some '\n'
  · have size : byteLength content = byteLength content.dropLast + 1 := by
      conv_lhs => rw [finished_eq finished]
      rw [byteLength_append]
      rfl
    rw [if_pos finished, if_pos finished, size]
  · rw [if_neg finished, if_neg finished]
    rfl

theorem byteLength_joined_cons (line : List Char) (lines : List (List Char)) :
    byteLength (joined (line :: lines)) =
      byteLength (joined lines) + (byteLength line + if lines.length > 0 then 1 else 0) := by
  cases lines with
  | nil =>
    rw [joined, intercalate_singleton]
    exact (Nat.zero_add _).symm
  | cons next lines =>
    rw [joined, intercalate_cons_cons, byteLength_append, byteLength_append]
    change byteLength line + 1 + byteLength (joined (next :: lines)) = _
    have more : (next :: lines).length > 0 := Nat.zero_lt_succ _
    rw [if_pos more]
    omega

theorem byteLength_joined_append (before lines : List (List Char)) :
    byteLength (joined lines) ≤ byteLength (joined (before ++ lines)) := by
  induction before with
  | nil => exact Nat.le_refl _
  | cons line before ih =>
    rw [cons_append, byteLength_joined_cons]
    omega

def Collected.Accounted (collected : Collected) : Prop :=
  collected.outputBytesCount = byteLength (joined collected.outputLinesArr)

theorem accounted_empty : Collected.Accounted {} := rfl

abbrev Collected.add (collected : Collected) (line : List Char) : Collected :=
  { collected with
    outputLinesArr := line :: collected.outputLinesArr
    outputBytesCount := collected.outputBytesCount +
      (byteLength line + if collected.outputLinesArr.length > 0 then 1 else 0) }

theorem Collected.Accounted.add (accounted : collected.Accounted)
    (line : List Char) : (collected.add line).Accounted := by
  rw [Collected.Accounted, byteLength_joined_cons]
  exact congrArg (· + _) accounted

variable {maxLines maxBytes : Nat}

theorem collect_add {line : List Char} (room : collected.outputLinesArr.length < maxLines)
    (fits : (collected.add line).outputBytesCount ≤ maxBytes) :
    collectFromEnd maxLines maxBytes (line :: before) collected =
      collectFromEnd maxLines maxBytes before (collected.add line) := by
  rw [collectFromEnd, if_pos room]
  exact if_neg (Nat.not_lt.mpr fits)

theorem collect_all (lines before : List (List Char)) {collected : Collected}
    (accounted : collected.Accounted)
    (few : collected.outputLinesArr.length + lines.length ≤ maxLines)
    (short : byteLength (joined (lines.reverse ++ collected.outputLinesArr)) ≤ maxBytes) :
    collectFromEnd maxLines maxBytes (lines ++ before) collected =
      collectFromEnd maxLines maxBytes before
        { collected with
          outputLinesArr := lines.reverse ++ collected.outputLinesArr
          outputBytesCount :=
            byteLength (joined (lines.reverse ++ collected.outputLinesArr)) } := by
  induction lines generalizing collected with
  | nil =>
    rw [reverse_nil, nil_append, nil_append, ← accounted]
  | cons line lines ih =>
    have added := accounted.add line
    rw [reverse_cons, append_assoc, singleton_append] at short
    have fits := Nat.le_trans (byteLength_joined_append lines.reverse _) short
    rw [length_cons] at few
    rw [cons_append, collect_add (by omega) (by rw [added]; exact fits),
      ih added (by rw [length_cons]; omega) short, reverse_cons, append_assoc,
      singleton_append]

/-- When the lines exceed a limit, no line before them is looked at. -/
theorem collect_stops (lines before : List (List Char)) {collected : Collected}
    (accounted : collected.Accounted) (few : collected.outputLinesArr.length ≤ maxLines)
    (short : collected.outputBytesCount ≤ maxBytes)
    (exceeds : maxLines < collected.outputLinesArr.length + lines.length ∨
      maxBytes < byteLength (joined (lines.reverse ++ collected.outputLinesArr))) :
    collectFromEnd maxLines maxBytes (lines ++ before) collected =
      collectFromEnd maxLines maxBytes lines collected := by
  induction lines generalizing collected with
  | nil =>
    rw [length_nil, reverse_nil, nil_append, ← accounted] at exceeds
    omega
  | cons line lines ih =>
    by_cases room : collected.outputLinesArr.length < maxLines
    · by_cases fits : (collected.add line).outputBytesCount ≤ maxBytes
      · rw [reverse_cons, append_assoc, singleton_append, length_cons]
          at exceeds
        rw [cons_append, collect_add room fits, collect_add room fits]
        apply ih (accounted.add line) (by rw [length_cons]; omega) fits
        rw [length_cons]
        exact exceeds.imp_left fun many => by omega
      · have exceeded := Nat.lt_of_not_le fits
        rw [cons_append, collectFromEnd, collectFromEnd, if_pos room, if_pos room]
        exact (if_pos exceeded).trans (if_pos exceeded).symm
    · rw [cons_append, collectFromEnd, collectFromEnd, if_neg room, if_neg room]

/-- A line that exceeds a limit ends the walk. Unless it is the only one, the lines
collected so far are the result. -/
theorem collect_ends (before : List (List Char)) (some_line : collected.outputLinesArr ≠ [])
    (exceeds : ∀ line ∈ before.head?, maxLines ≤ collected.outputLinesArr.length ∨
      maxBytes < (collected.add line).outputBytesCount) :
    (collectFromEnd maxLines maxBytes before collected).outputLinesArr = collected.outputLinesArr ∧
      (collectFromEnd maxLines maxBytes before collected).lastLinePartial =
        collected.lastLinePartial := by
  have nonzero : collected.outputLinesArr.length ≠ 0 :=
    fun none => some_line (length_eq_zero_iff.mp none)
  cases before with
  | nil => exact ⟨rfl, rfl⟩
  | cons line before =>
    rw [collectFromEnd]
    by_cases room : collected.outputLinesArr.length < maxLines
    · have exceeded : collected.outputBytesCount +
          (byteLength line + if collected.outputLinesArr.length > 0 then 1 else 0) > maxBytes :=
        (exceeds line rfl).resolve_left (Nat.not_le.mpr room)
      rw [if_pos room]
      simp only [exceeded, if_true, nonzero, if_false, and_self]
    · rw [if_neg room]
      exact ⟨rfl, rfl⟩

/-- Lines within both limits are the result when one more line exceeds a limit. -/
theorem collect_fits {lines : List (List Char)} (before : List (List Char)) (some_line : lines ≠ [])
    (few : lines.length ≤ maxLines) (short : byteLength (joined lines) ≤ maxBytes)
    (exceeds : ∀ line ∈ before.head?, maxLines ≤ lines.length ∨
      maxBytes < byteLength (joined lines) + (byteLength line + 1)) :
    (collectFromEnd maxLines maxBytes (lines.reverse ++ before) {}).outputLinesArr = lines ∧
      (collectFromEnd maxLines maxBytes (lines.reverse ++ before) {}).lastLinePartial = false := by
  have positive : lines.length > 0 := length_pos_iff.mpr some_line
  rw [collect_all lines.reverse before accounted_empty]
  · simp only [reverse_reverse, append_nil]
    apply collect_ends before some_line
    intro line first
    rw [Collected.add]
    simp only [positive, if_true]
    exact exceeds line first
  · rw [length_reverse]
    change 0 + lines.length ≤ maxLines
    omega
  · rw [reverse_reverse, append_nil]
    exact short

theorem splitLines_ne_nil (nonempty : content ≠ []) : splitLinesForCounting content ≠ [] := by
  by_cases finished : content.getLast? = some '\n'
  · rw [finished_eq finished, splitLines_append, splitLines_nil, append_nil]
    exact splitOn_ne_nil _ _
  · rw [splitLines_open nonempty finished]
    exact splitOn_ne_nil _ _

abbrev limits (maxLines maxBytes : Nat) : TruncationOptions :=
  { maxLines := some maxLines, maxBytes := some maxBytes }

def TruncationResult.shown (result : TruncationResult) : List Char × Nat × Bool :=
  (result.content, result.outputLines, result.lastLinePartial)

def Exceeds (maxLines maxBytes : Nat) (content : List Char) : Prop :=
  maxLines < (splitLinesForCounting content).length ∨ maxBytes < byteLength content

theorem truncateTail_fits (fits : ¬ Exceeds maxLines maxBytes content) :
    (truncateTail content (limits maxLines maxBytes)).shown =
      (content, (splitLinesForCounting content).length, false) := by
  rw [Exceeds, not_or, Nat.not_lt, Nat.not_lt] at fits
  rw [truncateTail]
  simp only [Option.getD_some, fits, and_self, if_true]
  rfl

theorem truncateTail_exceeds (exceeds : Exceeds maxLines maxBytes content) :
    (truncateTail content (limits maxLines maxBytes)).shown =
      let collected :=
        collectFromEnd maxLines maxBytes (splitLinesForCounting content).reverse {}
      (joined collected.outputLinesArr, collected.outputLinesArr.length,
        collected.lastLinePartial) := by
  have outside : ¬ ((splitLinesForCounting content).length ≤ maxLines ∧
      byteLength content ≤ maxBytes) := by
    rw [Exceeds] at exceeds
    omega
  rw [truncateTail]
  simp only [Option.getD_some, outside, if_false]
  rfl

/-- When the end of a content exceeds a limit by itself, what is before it does not
matter. -/
theorem truncateTail_append {back : List Char} (exceeds : Exceeds maxLines maxBytes back) :
    (truncateTail (front ++ '\n' :: back) (limits maxLines maxBytes)).shown =
      (truncateTail back (limits maxLines maxBytes)).shown := by
  have whole : Exceeds maxLines maxBytes (front ++ '\n' :: back) := by
    rw [Exceeds, splitLines_append, length_append, byteLength_append, byteLength_cons]
    exact exceeds.imp (fun many => by omega) fun long => by omega
  rw [truncateTail_exceeds whole, truncateTail_exceeds exceeds, splitLines_append, reverse_append]
  have bytes := byteLength_joined_splitLines back
  have nonempty : back ≠ [] := by
    rintro rfl
    rcases exceeds with many | long
    · exact Nat.not_lt_zero _ many
    · exact Nat.not_lt_zero _ long
  have some_line := splitLines_ne_nil nonempty
  rw [Exceeds] at exceeds
  generalize splitLinesForCounting back = lines at *
  by_cases stops : maxLines < lines.length ∨ maxBytes < byteLength (joined lines)
  · rw [collect_stops lines.reverse _ accounted_empty (Nat.zero_le _) (Nat.zero_le _)]
    rw [length_reverse, reverse_reverse, append_nil]
    change maxLines < 0 + lines.length ∨ _
    rw [Nat.zero_add]
    exact stops
  · rw [not_or, Nat.not_lt, Nat.not_lt] at stops
    obtain ⟨few, short⟩ := stops
    -- Only a final newline makes the text too long, so the lines use the limit up.
    have full : maxBytes ≤ byteLength (joined lines) := by
      split at bytes <;> omega
    obtain ⟨arr, part⟩ := collect_fits (front.splitOn '\n').reverse some_line few short
      fun line _ => Or.inr (by omega)
    obtain ⟨arr', part'⟩ := collect_fits [] some_line few short (by simp)
    rw [append_nil] at arr' part'
    simp only [arr, arr', part, part']

/-- When the end of a content is within the limits and the line before it does not
fit any more, the lines of the end are shown. -/
theorem truncateTail_lines {content back line : List Char} (lines : splitLinesForCounting content =
      before ++ [line] ++ splitLinesForCounting back)
    (exceeds : Exceeds maxLines maxBytes content) (fits : ¬ Exceeds maxLines maxBytes back)
    (nonempty : back ≠ [])
    (long : maxBytes < byteLength (joined (splitLinesForCounting back)) + (byteLength line + 1)) :
    (truncateTail content (limits maxLines maxBytes)).shown =
      (joined (splitLinesForCounting back), (splitLinesForCounting back).length, false) := by
  have bytes := byteLength_joined_splitLines back
  rw [Exceeds, not_or, Nat.not_lt, Nat.not_lt] at fits
  have reversed : (splitLinesForCounting content).reverse =
      (splitLinesForCounting back).reverse ++ line :: before.reverse := by
    rw [lines, reverse_append, reverse_append]
    rfl
  obtain ⟨arr, part⟩ := collect_fits (line :: before.reverse) (splitLines_ne_nil nonempty) fits.1
    (by omega : byteLength (joined (splitLinesForCounting back)) ≤ maxBytes)
    fun other same => Or.inr (by cases same; exact long)
  rw [truncateTail_exceeds exceeds, reversed]
  simp only [arr, part]

theorem truncateTail_longLine {content line : List Char}
    (lines : splitLinesForCounting content = before ++ [line])
    (exceeds : Exceeds maxLines maxBytes content) (room : 0 < maxLines)
    (long : maxBytes < byteLength line) :
    (truncateTail content (limits maxLines maxBytes)).shown =
      (truncateStringToBytesFromEnd line maxBytes, 1, true) := by
  have reversed : (splitLinesForCounting content).reverse = line :: before.reverse := by
    rw [lines, reverse_append]
    rfl
  have collected : collectFromEnd maxLines maxBytes (line :: before.reverse) {} =
      { outputLinesArr := [truncateStringToBytesFromEnd line maxBytes]
        outputBytesCount := byteLength (truncateStringToBytesFromEnd line maxBytes)
        truncatedBy := .bytes
        lastLinePartial := true } := by
    have exceeded : 0 + (byteLength line + 0) > maxBytes := by omega
    rw [collectFromEnd]
    exact (if_pos room).trans (if_pos exceeded)
  rw [truncateTail_exceeds exceeds, reversed, collected]
  simp only [joined, intercalate_singleton]
  rfl

theorem truncateString_append {back : List Char} (long : maxBytes < byteLength back) :
    truncateStringToBytesFromEnd (front ++ back) maxBytes =
      truncateStringToBytesFromEnd back maxBytes := by
  have start : (encode (front ++ back)).length - maxBytes =
      (encode front).length + ((encode back).length - maxBytes) := by
    rw [encode_append, length_append, length_encode, length_encode]
    omega
  have cut : ¬ (encode back).length ≤ maxBytes := by
    rw [length_encode]
    omega
  have cut_all : ¬ (encode (front ++ back)).length ≤ maxBytes := by
    rw [encode_append, length_append]
    omega
  rw [truncateStringToBytesFromEnd, truncateStringToBytesFromEnd]
  simp only [cut, cut_all, if_false, start]
  rw [encode_append, drop_characterStart_append]

end Recode.Tools

import Recode.Tools.TextTruncation

/-! # What truncation keeps

Both ends of a string are cut to as many whole lines as the limits allow. Only a last line that
is too long by itself is cut to whole characters. -/

namespace Recode.TextTruncation

open List Option Utf16 Lines

open Utf16 (characters character isHigh isLow isPair)
open Tools (Limit TruncationOptions)

/-! ## Counting bytes -/

theorem isHigh_newline : isHigh newline = false := rfl

theorem isLow_newline : isLow newline = false := rfl

theorem additive : Lines.Additive newline byteLength where
  nil := rfl
  append front back := by
    have before : Apart front (newline :: back) :=
      apart_of_not_low fun head starts => by
        cases starts
        exact isLow_newline
    have after : Apart [newline] back :=
      apart_of_not_high fun last ends => by
        cases ends
        exact isHigh_newline
    rw [byteLength_append before, ← singleton_append, byteLength_append after, ← Nat.add_assoc]
    rfl

variable {first second : UInt16}

theorem byteLength_pair (pair : isPair first second = true) (string : List UInt16) :
    byteLength (first :: second :: string) = 4 + byteLength string := by
  rw [byteLength, decode, characters, if_pos pair, map_cons,
    Utf8.byteLength_cons, utf8Size_pair pair]
  rfl

variable {string : List UInt16}

theorem byteLength_unit {unit : UInt16} (apart : Apart [unit] string) :
    byteLength (unit :: string) = Harness.unitBytes unit + byteLength string := by
  rw [byteLength, decode, characters_cons_of_apart apart, map_cons,
    Utf8.byteLength_cons, utf8Size_single]
  rfl

theorem apart_of_not_pair
    (alone : isPair first second = false) : Apart [first] (second :: string) := by
  intro last head ends starts
  cases ends
  cases starts
  exact alone

/-- A string as it is written: what is not a character becomes the replacement character. -/
def wellFormed (string : List UInt16) : List UInt16 := encode (decode string)

theorem wellFormed_unit {code : UInt16} (apart : Apart [code] string) :
    wellFormed (code :: string) =
      (if isHigh code || isLow code then [0xFFFD] else [code]) ++ wellFormed string := by
  rw [wellFormed, decode, characters_cons_of_apart apart, map_cons, encode,
    flatMap_cons]
  cases lone : (isHigh code || isLow code) with
  | true =>
    rw [character, lone]
    rfl
  | false =>
    rw [units_single lone]
    rfl

theorem wellFormed_pair (pair : isPair first second = true) (string : List UInt16) :
    wellFormed (first :: second :: string) = first :: second :: wellFormed string := by
  rw [wellFormed, decode, characters, if_pos pair, map_cons, encode,
    flatMap_cons, units_pair pair]
  rfl

/-- The longest end of whole characters within a number of bytes. -/
structure LongestEnd (maxBytes : Nat) (string front back : List UInt16) : Prop where
  split : string = front ++ back
  apart : Apart front back
  fits : byteLength back ≤ maxBytes
  longest : ∀ last, (characters front).getLast? = some last →
    maxBytes < (character last).utf8Size + byteLength back

namespace Harness

/-- What the loop adds for a unit that is not half of a pair. -/
theorem unitBytes_eq (code : UInt16) :
    unitBytes code = if code.toNat ≤ 0x7F then 1 else if code.toNat ≤ 0x7FF then 2 else 3 := by
  rw [unitBytes]
  split
  · rename_i lone
    simp only [isHigh, isLow, Bool.or_eq_true, Bool.and_eq_true, decide_eq_true_eq] at lone
    rw [if_neg (by omega), if_neg (by omega)]
  · rfl

variable {remaining : List UInt16} {code : UInt16}

theorem countBytes_unit {string : List UInt16} (apart : Apart [code] string) (bytes : Nat) :
    countBytes (code :: string) bytes = countBytes string (bytes + unitBytes code) := by
  rw [unitBytes_eq]
  cases string with
  | nil =>
    simp only [countBytes]
    split_ifs <;> rfl
  | cons next string =>
    have alone : isPair code next = false := apart code next rfl rfl
    simp only [countBytes]
    split_ifs with ascii two high low
    · rfl
    · rfl
    · rw [isPair, high, low] at alone
      cases alone
    · rfl
    · rfl

theorem countBytes_pair {first second : UInt16} (pair : isPair first second = true)
    (string : List UInt16) (bytes : Nat) :
    countBytes (first :: second :: string) bytes = countBytes string (bytes + 4) := by
  have parts := Bool.and_eq_true_iff.mp pair
  have high := parts.1
  rw [isHigh, Bool.and_eq_true, decide_eq_true_eq] at high
  rw [countBytes, if_neg (by omega), if_neg (by omega), if_pos parts.1, if_pos parts.2]

variable (string : List UInt16) {maxBytes : Nat} {taken : Taken}

theorem countBytes_eq (bytes : Nat) :
    countBytes string bytes = bytes + byteLength string := by
  induction string using characters_induction generalizing bytes with
  | empty => rfl
  | single unit =>
    have apart : Apart [unit] [] := nofun
    rw [countBytes_unit apart, byteLength_unit apart]
    rfl
  | pair first second string pair ih =>
    rw [countBytes_pair pair, byteLength_pair pair, ih, Nat.add_assoc]
  | alone first second string alone ih =>
    have apart : Apart [first] (second :: string) :=
      apart_of_not_pair (Bool.not_eq_true _ ▸ alone)
    rw [countBytes_unit apart, byteLength_unit apart, ih, Nat.add_assoc]

theorem byteLength_ascii {string : List UInt16}
    (ascii : ∀ code ∈ string, ¬ 0x7F < code.toNat) (rest : List UInt16) :
    byteLength (string ++ rest) = string.length + byteLength rest := by
  induction string with
  | nil => rw [nil_append, length_nil, Nat.zero_add]
  | cons code string ih =>
    have small := Nat.not_lt.mp (ascii code mem_cons_self)
    have apart : Apart [code] (string ++ rest) :=
      apart_of_not_high fun last ends => by
        obtain rfl : code = last := by simpa using ends
        rw [isHigh, Bool.and_eq_false_iff, decide_eq_false_iff_not]
        omega
    rw [cons_append, byteLength_unit apart, unitBytes_eq, if_pos small, length_cons,
      ih fun code member => ascii code (mem_cons_of_mem _ member)]
    omega

theorem utf8ByteLength_eq (runtimeBuffer : Bool) :
    utf8ByteLength runtimeBuffer = byteLength := by
  funext content
  rw [utf8ByteLength]
  split
  · rfl
  split
  · rename_i found
    rw [findIdx?_eq_none_iff] at found
    have ascii := byteLength_ascii (fun code member => of_decide_eq_false (found code member)) []
    rw [append_nil] at ascii
    rw [ascii]
    rfl
  · rename_i index found
    obtain ⟨inside, -, before⟩ := findIdx?_eq_some_iff_getElem.mp found
    have ascii : ∀ code ∈ content.take index, ¬ 0x7F < code.toNat := by
      intro code member
      obtain ⟨place, small, rfl⟩ := getElem_of_mem member
      rw [length_take] at small
      rw [getElem_take]
      have := before place (by omega)
      simpa using this
    have whole := byteLength_ascii ascii (content.drop index)
    rw [take_append_drop, length_take, Nat.min_eq_left (by omega)] at whole
    rw [countBytes_eq, whole]

/-! ## Cutting a line to its end -/

theorem replaceUnpairedSurrogates_unit {string : List UInt16} (apart : Apart [code] string) :
    replaceUnpairedSurrogates (code :: string) =
      (if isHigh code || isLow code then [0xFFFD] else [code]) ++
        replaceUnpairedSurrogates string := by
  cases string with
  | nil =>
    rw [replaceUnpairedSurrogates, replaceUnpairedSurrogates, append_nil]
  | cons next string =>
    have alone : isPair code next = false := apart code next rfl rfl
    rw [replaceUnpairedSurrogates]
    cases high : isHigh code with
    | true =>
      rw [isPair, high, Bool.true_and] at alone
      rw [alone]
      rfl
    | false =>
      cases low : isLow code <;> rfl

theorem replaceUnpairedSurrogates_eq :
    replaceUnpairedSurrogates string = wellFormed string := by
  induction string using characters_induction with
  | empty => rfl
  | single unit =>
    have apart : Apart [unit] [] := nofun
    rw [replaceUnpairedSurrogates_unit apart, wellFormed_unit apart]
    rfl
  | pair first second string pair ih =>
    have parts := Bool.and_eq_true_iff.mp pair
    rw [replaceUnpairedSurrogates, if_pos parts.1, if_pos parts.2, wellFormed_pair pair, ih]
  | alone first second string alone ih =>
    have apart : Apart [first] (second :: string) :=
      apart_of_not_pair (Bool.not_eq_true _ ▸ alone)
    rw [replaceUnpairedSurrogates_unit apart, wellFormed_unit apart, ih]

/-- What is taken so far. -/
structure Taken.Sound (taken : Taken) (maxBytes : Nat) (remaining : List UInt16) : Prop where
  apart : Apart remaining.reverse taken.output
  accounted : taken.outputBytes = byteLength taken.output
  fits : taken.outputBytes ≤ maxBytes
  replaced : taken.needsReplacement = false → wellFormed taken.output = taken.output

/-- Where the loop stops on a character that does not fit. -/
theorem longestEnd_of_stop {remaining before last : List UInt16}
    (sound : taken.Sound maxBytes remaining) (split : remaining.reverse = before ++ last)
    (apart : Apart before last) (one : characters last = [last])
    (exceeds : maxBytes < (character last).utf8Size + taken.outputBytes) :
    LongestEnd maxBytes (remaining.reverse ++ taken.output) remaining.reverse taken.output := by
  refine ⟨rfl, sound.apart, sound.accounted ▸ sound.fits, fun other ends => ?_⟩
  rw [split, characters_append apart, one, getLast?_concat, some_inj] at ends
  rw [← ends, ← sound.accounted]
  exact exceeds

theorem Taken.Sound.unit {maxBytes : Nat} (sound : taken.Sound maxBytes (code :: remaining))
    (apart : Apart remaining.reverse [code])
    (fits : (taken.unit code).outputBytes ≤ maxBytes) :
    (taken.unit code).Sound maxBytes remaining := by
  have apart' : Apart [code] taken.output := fun last head ends starts => by
    refine sound.apart last head ?_ starts
    rw [reverse_cons, getLast?_concat]
    simpa using ends
  refine ⟨fun last head ends starts => apart last head ends starts, ?_, fits, fun same => ?_⟩
  · rw [Taken.unit, sound.accounted]
    exact (Nat.add_comm _ _).trans (byteLength_unit apart').symm
  · obtain ⟨before, plain⟩ := Bool.or_eq_false_iff.mp same
    change wellFormed (code :: taken.output) = code :: taken.output
    rw [wellFormed_unit apart', plain, if_neg Bool.false_ne_true, sound.replaced before]
    rfl

theorem Taken.Sound.pair {maxBytes : Nat} {previous code : UInt16}
    (sound : taken.Sound maxBytes (code :: previous :: remaining))
    (pair : isPair previous code = true) (fits : (taken.pair previous code).outputBytes ≤
        maxBytes) :
    (taken.pair previous code).Sound maxBytes remaining := by
  have high := (Bool.and_eq_true_iff.mp pair).1
  refine ⟨apart_of_not_low fun head starts => ?_, ?_, fits, fun same => ?_⟩
  · cases starts
    exact not_low_of_high high
  · rw [Taken.pair, sound.accounted]
    exact (Nat.add_comm _ _).trans (byteLength_pair pair _).symm
  · change wellFormed (previous :: code :: taken.output) = previous :: code :: taken.output
    rw [wellFormed_pair pair, sound.replaced same]

/-- A unit of the rest is apart from the unit after it when they are no pair. -/
theorem apart_reverse {code previous : UInt16} (alone : isPair previous code = false) :
    Apart (previous :: remaining).reverse [code] := by
  intro last head ends starts
  rw [reverse_cons, getLast?_concat, some_inj] at ends
  cases starts
  rw [← ends]
  exact alone

theorem utf8Size_unit (code : UInt16) : (character [code]).utf8Size = unitBytes code :=
  utf8Size_single code

/-- What the loop takes from the end of a string is its longest end within the bytes. -/
theorem takeFromEnd_longest {taken : Taken} (sound : taken.Sound maxBytes remaining) :
    ∃ front, LongestEnd maxBytes (remaining.reverse ++ taken.output) front
        (takeFromEnd maxBytes remaining taken).output ∧
      ((takeFromEnd maxBytes remaining taken).needsReplacement = false →
        wellFormed (takeFromEnd maxBytes remaining taken).output =
          (takeFromEnd maxBytes remaining taken).output) := by
  induction remaining, taken using takeFromEnd.induct maxBytes with
  | case1 taken =>
    refine ⟨[], ⟨rfl, sound.apart, sound.accounted ▸ sound.fits, fun _ ends => ?_⟩,
      sound.replaced⟩
    cases ends
  | case2 code taken exceeds =>
    have apart : Apart [] [code] := nofun
    rw [takeFromEnd, if_pos exceeds]
    refine ⟨_, longestEnd_of_stop sound rfl apart rfl ?_, sound.replaced⟩
    rw [utf8Size_unit, Nat.add_comm]
    exact exceeds
  | case3 code taken fits =>
    have apart : Apart [] [code] := nofun
    have next := sound.unit apart (Nat.not_lt.mp fits)
    rw [takeFromEnd, if_neg fits]
    refine ⟨[], ⟨rfl, next.apart, next.accounted ▸ next.fits, fun _ ends => ?_⟩, next.replaced⟩
    cases ends
  | case4 code previous units taken pair exceeds =>
    have whole : isPair previous code = true := by rw [isPair, Bool.and_comm, pair]
    have apart : Apart units.reverse [previous, code] :=
      apart_of_not_low fun head starts => by
        cases starts
        exact not_low_of_high (Bool.and_eq_true_iff.mp whole).1
    have split : (code :: previous :: units).reverse = units.reverse ++ [previous, code] := by
      simp
    have one : characters [previous, code] = [[previous, code]] := by
      rw [characters, if_pos whole]
      rfl
    rw [takeFromEnd, if_pos pair, if_pos exceeds]
    refine ⟨_, longestEnd_of_stop sound split apart one ?_, sound.replaced⟩
    rw [utf8Size_pair whole, Nat.add_comm]
    exact exceeds
  | case5 code previous units taken pair fits ih =>
    have whole : isPair previous code = true := by rw [isPair, Bool.and_comm, pair]
    have split : (code :: previous :: units).reverse ++ taken.output =
        units.reverse ++ (taken.pair previous code).output := by
      simp [Taken.pair]
    rw [takeFromEnd, if_pos pair, if_neg fits, split]
    exact ih (sound.pair whole (Nat.not_lt.mp fits))
  | case6 code previous units taken alone exceeds =>
    have single : isPair previous code = false := by
      rw [isPair, Bool.and_comm]
      exact Bool.not_eq_true _ ▸ alone
    have apart : Apart (previous :: units).reverse [code] := apart_reverse single
    rw [takeFromEnd, if_neg alone, if_pos exceeds]
    refine ⟨_, longestEnd_of_stop sound (reverse_cons ..) apart rfl ?_, sound.replaced⟩
    rw [utf8Size_unit, Nat.add_comm]
    exact exceeds
  | case7 code previous units taken alone fits ih =>
    have single : isPair previous code = false := by
      rw [isPair, Bool.and_comm]
      exact Bool.not_eq_true _ ▸ alone
    have apart : Apart (previous :: units).reverse [code] := apart_reverse single
    have split : (code :: previous :: units).reverse ++ taken.output =
        (previous :: units).reverse ++ (taken.unit code).output := by
      simp [Taken.unit]
    rw [takeFromEnd, if_neg alone, if_neg fits, split]
    exact ih (sound.unit apart (Nat.not_lt.mp fits))

theorem truncateString_longest (positive : 1 ≤ maxBytes) :
    ∃ front back, LongestEnd maxBytes string front back ∧
      truncateStringToBytesFromEnd string maxBytes = wellFormed back := by
  have sound : Taken.Sound {} maxBytes string.reverse :=
    ⟨nofun, rfl, Nat.zero_le _, fun _ => rfl⟩
  obtain ⟨front, longest, replaced⟩ := takeFromEnd_longest sound
  rw [reverse_reverse, append_nil] at longest
  refine ⟨front, _, longest, ?_⟩
  rw [truncateStringToBytesFromEnd, if_neg (by omega)]
  dsimp only
  split
  · exact replaceUnpairedSurrogates_eq _
  · rename_i whole
    exact (replaced (Bool.not_eq_true _ ▸ whole)).symm

end Harness

namespace CodingAgent

/-- The end that the coding agent cuts from a string that is too long. -/
theorem truncateString_longest {string : List UInt16} {maxBytes : Nat}
    (long : maxBytes < byteLength string) :
    ∃ front back, LongestEnd maxBytes string front back ∧
      truncateStringToBytesFromEnd string maxBytes = wellFormed back := by
  have size : (Utf8.encode (decode string)).length = byteLength string :=
    Utf8.length_encode _
  obtain ⟨front', back', split, place, near⟩ := Utf8.characterStart_least (decode string)
    (byteLength string - maxBytes) (Nat.sub_le _ _)
  obtain ⟨front, back, whole, rfl, rfl⟩ := map_eq_append_iff.mp split
  obtain ⟨isFront, isBack, apart⟩ := characters_parted whole
  have flat : string = front.flatten ++ back.flatten := by
    rw [← flatten_append, ← whole, flatten_characters]
  have decoded : decode back.flatten = back.map character := by
    rw [decode, isBack]
  have total : byteLength string =
      Utf8.byteLength (front.map character) + byteLength back.flatten := by
    rw [byteLength, split, Utf8.byteLength_append, byteLength, decoded]
  have reached : byteLength string - maxBytes ≤ Utf8.byteLength (front.map character) := by
    rw [← place, Utf8.characterStart]
    exact Nat.le_add_right ..
  refine ⟨front.flatten, back.flatten, ⟨flat, apart, by omega, fun last ends => ?_⟩, ?_⟩
  · rw [isFront] at ends
    have before := near (character last) (by rw [getLast?_map, ends]; rfl)
    omega
  · rw [truncateStringToBytesFromEnd]
    simp only [size, Nat.not_le.mpr long, if_false]
    rw [place, split, Utf8.drop_byteLength, Utf8.decode_encode, wellFormed, decoded]

end CodingAgent

/-! ## The loops over the lines -/

section Loops

variable {maxLines maxBytes : Nat}

def collectedOf (kept : List (List UInt16) × Bool) (arr : List (List UInt16)) : Collected where
  outputLinesArr := arr
  outputBytesCount := cost byteLength kept.1
  truncatedBy := if kept.2 then .bytes else .lines
  lastLinePartial := false

abbrev keep (maxLines maxBytes : Nat) (kept lines : List (List UInt16)) :
    List (List UInt16) × Bool :=
  Lines.keep byteLength maxLines maxBytes kept lines

theorem cost_concat (kept : List (List UInt16)) (line : List UInt16) :
    cost byteLength (kept ++ [line]) = cost byteLength kept +
      (byteLength line + if kept.length > 0 then 1 else 0) :=
  Lines.cost_concat kept line

theorem collectFromStart_eq (kept lines : List (List UInt16)) :
    collectFromStart byteLength maxLines maxBytes kept.length lines
        (collectedOf (kept, false) kept) =
      collectedOf (keep maxLines maxBytes kept lines) (keep maxLines maxBytes kept lines).1 := by
  induction lines generalizing kept with
  | nil => rfl
  | cons line lines ih =>
    rw [collectFromStart, keep, Lines.keep]
    by_cases room : kept.length < maxLines
    · rw [if_pos room, if_pos room]
      have count := cost_concat kept line
      by_cases large : maxBytes < cost byteLength (kept ++ [line])
      · rw [if_pos large]
        refine (if_pos ?_).trans rfl
        rw [count] at large
        exact large
      rw [if_neg large]
      have next := ih (kept ++ [line])
      rw [length_append, length_singleton] at next
      refine (if_neg ?_).trans (Eq.trans ?_ next)
      · rw [count] at large
        exact large
      · rw [collectedOf, collectedOf, count]
    · rw [if_neg room, if_neg room]

theorem collectFromEnd_eq (cut : List UInt16 → Nat → List UInt16) {kept : List (List UInt16)}
    (some_line : kept ≠ []) (lines : List (List UInt16)) :
    collectFromEnd byteLength cut maxLines maxBytes lines
        (collectedOf (kept, false) kept.reverse) = collectedOf (keep maxLines maxBytes kept lines)
        (keep maxLines maxBytes kept lines).1.reverse := by
  induction lines generalizing kept with
  | nil => rfl
  | cons line lines ih =>
    have length : (collectedOf (kept, false) kept.reverse).outputLinesArr.length = kept.length :=
      length_reverse
    rw [collectFromEnd, keep, Lines.keep, length]
    by_cases room : kept.length < maxLines
    · rw [if_pos room, if_pos room]
      have count := cost_concat kept line
      by_cases large : maxBytes < cost byteLength (kept ++ [line])
      · rw [if_pos large]
        have nonzero : ¬ kept.length = 0 := fun none => some_line (length_eq_zero_iff.mp none)
        refine (if_pos ?_).trans ((if_neg nonzero).trans rfl)
        rw [count] at large
        exact large
      · rw [if_neg large]
        have next := ih (append_ne_nil_of_right_ne_nil kept (cons_ne_nil line []))
        refine (if_neg ?_).trans (Eq.trans ?_ next)
        · rw [count] at large
          exact large
        · rw [collectedOf, collectedOf, count, reverse_append]
          rfl
    · rw [if_neg room, if_neg room]

end Loops

/-! ## What is returned -/

abbrev limits (maxLines maxBytes : Nat) : TruncationOptions :=
  { maxLines := some maxLines, maxBytes := some maxBytes }

section Results

variable (content : List UInt16) (maxLines maxBytes : Nat)

/-- The content has no more lines and bytes than the limits allow. -/
abbrev Fits : Prop :=
  (splitLinesForCounting content).length ≤ maxLines ∧ byteLength content ≤ maxBytes

/-- Lines are the first of some, as many as both limits allow. -/
abbrev Longest (lines kept : List (List UInt16)) : Prop :=
  Lines.Longest byteLength maxLines maxBytes lines kept

/-- One more line is allowed by the line limit, but not by the byte limit. -/
abbrev TooLarge (lines kept : List (List UInt16)) : Prop :=
  Lines.TooLarge byteLength maxLines maxBytes lines kept

/-- The counts of a result are those of its content, and within the limits. -/
structure Described (result : TruncationResult) : Prop where
  bytes : result.outputBytes = byteLength result.content
  lines : ∃ shown, Single newline shown ∧ result.outputLines = shown.length ∧
    (result.content = Lines.joined newline shown ∨
      result.content = Lines.joined newline shown ++ [newline])
  fewBytes : result.outputBytes ≤ maxBytes
  fewLines : result.outputLines ≤ maxLines

/-- What the head of a content is cut to. -/
structure Head (result : TruncationResult) : Prop where
  unchanged : result.content = content ↔ Fits content maxLines maxBytes
  described : Described maxLines maxBytes result
  uncut : Fits content maxLines maxBytes → result.truncatedBy = none ∧
    result.outputLines = (splitLinesForCounting content).length
  longest : ¬ Fits content maxLines maxBytes →
    ∃ kept, Longest maxLines maxBytes (splitLinesForCounting content) kept ∧
      result.content = Lines.joined newline kept ∧ result.outputLines = kept.length ∧
      (result.truncatedBy = some .bytes ↔
        TooLarge maxLines maxBytes (splitLinesForCounting content) kept)

/-- What the tail of a content is cut to. -/
structure Tail (result : TruncationResult) : Prop where
  unchanged : result.content = content ↔ Fits content maxLines maxBytes
  described : Described maxLines maxBytes result
  uncut : Fits content maxLines maxBytes → result.truncatedBy = none ∧
    result.outputLines = (splitLinesForCounting content).length
  longest : ¬ Fits content maxLines maxBytes → (∃ kept, kept ≠ [] ∧
      Longest maxLines maxBytes (splitLinesForCounting content).reverse kept.reverse ∧
      result.content = Lines.joined newline kept ∧ result.outputLines = kept.length ∧
      result.lastLinePartial = false ∧ (result.truncatedBy = some .bytes ↔
        TooLarge maxLines maxBytes (splitLinesForCounting content).reverse kept.reverse)) ∨
    ∃ last front back, (splitLinesForCounting content).getLast? = some last ∧
      maxBytes < byteLength last ∧ LongestEnd maxBytes last front back ∧
      result.content = wellFormed back ∧ result.lastLinePartial = true ∧
      (2 ≤ maxLines → result.truncatedBy = some .bytes)

end Results

section Results

variable {content : List UInt16} {maxLines maxBytes : Nat}

theorem whole_described (fits : Fits content maxLines maxBytes) :
    Described maxLines maxBytes (whole content (splitLinesForCounting content).length
      (byteLength content) maxLines maxBytes) := by
  refine ⟨rfl, ⟨_, single_counted content, rfl, ?_⟩, fits.2, fits.1⟩
  have joined : Lines.joined newline (counted newline content) ++
      (if content.getLast? = some newline then [newline] else []) = content :=
    joined_counted content
  by_cases finished : content.getLast? = some newline
  · rw [if_pos finished] at joined
    exact .inr joined.symm
  · rw [if_neg finished, append_nil] at joined
    exact .inl joined.symm

/-- Lines that are the whole content fit. -/
theorem fits_of_joined {kept more : List (List UInt16)} (same : Lines.joined newline kept = content)
    (fits : Lines.Within byteLength maxLines maxBytes kept)
    (all : cost byteLength (splitLinesForCounting content) =
      cost byteLength (kept ++ more))
    (length : (splitLinesForCounting content).length = (kept ++ more).length) :
    Fits content maxLines maxBytes := by
  have size : byteLength content = cost byteLength kept := by
    rw [← same, size_joined additive]
  refine ⟨?_, size ▸ fits.2⟩
  by_cases empty : kept = []
  · rw [← same, empty]
    exact Nat.zero_le _
  by_cases none_ : more = []
  · rw [length, none_, append_nil]
    exact fits.1
  have less : cost byteLength kept < cost byteLength (kept ++ more) :=
    cost_lt_append empty none_
  have total := size_eq additive content
  rw [← splitLinesForCounting, all] at total
  omega

theorem shortened_spec {kept lines arr : List (List UInt16)} {large : Bool}
    (single : Single newline lines) (longest : Longest maxLines maxBytes lines kept)
    (stopped : large = true ↔ TooLarge maxLines maxBytes lines kept)
    (among : ∀ line ∈ arr, line ∈ kept) (length : arr.length = kept.length)
    (size : cost byteLength arr = cost byteLength kept)
    (totalLines totalBytes : Nat) :
    let result := shortened byteLength (collectedOf (kept, large) arr) totalLines totalBytes
      maxLines maxBytes
    Described maxLines maxBytes result ∧ result.content = Lines.joined newline arr ∧
      result.outputLines = kept.length ∧ result.lastLinePartial = false ∧
      (result.truncatedBy = some .bytes ↔ TooLarge maxLines maxBytes lines kept) := by
  have bytes : byteLength (Lines.joined newline arr) ≤ maxBytes := by
    rw [size_joined additive, size]
    exact longest.within.2
  refine ⟨⟨rfl, ⟨arr, fun line member => single line (longest.front.subset (among line member)),
    rfl, .inl rfl⟩, bytes, length.trans_le longest.within.1⟩, rfl, length, rfl, ?_⟩
  rw [← stopped]
  cases large with
  | false =>
    refine iff_of_false ?_ Bool.false_ne_true
    simp [shortened, collectedOf]
  | true =>
    obtain ⟨-, -, few, -⟩ := stopped.mp rfl
    have override : ¬ (arr.length ≥ maxLines ∧ cost byteLength kept ≤ maxBytes) := by
      omega
    refine iff_of_true ?_ rfl
    simp [shortened, collectedOf, override]

theorem cost_singleton (line : List UInt16) :
    cost byteLength [line] = byteLength line := by
  rw [← size_joined additive, Lines.joined, intercalate_singleton]

theorem within_nil : Lines.Within byteLength maxLines maxBytes [] :=
  ⟨Nat.zero_le _, Nat.zero_le _⟩

variable {line : List UInt16}

/-- No line is kept when the first one is too large by itself. -/
theorem longest_nil (lines : List (List UInt16)) (large : maxBytes < byteLength line) :
    Longest maxLines maxBytes (line :: lines) [] := by
  refine longest_of_stop rfl within_nil fun other same fits => ?_
  cases same
  have few := fits.2
  rw [nil_append, cost_singleton] at few
  exact Nat.not_le.mpr large few

theorem lines_ne_nil (cut : ¬ Fits content maxLines maxBytes) :
    splitLinesForCounting content ≠ [] := by
  refine counted_ne_nil fun empty => cut ?_
  rw [Fits, empty]
  exact ⟨Nat.zero_le _, Nat.zero_le _⟩

theorem head_of_kept (cut : ¬ Fits content maxLines maxBytes) {result : TruncationResult}
    {kept : List (List UInt16)} (described : Described maxLines maxBytes result)
    (longest : Longest maxLines maxBytes (splitLinesForCounting content) kept)
    (joined : result.content = Lines.joined newline kept) (lines : result.outputLines = kept.length)
    (limit : result.truncatedBy = some .bytes ↔
      TooLarge maxLines maxBytes (splitLinesForCounting content) kept) :
    Head content maxLines maxBytes result := by
  refine ⟨iff_of_false (fun same => cut ?_) cut, described, fun fits => absurd fits cut,
    fun _ => ⟨kept, longest, joined, lines, limit⟩⟩
  obtain ⟨more, split⟩ := longest.front
  exact fits_of_joined (joined.symm.trans same) longest.within (by rw [split]) (by rw [split])

theorem truncateHead_whole (fits : Fits content maxLines maxBytes) :
    truncateHead byteLength content (limits maxLines maxBytes) =
      whole content (splitLinesForCounting content).length (byteLength content) maxLines
        maxBytes := by
  rw [truncateHead]
  simp only [getD_some]
  rw [if_pos fits]

theorem truncateHead_kept (cut : ¬ Fits content maxLines maxBytes)
    (small : ¬ byteLength ((splitLinesForCounting content).headD []) > maxBytes) :
    ∃ kept large, Longest maxLines maxBytes (splitLinesForCounting content) kept ∧
      (large = true ↔ TooLarge maxLines maxBytes (splitLinesForCounting content) kept) ∧
      truncateHead byteLength content (limits maxLines maxBytes) =
        shortened byteLength (collectedOf (kept, large) kept)
          (splitLinesForCounting content).length (byteLength content) maxLines maxBytes := by
  obtain ⟨longest, stopped⟩ := keep_spec within_nil (splitLinesForCounting content)
  have collected : collectFromStart byteLength maxLines maxBytes 0
      (splitLinesForCounting content) {} = _ :=
    collectFromStart_eq [] (splitLinesForCounting content)
  refine ⟨_, _, longest, stopped, ?_⟩
  rw [truncateHead]
  simp only [getD_some]
  rw [if_neg cut, if_neg small, collected]

theorem head_spec (content : List UInt16) {maxLines : Nat} (maxBytes : Nat)
    (some_line : 1 ≤ maxLines) :
    Head content maxLines maxBytes
      (truncateHead byteLength content (limits maxLines maxBytes)) := by
  by_cases fits : Fits content maxLines maxBytes
  · rw [truncateHead_whole fits]
    exact ⟨iff_of_true rfl fits, whole_described fits, fun _ => ⟨rfl, rfl⟩,
        fun cut => absurd fits cut⟩
  by_cases large : byteLength ((splitLinesForCounting content).headD []) > maxBytes
  · obtain ⟨line, lines, split⟩ := exists_cons_of_ne_nil (lines_ne_nil fits)
    rw [truncateHead]
    simp only [getD_some]
    rw [if_neg fits, if_pos large]
    rw [split] at large
    refine head_of_kept fits ⟨rfl, ⟨[], nofun, rfl, .inl rfl⟩, Nat.zero_le _, Nat.zero_le _⟩
      (split ▸ longest_nil lines large) rfl rfl (iff_of_true rfl ?_)
    rw [split]
    exact ⟨line, rfl, some_line, by rw [nil_append, cost_singleton]; exact large⟩
  · obtain ⟨kept, stops, longest, stopped, result⟩ := truncateHead_kept fits large
    obtain ⟨described, joined, length, -, limit⟩ := shortened_spec
      (single_counted content) longest stopped (fun _ => id) rfl rfl
      (splitLinesForCounting content).length (byteLength content)
    rw [result]
    exact head_of_kept fits described longest joined length limit

theorem tail_of_kept (cut : ¬ Fits content maxLines maxBytes) {result : TruncationResult}
    {kept : List (List UInt16)} (some_line : kept ≠ [])
    (described : Described maxLines maxBytes result)
    (longest : Longest maxLines maxBytes (splitLinesForCounting content).reverse kept.reverse)
    (joined : result.content = Lines.joined newline kept)
    (lines : result.outputLines = kept.length) (whole : result.lastLinePartial = false)
    (limit : result.truncatedBy = some .bytes ↔
      TooLarge maxLines maxBytes (splitLinesForCounting content).reverse kept.reverse) :
    Tail content maxLines maxBytes result := by
  refine ⟨iff_of_false (fun same => cut ?_) cut, described, fun fits => absurd fits cut,
    fun _ => .inl ⟨kept, some_line, longest, joined, lines, whole, limit⟩⟩
  obtain ⟨more, split⟩ := longest.front
  have within : Lines.Within byteLength maxLines maxBytes kept := by
    have := longest.within
    rwa [Lines.Within, length_reverse, cost_reverse] at this
  have reversed : splitLinesForCounting content = more.reverse ++ kept := by
    rw [← reverse_reverse (splitLinesForCounting content), ← split, reverse_append, reverse_reverse]
  have swapped : cost byteLength (splitLinesForCounting content) =
      cost byteLength (kept ++ more.reverse) := by
    rw [reversed, cost, cost, map_append, map_append, sum_append,
      sum_append, length_append, length_append, Nat.add_comm (sum _),
      Nat.add_comm more.reverse.length]
  refine fits_of_joined (joined.symm.trans same) within swapped ?_
  rw [reversed, length_append, length_append, Nat.add_comm]

theorem byteLength_wellFormed (string : List UInt16) :
    byteLength (wellFormed string) = byteLength string := by
  rw [byteLength, wellFormed, decode_encode, byteLength]

theorem newline_not_mem_wellFormed (single : newline ∉ string) : newline ∉ wellFormed string := by
  rw [← count_eq_zero] at single ⊢
  rw [← single]
  refine measure_encode_decode (fun front back => count_append) (fun unit lone => ?_) string
  have different : unit ≠ newline := by
    rintro rfl
    cases lone
  exact (count_singleton.trans (if_neg (different <| beq_iff_eq.mp ·))).symm

theorem collectFromEnd_oversized (cutEnd : List UInt16 → Nat → List UInt16)
    {lines : List (List UInt16)} (some_line : 1 ≤ maxLines)
    (large : maxBytes < byteLength line) :
    collectFromEnd byteLength cutEnd maxLines maxBytes (line :: lines) {} =
      { outputLinesArr := [cutEnd line maxBytes]
        outputBytesCount := byteLength (cutEnd line maxBytes)
        truncatedBy := .bytes
        lastLinePartial := true } := by
  have exceeds : 0 + (byteLength line + 0) > maxBytes := by omega
  rw [collectFromEnd]
  exact (if_pos some_line).trans ((if_pos exceeds).trans (if_pos rfl))

theorem collectFromEnd_first (cutEnd : List UInt16 → Nat → List UInt16) (some_line : 1 ≤ maxLines)
    (large : ¬ maxBytes < byteLength line) (lines : List (List UInt16)) :
    collectFromEnd byteLength cutEnd maxLines maxBytes (line :: lines) {} =
      collectFromEnd byteLength cutEnd maxLines maxBytes lines
        (collectedOf ([line], false) [line].reverse) := by
  have few : ¬ 0 + (byteLength line + 0) > maxBytes := by omega
  have count : cost byteLength [line] = 0 + (byteLength line + 0) := by
    rw [cost_singleton]
    omega
  rw [collectFromEnd, reverse_singleton, collectedOf]
  dsimp only
  rw [count]
  exact (if_pos some_line).trans (if_neg few)

theorem tail_of_oversized (cut : ¬ Fits content maxLines maxBytes) (some_line : 1 ≤ maxLines)
    {lines : List (List UInt16)} (split : (splitLinesForCounting content).reverse = line :: lines)
    (large : maxBytes < byteLength line) {front back shown : List UInt16}
    (longest : LongestEnd maxBytes line front back) (same : shown = wellFormed back)
    (totalLines totalBytes : Nat) :
    Tail content maxLines maxBytes (shortened byteLength
      { outputLinesArr := [shown]
        outputBytesCount := byteLength shown
        truncatedBy := .bytes
        lastLinePartial := true } totalLines totalBytes maxLines maxBytes) := by
  have fits : byteLength shown ≤ maxBytes := by
    rw [same, byteLength_wellFormed]
    exact longest.fits
  have alone : Lines.joined newline [shown] = shown := intercalate_singleton ..
  have last : (splitLinesForCounting content).getLast? = some line := by
    rw [← head?_reverse, split]
    rfl
  have member : line ∈ splitLinesForCounting content := mem_of_getLast? last
  have single : newline ∉ shown := by
    refine same ▸ newline_not_mem_wellFormed fun inside => single_counted content line member ?_
    rw [longest.split]
    exact mem_append_right front inside
  refine ⟨iff_of_false (fun all => ?_) cut,
    ⟨rfl, ⟨[shown], by simpa [Single] using single, rfl, .inl rfl⟩, ?_, some_line⟩, fun whole =>
        absurd whole cut, fun _ => .inr ⟨line, front, back, last, large, longest, ?_, rfl,
      fun two => ?_⟩⟩
  · have part : byteLength line ≤
        cost byteLength (splitLinesForCounting content) :=
      size_le_cost member
    have total := size_eq additive content
    have shown_ : shown = content := alone.symm.trans all
    rw [shown_] at fits
    rw [← splitLinesForCounting] at total
    omega
  · change byteLength (Lines.joined newline [shown]) ≤ maxBytes
    rw [alone]
    exact fits
  · exact alone.trans same
  · have single : ¬ ([shown].length ≥ maxLines ∧ byteLength shown ≤ maxBytes) := by
      rw [length_singleton]
      omega
    exact congrArg some (if_neg single)

theorem tail_spec (content : List UInt16) {maxLines maxBytes : Nat} (some_line : 1 ≤ maxLines)
    {cutEnd : List UInt16 → Nat → List UInt16}
    (cuts : ∀ line, maxBytes < byteLength line → ∃ front back,
      LongestEnd maxBytes line front back ∧ cutEnd line maxBytes = wellFormed back) :
    Tail content maxLines maxBytes
      (truncateTail byteLength cutEnd content (limits maxLines maxBytes)) := by
  rw [truncateTail]
  simp only [getD_some]
  by_cases fits : Fits content maxLines maxBytes
  · rw [if_pos fits]
    exact ⟨iff_of_true rfl fits, whole_described fits, fun _ => ⟨rfl, rfl⟩,
        fun cut => absurd fits cut⟩
  rw [if_neg fits]
  have nonempty : (splitLinesForCounting content).reverse ≠ [] :=
    fun none_ => lines_ne_nil fits (reverse_eq_nil_iff.mp none_)
  obtain ⟨line, lines, split⟩ := exists_cons_of_ne_nil nonempty
  rw [split]
  by_cases large : maxBytes < byteLength line
  · rw [collectFromEnd_oversized cutEnd some_line large]
    obtain ⟨front, back, longest, same⟩ := cuts line large
    exact tail_of_oversized fits some_line split large longest same _ _
  have within : Lines.Within byteLength maxLines maxBytes [line] :=
    ⟨some_line, by rw [cost_singleton]; exact Nat.not_lt.mp large⟩
  obtain ⟨longest, stopped⟩ := keep_spec within lines
  have collected : collectFromEnd byteLength cutEnd maxLines maxBytes (line :: lines) {} =
      _ := (collectFromEnd_first cutEnd some_line large lines).trans
    (collectFromEnd_eq cutEnd (cons_ne_nil line []) lines)
  rw [singleton_append, ← split] at longest stopped
  have single : Single newline (splitLinesForCounting content).reverse := fun line member =>
    single_counted content line (mem_reverse.mp member)
  obtain ⟨described, joined, length, whole, limit⟩ := shortened_spec single longest stopped
    (fun _ => mem_reverse.mp) length_reverse (cost_reverse _) (splitLinesForCounting content).length
    (byteLength content)
  rw [collected]
  have kept := longest.longest [line] ⟨lines, split.symm⟩ within
  refine tail_of_kept fits ?_ described (by rwa [reverse_reverse]) joined
    (length.trans length_reverse.symm) whole (by rwa [reverse_reverse])
  intro none_
  rw [reverse_eq_nil_iff.mp none_] at kept
  exact Nat.not_succ_le_zero 0 kept

end Results

/-- Both versions cut a content to its longest head and tail of whole lines within the limits,
and the version of the harness does not depend on the `Buffer` global. Of a last line that is too
large by itself the tail is its longest end of whole characters, with the replacement character
for unpaired surrogates. -/
theorem truncation_longest (content : List UInt16) {maxLines maxBytes : Nat}
    (some_line : 1 ≤ maxLines) (some_byte : 1 ≤ maxBytes) :
    (∀ runtimeBuffer, Head content maxLines maxBytes
        (Harness.truncateHead runtimeBuffer content (limits maxLines maxBytes)) ∧
      Tail content maxLines maxBytes
        (Harness.truncateTail runtimeBuffer content (limits maxLines maxBytes))) ∧
    Head content maxLines maxBytes (CodingAgent.truncateHead content (limits maxLines maxBytes)) ∧
    Tail content maxLines maxBytes (CodingAgent.truncateTail content (limits maxLines maxBytes)) ∧
    ∀ options, Harness.truncateHead true content options =
        Harness.truncateHead false content options ∧
      Harness.truncateTail true content options = Harness.truncateTail false content options := by
  refine ⟨fun runtimeBuffer => ⟨?_, ?_⟩, head_spec content maxBytes some_line, ?_,
    fun options => ⟨?_, ?_⟩⟩
  · rw [Harness.truncateHead, Harness.utf8ByteLength_eq]
    exact head_spec content maxBytes some_line
  · rw [Harness.truncateTail, Harness.utf8ByteLength_eq]
    exact tail_spec content some_line fun line _ => Harness.truncateString_longest line some_byte
  · exact tail_spec content some_line fun _ long => CodingAgent.truncateString_longest long
  · rw [Harness.truncateHead, Harness.truncateHead, Harness.utf8ByteLength_eq,
      Harness.utf8ByteLength_eq]
  · rw [Harness.truncateTail, Harness.truncateTail, Harness.utf8ByteLength_eq,
      Harness.utf8ByteLength_eq]

/-- Of three lines the first alone fits at the head; the last one, too large by itself, is cut to
its end. -/
theorem truncation_longest_cut :
    let content := encode ['a', '\n', 'b', 'c', '\n', 'd', '\u00e9', 'e']
    (Head content 2 3 (CodingAgent.truncateHead content (limits 2 3)) ∧
      (CodingAgent.truncateHead content (limits 2 3)).content = encode ['a']) ∧
    Tail content 2 3 (CodingAgent.truncateTail content (limits 2 3)) ∧
      (CodingAgent.truncateTail content (limits 2 3)).content = encode ['\u00e9', 'e'] :=
  have longest := truncation_longest (encode ['a', '\n', 'b', 'c', '\n', 'd', '\u00e9', 'e'])
    (by decide : 1 ≤ 2) (by decide : 1 ≤ 3)
  ⟨⟨longest.2.1, by decide⟩, longest.2.2.1, by decide⟩

/-- The end of a line is not always an end of the line as it was. -/
theorem unpaired_surrogate_replaced :
    (Harness.truncateTail true [0x61, 0xD800] (limits 2 3)).content = [0xFFFD] ∧
      (CodingAgent.truncateTail [0x61, 0xD800] (limits 2 3)).content = [0xFFFD] ∧
      ¬ [0xFFFD] <:+ ([0x61, 0xD800] : List UInt16) := by
  decide

end Recode.TextTruncation

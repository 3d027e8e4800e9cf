import Mathlib.Data.List.Lex
import Mathlib.Algebra.Order.Ring.Int

/-! # Strings as the program counts them

The program's strings are sequences of UTF-16 code units. The model keeps
strings of Unicode scalar values and counts, cuts and orders them by the code
units they are made of. -/

namespace Recode.Text

open List

def utf16Units (char : Char) : List Nat :=
  if char.toNat < 0x10000 then [char.toNat]
  else [0xD800 + (char.toNat - 0x10000) / 0x400, 0xDC00 + (char.toNat - 0x10000) % 0x400]

def utf16Length (text : String) : Nat :=
  (text.toList.map fun char => (utf16Units char).length).sum

/-- The first code units of a text. A surrogate pair cut in half leaves the
replacement character that its encoding writes for the remaining half. -/
def takeUnits : List Char → Nat → List Char
  | [], _ => []
  | _ :: _, 0 => []
  | char :: chars, count + 1 =>
    if (utf16Units char).length ≤ count + 1 then
      char :: takeUnits chars (count + 1 - (utf16Units char).length)
    else ['\uFFFD']

def sliceFront (text : String) (count : Nat) : String :=
  String.ofList (takeUnits text.toList count)

theorem utf16Length_ofList (chars : List Char) :
    utf16Length (String.ofList chars) = (chars.map fun char => (utf16Units char).length).sum := by
  rw [utf16Length, String.toList_ofList]

theorem utf16Length_sliceFront_le (text : String) (count : Nat) :
    utf16Length (sliceFront text count) ≤ count := by
  rw [sliceFront, utf16Length_ofList]
  generalize text.toList = chars
  induction chars generalizing count with
  | nil =>
    rw [takeUnits]
    exact Nat.zero_le _
  | cons char chars ih =>
    cases count with
    | zero => exact Nat.le_refl 0
    | succ count =>
      rw [takeUnits]
      split
      · rename_i fits
        have rest := ih (count + 1 - (utf16Units char).length)
        rw [map_cons, sum_cons]
        omega
      · exact Nat.succ_le_succ (Nat.zero_le count)

/-- White space and line terminators, as `trim` removes them. -/
def isTrimmed (char : Char) : Bool :=
  char = '\t' || char = '\n' || char = '\x0b' || char = '\x0c' || char = '\r' || char = ' ' ||
    char = '\u00a0' || char = '\u1680' || ('\u2000' ≤ char && char ≤ '\u200a') ||
    char = '\u2028' || char = '\u2029' || char = '\u202f' || char = '\u205f' ||
    char = '\u3000' || char = '\ufeff'

/-- A string without the white space at its two ends. -/
def trim (text : String) : String :=
  String.ofList ((((text.toList.dropWhile isTrimmed).reverse).dropWhile isTrimmed).reverse)

/-- The default order of `sort`: by code units. -/
def unitsLe (left right : String) : Bool :=
  decide (left.toList.flatMap utf16Units ≤ right.toList.flatMap utf16Units)

/-- A list of strings in the default order of `sort`. -/
def sorted (texts : List String) : List String :=
  texts.mergeSort unitsLe

/-- A present string that is not empty: what a truth test on an optional string keeps. -/
def truthy (text : Option String) : Option String :=
  text.filter fun value => value ≠ ""

theorem truthy_some {text : String} (present : text ≠ "") : truthy (some text) = some text := by
  simp [truthy, present]

/-- One text occurs inside another. -/
def Contains (text part : String) : Prop :=
  part.toList <:+: text.toList

instance (text part : String) : Decidable (Contains text part) :=
  inferInstanceAs (Decidable (_ <:+: _))

theorem contains_empty (text : String) : Contains text "" :=
  nil_infix

theorem not_mem_literal {char : Char} {chars : List Char} (absent : char ∉ chars) :
    char ∉ (String.ofList chars).toList := by
  rwa [String.toList_ofList]

theorem contains_middle (before part after : String) : Contains (before ++ part ++ after) part := by
  refine ⟨before.toList, after.toList, ?_⟩
  simp only [String.toList_append]

theorem Contains.append_right {text part : String} (inside : Contains text part)
    (after : String) : Contains (text ++ after) part := by
  obtain ⟨left, right, same⟩ := inside
  exact ⟨left, right ++ after.toList, by rw [String.toList_append, ← same]; simp⟩

theorem Contains.append_left {text part : String} (inside : Contains text part)
    (before : String) : Contains (before ++ text) part := by
  obtain ⟨left, right, same⟩ := inside
  exact ⟨before.toList ++ left, right, by rw [String.toList_append, ← same]; simp⟩

/-- A part found around a long filler lies on one side of the filler, when the filler is
made of characters that neither begin nor end the part. -/
theorem infix_beside_filler {before filler after part : List Char}
    (inside : part <:+: before ++ filler ++ after) (long : part.length ≤ filler.length)
    (begins : ∀ char ∈ filler, part.head? ≠ some char)
    (ends : ∀ char ∈ filler, part.getLast? ≠ some char) : part <:+: before ∨ part <:+: after := by
  obtain ⟨left, right, same⟩ := inside
  have lengths := congrArg length same
  simp only [length_append] at lengths
  have at_index : ∀ i, i < part.length → (before ++ filler ++ after)[left.length + i]? =
      part[i]? := by
    intro i short
    rw [← same, append_assoc, getElem?_append_right (by omega),
      getElem?_append_left (by omega), Nat.add_sub_cancel_left]
  have in_filler : ∀ i, i < part.length → before.length ≤ left.length + i →
      left.length + i < before.length + filler.length → ∃ char ∈ filler, part[i]? = some char := by
    intro i short reached inner
    rw [← at_index i short, append_assoc, getElem?_append_right reached,
      getElem?_append_left (by omega)]
    exact ⟨_, getElem_mem _, getElem?_eq_getElem (by omega)⟩
  by_cases early : left.length + part.length ≤ before.length
  · left
    have prefix_eq := congrArg (take before.length) same
    rw [append_assoc before, take_left, take_append] at prefix_eq
    rw [take_of_length_le (by simpa using early)] at prefix_eq
    exact ⟨left, _, prefix_eq⟩
  by_cases late : before.length + filler.length ≤ left.length
  · right
    have suffix_eq := congrArg (drop (before.length + filler.length)) same
    rw [← length_append, drop_left, append_assoc left,
      drop_append_of_le_length (by simpa using late), ← append_assoc] at suffix_eq
    exact ⟨_, right, suffix_eq⟩
  by_cases inFront : before.length ≤ left.length
  · by_cases nothing : part = []
    · exact .inl (nothing ▸ nil_infix)
    obtain ⟨char, member, first⟩ := in_filler 0 (length_pos_iff.mpr nothing)
      (by omega) (by omega)
    exact absurd (head?_eq_getElem? ▸ first) (begins char member)
  · obtain ⟨char, member, last⟩ := in_filler (part.length - 1) (by omega) (by omega) (by omega)
    exact absurd (getLast?_eq_getElem? ▸ last) (ends char member)

end Recode.Text

import Mathlib.Algebra.Ring.Nat
import Recode.Lib.Utf8

/-! # Strings of UTF-16 code units

A high and a low surrogate next to each other are one character; any other surrogate stands
alone and is written as the replacement character. -/

namespace Utf16

open List Utf8

def isHigh (unit : UInt16) : Bool := 0xD800 ≤ unit.toNat && unit.toNat ≤ 0xDBFF

def isLow (unit : UInt16) : Bool := 0xDC00 ≤ unit.toNat && unit.toNat ≤ 0xDFFF

def isPair (first second : UInt16) : Bool := isHigh first && isLow second

def characters : List UInt16 → List (List UInt16)
  | [] => []
  | [unit] => [[unit]]
  | first :: second :: units =>
    if isPair first second then [first, second] :: characters units
    else [first] :: characters (second :: units)

def character : List UInt16 → Char
  | [unit] => if isHigh unit || isLow unit then replacement else Char.ofNat unit.toNat
  | [first, second] =>
    Char.ofNat (0x10000 + (first.toNat - 0xD800) * 0x400 + (second.toNat - 0xDC00))
  | _ => replacement

def decode (units : List UInt16) : List Char := (characters units).map character

def units (char : Char) : List UInt16 :=
  if char.toNat < 0x10000 then [UInt16.ofNat char.toNat]
  else [UInt16.ofNat (0xD800 + (char.toNat - 0x10000) / 0x400),
    UInt16.ofNat (0xDC00 + (char.toNat - 0x10000) % 0x400)]

def encode (text : List Char) : List UInt16 := text.flatMap units

/-- The number of bytes that a string takes in UTF-8. -/
def byteLength (string : List UInt16) : Nat := Utf8.byteLength (decode string)

/-! ## Characters -/

@[elab_as_elim]
theorem characters_induction {motive : List UInt16 → Prop} (empty : motive [])
    (single : ∀ unit, motive [unit])
    (pair : ∀ first second units, isPair first second = true → motive units →
      motive (first :: second :: units))
    (alone : ∀ first second units, ¬ isPair first second = true → motive (second :: units) →
      motive (first :: second :: units)) (string : List UInt16) : motive string :=
  characters.induct motive empty single pair alone string

theorem flatten_characters (string : List UInt16) : (characters string).flatten = string := by
  induction string using characters_induction with
  | empty => rfl
  | single unit => rfl
  | pair first second units pair ih => simp [characters, pair, ih]
  | alone first second units alone ih => simp [characters, alone, ih]

/-- Two strings next to each other do not make one character. -/
def Apart (front back : List UInt16) : Prop :=
  ∀ first second, front.getLast? = some first → back.head? = some second →
    isPair first second = false

variable {front back : List UInt16} {unit : UInt16} {first second : UInt16} {string : List UInt16}

theorem characters_cons_of_apart
    (apart : Apart [unit] string) : characters (unit :: string) = [unit] :: characters string := by
  cases string with
  | nil => rfl
  | cons second units =>
    have alone := apart unit second rfl rfl
    simp [characters, alone]

theorem characters_append (apart : Apart front back) :
    characters (front ++ back) = characters front ++ characters back := by
  induction front using characters_induction with
  | empty => rfl
  | single unit => exact characters_cons_of_apart apart
  | pair first second units pair ih =>
    have rest : Apart units back := by
      intro last head ends starts
      refine apart last head ?_ starts
      cases units with
      | nil => cases ends
      | cons unit units => exact ends
    simp [characters, pair, ih rest]
  | alone first second units alone ih =>
    have rest : Apart (second :: units) back := fun last head ends starts =>
      apart last head ends starts
    have := ih rest
    simp only [cons_append] at this ⊢
    simp [characters, alone, this]

theorem apart_of_not_high
    (ends : ∀ last, front.getLast? = some last → isHigh last = false) : Apart front back := by
  intro last head isLast _
  rw [isPair, ends last isLast, Bool.false_and]

theorem apart_of_not_low
    (starts : ∀ head, back.head? = some head → isLow head = false) : Apart front back := by
  intro last head _ isHead
  rw [isPair, starts head isHead, Bool.and_false]

theorem not_low_of_high (high : isHigh unit = true) : isLow unit = false := by
  rw [isHigh, Bool.and_eq_true, decide_eq_true_eq, decide_eq_true_eq] at high
  rw [isLow, Bool.and_eq_false_iff, decide_eq_false_iff_not, decide_eq_false_iff_not]
  omega

theorem not_high_of_low (low : isLow unit = true) : isHigh unit = false := by
  cases high : isHigh unit with
  | false => rfl
  | true =>
    rw [not_low_of_high high] at low
    cases low

theorem characters_parted_cons {first : List UInt16} {string : List UInt16}
    {front back : List (List UInt16)} (one : characters first = [first])
    (apart : Apart first string) (flat : string = front.flatten ++ back.flatten)
    (parted : characters front.flatten = front ∧ characters back.flatten = back ∧
      Apart front.flatten back.flatten) :
    characters (first :: front).flatten = first :: front ∧ characters back.flatten = back ∧
      Apart (first :: front).flatten back.flatten := by
  obtain ⟨isFront, isBack, between⟩ := parted
  have apartFront : Apart first front.flatten := by
    intro last head ends starts
    refine apart last head ends ?_
    rw [flat, head?_append, starts]
    rfl
  refine ⟨?_, isBack, ?_⟩
  · rw [flatten_cons, characters_append apartFront, one, isFront]
    rfl
  · intro last head ends starts
    rw [flatten_cons, getLast?_append] at ends
    cases rest : front.flatten.getLast? with
    | some other =>
      rw [rest] at ends
      exact between last head (rest.trans ends) starts
    | none =>
      rw [rest] at ends
      rw [getLast?_eq_none_iff.mp rest, nil_append] at flat
      exact apart last head ends (flat ▸ starts)

theorem characters_parted_nil {back : List (List UInt16)} (whole : characters string = back) :
    characters [].flatten = [] ∧ characters back.flatten = back ∧
      Apart [].flatten back.flatten := by
  refine ⟨rfl, ?_, nofun⟩
  rw [← whole, flatten_characters]

theorem characters_parted {front back : List (List UInt16)}
    (split : characters string = front ++ back) :
    characters front.flatten = front ∧ characters back.flatten = back ∧
      Apart front.flatten back.flatten := by
  induction string using characters_induction generalizing front with
  | empty =>
    have none_ : characters [] = [] := rfl
    obtain ⟨rfl, rfl⟩ := append_eq_nil_iff.mp split.symm
    exact characters_parted_nil none_
  | single unit =>
    cases front with
    | nil => exact characters_parted_nil split
    | cons character front =>
      rw [characters, cons_append, cons.injEq] at split
      obtain ⟨rfl, rest⟩ := split
      obtain ⟨rfl, rfl⟩ := append_eq_nil_iff.mp rest.symm
      exact ⟨rfl, rfl, nofun⟩
  | pair first second units pair ih =>
    cases front with
    | nil => exact characters_parted_nil split
    | cons character front =>
      rw [characters, if_pos pair, cons_append, cons.injEq] at split
      obtain ⟨rfl, rest⟩ := split
      have one : characters [first, second] = [[first, second]] := by
        rw [characters, if_pos pair]
        rfl
      have apart : Apart [first, second] units := apart_of_not_high fun last ends => by
        obtain rfl : second = last := by simpa using ends
        exact not_high_of_low (Bool.and_eq_true_iff.mp pair).2
      exact characters_parted_cons one apart
        (by rw [← flatten_append, ← rest, flatten_characters]) (ih rest)
  | alone first second units alone ih =>
    cases front with
    | nil => exact characters_parted_nil split
    | cons character front =>
      rw [characters, if_neg alone, cons_append, cons.injEq] at split
      obtain ⟨rfl, rest⟩ := split
      have apart : Apart [first] (second :: units) := fun last head ends starts => by
        cases ends
        cases starts
        exact Bool.not_eq_true _ ▸ alone
      exact characters_parted_cons rfl apart
        (by rw [← flatten_append, ← rest, flatten_characters]) (ih rest)

theorem byteLength_append (apart : Apart front back) :
    byteLength (front ++ back) = byteLength front + byteLength back := by
  rw [byteLength, decode, characters_append apart, map_append, Utf8.byteLength_append]
  rfl

/-! ## Single characters -/

theorem toNat_ofNat_valid {value : Nat} (valid : value.isValidChar) :
    (Char.ofNat value).toNat = value := by
  rw [Char.ofNat, dif_pos valid]
  rfl

theorem toNat_character (plain : (isHigh unit || isLow unit) = false) :
    (character [unit]).toNat = unit.toNat := by
  rw [character, plain]
  apply toNat_ofNat_valid
  rw [Bool.or_eq_false_iff, isHigh, isLow, Bool.and_eq_false_iff, Bool.and_eq_false_iff,
    decide_eq_false_iff_not, decide_eq_false_iff_not, decide_eq_false_iff_not,
    decide_eq_false_iff_not] at plain
  have := unit.toNat_lt
  rw [Nat.isValidChar]
  omega

theorem toNat_pair (pair : isPair first second = true) :
    (character [first, second]).toNat =
      0x10000 + (first.toNat - 0xD800) * 0x400 + (second.toNat - 0xDC00) := by
  apply toNat_ofNat_valid
  simp only [isPair, isHigh, isLow, Bool.and_eq_true, decide_eq_true_eq] at pair
  rw [Nat.isValidChar]
  omega

theorem utf8Size_eq (char : Char) :
    char.utf8Size = if char.toNat ≤ 0x7F then 1 else if char.toNat ≤ 0x7FF then 2
      else if char.toNat ≤ 0xFFFF then 3 else 4 := by
  rw [Char.utf8Size]
  rfl

theorem utf8Size_pair (pair : isPair first second = true) :
    (character [first, second]).utf8Size = 4 := by
  have value := toNat_pair pair
  rw [utf8Size_eq, if_neg (by omega), if_neg (by omega), if_neg (by omega)]

theorem utf8Size_single (unit : UInt16) :
    (character [unit]).utf8Size = if isHigh unit || isLow unit then 3
      else if unit.toNat ≤ 0x7F then 1 else if unit.toNat ≤ 0x7FF then 2 else 3 := by
  cases lone : (isHigh unit || isLow unit) with
  | true =>
    rw [character, lone]
    rfl
  | false =>
    have small := unit.toNat_lt
    rw [utf8Size_eq, toNat_character lone]
    simp only [Bool.false_eq_true, if_false]
    split
    · rfl
    · split
      · rfl
      · rw [if_pos (by omega)]

/-! ## Reading back -/

theorem units_single (plain : (isHigh unit || isLow unit) = false) :
    units (character [unit]) = [unit] := by
  have value := toNat_character plain
  have small := unit.toNat_lt
  rw [units, value, if_pos (by omega), UInt16.ofNat_toNat]

theorem units_pair (pair : isPair first second = true) :
    units (character [first, second]) = [first, second] := by
  have value := toNat_pair pair
  simp only [isPair, isHigh, isLow, Bool.and_eq_true, decide_eq_true_eq] at pair
  rw [units, value, if_neg (by omega)]
  have high : 0xD800 + (0x10000 + (first.toNat - 0xD800) * 0x400 + (second.toNat - 0xDC00) -
      0x10000) / 0x400 = first.toNat := by omega
  have low : 0xDC00 + (0x10000 + (first.toNat - 0xD800) * 0x400 + (second.toNat - 0xDC00) -
      0x10000) % 0x400 = second.toNat := by omega
  rw [high, low, UInt16.ofNat_toNat, UInt16.ofNat_toNat]

theorem toNat_ofNat {value : Nat} (fits : value < 0x10000) :
    (UInt16.ofNat value).toNat = value := by
  rw [UInt16.toNat_ofNat']
  exact Nat.mod_eq_of_lt fits

theorem characters_units (char : Char) : characters (units char) = [units char] ∧
    character (units char) = char ∧
    ∀ last, (units char).getLast? = some last → isHigh last = false := by
  have valid : char.toNat.isValidChar := val_valid char
  rw [Nat.isValidChar] at valid
  by_cases small : char.toNat < 0x10000
  · have value := toNat_ofNat small
    have plain : isHigh (UInt16.ofNat char.toNat) = false ∧
        isLow (UInt16.ofNat char.toNat) = false := by
      rw [isHigh, isLow, value, Bool.and_eq_false_iff, Bool.and_eq_false_iff,
        decide_eq_false_iff_not, decide_eq_false_iff_not, decide_eq_false_iff_not,
        decide_eq_false_iff_not]
      omega
    rw [units, if_pos small]
    refine ⟨rfl, ?_, fun last ends => ?_⟩
    · rw [character, plain.1, plain.2, value, Char.ofNat_toNat]
      rfl
    · cases ends
      exact plain.1
  · have high : (UInt16.ofNat (0xD800 + (char.toNat - 0x10000) / 0x400)).toNat =
        0xD800 + (char.toNat - 0x10000) / 0x400 := toNat_ofNat (by omega)
    have low : (UInt16.ofNat (0xDC00 + (char.toNat - 0x10000) % 0x400)).toNat =
        0xDC00 + (char.toNat - 0x10000) % 0x400 := toNat_ofNat (by omega)
    have isLow_ : isLow (UInt16.ofNat (0xDC00 + (char.toNat - 0x10000) % 0x400)) = true := by
      rw [isLow, low, Bool.and_eq_true, decide_eq_true_eq, decide_eq_true_eq]
      omega
    have isHigh_ : isHigh (UInt16.ofNat (0xD800 + (char.toNat - 0x10000) / 0x400)) = true := by
      rw [isHigh, high, Bool.and_eq_true, decide_eq_true_eq, decide_eq_true_eq]
      omega
    rw [units, if_neg small]
    refine ⟨?_, ?_, fun last ends => ?_⟩
    · rw [characters, isPair, isHigh_, isLow_]
      rfl
    · rw [character, high, low]
      have whole : 0x10000 + (0xD800 + (char.toNat - 0x10000) / 0x400 - 0xD800) * 0x400 +
          (0xDC00 + (char.toNat - 0x10000) % 0x400 - 0xDC00) = char.toNat := by omega
      rw [whole, Char.ofNat_toNat]
    · rw [getLast?_cons_cons, getLast?_singleton, Option.some_inj] at ends
      rw [← ends]
      exact not_high_of_low isLow_

theorem units_cases (char : Char) :
    (∃ unit, units char = [unit] ∧ isLow unit = false) ∨
      ∃ first second, units char = [first, second] ∧ isHigh first = true := by
  have whole := (characters_units char).1
  have valid : char.toNat.isValidChar := val_valid char
  rw [Nat.isValidChar] at valid
  by_cases small : char.toNat < 0x10000
  · refine .inl ⟨UInt16.ofNat char.toNat, if_pos small, ?_⟩
    rw [isLow, toNat_ofNat small, Bool.and_eq_false_iff, decide_eq_false_iff_not,
      decide_eq_false_iff_not]
    omega
  rw [units, if_neg small] at whole ⊢
  refine .inr ⟨_, _, rfl, ?_⟩
  rw [characters] at whole
  split at whole
  · rename_i pair
    exact (Bool.and_eq_true_iff.mp pair).1
  · cases whole

theorem not_low_of_encode {text : List Char} {front back : List UInt16}
    (whole : encode text = front ++ back)
    (ends : ∀ last, front.getLast? = some last → isHigh last = false) :
    ∀ head, back.head? = some head → isLow head = false := by
  induction text generalizing front with
  | nil =>
    have none_ := (append_eq_nil_iff.mp whole.symm).2
    intro head starts
    rw [none_] at starts
    cases starts
  | cons char text ih =>
    have inner : ∀ {unit : UInt16} {rest : List UInt16}, front = unit :: rest →
        ∀ last, rest.getLast? = some last → isHigh last = false := by
      intro unit rest split last isLast
      refine ends last ?_
      rw [split, getLast?_cons, isLast]
      rfl
    rw [encode, flatMap_cons] at whole
    cases front with
    | nil =>
      intro head starts
      rw [nil_append] at whole
      rw [← whole, head?_append] at starts
      rcases units_cases char with ⟨unit, one, plain⟩ | ⟨first, second, two, high⟩
      · rw [one] at starts
        cases starts
        exact plain
      · rw [two] at starts
        cases starts
        exact not_low_of_high high
    | cons unit front =>
      rcases units_cases char with ⟨single, one, -⟩ | ⟨first, second, two, high⟩
      · rw [one] at whole
        exact ih (cons.inj whole).2 (inner rfl)
      rw [two] at whole
      cases front with
      | nil =>
        have same := (cons.inj whole).1
        have plain := ends unit rfl
        rw [← same, high] at plain
        cases plain
      | cons other front =>
        refine ih (cons.inj (cons.inj whole).2).2 fun last isLast => ?_
        refine inner rfl last ?_
        rw [getLast?_cons, isLast]
        rfl

theorem decode_encode (text : List Char) : decode (encode text) = text := by
  induction text with
  | nil => rfl
  | cons char text ih =>
    obtain ⟨one, same, ends⟩ := characters_units char
    rw [encode, flatMap_cons, decode, characters_append (apart_of_not_high ends), one,
      map_append, map_singleton, same]
    exact congrArg (char :: ·) ih

/-! ## What is kept of a string that is written -/

theorem mem_characters {string chunk : List UInt16} (member : chunk ∈ characters string) :
    (∃ unit, chunk = [unit]) ∨ ∃ first second, chunk = [first, second] ∧
      isPair first second = true := by
  induction string using characters_induction with
  | empty => cases member
  | single unit => exact .inl ⟨unit, mem_singleton.mp member⟩
  | pair first second string pair ih =>
    rw [characters, if_pos pair] at member
    rcases mem_cons.mp member with rfl | later
    · exact .inr ⟨first, second, rfl, pair⟩
    · exact ih later
  | alone first second string alone ih =>
    rw [characters, if_neg alone] at member
    rcases mem_cons.mp member with rfl | later
    · exact .inl ⟨first, rfl⟩
    · exact ih later

/-- A surrogate that stands alone is written as another unit, and all else as it is. -/
theorem units_character {string chunk : List UInt16} (member : chunk ∈ characters string) :
    units (character chunk) = chunk ∨ ∃ unit, chunk = [unit] ∧
      (isHigh unit || isLow unit) = true ∧ units (character chunk) = [0xFFFD] := by
  rcases mem_characters member with ⟨unit, rfl⟩ | ⟨first, second, rfl, pair⟩
  · cases lone : (isHigh unit || isLow unit) with
    | false => exact .inl (units_single lone)
    | true =>
      refine .inr ⟨unit, rfl, lone, ?_⟩
      rw [character, lone]
      rfl
  · exact .inl (units_pair pair)

/-- A measure that does not tell a lone surrogate from the replacement character is that of the
string that is written. -/
theorem measure_encode_decode {measure : List UInt16 → Nat}
    (append : ∀ front back, measure (front ++ back) = measure front + measure back)
    (lone : ∀ unit, (isHigh unit || isLow unit) = true → measure [0xFFFD] = measure [unit])
    (string : List UInt16) : measure (encode (decode string)) = measure string := by
  have parts : ∀ chunks : List (List UInt16), (∀ chunk ∈ chunks, chunk ∈ characters string) →
      measure (encode (chunks.map character)) = measure chunks.flatten := by
    intro chunks members
    induction chunks with
    | nil => rfl
    | cons chunk chunks ih =>
      obtain ⟨here, later⟩ := forall_mem_cons.mp members
      rw [map_cons, encode, flatMap_cons, append, flatten_cons, append]
      have rest : measure (flatMap units (chunks.map character)) =
          measure chunks.flatten := ih later
      rw [rest]
      rcases units_character here with same | ⟨unit, rfl, alone, written⟩
      · rw [same]
      · rw [written, lone unit alone]
  have whole := parts (characters string) fun chunk member => member
  rwa [flatten_characters] at whole

end Utf16

import Recode.Lib.Json.Parse

/-! # A written value is read back

Reading the text of a value gives the value, when no object of it repeats a key. -/

namespace Json

open Decimal List Nat

mutual
/-- No object of a value repeats a key. -/
def KeysDistinct : Json → Prop
  | .arr items => ItemsDistinct items
  | .obj fields => (fields.map Prod.fst).Nodup ∧ FieldsDistinct fields
  | _ => True
/-- No object in any of the values repeats a key. -/
def ItemsDistinct : List Json → Prop
  | [] => True
  | item :: items => KeysDistinct item ∧ ItemsDistinct items
def FieldsDistinct : List (String × Json) → Prop
  | [] => True
  | (_, value) :: fields => KeysDistinct value ∧ FieldsDistinct fields
end

/-- What follows a value ends a number. -/
def Closes (rest : List Char) : Prop :=
  ∀ char, rest.head? = some char → char = ',' ∨ char = ']' ∨ char = '}' ∨ char = '\n'

variable {fields : List (String × Json)} {digits rest : List Char} {char : Char} (value : String)
  (scale n : Nat)

theorem closes_cons (rest : List Char)
    (closing : char = ',' ∨ char = ']' ∨ char = '}' ∨ char = '\n') : Closes (char :: rest) := by
  intro first head
  cases head
  exact closing

/-! Tokens. -/

theorem nextToken_cons (rest : List Char) (solid : isSpace char = false) :
    nextToken (char :: rest) = some (char, rest) := by
  rw [nextToken, skipSpace, dropWhile_cons_of_neg (by rw [solid]; exact Bool.false_ne_true)]

theorem readToken_cons (rest : List Char) (solid : isSpace char = false) :
    readToken char (char :: rest) = some rest := by
  rw [readToken, nextToken_cons rest solid]
  exact if_pos rfl

/-! String literals. -/

theorem hexDigit?_digitChar {digit : Nat} (small : digit < 16) :
    hexDigit? (digitChar digit) = some digit := by
  have all : ∀ digit : Fin 16, hexDigit? (digitChar digit) = some digit.val := by decide
  exact all ⟨digit, small⟩

theorem hexUnit?_hexDigits {code : Nat} (small : code < 256) :
    hexUnit? '0' '0' (digitChar (code / 16)) (digitChar (code % 16)) = some code := by
  have high : hexDigit? (digitChar (code / 16)) = some (code / 16) :=
    hexDigit?_digitChar (by omega)
  have low : hexDigit? (digitChar (code % 16)) = some (code % 16) :=
    hexDigit?_digitChar (by omega)
  have zero : hexDigit? '0' = some 0 := by decide
  simp only [hexUnit?, high, low, zero, bind, Option.bind, pure]
  congr 1
  omega

theorem readUnits_quote (rest : List Char) : readUnits ('"' :: rest) = some ([], rest) := by
  rw [readUnits.eq_def]
  exact if_pos rfl

theorem readUnits_plain (rest : List Char) (noQuote : char ≠ '"')
    (noSlash : char ≠ '\\') (raw : ¬ char.toNat < 0x20) :
    readUnits (char :: rest) = withUnit (some char.toNat) (readUnits rest) := by
  rw [readUnits.eq_def]
  simp only [if_neg noQuote, if_neg noSlash, if_neg raw]

theorem readUnits_letter {letter : Char} {unit : Nat} (rest : List Char)
    (escape : escape? letter = some unit) :
    readUnits ('\\' :: letter :: rest) = withUnit (some unit) (readUnits rest) := by
  have other : letter ≠ 'u' := by
    rintro rfl
    have none : escape? 'u' = none := by decide
    rw [none] at escape
    cases escape
  have slash : ('\\' : Char) ≠ '"' := by decide
  rw [readUnits.eq_def]
  simp only [if_neg slash, if_neg other, escape, ↓reduceIte]

theorem readUnits_hex {code : Nat} (rest : List Char) (small : code < 256) :
    readUnits ('\\' :: 'u' :: '0' :: '0' :: (hexDigits code ++ rest)) =
      withUnit (some code) (readUnits rest) := by
  have slash : ('\\' : Char) ≠ '"' := by decide
  rw [readUnits.eq_def]
  simp only [if_neg slash, hexDigits, cons_append, nil_append, hexUnit?_hexDigits small, ↓reduceIte]

theorem readUnits_escapeChar (char : Char) (rest : List Char) :
    readUnits (escapeChar char ++ rest) = withUnit (some char.toNat) (readUnits rest) := by
  rw [escapeChar]
  iterate 7
    split
    · rename_i same
      rw [same]
      exact readUnits_letter rest (by decide)
  split
  · exact readUnits_hex rest (by omega)
  · rename_i noQuote noSlash _ _ _ _ _ raw
    exact readUnits_plain rest noQuote noSlash raw

theorem readUnits_quoted (chars rest : List Char) :
    readUnits (chars.flatMap escapeChar ++ '"' :: rest) = some (chars.map Char.toNat, rest) := by
  induction chars with
  | nil => exact readUnits_quote rest
  | cons char chars ih =>
    rw [flatMap_cons, append_assoc, readUnits_escapeChar, ih]
    rfl

theorem not_surrogate (char : Char) :
    (isHighSurrogate char.toNat || isLowSurrogate char.toNat) = false := by
  have valid : char.toNat < 0xD800 ∨ 0xDFFF < char.toNat ∧ char.toNat < 0x110000 := char.valid
  rw [Bool.eq_false_iff, isHighSurrogate, isLowSurrogate]
  simp only [ne_eq, Bool.or_eq_true, Bool.and_eq_true, decide_eq_true_eq]
  omega

theorem unitChar_toNat (char : Char) : unitChar char.toNat = char := by
  rw [unitChar, not_surrogate, if_neg Bool.false_ne_true, Char.ofNat_toNat]

theorem pairUnits_map_toNat (chars : List Char) : pairUnits (chars.map Char.toNat) = chars := by
  induction chars with
  | nil => rfl
  | cons char chars ih =>
    cases chars with
    | nil => rw [map_singleton, pairUnits, unitChar_toNat]
    | cons next chars =>
      have alone := (Bool.or_eq_false_iff.mp (not_surrogate char)).1
      rw [map_cons] at ih
      rw [map_cons, map_cons, pairUnits, alone, Bool.false_and, if_neg Bool.false_ne_true,
        unitChar_toNat, ih]

theorem readString_quoted (rest : List Char) :
    readString (value.toList.flatMap escapeChar ++ '"' :: rest) = some (value, rest) := by
  rw [readString, readUnits_quoted, Option.map_some, pairUnits_map_toNat, String.ofList_toList]

/-! Numbers. -/

/-- Text behind a run of digits. -/
def EndsDigits (rest : List Char) : Prop := ∀ char, rest.head? = some char → char.isDigit = false

theorem takeWhile_digits (all : ∀ char ∈ digits, char.isDigit = true)
    (ends : EndsDigits rest) : (digits ++ rest).takeWhile Char.isDigit = digits := by
  rw [takeWhile_append_of_pos all]
  cases rest with
  | nil => exact append_nil digits
  | cons char rest =>
    rw [takeWhile_cons_of_neg (by rw [ends char rfl]; exact Bool.false_ne_true)]
    exact append_nil digits

theorem dropWhile_digits (all : ∀ char ∈ digits, char.isDigit = true)
    (ends : EndsDigits rest) : (digits ++ rest).dropWhile Char.isDigit = rest := by
  rw [dropWhile_append_of_pos all]
  cases rest with
  | nil => rfl
  | cons char rest =>
    exact dropWhile_cons_of_neg (by rw [ends char rfl]; exact Bool.false_ne_true)

theorem readDigits_append (some_ : digits ≠ []) (all : ∀ char ∈ digits, char.isDigit = true)
    (ends : EndsDigits rest) : readDigits (digits ++ rest) = some (digits, rest) := by
  simp only [readDigits, takeWhile_digits all ends, dropWhile_digits all ends, if_neg some_]

theorem toDigits_lead {n : Nat} {digits : List Char} (lead : toDigits 10 n = '0' :: digits) :
    digits = [] := by
  induction n using Nat.strong_induction_on generalizing digits with
  | _ n ih =>
    by_cases small : n < 10
    · rw [toDigits_of_lt_base small] at lead
      exact (List.cons.inj lead).2.symm
    have shorter : n / 10 < n := Nat.div_lt_self (by omega) (by decide)
    rw [toDigits_of_base_le (by decide) (by omega)] at lead
    cases front : toDigits 10 (n / 10) with
    | nil => exact absurd front toDigits_ne_nil
    | cons char others =>
      rw [front, cons_append] at lead
      obtain ⟨rfl, -⟩ := List.cons.inj lead
      obtain rfl := ih (n / 10) shorter front
      have value := congrArg (fun chars => ofDigitChars 10 chars 0) front
      rw [ofDigitChars_toDigits (by decide) (by decide)] at value
      have zero : n / 10 = 0 := value
      omega

theorem readInteger_toDigits (n : Nat) {rest : List Char} (ends : EndsDigits rest) :
    readInteger (toDigits 10 n ++ rest) = some (toDigits 10 n, rest) := by
  have read : readDigits (toDigits 10 n ++ rest) = some (toDigits 10 n, rest) :=
    readDigits_append toDigits_ne_nil (fun _ member => isDigit_toDigits member) ends
  cases digits : toDigits 10 n with
  | nil => exact absurd digits toDigits_ne_nil
  | cons char others =>
    rw [digits] at read
    rw [cons_append] at read ⊢
    rw [readInteger]
    by_cases zero : char = '0'
    · subst zero
      rw [if_pos rfl, toDigits_lead digits]
      rfl
    · rw [if_neg zero, read]

def fractionDigits (scale n : Nat) : List Char :=
  if scale = 0 then [] else padded scale (n % 10 ^ scale)

theorem length_fractionDigits : (fractionDigits scale n).length = scale := by
  rw [fractionDigits]
  split
  · rename_i zero
    exact zero.symm
  · rename_i positive
    exact length_padded (Nat.pos_of_ne_zero positive)
      (mod_lt _ (Nat.pow_pos (by decide)))

theorem isDigit_padded {width n : Nat} {char : Char} (member : char ∈ padded width n) :
    char.isDigit = true := by
  rw [padded] at member
  rcases mem_append.mp member with zeros | digits
  · rw [(mem_replicate.mp zeros).2]
    rfl
  · exact isDigit_toDigits digits

theorem Closes.endsDigits {rest : List Char} (closes : Closes rest) : EndsDigits rest := by
  intro char head
  rcases closes char head with rfl | rfl | rfl | rfl
  all_goals decide

theorem readFraction_fraction {rest : List Char} (closes : Closes rest) :
    readFraction (fraction scale n ++ rest) = some (fractionDigits scale n, rest) := by
  rw [fraction, fractionDigits]
  by_cases zero : scale = 0
  · rw [if_pos zero, if_pos zero, nil_append]
    cases rest with
    | nil => rfl
    | cons char rest =>
      have noPoint : char ≠ '.' := by
        rintro rfl
        exact absurd (closes '.' rfl) (by decide)
      rw [readFraction, if_neg noPoint]
  · rw [if_neg zero, if_neg zero, cons_append, readFraction, if_pos rfl]
    have long := length_fractionDigits scale n
    rw [fractionDigits, if_neg zero] at long
    apply readDigits_append _ (fun _ member => isDigit_padded member) closes.endsDigits
    rintro none
    rw [none] at long
    exact zero long.symm

theorem readExponent_closes {rest : List Char} (closes : Closes rest) :
    readExponent rest = some (0, rest) := by
  cases rest with
  | nil => rfl
  | cons char rest =>
    have noLetter : ¬ (char = 'e' ∨ char = 'E') := by
      rcases closes char rfl with rfl | rfl | rfl | rfl
      all_goals decide
    rw [readExponent, if_neg noLetter]

theorem ofDigitChars_magnitude :
    ofDigitChars 10 (toDigits 10 (n / 10 ^ scale) ++ fractionDigits scale n) 0 = n := by
  rw [ofDigitChars_append, ofDigitChars_toDigits (by decide) (by decide),
    ofDigitChars_eq_ofDigitChars_zero, length_fractionDigits, fractionDigits]
  split
  · rename_i zero
    rw [zero, Nat.pow_zero, Nat.div_one, ofDigitChars_nil, Nat.one_mul, Nat.add_zero]
  · rw [ofDigitChars_padded, div_add_mod]

theorem readMagnitude_magnitude (negative : Bool) (scale n : Nat) {rest : List Char}
    (closes : Closes rest) :
    readMagnitude negative (magnitude scale n ++ rest) =
      some (.of (if negative then -(n : Int) else n) scale, rest) := by
  have ends : EndsDigits (fraction scale n ++ rest) := by
    intro char head
    cases digits : fraction scale n with
    | nil =>
      rw [digits] at head
      exact closes.endsDigits char head
    | cons first others =>
      rw [digits] at head
      cases head
      have point : (fraction scale n).head? = some char := by
        rw [digits]
        rfl
      exact Bool.eq_false_iff.mpr (fraction_head point)
  rw [magnitude_eq, append_assoc, readMagnitude, readInteger_toDigits _ ends]
  simp only [bind, Option.bind, readFraction_fraction scale n closes, readExponent_closes closes,
    ofDigitChars_magnitude, length_fractionDigits, pure]
  rw [scientific, if_neg (by decide), Int.natAbs_zero, pow_zero, mul_one]

theorem readNumber_text (number : Decimal) {rest : List Char} (closes : Closes rest) :
    readNumber (number.text ++ rest) = some (number, rest) := by
  rw [text]
  split
  · rename_i negative
    rw [cons_append, readNumber, if_pos rfl, readMagnitude_magnitude true _ _ closes, if_pos rfl]
    have value : -(number.mantissa.natAbs : Int) = number.mantissa := by omega
    rw [value, of_parts]
  rename_i positive
  have read := readMagnitude_magnitude false number.scale number.mantissa.natAbs closes
  obtain ⟨char, others, shape, digit⟩ :=
    magnitude_digit number.scale number.mantissa.natAbs
  have noSign : char ≠ '-' := by
    rintro rfl
    cases digit
  rw [shape, cons_append] at read ⊢
  rw [readNumber, if_neg noSign, read, if_neg Bool.false_ne_true]
  have value : (number.mantissa.natAbs : Int) = number.mantissa := by omega
  rw [value, of_parts]

/-! Values. -/

theorem setField_fresh {field : String × Json}
    (fresh : field.1 ∉ fields.map Prod.fst) : setField fields field = fields ++ [field] := by
  have absent : (fields.any fun other => decide (other.1 = field.1)) = false := by
    rw [any_eq_false]
    intro other member same
    exact fresh (mem_map.mpr ⟨other, member, of_decide_eq_true same⟩)
  rw [setField, absent, if_neg Bool.false_ne_true]

/-- An object without repeated keys has its fields as they are written. -/
theorem ofWritten_distinct
    (distinct : (fields.map Prod.fst).Nodup) : ofWritten fields = .obj fields := by
  have all : ∀ front back : List (String × Json), ((front ++ back).map Prod.fst).Nodup →
      back.foldl setField front = front ++ back := by
    intro front back
    induction back generalizing front with
    | nil => intro _; exact (append_nil front).symm
    | cons field back ih =>
      intro distinct
      have fresh : field.1 ∉ front.map Prod.fst := by
        rw [map_append, nodup_append] at distinct
        exact fun member => distinct.2.2 _ member _ mem_cons_self rfl
      rw [foldl_cons, setField_fresh fresh, ih, append_assoc, singleton_append]
      rwa [append_assoc, singleton_append]
  rw [ofWritten, all [] fields distinct, nil_append]

theorem two_le_length_quote : 2 ≤ (quote value).length := by
  rw [quote, cons_append, length_cons, length_append, length_singleton]
  omega

theorem readValue_num (number : Decimal) {rest : List Char} (closes : Closes rest) (fuel : Nat) :
    readValue (fuel + 1) (number.text ++ rest) = some (.num number, rest) := by
  have read := readNumber_text number closes
  obtain ⟨char, chars, shape, numeral⟩ := number.text_head
  have apart (other : Char) (word : ¬ Decimal.IsNumeral other) : char ≠ other :=
    fun same => word (same ▸ numeral)
  have solid : isSpace char = false := by
    simp only [isSpace, Bool.or_eq_false_iff, decide_eq_false_iff_not]
    refine ⟨⟨⟨apart ' ' ?_, apart '\t' ?_⟩, apart '\n' ?_⟩, apart '\r' ?_⟩
    all_goals
      rw [Decimal.IsNumeral]
      decide
  rw [shape, cons_append] at read ⊢
  rw [readValue, nextToken_cons _ solid]
  simp only [bind, Option.bind]
  rw [if_neg (apart '\x7b' ?_), if_neg (apart '[' ?_), if_neg (apart '"' ?_),
    if_neg (apart 'n' ?_), if_neg (apart 't' ?_), if_neg (apart 'f' ?_), read]
  · rfl
  all_goals
    rw [Decimal.IsNumeral]
    decide

theorem readValue_str (rest : List Char) (fuel : Nat) :
    readValue (fuel + 1) ((Json.str value).stringify ++ rest) = some (.str value, rest) := by
  rw [stringify, quote_append, readValue, nextToken_cons _ rfl]
  change (readString _ >>= _) = _
  rw [readString_quoted]
  rfl

theorem nextToken_stringify (value : Json) (rest : List Char) :
    ∃ char chars, value.stringify ++ rest = char :: chars ∧
      nextToken (value.stringify ++ rest) = some (char, chars) ∧ char ≠ ']' := by
  obtain ⟨char, chars, shape, kind, other⟩ := value.stringify_head
  refine ⟨char, chars ++ rest, by rw [shape]; rfl, ?_, other⟩
  rw [shape, cons_append]
  apply nextToken_cons
  have apart (space : Char) (word : ¬ Decimal.IsNumeral space) (plain : kindOf space = .num) :
      char ≠ space := by
    rintro rfl
    rw [plain] at kind
    cases value with
    | num number =>
      obtain ⟨first, others, text, numeral⟩ := number.text_head
      rw [stringify, text] at shape
      cases shape
      exact word numeral
    | bool value => cases value <;> cases kind
    | _ => cases kind
  simp only [isSpace, Bool.or_eq_false_iff, decide_eq_false_iff_not]
  refine ⟨⟨⟨apart ' ' ?_ rfl, apart '\t' ?_ rfl⟩, apart '\n' ?_ rfl⟩, apart '\r' ?_ rfl⟩
  all_goals
    rw [Decimal.IsNumeral]
    decide

/-! White space. -/

/-- The white space that a text has before its items and behind its colons. -/
structure Layout where
  gap : Nat → List Char
  space : List Char
  gap_blank : ∀ depth, ∀ char ∈ gap depth, isSpace char = true
  gap_head : ∀ depth char, (gap depth).head? = some char → char = '\n'
  space_blank : ∀ char ∈ space, isSpace char = true

mutual
/-- The text of a value in a layout. -/
def written (layout : Layout) (depth : Nat) : Json → List Char
  | .arr [] => ['[', ']']
  | .arr (item :: items) =>
    '[' :: layout.gap (depth + 1) ++ written layout (depth + 1) item ++
      writtenItems layout depth items
  | .obj [] => ['{', '}']
  | .obj ((key, value) :: fields) =>
    '{' :: layout.gap (depth + 1) ++ quote key ++ ':' :: layout.space ++
      written layout (depth + 1) value ++ writtenFields layout depth fields
  | .null => stringify .null
  | .bool value => stringify (.bool value)
  | .num value => stringify (.num value)
  | .str value => stringify (.str value)
/-- The text of an array after its first item. -/
def writtenItems (layout : Layout) (depth : Nat) : List Json → List Char
  | [] => layout.gap depth ++ [']']
  | item :: items =>
    ',' :: layout.gap (depth + 1) ++ written layout (depth + 1) item ++
      writtenItems layout depth items
/-- The text of an object after its first field. -/
def writtenFields (layout : Layout) (depth : Nat) : List (String × Json) → List Char
  | [] => layout.gap depth ++ ['}']
  | (key, value) :: fields =>
    ',' :: layout.gap (depth + 1) ++ quote key ++ ':' :: layout.space ++
      written layout (depth + 1) value ++ writtenFields layout depth fields
end

section Blank

variable {gap : List Char} (blank : ∀ char ∈ gap, isSpace char = true) (chars : List Char)
include blank

theorem nextToken_blank : nextToken (gap ++ chars) = nextToken chars := by
  rw [nextToken, nextToken, skipSpace, skipSpace, dropWhile_append_of_pos blank]

theorem readValue_blank (fuel : Nat) : readValue fuel (gap ++ chars) = readValue fuel chars := by
  cases fuel with
  | zero => rfl
  | succ fuel => rw [readValue, readValue, nextToken_blank blank]

theorem readItems_blank (fuel : Nat) : readItems fuel (gap ++ chars) = readItems fuel chars := by
  cases fuel with
  | zero => rfl
  | succ fuel => rw [readItems, readItems, readValue_blank blank]

theorem readFields_blank (fuel : Nat) : readFields fuel (gap ++ chars) = readFields fuel chars := by
  cases fuel with
  | zero => rfl
  | succ fuel => rw [readFields, readFields, readToken, readToken, nextToken_blank blank]

end Blank

variable (layout : Layout)

theorem Layout.closes_gap (depth : Nat) {char : Char} (rest : List Char)
    (closing : char = ',' ∨ char = ']' ∨ char = '}' ∨ char = '\n') :
    Closes (layout.gap depth ++ char :: rest) := by
  cases gap : layout.gap depth with
  | nil => exact closes_cons rest closing
  | cons first others =>
    refine closes_cons _ (.inr (.inr (.inr (layout.gap_head depth first ?_))))
    rw [gap, head?_cons]

theorem closes_items (depth : Nat) (items : List Json) (rest : List Char) :
    Closes (writtenItems layout depth items ++ rest) := by
  cases items with
  | nil =>
    rw [writtenItems, append_assoc]
    exact layout.closes_gap depth _ (by decide)
  | cons item items => exact closes_cons _ (by decide)

theorem closes_fields (depth : Nat) (fields : List (String × Json)) (rest : List Char) :
    Closes (writtenFields layout depth fields ++ rest) := by
  cases fields with
  | nil =>
    rw [writtenFields, append_assoc]
    exact layout.closes_gap depth _ (by decide)
  | cons field fields => exact closes_cons _ (by decide)

theorem nextToken_written (depth : Nat) (value : Json) (rest : List Char) :
    ∃ char chars, written layout depth value ++ rest = char :: chars ∧
      nextToken (written layout depth value ++ rest) = some (char, chars) ∧ char ≠ ']' := by
  cases value with
  | arr items =>
    cases items with
    | nil => exact ⟨'[', _, rfl, nextToken_cons _ rfl, by decide⟩
    | cons item items => exact ⟨'[', _, rfl, nextToken_cons _ rfl, by decide⟩
  | obj fields =>
    cases fields with
    | nil => exact ⟨'{', _, rfl, nextToken_cons _ rfl, by decide⟩
    | cons field fields => exact ⟨'{', _, rfl, nextToken_cons _ rfl, by decide⟩
  | null => exact nextToken_stringify .null rest
  | bool value => exact nextToken_stringify (.bool value) rest
  | num value => exact nextToken_stringify (.num value) rest
  | str value => exact nextToken_stringify (.str value) rest

/-- A value is read back from its text, and what follows is left. -/
def ReadsBack (value : Json) : Prop :=
  ∀ (depth : Nat) (rest : List Char) (fuel : Nat), Closes rest →
    (written layout depth value).length ≤ fuel →
      readValue fuel (written layout depth value ++ rest) = some (value, rest)

variable {layout}

theorem readItems_written {item : Json} {items : List Json} (first : item.ReadsBack layout)
    (others : ∀ other ∈ items, other.ReadsBack layout) (depth : Nat) (rest : List Char)
    {fuel : Nat} (enough : (written layout (depth + 1) item).length +
      (writtenItems layout depth items).length ≤ fuel) :
    readItems fuel (written layout (depth + 1) item ++ (writtenItems layout depth items ++ rest)) =
      some (item :: items, rest) := by
  induction items generalizing item fuel with
  | nil =>
    rw [writtenItems, length_append, length_singleton] at enough
    obtain ⟨fuel, rfl⟩ : ∃ less, fuel = less + 1 := ⟨fuel - 1, by omega⟩
    rw [readItems, first _ _ _ (closes_items layout depth [] rest) (by omega)]
    simp only [Option.bind_eq_bind, Option.bind_some]
    rw [writtenItems, append_assoc, nextToken_blank (layout.gap_blank depth)]
    rfl
  | cons next items ih =>
    rw [writtenItems, length_append, length_append, length_cons] at enough
    obtain ⟨fuel, rfl⟩ : ∃ less, fuel = less + 1 := ⟨fuel - 1, by omega⟩
    rw [readItems, first _ _ _ (closes_items layout depth (next :: items) rest) (by omega)]
    simp only [Option.bind_eq_bind, Option.bind_some]
    rw [writtenItems]
    simp only [cons_append, append_assoc]
    rw [nextToken_cons _ rfl, Option.bind_some]
    simp only [↓reduceIte]
    rw [readItems_blank (layout.gap_blank _), ih (others next mem_cons_self)
      (fun other member => others other (mem_cons_of_mem _ member)) (by omega)]
    rfl

theorem readFields_written {key : String} {value : Json} {fields : List (String × Json)}
    (first : value.ReadsBack layout) (others : ∀ field ∈ fields, field.2.ReadsBack layout)
    (depth : Nat) (rest : List Char) {fuel : Nat}
    (enough : (written layout (depth + 1) value).length +
      (writtenFields layout depth fields).length + 1 ≤ fuel) :
    readFields fuel (quote key ++ ':' :: (layout.space ++
        (written layout (depth + 1) value ++ (writtenFields layout depth fields ++ rest)))) =
      some ((key, value) :: fields, rest) := by
  induction fields generalizing key value fuel with
  | nil =>
    obtain ⟨fuel, rfl⟩ : ∃ less, fuel = less + 1 := ⟨fuel - 1, by omega⟩
    rw [readFields, quote_append, readToken_cons _ rfl]
    simp only [Option.bind_eq_bind, Option.bind_some, readString_quoted]
    rw [readToken_cons _ rfl, Option.bind_some, readValue_blank layout.space_blank,
      first _ _ _ (closes_fields layout depth [] rest) (by omega)]
    simp only [Option.bind_some]
    rw [writtenFields, append_assoc, nextToken_blank (layout.gap_blank depth)]
    rfl
  | cons field fields ih =>
    obtain ⟨nextKey, nextValue⟩ := field
    have next : nextValue.ReadsBack layout := others _ mem_cons_self
    rw [writtenFields, length_append, length_append, length_append, length_append,
      length_cons, length_cons] at enough
    obtain ⟨fuel, rfl⟩ : ∃ less, fuel = less + 1 := ⟨fuel - 1, by omega⟩
    rw [readFields, quote_append, readToken_cons _ rfl]
    simp only [Option.bind_eq_bind, Option.bind_some, readString_quoted]
    rw [readToken_cons _ rfl, Option.bind_some, readValue_blank layout.space_blank,
      first _ _ _ (closes_fields layout depth _ rest) (by omega)]
    simp only [Option.bind_some]
    rw [writtenFields]
    simp only [cons_append, append_assoc]
    rw [nextToken_cons _ rfl, Option.bind_some]
    simp only [↓reduceIte]
    rw [readFields_blank (layout.gap_blank _), ih next
      (fun other member => others other (mem_cons_of_mem _ member)) (by omega)]
    rfl

theorem readsBack_arr {items : List Json} (each : ∀ item ∈ items, item.ReadsBack layout) :
    (Json.arr items).ReadsBack layout := by
  intro depth rest fuel closes enough
  cases items with
  | nil =>
    rw [written, length_cons] at enough
    obtain ⟨fuel, rfl⟩ : ∃ less, fuel = less + 1 := ⟨fuel - 1, by omega⟩
    rw [written, readValue]
    rfl
  | cons item items =>
    rw [written, length_append, length_append, length_cons] at enough
    obtain ⟨fuel, rfl⟩ : ∃ less, fuel = less + 1 := ⟨fuel - 1, by omega⟩
    obtain ⟨char, chars, shape, token, other⟩ :=
      nextToken_written layout (depth + 1) item (writtenItems layout depth items ++ rest)
    have read : readItems fuel
        (written layout (depth + 1) item ++ (writtenItems layout depth items ++ rest)) =
          some (item :: items, rest) :=
      readItems_written (each item mem_cons_self)
        (fun other member => each other (mem_cons_of_mem _ member)) depth rest (by omega)
    rw [written]
    simp only [cons_append, append_assoc]
    rw [readValue, nextToken_cons _ rfl]
    change (nextToken _ >>= _) = _
    rw [nextToken_blank (layout.gap_blank _), token]
    change (if char = ']' then _ else _) = _
    rw [if_neg other, ← shape, read]
    rfl

theorem readsBack_obj (distinct : (fields.map Prod.fst).Nodup)
    (each : ∀ field ∈ fields, field.2.ReadsBack layout) : (Json.obj fields).ReadsBack layout := by
  intro depth rest fuel closes enough
  cases fields with
  | nil =>
    rw [written, length_cons] at enough
    obtain ⟨fuel, rfl⟩ : ∃ less, fuel = less + 1 := ⟨fuel - 1, by omega⟩
    rw [written, readValue]
    rfl
  | cons field fields =>
    obtain ⟨key, value⟩ := field
    have first : value.ReadsBack layout := each _ mem_cons_self
    rw [written, length_append, length_append, length_append, length_append, length_cons,
      length_cons] at enough
    obtain ⟨fuel, rfl⟩ : ∃ less, fuel = less + 1 := ⟨fuel - 1, by omega⟩
    have quotes := two_le_length_quote key
    have read : readFields fuel (quote key ++ ':' :: (layout.space ++
        (written layout (depth + 1) value ++ (writtenFields layout depth fields ++ rest)))) =
          some ((key, value) :: fields, rest) :=
      readFields_written first
        (fun other member => each other (mem_cons_of_mem _ member)) depth rest (by omega)
    rw [quote_append] at read
    rw [written]
    simp only [cons_append, append_assoc]
    rw [readValue, nextToken_cons _ rfl, quote_append]
    simp only [Option.bind_eq_bind, Option.bind_some, ↓reduceIte]
    rw [nextToken_blank (layout.gap_blank _), nextToken_cons _ rfl]
    change (readFields fuel _ >>= _) = _
    rw [read]
    change some (ofWritten _, rest) = _
    rw [ofWritten_distinct distinct]

mutual
theorem readsBack (value : Json) (distinct : value.KeysDistinct) : value.ReadsBack layout := by
  match value with
  | .arr items => exact readsBack_arr (readsBack_items items distinct)
  | .obj fields => exact readsBack_obj distinct.1 (readsBack_fields fields distinct.2)
  | .null | .bool true | .bool false | .num _ | .str _ =>
    intro depth rest fuel closes enough
    obtain ⟨fuel, rfl⟩ : ∃ less, fuel = less + 1 := by
      obtain ⟨char, chars, shape, -⟩ := stringify_head _
      rw [written, shape, length_cons] at enough
      exact ⟨fuel - 1, by omega⟩
    first
      | exact readValue_num _ closes fuel
      | exact readValue_str _ rest fuel
      | rw [written, stringify, readValue]; rfl
theorem readsBack_items (items : List Json) (distinct : ItemsDistinct items) :
    ∀ item ∈ items, item.ReadsBack layout := by
  match items with
  | [] => exact fun _ member => absurd member not_mem_nil
  | item :: items =>
    exact forall_mem_cons.mpr
      ⟨readsBack item distinct.1, readsBack_items items distinct.2⟩
theorem readsBack_fields (fields : List (String × Json)) (distinct : FieldsDistinct fields) :
    ∀ field ∈ fields, field.2.ReadsBack layout := by
  match fields with
  | [] => exact fun _ member => absurd member not_mem_nil
  | (_, value) :: fields =>
    exact forall_mem_cons.mpr
      ⟨readsBack value distinct.1, readsBack_fields fields distinct.2⟩
end

end Json

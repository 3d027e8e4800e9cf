import Recode.Lib.Json.Value

/-! # A JSON text is the text of one value

The texts of two values are the same only if the values are. A text can be told apart from
what follows it: a number ends before the first character that no number has, and every other
text ends itself. -/

open List

theorem cut_unique {kind : Char → Prop} {front front' rest rest' : List Char}
    (all : ∀ char ∈ front, kind char) (all' : ∀ char ∈ front', kind char)
    (stops : ∀ char, rest.head? = some char → ¬ kind char)
    (stops' : ∀ char, rest'.head? = some char → ¬ kind char)
    (same : front ++ rest = front' ++ rest') : front = front' ∧ rest = rest' := by
  induction front generalizing front' with
  | nil =>
    cases front' with
    | nil => exact ⟨rfl, same⟩
    | cons char front' =>
      rw [nil_append] at same
      exact absurd (all' char mem_cons_self) (stops char (by rw [same]; rfl))
  | cons char front ih =>
    cases front' with
    | nil =>
      rw [nil_append] at same
      exact absurd (all char mem_cons_self) (stops' char (by rw [← same]; rfl))
    | cons char' front' =>
      obtain ⟨rfl, tails⟩ := cons.inj same
      obtain ⟨rfl, rests⟩ := ih (fun other member => all other (mem_cons_of_mem _ member))
        (fun other member => all' other (mem_cons_of_mem _ member)) tails
      exact ⟨rfl, rests⟩

namespace Decimal

open Nat

theorem ofDigitChars_padded (width n : Nat) : ofDigitChars 10 (padded width n) 0 = n := by
  rw [padded, ofDigitChars_append, ofDigitChars_replicate_zero, mul_zero,
    ofDigitChars_toDigits (by decide) (by decide)]

theorem length_padded {width n : Nat} (positive : 0 < width) (small : n < 10 ^ width) :
    (padded width n).length = width := by
  have short := (length_toDigits_le_iff (by decide) positive).mpr small
  rw [padded, length_append, length_replicate]
  omega

def fraction (scale n : Nat) : List Char :=
  if scale = 0 then [] else '.' :: padded scale (n % 10 ^ scale)

theorem magnitude_eq (scale n : Nat) :
    magnitude scale n = toDigits 10 (n / 10 ^ scale) ++ fraction scale n := by
  rw [magnitude, fraction]
  split
  · rename_i zero
    rw [zero, Nat.pow_zero, Nat.div_one, append_nil]
  · rfl

theorem isDigit_toDigits {n : Nat} {char : Char} (member : char ∈ toDigits 10 n) :
    char.isDigit = true :=
  isDigit_of_mem_toDigits (by decide) (by decide) member

theorem fraction_head {scale n : Nat} {char : Char}
    (head : (fraction scale n).head? = some char) : ¬ char.isDigit = true := by
  rw [fraction] at head
  split at head
  · cases head
  · cases head
    decide

theorem fraction_injective {scale scale' n n' : Nat}
    (same : fraction scale n = fraction scale' n') :
    scale = scale' ∧ n % 10 ^ scale = n' % 10 ^ scale' := by
  rw [fraction, fraction] at same
  split at same
  · rename_i zero
    split at same
    · rename_i zero'
      rw [zero, zero', Nat.pow_zero, mod_one, mod_one]
      exact ⟨rfl, rfl⟩
    · cases same
  · rename_i positive
    split at same
    · cases same
    rename_i positive'
    have digits := (cons.inj same).2
    have lengths := congrArg length digits
    rw [length_padded (Nat.pos_of_ne_zero positive) (mod_lt _ (Nat.pow_pos (by decide))),
      length_padded (Nat.pos_of_ne_zero positive') (mod_lt _ (Nat.pow_pos (by decide)))]
      at lengths
    have values := congrArg (fun chars => ofDigitChars 10 chars 0) digits
    rw [ofDigitChars_padded, ofDigitChars_padded] at values
    exact ⟨lengths, values⟩

theorem toDigits_injective {n n' : Nat} (same : toDigits 10 n = toDigits 10 n') : n = n' := by
  have values := congrArg (fun chars => ofDigitChars 10 chars 0) same
  rwa [ofDigitChars_toDigits (by decide) (by decide),
    ofDigitChars_toDigits (by decide) (by decide)] at values

theorem magnitude_injective {scale scale' n n' : Nat}
    (same : magnitude scale n = magnitude scale' n') : scale = scale' ∧ n = n' := by
  rw [magnitude_eq, magnitude_eq] at same
  obtain ⟨digits, fractions⟩ := cut_unique (fun _ member => isDigit_toDigits member)
    (fun _ member => isDigit_toDigits member) (fun _ head => fraction_head head)
    (fun _ head => fraction_head head) same
  obtain ⟨rfl, remainders⟩ := fraction_injective fractions
  refine ⟨rfl, ?_⟩
  rw [← div_add_mod n (10 ^ scale), toDigits_injective digits, remainders, div_add_mod]

def sign (number : Decimal) : List Char := if number.mantissa < 0 then ['-'] else []

theorem text_eq (number : Decimal) :
    number.text = number.sign ++ magnitude number.scale number.mantissa.natAbs := by
  rw [text, sign]
  split <;> rfl

theorem magnitude_digit (scale n : Nat) :
    ∃ char chars, magnitude scale n = char :: chars ∧ char.isDigit = true := by
  rw [magnitude_eq]
  cases digits : toDigits 10 (n / 10 ^ scale) with
  | nil => exact absurd digits toDigits_ne_nil
  | cons char chars =>
    have member : char ∈ toDigits 10 (n / 10 ^ scale) := digits ▸ mem_cons_self
    exact ⟨char, chars ++ fraction scale n, rfl, isDigit_toDigits member⟩

theorem text_injective {left right : Decimal} (same : left.text = right.text) : left = right := by
  have signs (number : Decimal) : ∀ char ∈ number.sign, char = '-' := by
    intro char member
    rw [sign] at member
    split at member
    · exact mem_singleton.mp member
    · cases member
  have stops (scale n : Nat) : ∀ char, (magnitude scale n).head? = some char → ¬ char = '-' := by
    intro char head dash
    obtain ⟨first, rest, shape, digit⟩ := magnitude_digit scale n
    rw [shape, head?_cons] at head
    cases head
    rw [dash] at digit
    cases digit
  rw [text_eq, text_eq] at same
  obtain ⟨sameSign, sameMagnitude⟩ :=
    cut_unique (signs left) (signs right) (stops _ _) (stops _ _) same
  obtain ⟨scales, values⟩ := magnitude_injective sameMagnitude
  have negative : left.mantissa < 0 ↔ right.mantissa < 0 := by
    rw [sign, sign] at sameSign
    split at sameSign <;> split at sameSign
    · rename_i first second
      exact ⟨fun _ => second, fun _ => first⟩
    · cases sameSign
    · cases sameSign
    · rename_i first second
      exact ⟨fun less => absurd less first, fun less => absurd less second⟩
  have mantissas : left.mantissa = right.mantissa := by omega
  cases left
  cases right
  cases mantissas
  cases scales
  rfl

def IsNumeral (char : Char) : Prop := char.isDigit = true ∨ char = '.' ∨ char = '-'

theorem isNumeral_text {number : Decimal} {char : Char} (member : char ∈ number.text) :
    IsNumeral char := by
  rw [text_eq, magnitude_eq] at member
  rcases mem_append.mp member with inSign | inMagnitude
  · rw [sign] at inSign
    split at inSign
    · exact .inr (.inr (mem_singleton.mp inSign))
    · cases inSign
  rcases mem_append.mp inMagnitude with digits | inFraction
  · exact .inl (isDigit_toDigits digits)
  rw [fraction] at inFraction
  split at inFraction
  · cases inFraction
  rcases mem_cons.mp inFraction with point | inPadded
  · exact .inr (.inl point)
  rw [padded] at inPadded
  rcases mem_append.mp inPadded with zeros | digits
  · rw [(mem_replicate.mp zeros).2]
    exact .inl rfl
  · exact .inl (isDigit_toDigits digits)

theorem text_head (number : Decimal) :
    ∃ char chars, number.text = char :: chars ∧ IsNumeral char := by
  obtain ⟨first, rest, shape, digit⟩ := magnitude_digit number.scale number.mantissa.natAbs
  rw [text_eq, sign, shape]
  split
  · exact ⟨'-', _, rfl, .inr (.inr rfl)⟩
  · exact ⟨first, rest, rfl, .inl digit⟩

end Decimal

namespace Json

def hexValue (digit : Char) : Nat :=
  if digit.isDigit then digit.toNat - '0'.toNat else digit.toNat - 'a'.toNat + 10

/-- What an escape sequence stands for behind its backslash, and the rest of the literal. -/
def readEscape : List Char → Option (Char × List Char)
  | 'b' :: rest => some ('\x08', rest)
  | 'f' :: rest => some ('\x0c', rest)
  | 'n' :: rest => some ('\n', rest)
  | 'r' :: rest => some ('\r', rest)
  | 't' :: rest => some ('\t', rest)
  | 'u' :: _ :: _ :: high :: low :: rest =>
    some (Char.ofNat (16 * hexValue high + hexValue low), rest)
  | char :: rest => some (char, rest)
  | [] => none

/-- The first character that a string literal stands for, and the rest of the literal. -/
def readChar : List Char → Option (Char × List Char)
  | [] => none
  | char :: rest =>
    if char = '"' then none else if char = '\\' then readEscape rest else some (char, rest)

theorem hexValue_digitChar (digit : Nat) (small : digit < 16) :
    hexValue (Nat.digitChar digit) = digit := by
  have all : ∀ digit : Fin 16, hexValue (Nat.digitChar digit) = digit := by decide
  exact all ⟨digit, small⟩

theorem readChar_escapeChar (char : Char) (rest : List Char) :
    readChar (escapeChar char ++ rest) = some (char, rest) := by
  rw [escapeChar]
  iterate 7
    split
    · rename_i same
      rw [same]
      rfl
  split
  · have read : readChar ('\\' :: 'u' :: '0' :: '0' :: hexDigits char.toNat ++ rest) =
        some (Char.ofNat (16 * hexValue (Nat.digitChar (char.toNat / 16)) +
          hexValue (Nat.digitChar (char.toNat % 16))), rest) := rfl
    rw [read, hexValue_digitChar _ (by omega), hexValue_digitChar _ (by omega),
      Nat.div_add_mod, Char.ofNat_toNat]
  · rename_i noQuote noSlash _ _ _ _ _ _
    rw [singleton_append, readChar, if_neg noQuote, if_neg noSlash]

/-- The characters of a literal are told apart from its end. -/
theorem escapes_cancel {chars chars' rest rest' : List Char}
    (same : chars.flatMap escapeChar ++ '"' :: rest = chars'.flatMap escapeChar ++ '"' :: rest') :
    chars = chars' ∧ rest = rest' := by
  have quoted (rest : List Char) : readChar ('"' :: rest) = none := rfl
  induction chars generalizing chars' with
  | nil =>
    cases chars' with
    | nil => exact ⟨rfl, (cons.inj same).2⟩
    | cons char chars' =>
      have read := congrArg readChar same
      rw [flatMap_nil, nil_append, quoted, flatMap_cons, append_assoc, readChar_escapeChar] at read
      cases read
  | cons char chars ih =>
    have read := congrArg readChar same
    rw [flatMap_cons, append_assoc, readChar_escapeChar] at read
    cases chars' with
    | nil =>
      rw [flatMap_nil, nil_append, quoted] at read
      cases read
    | cons char' chars' =>
      rw [flatMap_cons, append_assoc, readChar_escapeChar] at read
      obtain ⟨sameChar, sameRest⟩ := Prod.mk.inj (Option.some.inj read)
      obtain ⟨rfl, rests⟩ := ih sameRest
      exact ⟨by rw [sameChar], rests⟩

theorem quote_append (value : String) (rest : List Char) :
    quote value ++ rest = '"' :: (value.toList.flatMap escapeChar ++ '"' :: rest) := by
  rw [quote, cons_append, cons_append, append_assoc]
  rfl

theorem quote_cancel {value value' : String} {rest rest' : List Char}
    (same : quote value ++ rest = quote value' ++ rest') : value = value' ∧ rest = rest' := by
  rw [quote_append, quote_append] at same
  obtain ⟨chars, rests⟩ := escapes_cancel (cons.inj same).2
  exact ⟨String.toList_inj.mp chars, rests⟩

/-- The kinds of values. -/
inductive Kind
  | null | true_ | false_ | num | str | arr | obj
deriving DecidableEq

def kind : Json → Kind
  | .null => .null
  | .bool true => .true_
  | .bool false => .false_
  | .num _ => .num
  | .str _ => .str
  | .arr _ => .arr
  | .obj _ => .obj

/-- The kind of the value whose text starts with a character. -/
def kindOf (char : Char) : Kind :=
  if char = 'n' then .null
  else if char = 't' then .true_
  else if char = 'f' then .false_
  else if char = '"' then .str
  else if char = '[' then .arr
  else if char = '{' then .obj
  else .num

theorem kindOf_numeral {char : Char} (numeral : Decimal.IsNumeral char) : kindOf char = .num := by
  have apart (other : Char) (word : ¬ Decimal.IsNumeral other) : char ≠ other :=
    fun same => word (same ▸ numeral)
  rw [kindOf, if_neg (apart 'n' ?_), if_neg (apart 't' ?_), if_neg (apart 'f' ?_),
    if_neg (apart '"' ?_), if_neg (apart '[' ?_), if_neg (apart '{' ?_)]
  all_goals
    rw [Decimal.IsNumeral]
    decide

/-- A value's text shows the kind of the value, and closes no list. -/
theorem stringify_head (value : Json) :
    ∃ char chars, value.stringify = char :: chars ∧ kindOf char = value.kind ∧ char ≠ ']' := by
  cases value with
  | null => exact ⟨'n', _, rfl, rfl, by decide⟩
  | bool value =>
    cases value with
    | false => exact ⟨'f', _, rfl, rfl, by decide⟩
    | true => exact ⟨'t', _, rfl, rfl, by decide⟩
  | num value =>
    obtain ⟨char, chars, text, numeral⟩ := value.text_head
    refine ⟨char, chars, text, kindOf_numeral numeral, ?_⟩
    rintro rfl
    exact absurd numeral (by rw [Decimal.IsNumeral]; decide)
  | str value => exact ⟨'"', _, rfl, rfl, by decide⟩
  | arr items =>
    cases items with
    | nil => exact ⟨'[', _, rfl, rfl, by decide⟩
    | cons item items => exact ⟨'[', _, rfl, rfl, by decide⟩
  | obj fields =>
    cases fields with
    | nil => exact ⟨'{', _, rfl, rfl, by decide⟩
    | cons field fields => exact ⟨'{', _, rfl, rfl, by decide⟩

/-- What follows a value goes on no number. -/
def Stops (rest : List Char) : Prop :=
  ∀ char, rest.head? = some char → ¬ Decimal.IsNumeral char

theorem stops_cons {char : Char} (rest : List Char) (other : ¬ Decimal.IsNumeral char) :
    Stops (char :: rest) := by
  intro first head
  cases head
  exact other

theorem stops_items (items : List Json) (rest : List Char) :
    Stops (stringifyItems items ++ rest) := by
  cases items with
  | nil => exact stops_cons _ (by rw [Decimal.IsNumeral]; decide)
  | cons item items => exact stops_cons _ (by rw [Decimal.IsNumeral]; decide)

theorem stops_fields (fields : List (String × Json)) (rest : List Char) :
    Stops (stringifyFields fields ++ rest) := by
  cases fields with
  | nil => exact stops_cons _ (by rw [Decimal.IsNumeral]; decide)
  | cons field fields => exact stops_cons _ (by rw [Decimal.IsNumeral]; decide)

theorem num_cancel {left right : Decimal} {rest rest' : List Char} (stops : Stops rest)
    (stops' : Stops rest') (same : left.text ++ rest = right.text ++ rest') :
    left = right ∧ rest = rest' := by
  obtain ⟨texts, rests⟩ := cut_unique (fun _ member => Decimal.isNumeral_text member)
    (fun _ member => Decimal.isNumeral_text member) stops stops' same
  exact ⟨Decimal.text_injective texts, rests⟩

theorem kind_eq {left right : Json} {rest rest' : List Char}
    (same : left.stringify ++ rest = right.stringify ++ rest') : left.kind = right.kind := by
  obtain ⟨char, chars, shape, kind, -⟩ := left.stringify_head
  obtain ⟨char', chars', shape', kind', -⟩ := right.stringify_head
  rw [shape, shape'] at same
  rw [← kind, ← kind', (cons.inj same).1]

theorem arr_append (item : Json) (items : List Json) (rest : List Char) :
    stringify (.arr (item :: items)) ++ rest =
      '[' :: (item.stringify ++ (stringifyItems items ++ rest)) := by
  rw [stringify]
  simp only [cons_append, append_assoc]

theorem items_append (item : Json) (items : List Json) (rest : List Char) :
    stringifyItems (item :: items) ++ rest =
      ',' :: (item.stringify ++ (stringifyItems items ++ rest)) := by
  rw [stringifyItems]
  simp only [cons_append, append_assoc]

theorem obj_append (key : String) (value : Json) (fields : List (String × Json))
    (rest : List Char) : stringify (.obj ((key, value) :: fields)) ++ rest =
      '{' :: (quote key ++ ':' :: (value.stringify ++ (stringifyFields fields ++ rest))) := by
  rw [stringify]
  simp only [cons_append, append_assoc]

theorem fields_append (key : String) (value : Json) (fields : List (String × Json))
    (rest : List Char) : stringifyFields ((key, value) :: fields) ++ rest =
      ',' :: (quote key ++ ':' :: (value.stringify ++ (stringifyFields fields ++ rest))) := by
  rw [stringifyFields]
  simp only [cons_append, append_assoc]

theorem item_ne_close (item : Json) (rest rest' : List Char) :
    item.stringify ++ rest ≠ ']' :: rest' := by
  obtain ⟨char, chars, shape, -, other⟩ := item.stringify_head
  rw [shape]
  intro same
  exact other (cons.inj same).1

mutual
/-- A value's text is told apart from what follows it. -/
theorem stringify_cancel (left right : Json) {rest rest' : List Char} (stops : Stops rest)
    (stops' : Stops rest') (same : left.stringify ++ rest = right.stringify ++ rest') :
    left = right ∧ rest = rest' := by
  have kinds := kind_eq same
  match left, right with
  | .null, .null => exact ⟨rfl, append_cancel_left same⟩
  | .bool true, .bool true => exact ⟨rfl, append_cancel_left same⟩
  | .bool false, .bool false => exact ⟨rfl, append_cancel_left same⟩
  | .num left, .num right =>
    obtain ⟨rfl, rests⟩ := num_cancel stops stops' same
    exact ⟨rfl, rests⟩
  | .str left, .str right =>
    obtain ⟨rfl, rests⟩ := quote_cancel same
    exact ⟨rfl, rests⟩
  | .arr [], .arr [] => exact ⟨rfl, append_cancel_left same⟩
  | .arr [], .arr (item :: items) =>
    rw [arr_append] at same
    exact absurd (cons.inj same).2.symm (item_ne_close item _ _)
  | .arr (item :: items), .arr [] =>
    rw [arr_append] at same
    exact absurd (cons.inj same).2 (item_ne_close item _ _)
  | .arr (item :: items), .arr (item' :: items') =>
    rw [arr_append, arr_append] at same
    obtain ⟨sameItem, others⟩ := stringify_cancel item item' (stops_items items rest)
      (stops_items items' rest') (cons.inj same).2
    obtain ⟨sameItems, rests⟩ := stringifyItems_cancel items items' others
    exact ⟨by rw [sameItem, sameItems], rests⟩
  | .obj [], .obj [] => exact ⟨rfl, append_cancel_left same⟩
  | .obj [], .obj ((key, value) :: fields) =>
    rw [obj_append, quote_append] at same
    cases (cons.inj same).2
  | .obj ((key, value) :: fields), .obj [] =>
    rw [obj_append, quote_append] at same
    cases (cons.inj same).2
  | .obj ((key, value) :: fields), .obj ((key', value') :: fields') =>
    rw [obj_append, obj_append] at same
    obtain ⟨sameKey, values⟩ := quote_cancel (cons.inj same).2
    obtain ⟨sameValue, others⟩ := stringify_cancel value value' (stops_fields fields rest)
      (stops_fields fields' rest') (cons.inj values).2
    obtain ⟨sameFields, rests⟩ := stringifyFields_cancel fields fields' others
    exact ⟨by rw [sameKey, sameValue, sameFields], rests⟩
theorem stringifyItems_cancel (items items' : List Json) {rest rest' : List Char}
    (same : stringifyItems items ++ rest = stringifyItems items' ++ rest') :
    items = items' ∧ rest = rest' := by
  match items, items' with
  | [], [] => exact ⟨rfl, append_cancel_left same⟩
  | [], item' :: items' =>
    rw [items_append] at same
    cases (cons.inj same).1
  | item :: items, [] =>
    rw [items_append] at same
    cases (cons.inj same).1
  | item :: items, item' :: items' =>
    rw [items_append, items_append] at same
    obtain ⟨sameItem, others⟩ := stringify_cancel item item' (stops_items items rest)
      (stops_items items' rest') (cons.inj same).2
    obtain ⟨sameItems, rests⟩ := stringifyItems_cancel items items' others
    exact ⟨by rw [sameItem, sameItems], rests⟩
theorem stringifyFields_cancel (fields fields' : List (String × Json)) {rest rest' : List Char}
    (same : stringifyFields fields ++ rest = stringifyFields fields' ++ rest') :
    fields = fields' ∧ rest = rest' := by
  match fields, fields' with
  | [], [] => exact ⟨rfl, append_cancel_left same⟩
  | [], (key', value') :: fields' =>
    rw [fields_append] at same
    cases (cons.inj same).1
  | (key, value) :: fields, [] =>
    rw [fields_append] at same
    cases (cons.inj same).1
  | (key, value) :: fields, (key', value') :: fields' =>
    rw [fields_append, fields_append] at same
    obtain ⟨sameKey, values⟩ := quote_cancel (cons.inj same).2
    obtain ⟨sameValue, others⟩ := stringify_cancel value value' (stops_fields fields rest)
      (stops_fields fields' rest') (cons.inj values).2
    obtain ⟨sameFields, rests⟩ := stringifyFields_cancel fields fields' others
    exact ⟨by rw [sameKey, sameValue, sameFields], rests⟩
end

theorem stringify_injective {left right : Json} (same : left.stringify = right.stringify) :
    left = right :=
  (stringify_cancel left right (fun _ head => by cases head) (fun _ head => by cases head)
    (congrArg (· ++ []) same)).1

end Json

import Mathlib.Algebra.Order.Ring.Int

/-! # JSON values and their text

JSON values, with objects as ordered lists of fields and numbers as exact
decimals, and the text a serializer without added whitespace writes for them.
Every finite binary floating-point number is a decimal, so decimals lose none of
the numbers a program can serialize; they do not model rounding. -/

/-- The number `mantissa / 10 ^ scale` in lowest terms. -/
structure Decimal where
  mantissa : Int
  scale : Nat
  lowest : scale = 0 ∨ mantissa % 10 ≠ 0
deriving DecidableEq, Repr

namespace Decimal

/-- Cancel common factors of ten. -/
def reduce (mantissa : Int) : Nat → Int × Nat
  | 0 => (mantissa, 0)
  | scale + 1 =>
    if mantissa % 10 = 0 then reduce (mantissa / 10) scale else (mantissa, scale + 1)

theorem reduce_lowest (mantissa : Int) (scale : Nat) :
    (reduce mantissa scale).2 = 0 ∨ (reduce mantissa scale).1 % 10 ≠ 0 := by
  induction scale generalizing mantissa with
  | zero => exact .inl rfl
  | succ scale ih =>
    by_cases divides : mantissa % 10 = 0
    · simpa only [reduce, divides, ↓reduceIte] using ih (mantissa / 10)
    · rw [reduce, if_neg divides]
      exact .inr divides

def of (mantissa : Int) (scale : Nat) : Decimal where
  mantissa := (reduce mantissa scale).1
  scale := (reduce mantissa scale).2
  lowest := reduce_lowest mantissa scale

theorem of_parts (number : Decimal) : of number.mantissa number.scale = number := by
  obtain ⟨mantissa, scale, lowest⟩ := number
  cases scale with
  | zero => rfl
  | succ scale =>
    have odd : mantissa % 10 ≠ 0 := lowest.resolve_left (Nat.succ_ne_zero scale)
    simp only [of, reduce, odd, ↓reduceIte]

def ofInt (n : Int) : Decimal := ⟨n, 0, .inl rfl⟩

instance (n : Nat) : OfNat Decimal n where ofNat := ofInt n

instance : Coe Nat Decimal where coe n := ofInt n

def add (left right : Decimal) : Decimal :=
  let scale := max left.scale right.scale
  of (left.mantissa * 10 ^ (scale - left.scale) + right.mantissa * 10 ^ (scale - right.scale))
    scale

instance : Add Decimal where add := add

def padded (width n : Nat) : List Char :=
  let digits := Nat.toDigits 10 n
  List.replicate (width - digits.length) '0' ++ digits

/-- The digits of a number without its sign: an integer part and, when the scale
is positive, a fraction of exactly that many digits. -/
def magnitude (scale n : Nat) : List Char :=
  if scale = 0 then Nat.toDigits 10 n
  else Nat.toDigits 10 (n / 10 ^ scale) ++ '.' :: padded scale (n % 10 ^ scale)

def text (number : Decimal) : List Char :=
  if number.mantissa < 0 then '-' :: magnitude number.scale number.mantissa.natAbs
  else magnitude number.scale number.mantissa.natAbs

end Decimal

/-- A JSON value. An object keeps its fields in order. -/
inductive Json where
  | null
  | bool (value : Bool)
  | num (value : Decimal)
  | str (value : String)
  | arr (items : List Json)
  | obj (fields : List (String × Json))

namespace Json

/-- The two hexadecimal digits of a control character. -/
def hexDigits (code : Nat) : List Char :=
  [Nat.digitChar (code / 16), Nat.digitChar (code % 16)]

/-- The text of one character inside a string literal. -/
def escapeChar (char : Char) : List Char :=
  if char = '"' then ['\\', '"']
  else if char = '\\' then ['\\', '\\']
  else if char = '\x08' then ['\\', 'b']
  else if char = '\x0c' then ['\\', 'f']
  else if char = '\n' then ['\\', 'n']
  else if char = '\r' then ['\\', 'r']
  else if char = '\t' then ['\\', 't']
  else if char.toNat < 32 then '\\' :: 'u' :: '0' :: '0' :: hexDigits char.toNat
  else [char]

def quote (value : String) : List Char :=
  '"' :: value.toList.flatMap escapeChar ++ ['"']

mutual
def stringify : Json → List Char
  | .null => ['n', 'u', 'l', 'l']
  | .bool true => ['t', 'r', 'u', 'e']
  | .bool false => ['f', 'a', 'l', 's', 'e']
  | .num value => value.text
  | .str value => quote value
  | .arr [] => ['[', ']']
  | .arr (item :: items) => '[' :: stringify item ++ stringifyItems items
  | .obj [] => ['{', '}']
  | .obj ((key, value) :: fields) =>
    '{' :: quote key ++ ':' :: stringify value ++ stringifyFields fields
/-- The text of an array after its first item. -/
def stringifyItems : List Json → List Char
  | [] => [']']
  | item :: items => ',' :: stringify item ++ stringifyItems items
/-- The text of an object after its first field. -/
def stringifyFields : List (String × Json) → List Char
  | [] => ['}']
  | (key, value) :: fields =>
    ',' :: quote key ++ ':' :: stringify value ++ stringifyFields fields
end

/-- The value of an object's field; `none` for a missing field or a non-object. -/
def get? (value : Json) (key : String) : Option Json :=
  match value with
  | .obj fields => (fields.find? fun field => field.1 = key).map Prod.snd
  | _ => none

def asStr? : Json → Option String
  | .str value => some value
  | _ => none

def asArr? : Json → Option (List Json)
  | .arr items => some items
  | _ => none

def asBool? : Json → Option Bool
  | .bool value => some value
  | _ => none

/-- The natural number a value holds, when it is written without a fraction. -/
def asNat? : Json → Option Nat
  | .num ⟨.ofNat n, 0, _⟩ => some n
  | _ => none

/-- The integer a value holds, when it is written without a fraction. -/
def asInt? : Json → Option Int
  | .num ⟨n, 0, _⟩ => some n
  | _ => none

def asNum? : Json → Option Decimal
  | .num value => some value
  | _ => none

/-- An object built from optional fields: an absent value leaves its key out. -/
def ofFields (fields : List (String × Option Json)) : Json :=
  .obj (fields.filterMap fun field => field.2.map fun value => (field.1, value))

end Json

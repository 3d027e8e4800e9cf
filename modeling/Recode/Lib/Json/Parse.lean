import Recode.Lib.Json.Text
import Mathlib.Data.List.TakeWhile

/-! # Reading a JSON text

The value of a text, by the grammar of JSON: white space between tokens, escapes in string
literals, numbers without leading zeros, and for a repeated key the last value at the place of
the first. A lone surrogate in an escape is read as the replacement character, because a string
holds characters only. Each call consumes a character before it calls another one, so a text
never needs more rounds than it has characters. -/

namespace Json

def isSpace (char : Char) : Bool := char = ' ' || char = '\t' || char = '\n' || char = '\r'

/-- A text from its first token on. -/
def skipSpace (chars : List Char) : List Char := chars.dropWhile isSpace

/-- The value of a hexadecimal digit of either case. -/
def hexDigit? (digit : Char) : Option Nat :=
  if digit.isDigit then some (digit.toNat - '0'.toNat)
  else if 'a' ≤ digit ∧ digit ≤ 'f' then some (digit.toNat - 'a'.toNat + 10)
  else if 'A' ≤ digit ∧ digit ≤ 'F' then some (digit.toNat - 'A'.toNat + 10)
  else none

/-- The code unit that four hexadecimal digits name. -/
def hexUnit? (first second third fourth : Char) : Option Nat := do
  return ((← hexDigit? first) * 16 + (← hexDigit? second)) * 256 +
    ((← hexDigit? third) * 16 + (← hexDigit? fourth))

def escape? (letter : Char) : Option Nat :=
  if letter = '"' ∨ letter = '\\' ∨ letter = '/' then some letter.toNat
  else if letter = 'b' then some 0x08
  else if letter = 'f' then some 0x0C
  else if letter = 'n' then some 0x0A
  else if letter = 'r' then some 0x0D
  else if letter = 't' then some 0x09
  else none

/-- Put a code unit before what the rest of a literal was read as. -/
def withUnit (unit : Option Nat) (read : Option (List Nat × List Char)) :
    Option (List Nat × List Char) := do
  let unit ← unit
  let (units, rest) ← read
  return (unit :: units, rest)

/-- The code units of a string literal behind its opening quote, and what follows the literal.
A character beyond the first plane is one unit here. -/
def readUnits : List Char → Option (List Nat × List Char)
  | [] => none
  | char :: rest =>
    if char = '"' then some ([], rest)
    else if char = '\\' then
      match rest with
      | [] => none
      | letter :: rest =>
        if letter = 'u' then
          match rest with
          | first :: second :: third :: fourth :: rest =>
            withUnit (hexUnit? first second third fourth) (readUnits rest)
          | _ => none
        else withUnit (escape? letter) (readUnits rest)
    else if char.toNat < 0x20 then none
    else withUnit (some char.toNat) (readUnits rest)

/-- A code unit that is the first half of a pair. -/
def isHighSurrogate (unit : Nat) : Bool := 0xD800 ≤ unit && unit ≤ 0xDBFF

/-- A code unit that is the second half of a pair. -/
def isLowSurrogate (unit : Nat) : Bool := 0xDC00 ≤ unit && unit ≤ 0xDFFF

/-- The character of a code unit outside of a pair. -/
def unitChar (unit : Nat) : Char :=
  if isHighSurrogate unit || isLowSurrogate unit then '\uFFFD' else Char.ofNat unit

def pairUnits : List Nat → List Char
  | [] => []
  | [unit] => [unitChar unit]
  | high :: low :: rest =>
    if isHighSurrogate high && isLowSurrogate low then
      Char.ofNat (0x10000 + (high - 0xD800) * 0x400 + (low - 0xDC00)) :: pairUnits rest
    else unitChar high :: pairUnits (low :: rest)

/-- The string of a literal behind its opening quote, and what follows the literal. -/
def readString (chars : List Char) : Option (String × List Char) :=
  (readUnits chars).map fun read => (String.ofList (pairUnits read.1), read.2)

def readDigits (chars : List Char) : Option (List Char × List Char) :=
  let digits := chars.takeWhile Char.isDigit
  if digits = [] then none else some (digits, chars.dropWhile Char.isDigit)

/-- The integer part of a number. A zero stands alone. -/
def readInteger : List Char → Option (List Char × List Char)
  | [] => none
  | char :: rest => if char = '0' then some (['0'], rest) else readDigits (char :: rest)

def readFraction : List Char → Option (List Char × List Char)
  | [] => some ([], [])
  | char :: rest => if char = '.' then readDigits rest else some ([], char :: rest)

/-- An exponent behind its letter. -/
def readSigned : List Char → Option (Int × List Char)
  | [] => none
  | char :: rest => do
    let (digits, rest) ← readDigits (if char = '+' ∨ char = '-' then rest else char :: rest)
    let power : Int := Nat.ofDigitChars 10 digits 0
    return (if char = '-' then -power else power, rest)

/-- The exponent of a number, zero without a letter. -/
def readExponent : List Char → Option (Int × List Char)
  | [] => some (0, [])
  | char :: rest =>
    if char = 'e' ∨ char = 'E' then readSigned rest else some (0, char :: rest)

def scientific (mantissa : Int) (scale : Nat) (exponent : Int) : Decimal :=
  if exponent < 0 then .of mantissa (scale + exponent.natAbs)
  else .of (mantissa * 10 ^ exponent.natAbs) scale

/-- A number without its sign, and what follows it. -/
def readMagnitude (negative : Bool) (chars : List Char) : Option (Decimal × List Char) := do
  let (integer, rest) ← readInteger chars
  let (fraction, rest) ← readFraction rest
  let (exponent, rest) ← readExponent rest
  let mantissa : Int := Nat.ofDigitChars 10 (integer ++ fraction) 0
  return (scientific (if negative then -mantissa else mantissa) fraction.length exponent, rest)

def readNumber : List Char → Option (Decimal × List Char)
  | [] => none
  | char :: rest =>
    if char = '-' then readMagnitude true rest else readMagnitude false (char :: rest)

/-- The rest of a text behind a word. -/
def readWord : List Char → List Char → Option (List Char)
  | [], chars => some chars
  | _ :: _, [] => none
  | letter :: word, char :: chars => if char = letter then readWord word chars else none

/-- Set a field of an object: in its place when the object has it, at the end otherwise. -/
def setField (fields : List (String × Json)) (field : String × Json) : List (String × Json) :=
  if fields.any (·.1 = field.1) then
    fields.map fun other => if other.1 = field.1 then field else other
  else fields ++ [field]

def ofWritten (fields : List (String × Json)) : Json := .obj (fields.foldl setField [])

def nextToken (chars : List Char) : Option (Char × List Char) :=
  match skipSpace chars with
  | [] => none
  | char :: rest => some (char, rest)

def readToken (expected : Char) (chars : List Char) : Option (List Char) := do
  let (char, rest) ← nextToken chars
  if char = expected then return rest else none

mutual
def readValue : Nat → List Char → Option (Json × List Char)
  | 0, _ => none
  | fuel + 1, chars => do
    let (char, rest) ← nextToken chars
    if char = '{' then
      let (next, others) ← nextToken rest
      if next = '}' then return (.obj [], others)
      else
        let (fields, rest) ← readFields fuel (next :: others)
        return (ofWritten fields, rest)
    else if char = '[' then
      let (next, others) ← nextToken rest
      if next = ']' then return (.arr [], others)
      else
        let (items, rest) ← readItems fuel (next :: others)
        return (.arr items, rest)
    else if char = '"' then
      let (value, rest) ← readString rest
      return (.str value, rest)
    else if char = 'n' then return (.null, ← readWord ['u', 'l', 'l'] rest)
    else if char = 't' then return (.bool true, ← readWord ['r', 'u', 'e'] rest)
    else if char = 'f' then return (.bool false, ← readWord ['a', 'l', 's', 'e'] rest)
    else
      let (number, rest) ← readNumber (char :: rest)
      return (.num number, rest)
/-- The items of an array from its first value on, and what follows the array. -/
def readItems : Nat → List Char → Option (List Json × List Char)
  | 0, _ => none
  | fuel + 1, chars => do
    let (item, rest) ← readValue fuel chars
    let (char, rest) ← nextToken rest
    if char = ',' then
      let (items, rest) ← readItems fuel rest
      return (item :: items, rest)
    else if char = ']' then return ([item], rest)
    else none
/-- The fields of an object from its first key on, and what follows the object. -/
def readFields : Nat → List Char → Option (List (String × Json) × List Char)
  | 0, _ => none
  | fuel + 1, chars => do
    let rest ← readToken '"' chars
    let (key, rest) ← readString rest
    let rest ← readToken ':' rest
    let (value, rest) ← readValue fuel rest
    let (char, rest) ← nextToken rest
    if char = ',' then
      let (fields, rest) ← readFields fuel rest
      return ((key, value) :: fields, rest)
    else if char = '}' then return ([(key, value)], rest)
    else none
end

def parse (text : List Char) : Option Json := do
  let (value, rest) ← readValue (text.length + 1) text
  if skipSpace rest = [] then return value else none

end Json

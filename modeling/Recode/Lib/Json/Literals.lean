import Recode.Lib.Json.Parse

/-! # The literals and braces of a JSON text

A text that has a value holds complete escapes and no raw control character in its string
literals, and outside of them every brace it opens is closed. Each reader is described by what it
says about the text before the rest it leaves. -/

namespace Json

open List Option

/-- A text that starts with so many hexadecimal digits. -/
def startsHex : Nat → List Char → Bool
  | 0, _ => true
  | _ + 1, [] => false
  | count + 1, char :: rest => (hexDigit? char).isSome && startsHex count rest

/-- A character that has no part in the structure of a text. -/
abbrev Bare (char : Char) : Prop := char ≠ '"' ∧ char ≠ '{' ∧ char ≠ '}'

/-- A well formed text, from inside a literal or from outside, up to one that `ends` it. The
number counts the braces that are open, those from before the text apart. -/
inductive Strict (ends : Nat → List Char → Prop) : Bool → Nat → List Char → Prop
  | done {depth : Nat} {rest : List Char} : ends depth rest → Strict ends false depth rest
  | outside {depth : Nat} {char : Char} {rest : List Char} :
    Bare char → Strict ends false depth rest → Strict ends false depth (char :: rest)
  | openBrace {depth : Nat} {rest : List Char} :
    Strict ends false (depth + 1) rest → Strict ends false depth ('{' :: rest)
  | closeBrace {depth : Nat} {rest : List Char} :
    Strict ends false depth rest → Strict ends false (depth + 1) ('}' :: rest)
  | opens {depth : Nat} {rest : List Char} :
    Strict ends true depth rest → Strict ends false depth ('"' :: rest)
  | closes {depth : Nat} {rest : List Char} :
    Strict ends false depth rest → Strict ends true depth ('"' :: rest)
  | plain {depth : Nat} {char : Char} {rest : List Char} : char ≠ '"' → char ≠ '\\' →
    ¬ char.toNat < 0x20 → Strict ends true depth rest → Strict ends true depth (char :: rest)
  | escape {depth : Nat} {letter : Char} {rest : List Char} : (escape? letter).isSome →
    Strict ends true depth rest → Strict ends true depth ('\\' :: letter :: rest)
  | unicode {depth : Nat} {rest : List Char} : startsHex 4 rest = true →
    Strict ends true depth rest → Strict ends true depth ('\\' :: 'u' :: rest)

variable {ends : Nat → List Char → Prop} {depth : Nat}
variable {chars rest : List Char} {char : Char}

theorem strict_append {front : List Char} (bare : ∀ char ∈ front, Bare char)
    (strict : Strict ends false depth rest) : Strict ends false depth (front ++ rest) := by
  induction front with
  | nil => exact strict
  | cons char front ih =>
    exact .outside (bare char mem_cons_self)
      (ih fun other member => bare other (mem_cons_of_mem _ member))

theorem strict_withUnit {unit : Option Nat} {read : Option (List Nat × List Char)}
    {units : List Nat} (found : withUnit unit read = some (units, rest)) :
    unit.isSome ∧ ∃ others, read = some (others, rest) := by
  cases unit with
  | none => cases found
  | some unit =>
    cases read with
    | none => cases found
    | some read =>
      cases found
      exact ⟨rfl, read.1, rfl⟩

theorem hexDigit?_isSome (digit : (hexDigit? char).isSome) :
    char ≠ '"' ∧ char ≠ '\\' ∧ ¬ char.toNat < 0x20 := by
  have low : ∀ code < 0x20, hexDigit? (Char.ofNat code) = none := by decide
  refine ⟨?_, ?_, fun control => ?_⟩
  · rintro rfl
    cases digit
  · rintro rfl
    cases digit
  · have none := low char.toNat control
    rw [Char.ofNat_toNat] at none
    rw [none] at digit
    cases digit

theorem Strict.hex (digit : (hexDigit? char).isSome) (strict : Strict ends true depth rest) :
    Strict ends true depth (char :: rest) :=
  .plain (hexDigit?_isSome digit).1 (hexDigit?_isSome digit).2.1 (hexDigit?_isSome digit).2.2
    strict

theorem hexUnit?_isSome {first second third fourth : Char}
    (unit : (hexUnit? first second third fourth).isSome) :
    (hexDigit? first).isSome ∧ (hexDigit? second).isSome ∧ (hexDigit? third).isSome ∧
      (hexDigit? fourth).isSome := by
  obtain ⟨unit, found⟩ := isSome_iff_exists.mp unit
  obtain ⟨_, ofFirst, found⟩ := bind_eq_some_iff.mp found
  obtain ⟨_, ofSecond, found⟩ := bind_eq_some_iff.mp found
  obtain ⟨_, ofThird, found⟩ := bind_eq_some_iff.mp found
  obtain ⟨_, ofFourth, found⟩ := bind_eq_some_iff.mp found
  rw [ofFirst, ofSecond, ofThird, ofFourth]
  exact ⟨rfl, rfl, rfl, rfl⟩

theorem strict_readUnits {units : List Nat} (read : readUnits chars = some (units, rest))
    (strict : Strict ends false depth rest) : Strict ends true depth chars := by
  fun_induction readUnits chars generalizing units with
  | case1 => cases read
  | case2 others =>
    cases read
    exact .closes strict
  | case3 => cases read
  | case4 _ first second third fourth others ih =>
    obtain ⟨unit, others, read⟩ := strict_withUnit read
    obtain ⟨one, two, three, four⟩ := hexUnit?_isSome unit
    refine .unicode ?_ (.hex one (.hex two (.hex three (.hex four (ih read)))))
    simp only [startsHex, one, two, three, four, Bool.and_self]
  | case5 => cases read
  | case6 _ letter others _ ih =>
    obtain ⟨unit, others, read⟩ := strict_withUnit read
    exact .escape unit (ih read)
  | case7 => cases read
  | case8 char others noQuote noSlash raw ih =>
    obtain ⟨-, others, read⟩ := strict_withUnit read
    exact .plain noQuote noSlash raw (ih read)

theorem strict_readString {value : String} (read : readString chars = some (value, rest))
    (strict : Strict ends false depth rest) : Strict ends true depth chars := by
  obtain ⟨units, found, same⟩ := map_eq_some_iff.mp read
  cases same
  exact strict_readUnits found strict

theorem bare_of_isDigit (digit : char.isDigit = true) : Bare char := by
  refine ⟨?_, ?_, ?_⟩ <;>
    · rintro rfl
      cases digit

theorem strict_readDigits {digits : List Char} (read : readDigits chars = some (digits, rest))
    (strict : Strict ends false depth rest) : Strict ends false depth chars := by
  rw [readDigits] at read
  split at read
  · cases read
  · cases read
    rw [← takeWhile_append_dropWhile (p := Char.isDigit) (l := chars)]
    exact strict_append (fun char member => bare_of_isDigit (mem_takeWhile_imp member)) strict

theorem strict_readInteger {digits : List Char} (read : readInteger chars = some (digits, rest))
    (strict : Strict ends false depth rest) : Strict ends false depth chars := by
  cases chars with
  | nil => cases read
  | cons char chars =>
    rw [readInteger] at read
    split at read
    next zero =>
      cases read
      exact .outside (zero ▸ by decide) strict
    next _ => exact strict_readDigits read strict

theorem strict_readFraction {digits : List Char} (read : readFraction chars = some (digits, rest))
    (strict : Strict ends false depth rest) : Strict ends false depth chars := by
  cases chars with
  | nil =>
    cases read
    exact strict
  | cons char chars =>
    rw [readFraction] at read
    split at read
    next dot => exact .outside (dot ▸ by decide) (strict_readDigits read strict)
    next _ =>
      cases read
      exact strict

theorem strict_readSigned {power : Int} (read : readSigned chars = some (power, rest))
    (strict : Strict ends false depth rest) : Strict ends false depth chars := by
  cases chars with
  | nil => cases read
  | cons char chars =>
    obtain ⟨digits, found, same⟩ := bind_eq_some_iff.mp read
    cases same
    have behind := strict_readDigits found strict
    split at behind
    next sign =>
      refine .outside ?_ behind
      rcases sign with rfl | rfl <;> decide
    next _ => exact behind

theorem strict_readExponent {power : Int} (read : readExponent chars = some (power, rest))
    (strict : Strict ends false depth rest) : Strict ends false depth chars := by
  cases chars with
  | nil =>
    cases read
    exact strict
  | cons char chars =>
    rw [readExponent] at read
    split at read
    next letter =>
      refine .outside ?_ (strict_readSigned read strict)
      rcases letter with rfl | rfl <;> decide
    next _ =>
      cases read
      exact strict

theorem strict_readMagnitude {negative : Bool} {number : Decimal}
    (read : readMagnitude negative chars = some (number, rest))
    (strict : Strict ends false depth rest) : Strict ends false depth chars := by
  obtain ⟨integer, ofInteger, read⟩ := bind_eq_some_iff.mp read
  obtain ⟨fraction, ofFraction, read⟩ := bind_eq_some_iff.mp read
  obtain ⟨exponent, ofExponent, read⟩ := bind_eq_some_iff.mp read
  cases read
  exact strict_readInteger ofInteger
    (strict_readFraction ofFraction (strict_readExponent ofExponent strict))

theorem strict_readNumber {number : Decimal} (read : readNumber chars = some (number, rest))
    (strict : Strict ends false depth rest) : Strict ends false depth chars := by
  cases chars with
  | nil => cases read
  | cons char chars =>
    rw [readNumber] at read
    split at read
    next sign => exact .outside (sign ▸ by decide) (strict_readMagnitude read strict)
    next _ => exact strict_readMagnitude read strict

theorem strict_readWord {word : List Char} (bare : ∀ char ∈ word, Bare char)
    (read : readWord word chars = some rest) (strict : Strict ends false depth rest) :
    Strict ends false depth chars := by
  fun_induction readWord word chars with
  | case1 chars =>
    cases read
    exact strict
  | case2 => cases read
  | case3 _ word _ ih =>
    exact .outside (bare _ mem_cons_self)
      (ih (fun other member => bare other (mem_cons_of_mem _ member)) read)
  | case4 => cases read

theorem strict_skipSpace (strict : Strict ends false depth (skipSpace chars)) :
    Strict ends false depth chars := by
  rw [← takeWhile_append_dropWhile (p := isSpace) (l := chars)]
  refine strict_append (fun char member => ?_) strict
  have space := mem_takeWhile_imp member
  refine ⟨?_, ?_, ?_⟩ <;>
    · rintro rfl
      cases space

theorem strict_nextToken (found : nextToken chars = some (char, rest))
    (strict : Strict ends false depth (char :: rest)) : Strict ends false depth chars := by
  rw [nextToken] at found
  split at found
  · cases found
  · rename_i same
    cases found
    exact strict_skipSpace (same ▸ strict)

theorem strict_readToken (found : readToken char chars = some rest)
    (strict : Strict ends false depth (char :: rest)) : Strict ends false depth chars := by
  obtain ⟨⟨token, others⟩, next, found⟩ := bind_eq_some_iff.mp found
  dsimp only at found
  split at found
  next same =>
    cases found
    exact strict_nextToken next (same ▸ strict)
  next _ => cases found

/-- What is read with some fuel is well formed when the rest is. The fields of an object end
before its brace. -/
structure ReadsStrict (ends : Nat → List Char → Prop) (fuel : Nat) : Prop where
  value : ∀ chars value rest, readValue fuel chars = some (value, rest) → ∀ depth,
    Strict ends false depth rest → Strict ends false depth chars
  items : ∀ chars items rest, readItems fuel chars = some (items, rest) → ∀ depth,
    Strict ends false depth rest → Strict ends false depth chars
  fields : ∀ chars fields rest, readFields fuel chars = some (fields, rest) → ∀ depth,
    Strict ends false depth ('}' :: rest) → Strict ends false depth chars

variable {fuel : Nat} (inner : ReadsStrict ends fuel)
include inner

/-- An object behind its opening brace. -/
theorem strict_readObject {value : Json} {others : List Char}
    (first : nextToken chars = some ('{', others))
    (read : readValue (fuel + 1) chars = some (value, rest))
    (strict : Strict ends false depth ('}' :: rest)) : Strict ends false depth others := by
  rw [readValue] at read
  obtain ⟨⟨char, others⟩, found, read⟩ := bind_eq_some_iff.mp read
  cases first.symm.trans found
  obtain ⟨⟨next, more⟩, second, read⟩ := bind_eq_some_iff.mp read
  refine strict_nextToken second ?_
  dsimp only at read
  split at read
  next close =>
    cases read
    exact close ▸ strict
  next _ =>
    obtain ⟨fields, found, read⟩ := bind_eq_some_iff.mp read
    cases read
    exact inner.fields _ _ _ found _ strict

theorem strict_readValue {value : Json} (read : readValue (fuel + 1) chars = some (value, rest))
    (strict : Strict ends false depth rest) : Strict ends false depth chars := by
  have whole := read
  rw [readValue] at read
  obtain ⟨⟨char, others⟩, first, read⟩ := bind_eq_some_iff.mp read
  refine strict_nextToken first ?_
  dsimp only at read
  split at read
  next brace =>
    subst brace
    exact .openBrace (strict_readObject inner first whole (.closeBrace strict))
  next _ =>
  split at read
  next bracket =>
    refine .outside (bracket ▸ by decide) ?_
    obtain ⟨⟨next, more⟩, second, read⟩ := bind_eq_some_iff.mp read
    refine strict_nextToken second ?_
    dsimp only at read
    split at read
    next close =>
      cases read
      exact .outside (close ▸ by decide) strict
    next _ =>
      obtain ⟨items, found, read⟩ := bind_eq_some_iff.mp read
      cases read
      exact inner.items _ _ _ found _ strict
  next _ =>
  split at read
  next quote =>
    obtain ⟨string, found, read⟩ := bind_eq_some_iff.mp read
    cases read
    exact quote ▸ .opens (strict_readString found strict)
  next _ =>
  have word {letter : Char} {word : List Char} (same : char = letter)
      (bare : ∀ char ∈ letter :: word, Bare char) {result : Json}
      (read : (readWord word others).bind (fun rest => some (result, rest)) =
        some (value, rest)) : Strict ends false depth (char :: others) := by
    obtain ⟨behind, found, read⟩ := bind_eq_some_iff.mp read
    cases read
    exact .outside (bare char (same ▸ mem_cons_self)) (strict_readWord
      (fun other member => bare other (mem_cons_of_mem _ member)) found strict)
  split at read
  next same => exact word same (by simp [Bare]) read
  next _ =>
  split at read
  next same => exact word same (by simp [Bare]) read
  next _ =>
  split at read
  next same => exact word same (by simp [Bare]) read
  next _ =>
    obtain ⟨number, found, read⟩ := bind_eq_some_iff.mp read
    cases read
    exact strict_readNumber found strict

theorem strict_readItems {items : List Json}
    (read : readItems (fuel + 1) chars = some (items, rest))
    (strict : Strict ends false depth rest) : Strict ends false depth chars := by
  rw [readItems] at read
  obtain ⟨⟨item, others⟩, first, read⟩ := bind_eq_some_iff.mp read
  refine inner.value _ _ _ first _ ?_
  obtain ⟨⟨char, more⟩, next, read⟩ := bind_eq_some_iff.mp read
  refine strict_nextToken next ?_
  dsimp only at read
  split at read
  next comma =>
    obtain ⟨others, found, read⟩ := bind_eq_some_iff.mp read
    cases read
    exact .outside (comma ▸ by decide) (inner.items _ _ _ found _ strict)
  next _ =>
    split at read
    next close =>
      cases read
      exact .outside (close ▸ by decide) strict
    next _ => cases read

theorem strict_readFields {fields : List (String × Json)}
    (read : readFields (fuel + 1) chars = some (fields, rest))
    (strict : Strict ends false depth ('}' :: rest)) : Strict ends false depth chars := by
  rw [readFields] at read
  obtain ⟨literal, open_, read⟩ := bind_eq_some_iff.mp read
  obtain ⟨⟨key, behindKey⟩, named, read⟩ := bind_eq_some_iff.mp read
  obtain ⟨behindColon, colon, read⟩ := bind_eq_some_iff.mp read
  obtain ⟨⟨value, behindValue⟩, ofValue, read⟩ := bind_eq_some_iff.mp read
  obtain ⟨⟨char, more⟩, next, read⟩ := bind_eq_some_iff.mp read
  refine strict_readToken open_ (.opens (strict_readString named (strict_readToken colon
    (.outside (by decide) (inner.value _ _ _ ofValue _ (strict_nextToken next ?_))))))
  dsimp only at read
  split at read
  next comma =>
    obtain ⟨others, found, read⟩ := bind_eq_some_iff.mp read
    cases read
    exact .outside (comma ▸ by decide) (inner.fields _ _ _ found _ strict)
  next _ =>
    split at read
    next close =>
      cases read
      exact close ▸ strict
    next _ => cases read

omit inner

theorem readsStrict (ends : Nat → List Char → Prop) (fuel : Nat) : ReadsStrict ends fuel := by
  induction fuel with
  | zero =>
    refine ⟨?_, ?_, ?_⟩ <;>
      · intro chars result rest read
        cases read
  | succ fuel ih =>
    exact ⟨fun chars value rest read depth => strict_readValue ih read,
      fun chars items rest read depth => strict_readItems ih read,
      fun chars fields rest read depth => strict_readFields ih read⟩

/-- A text is over. -/
def IsOver (depth : Nat) (rest : List Char) : Prop := depth = 0 ∧ rest = []

theorem strict_of_parse {value : Json} (valid : parse chars = some value) :
    Strict IsOver false 0 chars := by
  obtain ⟨⟨found, rest⟩, read, ends⟩ := bind_eq_some_iff.mp valid
  dsimp only at ends
  split at ends
  next empty =>
    refine (readsStrict IsOver _).value _ _ _ read 0 (strict_skipSpace ?_)
    rw [empty]
    exact .done ⟨rfl, rfl⟩
  next _ => cases ends

end Json

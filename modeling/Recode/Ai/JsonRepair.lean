import Recode.Lib.Json.Literals
import Recode.Lib.Json.RoundTrip

/-! # Repair of JSON texts

Tool arguments arrive as JSON whose string literals may hold raw control characters and single
backslashes. A text that has no value is repaired and read again. -/

namespace Recode.Ai

open List Json

def VALID_JSON_ESCAPES : List Char := ['"', '\\', '/', 'b', 'f', 'n', 'r', 't', 'u']

def isControlCharacter (char : Char) : Bool := char.toNat ≤ 0x1F

def escapeControlCharacter (char : Char) : List Char :=
  if char = '\x08' then ['\\', 'b']
  else if char = '\x0c' then ['\\', 'f']
  else if char = '\n' then ['\\', 'n']
  else if char = '\r' then ['\\', 'r']
  else if char = '\t' then ['\\', 't']
  else '\\' :: 'u' :: (Nat.toDigits 16 char.toNat).leftpad 4 '0'

/-- The loop of `repairJson`, from inside a string or from outside. -/
def repairFrom : Bool → List Char → List Char
  | _, [] => []
  | false, char :: rest => char :: repairFrom (char = '"') rest
  | true, char :: rest =>
    if char = '"' then char :: repairFrom false rest
    else if char = '\\' then
      match rest with
      | [] => ['\\', '\\']
      | nextChar :: after =>
        if nextChar = 'u' && startsHex 4 after then
          '\\' :: 'u' :: (after.take 4 ++ repairFrom true (after.drop 4))
        else if VALID_JSON_ESCAPES.contains nextChar then
          '\\' :: nextChar :: repairFrom true after
        else '\\' :: '\\' :: repairFrom true (nextChar :: after)
    else
      (if isControlCharacter char then escapeControlCharacter char else [char]) ++
        repairFrom true rest
termination_by _ chars => chars.length
decreasing_by all_goals simp only [length_cons, length_drop]; omega

def repairJson (json : List Char) : List Char := repairFrom false json

def parseJsonWithRepair (json : List Char) : Option Json :=
  match Json.parse json with
  | some value => some value
  | none => if repairJson json ≠ json then Json.parse (repairJson json) else none

/-! ## Sloppy encodings -/

/-- A backslash and what follows it form a complete escape. -/
def completes (letter : Char) (after : List Char) : Bool :=
  (escape? letter).isSome || (letter = 'u' && startsHex 4 after)

/-- The text with every raw control character and every single backslash of its literals in the
escaped form. -/
def strictFrom : Bool → List Char → List Char
  | _, [] => []
  | false, char :: rest => char :: strictFrom (char = '"') rest
  | true, char :: rest =>
    if char = '"' then char :: strictFrom false rest
    else if char = '\\' then
      match rest with
      | [] => escapeChar '\\'
      | letter :: after =>
        if completes letter after then '\\' :: letter :: strictFrom true after
        else escapeChar '\\' ++ strictFrom true (letter :: after)
    else escapeChar char ++ strictFrom true rest

def SloppyEncoding (value : Json) (text : List Char) : Prop :=
  Json.parse (strictFrom false text) = some value

/-- A literal has a backslash, `u` and fewer than four hexadecimal digits. -/
def incompleteFrom : Bool → List Char → Bool
  | _, [] => false
  | false, char :: rest => incompleteFrom (char = '"') rest
  | true, char :: rest =>
    if char = '"' then incompleteFrom false rest
    else if char = '\\' then
      match rest with
      | [] => false
      | letter :: after =>
        if VALID_JSON_ESCAPES.contains letter then
          letter = 'u' && !startsHex 4 after || incompleteFrom true after
        else incompleteFrom true (letter :: after)
    else incompleteFrom true rest

/-! ## The steps of the repair -/

variable {char letter : Char} {rest after : List Char}

theorem startsHex_append {count : Nat} {digits : List Char} (hex : startsHex count digits = true)
    (rest : List Char) : startsHex count (digits ++ rest) = true := by
  induction count generalizing digits with
  | zero => rfl
  | succ count ih =>
    cases digits with
    | nil => cases hex
    | cons char digits =>
      rw [startsHex, Bool.and_eq_true] at hex
      rw [cons_append, startsHex, hex.1, ih hex.2, Bool.and_self]

theorem repairFrom_quote (rest : List Char) :
    repairFrom true ('"' :: rest) = '"' :: repairFrom false rest := by
  rw [repairFrom.eq_def]
  exact if_pos rfl

theorem repairFrom_control (noQuote : char ≠ '"') (noSlash : char ≠ '\\')
    (control : char.toNat < 0x20) (rest : List Char) :
    repairFrom true (char :: rest) = escapeControlCharacter char ++ repairFrom true rest := by
  rw [repairFrom.eq_def]
  simp only [if_neg noQuote, if_neg noSlash, isControlCharacter,
    decide_eq_true (Nat.le_of_lt_succ control), if_true]

theorem repairFrom_plain (noQuote : char ≠ '"') (noSlash : char ≠ '\\') (raw : ¬ char.toNat < 0x20)
    (rest : List Char) : repairFrom true (char :: rest) = char :: repairFrom true rest := by
  have plain : ¬ char.toNat ≤ 0x1F := fun control => raw (Nat.lt_succ_of_le control)
  rw [repairFrom.eq_def]
  simp only [if_neg noQuote, if_neg noSlash, isControlCharacter, decide_eq_false plain,
    Bool.false_eq_true, if_false]
  rfl

theorem repairFrom_digits (count : Nat) (digits : startsHex count rest = true) :
    repairFrom true rest = rest.take count ++ repairFrom true (rest.drop count) := by
  induction count generalizing rest with
  | zero => rfl
  | succ count ih =>
    cases rest with
    | nil => cases digits
    | cons char rest =>
      rw [startsHex, Bool.and_eq_true] at digits
      obtain ⟨noQuote, noSlash, raw⟩ := hexDigit?_isSome digits.1
      rw [repairFrom_plain noQuote noSlash raw, ih digits.2]
      rfl

/-- The four digits of an escape are copied in any case. -/
theorem repairFrom_letter (valid : VALID_JSON_ESCAPES.contains letter = true) (after : List Char) :
    repairFrom true ('\\' :: letter :: after) = '\\' :: letter :: repairFrom true after := by
  have slash : ('\\' : Char) ≠ '"' := by decide
  rw [repairFrom.eq_def]
  simp only [if_neg slash, if_true]
  split
  next unicode =>
    rw [Bool.and_eq_true, decide_eq_true_eq] at unicode
    rw [unicode.1, repairFrom_digits 4 unicode.2]
  next _ => rfl

theorem repairFrom_single (invalid : ¬ VALID_JSON_ESCAPES.contains letter = true)
    (after : List Char) :
    repairFrom true ('\\' :: letter :: after) =
      '\\' :: '\\' :: repairFrom true (letter :: after) := by
  have slash : ('\\' : Char) ≠ '"' := by decide
  have other : letter ≠ 'u' := by
    rintro rfl
    exact invalid (by decide)
  rw [repairFrom.eq_def]
  simp only [if_neg slash, if_true, decide_eq_false other, Bool.false_and, if_neg invalid,
    Bool.false_eq_true, if_false]

theorem repairFrom_end : repairFrom true ['\\'] = ['\\', '\\'] := by
  have slash : ('\\' : Char) ≠ '"' := by decide
  rw [repairFrom.eq_def]
  simp only [if_neg slash, if_true]

theorem escapeControlCharacter_cases (control : char.toNat < 0x20) :
    escapeControlCharacter char = escapeChar char ∧
      ((∃ letter, VALID_JSON_ESCAPES.contains letter = true ∧ letter ≠ 'u' ∧
        escapeChar char = ['\\', letter]) ∨
      ∃ digits, startsHex 4 digits = true ∧ digits.length = 4 ∧
        escapeChar char = '\\' :: 'u' :: digits) := by
  have all : ∀ code < 0x20, escapeControlCharacter (Char.ofNat code) =
      escapeChar (Char.ofNat code) ∧
      (VALID_JSON_ESCAPES.any (fun letter => letter ≠ 'u' &&
        escapeChar (Char.ofNat code) = ['\\', letter]) = true ∨
      startsHex 4 ((escapeChar (Char.ofNat code)).drop 2) = true ∧
        (escapeChar (Char.ofNat code)).take 2 = ['\\', 'u'] ∧
          (escapeChar (Char.ofNat code)).length = 6) := by decide
  obtain ⟨same, shape⟩ := all char.toNat control
  rw [Char.ofNat_toNat] at same shape
  refine ⟨same, shape.imp ?_ ?_⟩
  · intro short
    obtain ⟨letter, valid, shape⟩ := any_eq_true.mp short
    rw [Bool.and_eq_true, decide_eq_true_eq, decide_eq_true_eq] at shape
    exact ⟨letter, contains_iff_mem.mpr valid, shape⟩
  · rintro ⟨digits, front, six⟩
    refine ⟨(escapeChar char).drop 2, digits, by rw [length_drop, six], ?_⟩
    rw [← take_append_drop 2 (escapeChar char), front]
    rfl

theorem repairFrom_control_append (control : char.toNat < 0x20) (rest : List Char) :
    repairFrom true (escapeControlCharacter char ++ rest) =
      escapeControlCharacter char ++ repairFrom true rest := by
  obtain ⟨same, ⟨letter, valid, -, shape⟩ | ⟨digits, hex, four, shape⟩⟩ :=
    escapeControlCharacter_cases control
  · rw [same, shape]
    exact repairFrom_letter valid rest
  · rw [same, shape, cons_append, cons_append, repairFrom_letter (by decide),
      repairFrom_digits 4 (startsHex_append hex rest), take_left' four, drop_left' four]
    rfl

theorem startsHex_repairFrom (count : Nat) (text : List Char) :
    startsHex count (repairFrom true text) = startsHex count text := by
  induction count generalizing text with
  | zero => rfl
  | succ count ih =>
    cases text with
    | nil => rw [repairFrom]
    | cons char rest =>
      have slash : hexDigit? '\\' = none := by decide
      have first (tail : List Char) : startsHex (count + 1) ('\\' :: tail) = false := by
        rw [startsHex, slash]
        rfl
      by_cases quote : char = '"'
      · rw [quote, repairFrom_quote]
        rfl
      by_cases single : char = '\\'
      · rw [single, first]
        cases rest with
        | nil => rw [repairFrom_end, first]
        | cons letter after =>
          by_cases valid : VALID_JSON_ESCAPES.contains letter = true
          · rw [repairFrom_letter valid, first]
          · rw [repairFrom_single valid, first]
      by_cases control : char.toNat < 0x20
      · rw [repairFrom_control quote single control, startsHex]
        have noDigit : (hexDigit? char).isSome = false := by
          rw [← Bool.not_eq_true]
          exact fun digit => (hexDigit?_isSome digit).2.2 control
        rw [noDigit, Bool.false_and]
        obtain ⟨same, ⟨_, _, _, shape⟩ | ⟨_, _, _, shape⟩⟩ :=
          escapeControlCharacter_cases control
        · rw [same, shape, cons_append, first]
        · rw [same, shape, cons_append, first]
      · rw [repairFrom_plain quote single control, startsHex, startsHex, ih]

/-! ## What the repair keeps -/

theorem incompleteFrom_quote (rest : List Char) :
    incompleteFrom true ('"' :: rest) = incompleteFrom false rest := by
  rw [incompleteFrom.eq_def]
  exact if_pos rfl

theorem incompleteFrom_plain (noQuote : char ≠ '"') (noSlash : char ≠ '\\') (rest : List Char) :
    incompleteFrom true (char :: rest) = incompleteFrom true rest := by
  rw [incompleteFrom.eq_def]
  simp only [if_neg noQuote, if_neg noSlash]

theorem incompleteFrom_letter (valid : VALID_JSON_ESCAPES.contains letter = true)
    (after : List Char) :
    incompleteFrom true ('\\' :: letter :: after) =
      (decide (letter = 'u') && !startsHex 4 after || incompleteFrom true after) := by
  have slash : ('\\' : Char) ≠ '"' := by decide
  rw [incompleteFrom.eq_def]
  simp only [if_neg slash, if_true, valid]

theorem incompleteFrom_digits {count : Nat} (digits : startsHex count rest = true) :
    incompleteFrom true rest = incompleteFrom true (rest.drop count) := by
  induction count generalizing rest with
  | zero => rfl
  | succ count ih =>
    cases rest with
    | nil => cases digits
    | cons char rest =>
      rw [startsHex, Bool.and_eq_true] at digits
      obtain ⟨noQuote, noSlash, -⟩ := hexDigit?_isSome digits.1
      rw [incompleteFrom_plain noQuote noSlash, ih digits.2]
      rfl

theorem incompleteFrom_control_append (control : char.toNat < 0x20) (rest : List Char) :
    incompleteFrom true (escapeControlCharacter char ++ rest) = incompleteFrom true rest := by
  obtain ⟨same, ⟨letter, valid, other, shape⟩ | ⟨digits, hex, four, shape⟩⟩ :=
    escapeControlCharacter_cases control
  · rw [same, shape, cons_append, singleton_append, incompleteFrom_letter valid,
      decide_eq_false other, Bool.false_and, Bool.false_or]
  · have starts := startsHex_append hex rest
    rw [same, shape, cons_append, cons_append, incompleteFrom_letter (by decide), starts,
      incompleteFrom_digits starts, drop_left' four, Bool.not_true, Bool.and_false, Bool.false_or]

theorem repairFrom_repairFrom (inString : Bool) (text : List Char) :
    repairFrom inString (repairFrom inString text) = repairFrom inString text ∧
      incompleteFrom inString (repairFrom inString text) = incompleteFrom inString text := by
  fun_induction incompleteFrom inString text with
  | case1 inString =>
    have none : repairFrom inString [] = [] := by cases inString <;> rw [repairFrom]
    rw [none, none]
    exact ⟨rfl, by cases inString <;> rfl⟩
  | case2 char rest ih =>
    rw [repairFrom, repairFrom, incompleteFrom, ih.1, ih.2]
    exact ⟨rfl, rfl⟩
  | case3 rest ih =>
    rw [repairFrom_quote, repairFrom_quote, incompleteFrom_quote, ih.1, ih.2]
    exact ⟨rfl, rfl⟩
  | case4 =>
    rw [repairFrom_end, repairFrom_letter (by decide), incompleteFrom_letter (by decide),
      show repairFrom true [] = [] by rw [repairFrom]]
    exact ⟨rfl, rfl⟩
  | case5 letter after valid _ ih =>
    rw [repairFrom_letter valid, repairFrom_letter valid, incompleteFrom_letter valid,
      startsHex_repairFrom, ih.1, ih.2]
    exact ⟨rfl, rfl⟩
  | case6 letter after invalid _ ih =>
    rw [repairFrom_single invalid, repairFrom_letter (by decide), incompleteFrom_letter (by decide),
      ih.1, ih.2]
    exact ⟨rfl, rfl⟩
  | case7 char rest noQuote noSlash ih =>
    by_cases control : char.toNat < 0x20
    · rw [repairFrom_control noQuote noSlash control, repairFrom_control_append control,
        incompleteFrom_control_append control, ih.1, ih.2]
      exact ⟨rfl, rfl⟩
    · rw [repairFrom_plain noQuote noSlash control, repairFrom_plain noQuote noSlash control,
        incompleteFrom_plain noQuote noSlash, ih.1, ih.2]
      exact ⟨rfl, rfl⟩

/-! ## The repair and the strict text -/

theorem completes_eq (letter : Char) (after : List Char) :
    completes letter after =
      (VALID_JSON_ESCAPES.contains letter && (letter ≠ 'u' || startsHex 4 after)) := by
  have known : ∀ letter ∈ VALID_JSON_ESCAPES,
      (escape? letter).isSome = decide (letter ≠ 'u') := by
    intro letter member
    simp only [VALID_JSON_ESCAPES, mem_cons, not_mem_nil, or_false] at member
    rcases member with rfl | rfl | rfl | rfl | rfl | rfl | rfl | rfl | rfl <;> rfl
  rw [completes]
  by_cases valid : letter ∈ VALID_JSON_ESCAPES
  · rw [known letter valid, contains_iff_mem.mpr valid, Bool.true_and]
    by_cases unicode : letter = 'u' <;> simp [unicode]
  have invalid : VALID_JSON_ESCAPES.contains letter = false := by
    rwa [← Bool.not_eq_true, contains_iff_mem]
  simp only [VALID_JSON_ESCAPES, mem_cons, not_or] at valid
  rw [invalid, Bool.false_and]
  simp [escape?, valid]

theorem escapeChar_plain (noQuote : char ≠ '"') (noSlash : char ≠ '\\')
    (raw : ¬ char.toNat < 0x20) : escapeChar char = [char] := by
  have different {other : Char} (low : other.toNat < 0x20) : char ≠ other := by
    rintro rfl
    exact raw low
  simp only [escapeChar, if_neg noQuote, if_neg noSlash, if_neg raw,
    if_neg (different (show '\x08'.toNat < 0x20 by decide)),
    if_neg (different (show '\x0c'.toNat < 0x20 by decide)),
    if_neg (different (show '\n'.toNat < 0x20 by decide)),
    if_neg (different (show '\r'.toNat < 0x20 by decide)),
    if_neg (different (show '\t'.toNat < 0x20 by decide))]

theorem strictFrom_quote (rest : List Char) :
    strictFrom true ('"' :: rest) = '"' :: strictFrom false rest := by
  rw [strictFrom.eq_def]
  exact if_pos rfl

theorem strictFrom_other (noQuote : char ≠ '"') (noSlash : char ≠ '\\') (rest : List Char) :
    strictFrom true (char :: rest) = escapeChar char ++ strictFrom true rest := by
  rw [strictFrom.eq_def]
  simp only [if_neg noQuote, if_neg noSlash]

theorem strictFrom_letter (letter : Char) (after : List Char) :
    strictFrom true ('\\' :: letter :: after) =
      if completes letter after then '\\' :: letter :: strictFrom true after
      else '\\' :: '\\' :: strictFrom true (letter :: after) := by
  have slash : ('\\' : Char) ≠ '"' := by decide
  rw [strictFrom.eq_def]
  simp only [if_neg slash, if_true]
  rfl

theorem strictFrom_of_strict {inString : Bool} {depth : Nat} {text : List Char}
    (strict : Strict IsOver inString depth text) :
    strictFrom inString text = text ∧ incompleteFrom inString text = false := by
  induction strict with
  | done finished =>
    obtain ⟨-, rfl⟩ := finished
    exact ⟨rfl, rfl⟩
  | outside bare _ ih =>
    rw [strictFrom, incompleteFrom, decide_eq_false bare.1, ih.1]
    exact ⟨rfl, ih.2⟩
  | openBrace _ ih =>
    rw [strictFrom, incompleteFrom, decide_eq_false (by decide), ih.1]
    exact ⟨rfl, ih.2⟩
  | closeBrace _ ih =>
    rw [strictFrom, incompleteFrom, decide_eq_false (by decide), ih.1]
    exact ⟨rfl, ih.2⟩
  | opens _ ih =>
    rw [strictFrom, incompleteFrom, decide_eq_true rfl, ih.1]
    exact ⟨rfl, ih.2⟩
  | closes _ ih =>
    rw [incompleteFrom_quote, strictFrom_quote, ih.1]
    exact ⟨rfl, ih.2⟩
  | plain noQuote noSlash raw _ ih =>
    rw [strictFrom_other noQuote noSlash, escapeChar_plain noQuote noSlash raw,
      incompleteFrom_plain noQuote noSlash, ih.1]
    exact ⟨rfl, ih.2⟩
  | @escape _ letter _ known _ ih =>
    have complete (after : List Char) : completes letter after = true := by
      rw [completes, known, Bool.true_or]
    have valid := complete []
    rw [completes_eq, startsHex, Bool.or_false, Bool.and_eq_true] at valid
    rw [strictFrom_letter, if_pos (complete _), ih.1, incompleteFrom_letter valid.1,
      decide_eq_false (of_decide_eq_true valid.2), Bool.false_and, Bool.false_or]
    exact ⟨rfl, ih.2⟩
  | unicode hex _ ih =>
    rw [strictFrom_letter, completes_eq, hex, if_pos (by decide), ih.1,
      incompleteFrom_letter (by decide), hex, ih.2]
    exact ⟨rfl, rfl⟩

theorem repairFrom_eq_strictFrom {inString : Bool} {text : List Char}
    (complete : incompleteFrom inString text = false) :
    repairFrom inString text = strictFrom inString text := by
  fun_induction incompleteFrom inString text with
  | case1 inString => cases inString <;> (rw [repairFrom]; rfl)
  | case2 char rest ih => rw [repairFrom, strictFrom, ih complete]
  | case3 rest ih => rw [repairFrom_quote, strictFrom_quote, ih complete]
  | case4 =>
    rw [repairFrom_end]
    rfl
  | case5 letter after valid _ ih =>
    rw [Bool.or_eq_false_iff] at complete
    have whole : completes letter after = true := by
      rw [completes_eq, valid, Bool.true_and]
      by_cases unicode : letter = 'u'
      · have hex := complete.1
        rw [decide_eq_true unicode, Bool.true_and, Bool.not_eq_false'] at hex
        rw [hex, Bool.or_true]
      · rw [decide_eq_true unicode, Bool.true_or]
    rw [repairFrom_letter valid, strictFrom_letter, if_pos whole, ih complete.2]
  | case6 letter after invalid _ ih =>
    have part : ¬ completes letter after = true := by
      rw [completes_eq, Bool.and_eq_true]
      exact fun whole => invalid whole.1
    rw [repairFrom_single invalid, strictFrom_letter, if_neg part, ih complete]
  | case7 char rest noQuote noSlash ih =>
    rw [strictFrom_other noQuote noSlash, ← ih complete]
    by_cases control : char.toNat < 0x20
    · rw [repairFrom_control noQuote noSlash control, (escapeControlCharacter_cases control).1]
    · rw [repairFrom_plain noQuote noSlash control, escapeChar_plain noQuote noSlash control]
      rfl

/-- The repair of a text: valid JSON stays, a second repair changes nothing, and a sloppy
encoding is read as its value. -/
structure Repairs (json : List Char) (value : Json) : Prop where
  valid : Json.parse json = some value →
    repairJson json = json ∧ parseJsonWithRepair json = some value
  idempotent : repairJson (repairJson json) = repairJson json
  sloppy : SloppyEncoding value json → parseJsonWithRepair json = some value

theorem kept_of_parse {json : List Char} {value : Json} (valid : Json.parse json = some value) :
    repairJson json = json ∧ incompleteFrom false json = false := by
  obtain ⟨same, complete⟩ := strictFrom_of_strict (strict_of_parse valid)
  exact ⟨(repairFrom_eq_strictFrom complete).trans same, complete⟩

/-- The repair does all this unless a sloppy encoding holds an incomplete unicode escape. -/
theorem repairJson_repairs (json : List Char) (value : Json) :
    Repairs json value ↔ (SloppyEncoding value json → incompleteFrom false json = false) := by
  constructor
  · intro repairs sloppy
    have found := repairs.sloppy sloppy
    rw [parseJsonWithRepair] at found
    cases valid : Json.parse json with
    | some other => exact (kept_of_parse valid).2
    | none =>
      rw [valid] at found
      dsimp only at found
      split at found
      · rw [← (repairFrom_repairFrom false json).2]
        exact (kept_of_parse found).2
      · cases found
  · intro complete
    refine ⟨fun valid => ⟨(kept_of_parse valid).1, by rw [parseJsonWithRepair, valid]⟩,
      (repairFrom_repairFrom false json).1, fun sloppy => ?_⟩
    have read : Json.parse (repairJson json) = some value := by
      rw [repairJson, repairFrom_eq_strictFrom (complete sloppy)]
      exact sloppy
    rw [parseJsonWithRepair]
    cases valid : Json.parse json with
    | some other =>
      rw [(kept_of_parse valid).1, valid] at read
      exact read
    | none =>
      have changed : repairJson json ≠ json := by
        intro same
        rw [same, valid] at read
        cases read
      exact (if_pos changed).trans read

/-- A Windows path with a directory that starts with `u`. -/
def windowsPath : List Char := ['"', 'C', ':', '\\', 'u', 's', 'e', 'r', '"']

theorem windowsPath_lost : ¬ Repairs windowsPath (.str "C:\\user") := by
  intro repairs
  have found := repairs.sloppy rfl
  have repaired : repairJson windowsPath = windowsPath := by
    simp [repairJson, windowsPath, repairFrom, startsHex, VALID_JSON_ESCAPES, hexDigit?,
      isControlCharacter]
  have invalid : Json.parse windowsPath = none := rfl
  rw [parseJsonWithRepair, invalid, repaired] at found
  cases found

end Recode.Ai

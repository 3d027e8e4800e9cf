import Mathlib.Data.List.Basic
import Mathlib.Data.Char

/-! # UTF-8 as a stream

A decoder that reads bytes one at a time and can be stopped between any two of
them. A byte that cannot continue the character being read ends it with a
replacement character and is read again as a first byte. -/

namespace Utf8

open List Option

def replacement : Char := '\uFFFD'

/-- A character being read: the bits so far, the bytes still missing, and the
bounds of the next byte. Nothing is being read when no byte is missing. -/
structure Decoder where
  codePoint : Nat := 0
  bytesNeeded : Nat := 0
  lowerBoundary : Nat := 0x80
  upperBoundary : Nat := 0xBF
deriving DecidableEq

/-- The decoder between two characters. -/
def idle : Decoder := {}

def first (byte : UInt8) : Decoder × List Char :=
  let value := byte.toNat
  if value ≤ 0x7F then (idle, [Char.ofNat value])
  else if 0xC2 ≤ value ∧ value ≤ 0xDF then
    ({ codePoint := value % 0x20, bytesNeeded := 1 }, [])
  else if 0xE0 ≤ value ∧ value ≤ 0xEF then
    ({ codePoint := value % 0x10
       bytesNeeded := 2
       lowerBoundary := if value = 0xE0 then 0xA0 else 0x80
       upperBoundary := if value = 0xED then 0x9F else 0xBF }, [])
  else if 0xF0 ≤ value ∧ value ≤ 0xF4 then
    ({ codePoint := value % 0x08
       bytesNeeded := 3
       lowerBoundary := if value = 0xF0 then 0x90 else 0x80
       upperBoundary := if value = 0xF4 then 0x8F else 0xBF }, [])
  else (idle, [replacement])

def Decoder.step (decoder : Decoder) (byte : UInt8) : Decoder × List Char :=
  match decoder.bytesNeeded with
  | 0 => first byte
  | missing + 1 =>
    if decoder.lowerBoundary ≤ byte.toNat ∧ byte.toNat ≤ decoder.upperBoundary then
      let codePoint := decoder.codePoint * 0x40 + byte.toNat % 0x40
      match missing with
      | 0 => (idle, [Char.ofNat codePoint])
      | missing + 1 => ({ codePoint := codePoint, bytesNeeded := missing + 1 }, [])
    else ((first byte).1, replacement :: (first byte).2)

def Decoder.feed : Decoder → List UInt8 → Decoder × List Char
  | decoder, [] => (decoder, [])
  | decoder, byte :: bytes =>
    let (next, chars) := decoder.step byte
    let (last, rest) := next.feed bytes
    (last, chars ++ rest)

/-- What the end of the input adds: a character cut short is replaced. -/
def Decoder.flush (decoder : Decoder) : List Char :=
  if decoder.bytesNeeded = 0 then [] else [replacement]

def decode (bytes : List UInt8) : List Char :=
  (idle.feed bytes).2 ++ (idle.feed bytes).1.flush

def encode (text : List Char) : List UInt8 :=
  text.flatMap String.utf8EncodeChar

def byteLength : List Char → Nat
  | [] => 0
  | char :: text => char.utf8Size + byteLength text

def isContinuation (byte : UInt8) : Bool :=
  byte &&& 0xC0 = 0x80

/-- The first place from an offset on where a character starts, or the end. -/
def characterStart (buffer : List UInt8) (start : Nat) : Nat :=
  start + ((buffer.drop start).takeWhile isContinuation).length

/-- A decoder of a whole stream, which drops one byte order mark at its start. -/
structure TextDecoder where
  decoder : Decoder := idle
  bomSeen : Bool := false

/-- Drops the byte order mark when these are the first characters of the stream. -/
def stripBom : Bool → List Char → Bool × List Char
  | true, chars => (true, chars)
  | false, [] => (false, [])
  | false, char :: chars => (true, if char = '\uFEFF' then chars else char :: chars)

/-- Decodes a chunk; without `stream` the chunk is the last one. -/
def TextDecoder.decode (text : TextDecoder) (bytes : List UInt8) (stream : Bool) :
    TextDecoder × List Char :=
  let (decoder, chars) := text.decoder.feed bytes
  if stream then
    let (bomSeen, chars) := stripBom text.bomSeen chars
    ({ decoder := decoder, bomSeen := bomSeen }, chars)
  else ({}, (stripBom text.bomSeen (chars ++ decoder.flush)).2)

def decodeStream (bytes : List UInt8) : List Char :=
  (TextDecoder.decode {} bytes false).2

@[simp] theorem flush_idle : idle.flush = [] := rfl

variable (text : List Char) (front back : List Char) (char : Char) (decoder : Decoder)
  (byte : UInt8)

@[simp] theorem feed_nil : decoder.feed [] = (decoder, []) := rfl

theorem feed_cons (bytes : List UInt8) :
    decoder.feed (byte :: bytes) = (((decoder.step byte).1.feed bytes).1,
        (decoder.step byte).2 ++ ((decoder.step byte).1.feed bytes).2) := rfl

/-- Reading two chunks is reading them as one. -/
theorem feed_append (front back : List UInt8) :
    decoder.feed (front ++ back) = (((decoder.feed front).1.feed back).1,
        (decoder.feed front).2 ++ ((decoder.feed front).1.feed back).2) := by
  induction front generalizing decoder with
  | nil => rfl
  | cons byte front ih =>
    rw [cons_append, feed_cons, ih, feed_cons, append_assoc]

theorem stripBom_append (seen : Bool) (front back : List Char) :
    stripBom seen (front ++ back) = ((stripBom (stripBom seen front).1 back).1,
        (stripBom seen front).2 ++ (stripBom (stripBom seen front).1 back).2) := by
  cases seen with
  | true => rfl
  | false =>
    cases front with
    | nil => rfl
    | cons char front =>
      simp only [cons_append, stripBom]
      split <;> rfl

theorem decode_append (text : TextDecoder) (front back : List UInt8) (stream : Bool) :
    text.decode (front ++ back) stream = (((text.decode front true).1.decode back stream).1,
        (text.decode front true).2 ++ ((text.decode front true).1.decode back stream).2) := by
  cases stream with
  | true => simp only [TextDecoder.decode, feed_append, stripBom_append, if_true]
  | false =>
    simp only [TextDecoder.decode, feed_append, append_assoc, stripBom_append, if_true,
      Bool.false_eq_true, if_false]

/-- Between two characters nothing is added at the end. -/
theorem decode_idle {text : TextDecoder} (between : text.decoder.bytesNeeded = 0) :
    (text.decode [] false).2 = [] := by
  have flushed : text.decoder.flush = [] := if_pos between
  cases seen : text.bomSeen with
  | true => simp [TextDecoder.decode, flushed, seen, stripBom]
  | false => simp [TextDecoder.decode, flushed, seen, stripBom]

@[simp] theorem encode_nil : encode [] = [] := rfl

@[simp] theorem encode_cons (text : List Char) :
    encode (char :: text) = String.utf8EncodeChar char ++ encode text := rfl

@[simp] theorem encode_append : encode (front ++ back) = encode front ++ encode back :=
  flatMap_append

@[simp] theorem byteLength_nil : byteLength [] = 0 := rfl

@[simp] theorem byteLength_cons (text : List Char) :
    byteLength (char :: text) = char.utf8Size + byteLength text := rfl

@[simp] theorem byteLength_append :
    byteLength (front ++ back) = byteLength front + byteLength back := by
  induction front with
  | nil => exact (Nat.zero_add _).symm
  | cons char front ih => rw [cons_append, byteLength_cons, ih, byteLength_cons, Nat.add_assoc]

@[simp] theorem length_encode : (encode text).length = byteLength text := by
  induction text with
  | nil => rfl
  | cons char text ih =>
    rw [encode_cons, length_append, String.length_utf8EncodeChar, byteLength_cons, ih]

theorem step_idle : idle.step byte = first byte := rfl

/-- A first byte of two, three or four leaves that many bytes less one to read. -/
theorem feed_idle_cons (bytes : List UInt8) :
    idle.feed (byte :: bytes) =
      (((first byte).1.feed bytes).1, (first byte).2 ++ ((first byte).1.feed bytes).2) := by
  rw [feed_cons, step_idle]

theorem toNat_ofNat {value : Nat} (fits : value < 256) : (UInt8.ofNat value).toNat = value :=
  UInt8.toNat_ofNat_of_lt fits

theorem val_valid :
    char.toNat < 0xD800 ∨ 0xDFFF < char.toNat ∧ char.toNat < 0x110000 :=
  char.valid

theorem step_last {decoder : Decoder} {byte : UInt8} (needed : decoder.bytesNeeded = 1)
    (above : decoder.lowerBoundary ≤ byte.toNat) (below : byte.toNat ≤ decoder.upperBoundary) :
    decoder.step byte =
      (idle, [Char.ofNat (decoder.codePoint * 0x40 + byte.toNat % 0x40)]) := by
  rw [Decoder.step, needed]
  simp only [above, below, and_self, if_true]

/-- A byte within the bounds leaves one byte less to read. -/
theorem step_next {decoder : Decoder} {byte : UInt8} {missing : Nat}
    (needed : decoder.bytesNeeded = missing + 2)
    (above : decoder.lowerBoundary ≤ byte.toNat) (below : byte.toNat ≤ decoder.upperBoundary) :
    decoder.step byte =
      ({ codePoint := decoder.codePoint * 0x40 + byte.toNat % 0x40
         bytesNeeded := missing + 1 }, []) := by
  rw [Decoder.step, needed]
  simp only [above, below, and_self, if_true]

theorem feed_utf8EncodeChar : idle.feed (String.utf8EncodeChar char) = (idle, [char]) := by
  have valid := val_valid char
  have same : Char.ofNat char.toNat = char := Char.ofNat_toNat char
  have value : char.val.toNat = char.toNat := rfl
  rw [String.utf8EncodeChar]
  simp only [value]
  generalize char.toNat = code at *
  have continuation (bits : Nat) : (UInt8.ofNat (bits % 0x40 + 0x80)).toNat = bits % 0x40 + 0x80 :=
    toNat_ofNat (by omega)
  have low (bits : Nat) : 0x80 ≤ (UInt8.ofNat (bits % 0x40 + 0x80)).toNat := by
    rw [continuation]
    exact Nat.le_add_left _ _
  have high (bits : Nat) : (UInt8.ofNat (bits % 0x40 + 0x80)).toNat ≤ 0xBF := by
    rw [continuation]
    omega
  have payload (bits : Nat) : (bits % 0x40 + 0x80) % 0x40 = bits % 0x40 := by omega
  by_cases one : code ≤ 0x7F
  · rw [if_pos one, feed_idle_cons, first, toNat_ofNat (by omega), if_pos one, same]
    rfl
  rw [if_neg one]
  by_cases two : code ≤ 0x7FF
  · rw [if_pos two, feed_idle_cons, first, toNat_ofNat (by omega), if_neg (by omega),
      if_pos (by omega)]
    rw [feed_cons, step_last rfl, continuation, payload]
    · have whole : (code / 64 % 0x20 + 0xC0) % 0x20 * 0x40 + code % 0x40 = code := by omega
      rw [whole, same]
      rfl
    · exact low code
    · exact high code
  rw [if_neg two]
  by_cases three : code ≤ 0xFFFF
  · rw [if_pos three, feed_idle_cons, first, toNat_ofNat (by omega), if_neg (by omega),
      if_neg (by omega), if_pos (by omega)]
    rw [feed_cons, step_next rfl, feed_cons, step_last rfl]
    · simp only [continuation, payload]
      have whole : ((code / 4096 % 0x10 + 0xE0) % 0x10 * 0x40 + code / 64 % 0x40) * 0x40 +
          code % 0x40 = code := by omega
      rw [whole, same]
      rfl
    · exact low code
    · exact high code
    · rw [continuation]
      change (if code / 4096 % 0x10 + 0xE0 = 0xE0 then 0xA0 else 0x80) ≤ _
      split <;> omega
    · rw [continuation]
      change _ ≤ (if code / 4096 % 0x10 + 0xE0 = 0xED then 0x9F else 0xBF)
      split <;> omega
  rw [if_neg three, feed_idle_cons, first, toNat_ofNat (by omega), if_neg (by omega),
    if_neg (by omega), if_neg (by omega), if_pos (by omega)]
  rw [feed_cons, step_next rfl, feed_cons, step_next rfl, feed_cons, step_last rfl]
  · simp only [continuation, payload]
    have whole : (((code / 262144 % 0x08 + 0xF0) % 0x08 * 0x40 + code / 4096 % 0x40) * 0x40 +
        code / 64 % 0x40) * 0x40 + code % 0x40 = code := by omega
    rw [whole, same]
    rfl
  · exact low code
  · exact high code
  · exact low (code / 64)
  · exact high (code / 64)
  · rw [continuation]
    change (if code / 262144 % 0x08 + 0xF0 = 0xF0 then 0x90 else 0x80) ≤ _
    split <;> omega
  · rw [continuation]
    change _ ≤ (if code / 262144 % 0x08 + 0xF0 = 0xF4 then 0x8F else 0xBF)
    split <;> omega

theorem feed_encode : idle.feed (encode text) = (idle, text) := by
  induction text with
  | nil => rfl
  | cons char text ih =>
    rw [encode_cons, feed_append, feed_utf8EncodeChar, ih]
    rfl

theorem decode_encode : decode (encode text) = text := by
  rw [decode, feed_encode]
  exact append_nil text

theorem isContinuation_iff :
    isContinuation byte = true ↔ 0x80 ≤ byte.toNat ∧ byte.toNat ≤ 0xBF := by
  have table : ∀ value < 256, value &&& 0xC0 = 0x80 ↔ 0x80 ≤ value ∧ value ≤ 0xBF := by
    decide +kernel
  rw [isContinuation, decide_eq_true_iff, ← UInt8.toNat_inj, UInt8.toNat_and]
  exact table byte.toNat byte.toNat_lt

theorem utf8EncodeChar_shape :
    ∃ byte others, String.utf8EncodeChar char = byte :: others ∧
      isContinuation byte = false ∧ ∀ other ∈ others, isContinuation other = true := by
  have valid := val_valid char
  have value : char.val.toNat = char.toNat := rfl
  have leading {bits : Nat} (fits : bits < 256) (other : bits < 0x80 ∨ 0xBF < bits) :
      isContinuation (UInt8.ofNat bits) = false := by
    rw [← Bool.not_eq_true, isContinuation_iff, toNat_ofNat fits]
    omega
  have continuing (bits : Nat) : isContinuation (UInt8.ofNat (bits % 0x40 + 0x80)) = true := by
    rw [isContinuation_iff, toNat_ofNat (by omega)]
    omega
  rw [String.utf8EncodeChar]
  simp only [value]
  generalize char.toNat = code at *
  split
  · exact ⟨_, _, rfl, leading (by omega) (by omega), by simp⟩
  split
  · exact ⟨_, _, rfl, leading (by omega) (by omega), by simp [-UInt8.ofNat_add, continuing]⟩
  split
  · exact ⟨_, _, rfl, leading (by omega) (by omega), by simp [-UInt8.ofNat_add, continuing]⟩
  · exact ⟨_, _, rfl, leading (by omega) (by omega), by simp [-UInt8.ofNat_add, continuing]⟩

theorem takeWhile_encode : (encode text).takeWhile isContinuation = [] := by
  cases text with
  | nil => rfl
  | cons char text =>
    obtain ⟨byte, others, bytes, leads, -⟩ := utf8EncodeChar_shape char
    rw [encode_cons, bytes, cons_append, takeWhile_cons, leads]
    rfl

/-- From any offset the next character start splits the text, and the character before it
starts before the offset. -/
theorem characterStart_least (start : Nat) (inside : start ≤ byteLength text) :
    ∃ front back, text = front ++ back ∧ characterStart (encode text) start = byteLength front ∧
      ∀ char, front.getLast? = some char → byteLength front < start + char.utf8Size := by
  induction text generalizing start with
  | nil =>
    refine ⟨[], [], rfl, ?_, nofun⟩
    rw [byteLength_nil, Nat.le_zero] at inside
    rw [inside]
    rfl
  | cons char text ih =>
    have size := String.length_utf8EncodeChar char
    by_cases whole : char.utf8Size ≤ start
    · rw [byteLength_cons] at inside
      obtain ⟨front, back, split, place, near⟩ := ih (start - char.utf8Size) (by omega)
      refine ⟨char :: front, back, by rw [split]; rfl, ?_, fun last ends => ?_⟩
      · rw [characterStart] at place ⊢
        rw [encode_cons, drop_append, size, drop_eq_nil_of_le (by omega),
          nil_append, byteLength_cons]
        omega
      · rw [byteLength_cons]
        cases front with
        | nil =>
          obtain rfl : char = last := by simpa using ends
          rw [byteLength_nil]
          have := char.utf8Size_pos
          omega
        | cons next front =>
          have := near last ends
          omega
    · by_cases zero : start = 0
      · refine ⟨[], char :: text, rfl, ?_, nofun⟩
        rw [zero, characterStart, drop_zero, takeWhile_encode]
        rfl
      obtain ⟨byte, others, bytes, -, continues⟩ := utf8EncodeChar_shape char
      obtain ⟨skipped, rfl⟩ := Nat.exists_eq_succ_of_ne_zero zero
      rw [bytes, length_cons] at size
      refine ⟨[char], text, rfl, ?_, fun last ends => ?_⟩
      · have rest : ((others.drop skipped) ++ encode text).takeWhile isContinuation =
            others.drop skipped := by
          rw [takeWhile_append_of_pos fun other member => continues other (mem_of_mem_drop member),
            takeWhile_encode, append_nil]
        rw [characterStart, encode_cons, bytes, cons_append, drop_succ_cons,
          drop_append_of_le_length (by omega), rest, length_drop, byteLength_cons,
          byteLength_nil]
        omega
      · obtain rfl : char = last := by simpa using ends
        rw [byteLength_cons, byteLength_nil]
        omega

/-- The next character start is at most three bytes further on. -/
theorem characterStart_encode (start : Nat) (inside : start ≤ byteLength text) :
    ∃ front back, text = front ++ back ∧
      characterStart (encode text) start = byteLength front ∧ byteLength front ≤ start + 3 := by
  obtain ⟨front, back, split, place, near⟩ := characterStart_least text start inside
  refine ⟨front, back, split, place, ?_⟩
  rcases front.eq_nil_or_concat with rfl | ⟨before, char, rfl⟩
  · exact Nat.zero_le _
  · have := near char (by simp)
    have := Char.utf8Size_le_four char
    omega

theorem drop_characterStart_append (front back : List UInt8) (start : Nat) :
    (front ++ back).drop (characterStart (front ++ back) (front.length + start)) =
      back.drop (characterStart back start) := by
  have rest : (front ++ back).drop (front.length + start) = back.drop start := by
    rw [← drop_drop, drop_left]
  rw [characterStart, rest, Nat.add_assoc, ← drop_drop, drop_left, characterStart]

theorem drop_byteLength : (encode (front ++ back)).drop (byteLength front) = encode back := by
  rw [encode_append, ← length_encode, drop_left]

theorem utf8EncodeChar_injective {char other : Char}
    (same : String.utf8EncodeChar char = String.utf8EncodeChar other) : char = other := by
  have read := feed_utf8EncodeChar char
  rw [same, feed_utf8EncodeChar] at read
  exact (singleton_inj.mp (congrArg Prod.snd read)).symm

/-- The last byte of a character is a line feed for the line feed only. -/
theorem getLast?_utf8EncodeChar :
    (String.utf8EncodeChar char).getLast? = some 0x0A ↔ char = '\n' := by
  constructor
  · intro last
    obtain ⟨byte, others, bytes, -, continues⟩ := utf8EncodeChar_shape char
    rw [bytes] at last
    by_cases alone : others = []
    · rw [alone, getLast?_singleton, some_inj] at last
      apply utf8EncodeChar_injective
      rw [bytes, alone, last]
      rfl
    rw [getLast?_cons, getLast?_eq_some_getLast alone, getD_some,
      some_inj] at last
    have wrong := continues _ (getLast_mem alone)
    rw [last] at wrong
    exact absurd wrong (by decide)
  · rintro rfl
    rfl

theorem getElem?_before :
    (encode (front ++ [char] ++ back))[byteLength (front ++ [char]) - 1]? = some 0x0A ↔
      char = '\n' := by
  have size := Char.utf8Size_pos char
  have bytes : encode (front ++ [char]) = encode front ++ String.utf8EncodeChar char := by
    rw [encode_append, encode_cons, encode_nil, append_nil]
  have nonempty : String.utf8EncodeChar char ≠ [] := String.utf8EncodeChar_ne_nil
  have long : byteLength (front ++ [char]) - 1 < (encode (front ++ [char])).length := by
    rw [length_encode, byteLength_append, byteLength_cons]
    omega
  rw [encode_append, getElem?_append_left long, ← length_encode, ← getLast?_eq_getElem?,
    bytes, getLast?_append_of_ne_nil _ nonempty, getLast?_utf8EncodeChar]

end Utf8

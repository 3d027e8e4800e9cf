import Recode.Lib.Occurrences
import Recode.Lib.Utf8

/-! # Frames of a language server

A message is framed by header lines, one of which gives its length in bytes. The framer keeps the
bytes that are not read yet, so that its messages do not depend on how the stream is cut. -/

namespace Recode.Lsp.Framing

open List Utf8 Nat Option

open Occurrences (indexOf)

/-- `"\r\n\r\n"`. -/
def blankLine : List UInt8 := [0x0D, 0x0A, 0x0D, 0x0A]

/-- `toString("ascii")`, which ignores the high bit of a byte. -/
def ascii (bytes : List UInt8) : List Char := bytes.map fun byte => Char.ofNat (byte.toNat % 128)

/-- `\s`, of the characters that `ascii` yields. -/
def isSpace (char : Char) : Bool := char = ' ' || ('\t' ≤ char && char ≤ '\r')

def field : List Char :=
  ['c', 'o', 'n', 't', 'e', 'n', 't', '-', 'l', 'e', 'n', 'g', 't', 'h', ':']

/-- The digits of `/Content-Length:\s*(\d+)/i` at the start of a text. -/
def lengthAt (text : List Char) : Option (List Char) :=
  if (text.take field.length).map Char.toLower = field then
    let digits := ((text.drop field.length).dropWhile isSpace).takeWhile Char.isDigit
    if digits = [] then none else some digits
  else none

/-- The first match after a line break. -/
def lengthLater : List Char → Option (List Char)
  | [] => none
  | char :: text =>
    if char = '\r' ∧ text.head? = some '\n' then
      (lengthAt (text.drop 1)).or (lengthLater text)
    else lengthLater text

/-- `/(?:^|\r\n)Content-Length:\s*(\d+)/i`. -/
def lengthMatch (header : List Char) : Option (List Char) :=
  (lengthAt header).or (lengthLater header)

theorem header_inside {pending : List UInt8} {headerEnd : Nat}
    (found : indexOf blankLine pending = some headerEnd) : headerEnd + 4 ≤ pending.length :=
  (Occurrences.indexOf_eq_some.mp found).1.le_length

/-- The loop of `push`: the messages that are whole, and the bytes that stay pending. -/
def readMessages (pending : List UInt8) : List (List Char) × List UInt8 :=
  match _found : indexOf blankLine pending with
  | none => ([], pending)
  | some headerEnd =>
    match lengthMatch (ascii (pending.take headerEnd)) with
    | none => readMessages (pending.drop (headerEnd + 4))
    | some digits =>
      let bodyStart := headerEnd + 4
      let bodyEnd := bodyStart + ofDigitChars 10 digits 0
      if pending.length < bodyEnd then ([], pending)
      else
        let rest := readMessages (pending.drop bodyEnd)
        (decode ((pending.take bodyEnd).drop bodyStart) :: rest.1, rest.2)
termination_by pending.length
decreasing_by
  all_goals
    have inside := header_inside _found
    rw [length_drop]
    omega

structure LspMessageFramer where
  pending : List UInt8 := []

def LspMessageFramer.push (framer : LspMessageFramer) (chunk : List UInt8) :
    List (List Char) × LspMessageFramer :=
  let read := readMessages (framer.pending ++ chunk)
  (read.1, ⟨read.2⟩)

def LspMessageFramer.pushAll (framer : LspMessageFramer) :
    List (List UInt8) → List (List Char) × LspMessageFramer
  | [] => ([], framer)
  | chunk :: chunks =>
    let first := framer.push chunk
    let rest := first.2.pushAll chunks
    (first.1 ++ rest.1, rest.2)

/-! ## Reading on -/

section Reading

variable {pending : List UInt8}

theorem indexOf_append {headerEnd : Nat} (found : indexOf blankLine pending = some headerEnd)
    (more : List UInt8) : indexOf blankLine (pending ++ more) = some headerEnd := by
  obtain ⟨⟨before, after, rfl, rfl⟩, least⟩ := Occurrences.indexOf_eq_some.mp found
  refine Occurrences.indexOf_eq_some.mpr ⟨⟨before, after ++ more, by simp, rfl⟩, ?_⟩
  intro other earlier occurs
  have inside : other + blankLine.length ≤ (before ++ (blankLine ++ after)).length := by
    simp only [length_append]
    omega
  refine least other earlier (Occurrences.occursAt_of_slice inside ?_)
  have slice := occurs.slice
  rwa [drop_append_of_le_length (by omega), take_append_of_le_length
    (by rw [length_drop]; omega)] at slice

/-- Bytes that come later do not change what was read. -/
theorem readMessages_append (pending more : List UInt8) : readMessages (pending ++ more) =
    ((readMessages pending).1 ++ (readMessages ((readMessages pending).2 ++ more)).1,
      (readMessages ((readMessages pending).2 ++ more)).2) := by
  induction pending using readMessages.induct with
  | case1 pending absent =>
    rw [readMessages.eq_def pending, absent]
    rfl
  | case2 pending headerEnd found unmatched ih =>
    have inside := header_inside found
    rw [readMessages.eq_def pending, found, readMessages.eq_def (pending ++ more),
      indexOf_append found]
    dsimp only
    rw [take_append_of_le_length (le_of_add_right_le inside), unmatched]
    dsimp only
    rw [drop_append_of_le_length inside, ih]
  | case3 pending headerEnd found digits matched bodyStart bodyEnd short =>
    rw [readMessages.eq_def pending, found]
    dsimp only
    rw [matched]
    dsimp only
    rw [if_pos short]
    rfl
  | case4 pending headerEnd found digits matched bodyStart bodyEnd long ih =>
    have whole : bodyEnd ≤ pending.length := Nat.le_of_not_lt long
    have inside := header_inside found
    rw [readMessages.eq_def pending, found, readMessages.eq_def (pending ++ more),
      indexOf_append found]
    dsimp only
    rw [take_append_of_le_length (le_of_add_right_le inside), matched]
    dsimp only
    rw [if_neg long, if_neg (by rw [length_append]; omega),
      drop_append_of_le_length whole, take_append_of_le_length whole, ih]
    rfl

theorem readMessages_rest (pending : List UInt8) :
    readMessages (readMessages pending).2 = ([], (readMessages pending).2) := by
  have again := readMessages_append pending []
  rw [append_nil, append_nil] at again
  exact Prod.ext (self_eq_append_right.mp (congrArg Prod.fst again))
    (congrArg Prod.snd again).symm

theorem pushAll_eq (framer : LspMessageFramer) (chunks : List (List UInt8))
    (settled : readMessages framer.pending = ([], framer.pending)) :
    framer.pushAll chunks = ((readMessages (framer.pending ++ chunks.flatten)).1,
      ⟨(readMessages (framer.pending ++ chunks.flatten)).2⟩) := by
  induction chunks generalizing framer with
  | nil => rw [flatten_nil, append_nil, settled, LspMessageFramer.pushAll]
  | cons chunk chunks ih =>
    rw [LspMessageFramer.pushAll, ih _ (readMessages_rest _), flatten_cons,
      ← append_assoc, readMessages_append (framer.pending ++ chunk)]
    rfl

end Reading

/-! ## Blocks -/

/-- A header line: ASCII, and not the one that gives a length. -/
structure HeaderLine where
  text : List Char
  nonempty : text ≠ []
  ascii : ∀ char ∈ text, char.toNat < 128
  single : '\r' ∉ text
  other : ¬ field <+: text.map Char.toLower

/-- What a server sends: a message with its header lines, or a header block without a length. -/
inductive Block
  | message (before after : List HeaderLine) (content : List Char)
  | other (first : HeaderLine) (lines : List HeaderLine)

/-- `Content-Length: `, which `queueWriteMessage` writes. -/
def lengthName : List Char :=
  ['C', 'o', 'n', 't', 'e', 'n', 't', '-', 'L', 'e', 'n', 'g', 't', 'h', ':', ' ']

def lengthLine (content : List Char) : List Char :=
  lengthName ++ toDigits 10 (byteLength content)

def breaks (lines : List (List Char)) : List Char := lines.flatMap fun line => '\r' :: '\n' :: line

def headerText : List (List Char) → List Char
  | [] => []
  | line :: lines => line ++ breaks lines

def Block.lines : Block → List (List Char)
  | .message before after content =>
    before.map (·.text) ++ lengthLine content :: after.map (·.text)
  | .other first lines => (first :: lines).map (·.text)

def Block.content : Block → Option (List Char)
  | .message _ _ content => some content
  | .other _ _ => none

def Block.bytes (block : Block) : List UInt8 :=
  encode (headerText block.lines) ++ blankLine ++ encode (block.content.getD [])

/-- A line of which a header can consist. -/
structure Plain (line : List Char) : Prop where
  nonempty : line ≠ []
  ascii : ∀ char ∈ line, char.toNat < 128
  single : '\r' ∉ line

theorem HeaderLine.plain (line : HeaderLine) : Plain line.text :=
  ⟨line.nonempty, line.ascii, line.single⟩

theorem lengthLine_plain (content : List Char) : Plain (lengthLine content) := by
  have digits : ∀ char ∈ toDigits 10 (byteLength content), char.toNat < 128 ∧ char ≠ '\r' := by
    intro char member
    have digit := isDigit_of_mem_toDigits (by decide) (by decide) member
    rw [Char.isDigit, Bool.and_eq_true, decide_eq_true_eq, decide_eq_true_eq] at digit
    have small : char.toNat ≤ 57 := digit.2
    exact ⟨by omega, fun same => by rw [same] at digit; exact absurd digit.1 (by decide)⟩
  refine ⟨append_ne_nil_of_left_ne_nil (by decide) _, fun char member => ?_, fun member => ?_⟩
  · rcases mem_append.mp member with early | late
    · have small : lengthName.all (fun char => decide (char.toNat < 128)) = true := rfl
      exact of_decide_eq_true (all_eq_true.mp small char early)
    · exact (digits char late).1
  · rcases mem_append.mp member with early | late
    · exact absurd early (by decide)
    · exact (digits _ late).2 rfl

variable {lines : List (List Char)} {line : List Char} (block : Block)

theorem Block.plain : ∀ line ∈ block.lines, Plain line := by
  have others : ∀ lines : List HeaderLine, ∀ line ∈ lines.map (·.text), Plain line := by
    intro lines line member
    obtain ⟨header, _, rfl⟩ := mem_map.mp member
    exact header.plain
  intro line member
  cases block with
  | message before after content =>
    rcases mem_append.mp member with early | late
    · exact others before line early
    · rcases mem_cons.mp late with rfl | later
      · exact lengthLine_plain content
      · exact others after line later
  | other first lines => exact others (first :: lines) line member

/-! ### The end of a header -/

theorem encode_char {char : Char} (small : char.toNat < 128) :
    String.utf8EncodeChar char = [UInt8.ofNat char.toNat] := by
  have fits : char.val.toNat ≤ 127 := le_of_lt_succ small
  rw [String.utf8EncodeChar]
  simp only [fits, ↓reduceIte]
  rfl

theorem ascii_encode {text : List Char} (small : ∀ char ∈ text, char.toNat < 128) :
    ascii (encode text) = text := by
  induction text with
  | nil => rfl
  | cons char text ih =>
    have first := small char mem_cons_self
    rw [encode_cons, encode_char first, ascii, singleton_append, map_cons,
      UInt8.toNat_ofNat_of_lt' (by change _ < 256; omega), mod_eq_of_lt first,
      Char.ofNat_toNat]
    exact congrArg _ (ih fun char member => small char (mem_cons_of_mem _ member))

theorem break_apart {char : Char} (small : char.toNat < 128) (apart : char ≠ '\r') :
    (0x0D == UInt8.ofNat char.toNat) = false := by
  refine beq_eq_false_iff_ne.mpr fun same => apart ?_
  have value := congrArg UInt8.toNat same
  rw [UInt8.toNat_ofNat_of_lt' (by change _ < 256; omega)] at value
  rw [← Char.ofNat_toNat char, ← value]
  rfl

theorem indexOf_line (ascii : ∀ char ∈ line, char.toNat < 128)
    (single : '\r' ∉ line) (rest : List UInt8) : indexOf blankLine (Utf8.encode line ++ rest) =
      (indexOf blankLine rest).map (· + (Utf8.encode line).length) := by
  induction line with
  | nil => exact Option.map_id'.symm
  | cons char line ih =>
    have first := ascii char mem_cons_self
    have apart := break_apart first fun same => single (same ▸ mem_cons_self)
    rw [encode_cons, encode_char first, singleton_append, cons_append, indexOf,
      blankLine, List.isPrefixOf, apart, Bool.false_and, if_neg Bool.false_ne_true, ← blankLine,
      ih (fun char member => ascii char (mem_cons_of_mem _ member))
        fun member => single (mem_cons_of_mem _ member), Option.map_map]
    rfl

theorem indexOf_break {byte : UInt8} (apart : (0x0D == byte) = false) (rest : List UInt8) :
    indexOf blankLine (0x0D :: 0x0A :: byte :: rest) =
      (indexOf blankLine (byte :: rest)).map (· + 2) := by
  have broken : blankLine.isPrefixOf (0x0D :: 0x0A :: byte :: rest) = false := by
    rw [blankLine, List.isPrefixOf, List.isPrefixOf, List.isPrefixOf, apart]
    rfl
  have inside : blankLine.isPrefixOf (0x0A :: byte :: rest) = false := rfl
  rw [indexOf, broken, if_neg Bool.false_ne_true, indexOf, inside, if_neg Bool.false_ne_true,
    Option.map_map]
  rfl

theorem indexOf_breaks (plain : ∀ line ∈ lines, Plain line)
    (rest : List UInt8) : indexOf blankLine (Utf8.encode (breaks lines) ++ (blankLine ++ rest)) =
      some (Utf8.encode (breaks lines)).length := by
  induction lines with
  | nil => rfl
  | cons line lines ih =>
    have first := plain line mem_cons_self
    have later := ih fun line member => plain line (mem_cons_of_mem _ member)
    obtain ⟨char, text, rfl⟩ := exists_cons_of_ne_nil first.nonempty
    have small := first.ascii char mem_cons_self
    have apart := break_apart small fun same => first.single (same ▸ mem_cons_self)
    have shape : Utf8.encode (breaks ((char :: text) :: lines)) = 0x0D :: 0x0A ::
        (UInt8.ofNat char.toNat :: Utf8.encode text ++ Utf8.encode (breaks lines)) := by
      change Utf8.encode ('\r' :: '\n' :: char :: (text ++ breaks lines)) = _
      rw [encode_cons, encode_cons, encode_cons, encode_append, encode_char small]
      rfl
    have line := indexOf_line first.ascii first.single
      (Utf8.encode (breaks lines) ++ (blankLine ++ rest))
    rw [encode_cons, encode_char small, later] at line
    rw [shape, cons_append, cons_append, cons_append, cons_append,
      indexOf_break apart, append_assoc]
    change Option.map _ (indexOf blankLine ([UInt8.ofNat char.toNat] ++ Utf8.encode text ++
      (Utf8.encode (breaks lines) ++ (blankLine ++ rest)))) = _
    rw [line]
    simp only [map_some, length_cons, length_append, length_nil]
    exact congrArg some (by omega)

theorem indexOf_header (plain : ∀ line ∈ lines, Plain line)
    (rest : List UInt8) :
    indexOf blankLine (Utf8.encode (headerText lines) ++ (blankLine ++ rest)) =
      some (Utf8.encode (headerText lines)).length := by
  cases lines with
  | nil => rfl
  | cons line lines =>
    have first := plain line mem_cons_self
    rw [headerText, encode_append, append_assoc, indexOf_line first.ascii first.single,
      indexOf_breaks fun line member => plain line (mem_cons_of_mem _ member),
      length_append, Nat.add_comm]
    rfl

/-! ### The length in a header -/

theorem lengthAt_other (line : HeaderLine) (lines : List (List Char)) :
    lengthAt (line.text ++ breaks lines) = none := by
  refine if_neg fun same => ?_
  by_cases long : field.length ≤ line.text.length
  · rw [take_append_of_le_length long] at same
    refine line.other ⟨(line.text.drop field.length).map Char.toLower, ?_⟩
    rw [← same, ← map_append]
    simp only [length_map, length_take, Nat.min_eq_left long, take_append_drop]
  cases lines with
  | nil =>
    have length := congrArg List.length same
    rw [length_map, length_take] at length
    simp only [breaks, flatMap_nil, append_nil] at length
    omega
  | cons next lines =>
    have member : '\r' ∈ field := by
      rw [← same]
      refine mem_map.mpr ⟨'\r', ?_, by decide⟩
      obtain ⟨count, split⟩ := Nat.exists_eq_add_of_lt (Nat.lt_of_not_le long)
      rw [split, Nat.add_assoc, take_length_add_append]
      exact mem_append_right _ mem_cons_self
    exact absurd member (by decide)

theorem lengthAt_lengthLine (content : List Char) (lines : List (List Char)) :
    lengthAt (lengthLine content ++ breaks lines) =
      some (toDigits 10 (byteLength content)) := by
  let length := toDigits 10 (byteLength content)
  have digit : ∀ char ∈ length, char.isDigit = true :=
    fun char member => isDigit_of_mem_toDigits (by decide) (by decide) member
  have nonempty : length ≠ [] := toDigits_ne_nil
  have taken : (length ++ breaks lines).takeWhile Char.isDigit = length := by
    rw [takeWhile_append_of_pos digit]
    cases lines <;> exact append_nil _
  have spaces : (' ' :: (length ++ breaks lines)).dropWhile isSpace = length ++ breaks lines := by
    obtain ⟨char, digits, split⟩ := exists_cons_of_ne_nil nonempty
    have first := digit char (split ▸ mem_cons_self)
    have solid : isSpace char = false := by
      rw [Char.isDigit, Bool.and_eq_true, decide_eq_true_eq, decide_eq_true_eq] at first
      rw [isSpace, Bool.or_eq_false_iff, Bool.and_eq_false_iff]
      refine ⟨decide_eq_false fun same => ?_, .inr (decide_eq_false fun le => ?_)⟩
      · rw [same] at first
        exact absurd first.1 (by decide)
      · exact absurd (le_trans first.1 le) (by decide)
    rw [split, cons_append, dropWhile_cons, if_pos (by decide), dropWhile_cons,
      solid, if_neg Bool.false_ne_true]
  have value : lengthAt (lengthLine content ++ breaks lines) =
      if ((' ' :: (length ++ breaks lines)).dropWhile isSpace).takeWhile Char.isDigit = [] then none
      else some (((' ' :: (length ++ breaks lines)).dropWhile isSpace).takeWhile Char.isDigit) :=
    rfl
  rw [value, spaces, taken, if_neg nonempty]

theorem lengthLater_line (single : '\r' ∉ line) (rest : List Char) :
    lengthLater (line ++ rest) = lengthLater rest := by
  induction line with
  | nil => rfl
  | cons char line ih =>
    have apart : char ≠ '\r' := fun same => single (same ▸ mem_cons_self)
    rw [cons_append, lengthLater, if_neg fun both => apart both.1,
      ih fun member => single (mem_cons_of_mem _ member)]

theorem lengthLater_breaks (single : '\r' ∉ line) (lines : List (List Char)) :
    lengthLater (breaks (line :: lines)) =
      (lengthAt (line ++ breaks lines)).or (lengthLater (breaks lines)) := by
  rw [← lengthLater_line single (breaks lines)]
  rfl

theorem lengthLater_others (others : List HeaderLine) (lines : List (List Char)) :
    lengthLater (breaks (others.map (·.text) ++ lines)) = lengthLater (breaks lines) := by
  induction others with
  | nil => rfl
  | cons line others ih =>
    rw [map_cons, cons_append, lengthLater_breaks line.single, lengthAt_other, ih]
    rfl

theorem lengthMatch_lines : lengthMatch (headerText block.lines) =
    block.content.map fun content => toDigits 10 (byteLength content) := by
  have line : ∀ {line : List Char}, '\r' ∉ line → ∀ lines,
      lengthMatch (headerText (line :: lines)) =
      (lengthAt (line ++ breaks lines)).or (lengthLater (breaks lines)) := by
    intro line single lines
    rw [← lengthLater_line single (breaks lines)]
    rfl
  cases block with
  | message before after content =>
    have single := (lengthLine_plain content).single
    cases before with
    | nil =>
      change lengthMatch (headerText (lengthLine content :: _)) = _
      rw [line single, lengthAt_lengthLine]
      rfl
    | cons first before =>
      change lengthMatch (headerText (first.text :: (before.map (·.text) ++ _))) = _
      rw [line first.single, lengthAt_other, lengthLater_others, lengthLater_breaks single,
        lengthAt_lengthLine]
      rfl
  | other first lines =>
    have later := lengthLater_others lines []
    rw [append_nil] at later
    change lengthMatch (headerText (first.text :: lines.map (·.text))) = _
    rw [line first.single, lengthAt_other, later]
    rfl

/-! ## Streams -/

theorem headerText_ascii (plain : ∀ line ∈ lines, Plain line) :
    ∀ char ∈ headerText lines, char.toNat < 128 := by
  cases lines with
  | nil => exact fun char member => absurd member not_mem_nil
  | cons line lines =>
    intro char member
    rcases mem_append.mp member with first | later
    · exact (plain line mem_cons_self).ascii char first
    obtain ⟨next, among, inside⟩ := mem_flatMap.mp later
    rcases mem_cons.mp inside with rfl | inside
    · decide
    · rcases mem_cons.mp inside with rfl | inside
      · decide
      · exact (plain next (mem_cons_of_mem _ among)).ascii char inside

theorem readMessages_block (rest : List UInt8) :
    readMessages (block.bytes ++ rest) =
      (block.content.toList ++ (readMessages rest).1, (readMessages rest).2) := by
  have header := indexOf_header block.plain (encode (block.content.getD []) ++ rest)
  have shape : block.bytes ++ rest = encode (headerText block.lines) ++
      (blankLine ++ (encode (block.content.getD []) ++ rest)) := by
    rw [Block.bytes]
    simp only [append_assoc]
  have blank : (encode (headerText block.lines)).length + 4 =
      (encode (headerText block.lines) ++ blankLine).length := by
    rw [length_append]
    rfl
  rw [shape, readMessages, header]
  dsimp only
  rw [take_left, ascii_encode (headerText_ascii block.plain), lengthMatch_lines,
    blank, ← append_assoc]
  cases content : block.content with
  | none =>
    dsimp only [map_none]
    rw [drop_left]
    rfl
  | some text =>
    dsimp only [map_some, getD_some]
    rw [ofDigitChars_toDigits (by decide) (by decide), ← length_encode, ← length_append]
    simp only [← append_assoc]
    rw [if_neg (by rw [length_append]; omega), drop_left, take_left, drop_left, decode_encode]
    rfl

theorem readMessages_blocks (blocks : List Block) :
    readMessages (blocks.flatMap Block.bytes) = (blocks.filterMap Block.content, []) := by
  induction blocks with
  | nil => rw [flatMap_nil, readMessages]; rfl
  | cons block blocks ih =>
    rw [flatMap_cons, readMessages_block, ih, filterMap_cons]
    cases block.content <;> rfl

/-- Messages arrive as they were sent, wherever the stream is cut. -/
theorem messages_framed (blocks : List Block) (chunks : List (List UInt8))
    (cut : chunks.flatten = blocks.flatMap Block.bytes) :
    LspMessageFramer.pushAll {} chunks = (blocks.filterMap Block.content, {}) := by
  have empty : readMessages [] = ([], []) := readMessages_blocks []
  rw [pushAll_eq {} chunks empty]
  change ((readMessages chunks.flatten).1, LspMessageFramer.mk (readMessages chunks.flatten).2) = _
  rw [cut, readMessages_blocks]

theorem messages_framed_bytes :
    LspMessageFramer.pushAll {} ((Block.message [] [] ['1']).bytes.map fun byte => [byte]) =
      ([['1']], {}) :=
  messages_framed [.message [] [] ['1']] _ (by decide)

/-- Malformed bytes are read alike too, wherever they are cut, and nothing complete is kept. -/
theorem LspMessageFramer.pushAll_cut (chunks : List (List UInt8)) :
    pushAll {} chunks = pushAll {} [chunks.flatten] ∧
      (pushAll {} chunks).2.push [] = ([], (pushAll {} chunks).2) := by
  have empty : readMessages [] = ([], []) := readMessages_blocks []
  rw [pushAll_eq {} chunks empty, pushAll_eq {} [chunks.flatten] empty]
  simp [push, readMessages_rest]

end Recode.Lsp.Framing

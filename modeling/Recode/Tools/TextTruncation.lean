import Recode.Lib.Lines
import Recode.Lib.Utf16
import Recode.Tools.Truncate

/-! # Truncation of strings of code units

The truncation of the agent harness and that of the coding agent, on strings as the program has
them. They count the bytes of a string and cut a line that is too long in different ways. -/

namespace Recode.TextTruncation

open Utf16

open Tools (Limit TruncationOptions DEFAULT_MAX_LINES DEFAULT_MAX_BYTES)

abbrev newline : UInt16 := 0x0A

structure TruncationResult where
  content : List UInt16
  truncated : Bool
  truncatedBy : Option Limit
  totalLines : Nat
  totalBytes : Nat
  outputLines : Nat
  outputBytes : Nat
  lastLinePartial : Bool
  firstLineExceedsLimit : Bool
  maxLines : Nat
  maxBytes : Nat
deriving DecidableEq

def splitLinesForCounting (content : List UInt16) : List (List UInt16) :=
  Lines.counted newline content

/-- What a loop over the lines has collected. -/
structure Collected where
  outputLinesArr : List (List UInt16) := []
  outputBytesCount : Nat := 0
  truncatedBy : Limit := .lines
  lastLinePartial : Bool := false
deriving DecidableEq

/-- What both functions return when nothing is truncated. -/
def whole (content : List UInt16) (totalLines totalBytes maxLines maxBytes : Nat) :
    TruncationResult where
  content := content
  truncated := false
  truncatedBy := none
  totalLines := totalLines
  totalBytes := totalBytes
  outputLines := totalLines
  outputBytes := totalBytes
  lastLinePartial := false
  firstLineExceedsLimit := false
  maxLines := maxLines
  maxBytes := maxBytes

section Truncate

variable (byteLength : List UInt16 → Nat) (truncateStringToBytesFromEnd : List UInt16 → Nat →
    List UInt16)

/-- What both functions return for the lines they collected. -/
def shortened (collected : Collected) (totalLines totalBytes maxLines maxBytes : Nat) :
    TruncationResult :=
  let truncatedBy :=
    if collected.outputLinesArr.length ≥ maxLines ∧ collected.outputBytesCount ≤ maxBytes then
      .lines
    else collected.truncatedBy
  let outputContent := Lines.joined newline collected.outputLinesArr
  { content := outputContent
    truncated := true
    truncatedBy := some truncatedBy
    totalLines := totalLines
    totalBytes := totalBytes
    outputLines := collected.outputLinesArr.length
    outputBytes := byteLength outputContent
    lastLinePartial := collected.lastLinePartial
    firstLineExceedsLimit := false
    maxLines := maxLines
    maxBytes := maxBytes }

/-- The loop of `truncateHead` from an index on. -/
def collectFromStart (maxLines maxBytes : Nat) :
    Nat → List (List UInt16) → Collected → Collected
  | _, [], collected => collected
  | i, line :: lines, collected =>
    if i < maxLines then
      let lineBytes := byteLength line + if i > 0 then 1 else 0
      if collected.outputBytesCount + lineBytes > maxBytes then
        { collected with truncatedBy := .bytes }
      else
        collectFromStart maxLines maxBytes (i + 1) lines
          { collected with
            outputLinesArr := collected.outputLinesArr ++ [line]
            outputBytesCount := collected.outputBytesCount + lineBytes }
    else collected

/-- The loop of `truncateTail` over the lines, the last line first. -/
def collectFromEnd (maxLines maxBytes : Nat) : List (List UInt16) → Collected → Collected
  | [], collected => collected
  | line :: before, collected =>
    if collected.outputLinesArr.length < maxLines then
      let lineBytes := byteLength line + if collected.outputLinesArr.length > 0 then 1 else 0
      if collected.outputBytesCount + lineBytes > maxBytes then
        if collected.outputLinesArr.length = 0 then
          let truncatedLine := truncateStringToBytesFromEnd line maxBytes
          { outputLinesArr := truncatedLine :: collected.outputLinesArr
            outputBytesCount := byteLength truncatedLine
            truncatedBy := .bytes
            lastLinePartial := true }
        else { collected with truncatedBy := .bytes }
      else
        collectFromEnd maxLines maxBytes before
          { collected with
            outputLinesArr := line :: collected.outputLinesArr
            outputBytesCount := collected.outputBytesCount + lineBytes }
    else collected

def truncateHead (content : List UInt16) (options : TruncationOptions) : TruncationResult :=
  let maxLines := options.maxLines.getD DEFAULT_MAX_LINES
  let maxBytes := options.maxBytes.getD DEFAULT_MAX_BYTES
  let totalBytes := byteLength content
  let lines := splitLinesForCounting content
  let totalLines := lines.length
  if totalLines ≤ maxLines ∧ totalBytes ≤ maxBytes then
    whole content totalLines totalBytes maxLines maxBytes
  else if byteLength (lines.headD []) > maxBytes then
    { content := []
      truncated := true
      truncatedBy := some .bytes
      totalLines := totalLines
      totalBytes := totalBytes
      outputLines := 0
      outputBytes := 0
      lastLinePartial := false
      firstLineExceedsLimit := true
      maxLines := maxLines
      maxBytes := maxBytes }
  else
    shortened byteLength (collectFromStart byteLength maxLines maxBytes 0 lines {})
      totalLines totalBytes maxLines maxBytes

def truncateTail (content : List UInt16) (options : TruncationOptions) : TruncationResult :=
  let maxLines := options.maxLines.getD DEFAULT_MAX_LINES
  let maxBytes := options.maxBytes.getD DEFAULT_MAX_BYTES
  let totalBytes := byteLength content
  let lines := splitLinesForCounting content
  let totalLines := lines.length
  if totalLines ≤ maxLines ∧ totalBytes ≤ maxBytes then
    whole content totalLines totalBytes maxLines maxBytes
  else
    shortened byteLength
      (collectFromEnd byteLength truncateStringToBytesFromEnd maxLines maxBytes lines.reverse {})
      totalLines totalBytes maxLines maxBytes

end Truncate

/-! ## The agent harness -/

namespace Harness

/-- The loop of `utf8ByteLength` from the first unit on that is not ASCII. -/
def countBytes : List UInt16 → Nat → Nat
  | [], bytes => bytes
  | [code], bytes =>
    if code.toNat ≤ 0x7F then bytes + 1
    else if code.toNat ≤ 0x7FF then bytes + 2
    else bytes + 3
  | code :: next :: units, bytes =>
    if code.toNat ≤ 0x7F then countBytes (next :: units) (bytes + 1)
    else if code.toNat ≤ 0x7FF then countBytes (next :: units) (bytes + 2)
    else if isHigh code then
      if isLow next then countBytes units (bytes + 4)
      else countBytes (next :: units) (bytes + 3)
    else countBytes (next :: units) (bytes + 3)

/-- The number of bytes, as the `Buffer` global counts them or without it. -/
def utf8ByteLength (runtimeBuffer : Bool) (content : List UInt16) : Nat :=
  if runtimeBuffer then byteLength content
  else match content.findIdx? (0x7F < ·.toNat) with
    | none => content.length
    | some firstNonAscii => countBytes (content.drop firstNonAscii) firstNonAscii

def replaceUnpairedSurrogates : List UInt16 → List UInt16
  | [] => []
  | [code] => if isHigh code || isLow code then [0xFFFD] else [code]
  | code :: next :: units =>
    if isHigh code then
      if isLow next then code :: next :: replaceUnpairedSurrogates units
      else 0xFFFD :: replaceUnpairedSurrogates (next :: units)
    else if isLow code then 0xFFFD :: replaceUnpairedSurrogates (next :: units)
    else code :: replaceUnpairedSurrogates (next :: units)

/-- The units taken from the end of a string. -/
structure Taken where
  outputBytes : Nat := 0
  output : List UInt16 := []
  needsReplacement : Bool := false

/-- The bytes of a unit that is not half of a pair. -/
def unitBytes (code : UInt16) : Nat :=
  if isHigh code || isLow code then 3
  else if code.toNat ≤ 0x7F then 1 else if code.toNat ≤ 0x7FF then 2 else 3

def Taken.unit (taken : Taken) (code : UInt16) : Taken where
  outputBytes := taken.outputBytes + unitBytes code
  output := code :: taken.output
  needsReplacement := taken.needsReplacement || (isHigh code || isLow code)

def Taken.pair (taken : Taken) (previous code : UInt16) : Taken where
  outputBytes := taken.outputBytes + 4
  output := previous :: code :: taken.output
  needsReplacement := taken.needsReplacement

/-- The loop of `truncateStringToBytesFromEnd` over the units, the last unit first. -/
def takeFromEnd (maxBytes : Nat) : List UInt16 → Taken → Taken
  | [], taken => taken
  | [code], taken =>
    if (taken.unit code).outputBytes > maxBytes then taken else taken.unit code
  | code :: previous :: units, taken =>
    if isLow code && isHigh previous then
      if (taken.pair previous code).outputBytes > maxBytes then taken
      else takeFromEnd maxBytes units (taken.pair previous code)
    else if (taken.unit code).outputBytes > maxBytes then taken
    else takeFromEnd maxBytes (previous :: units) (taken.unit code)

def truncateStringToBytesFromEnd (str : List UInt16) (maxBytes : Nat) : List UInt16 :=
  if maxBytes ≤ 0 then []
  else
    let taken := takeFromEnd maxBytes str.reverse {}
    if taken.needsReplacement then replaceUnpairedSurrogates taken.output else taken.output

def truncateHead (runtimeBuffer : Bool) (content : List UInt16) (options : TruncationOptions) :
    TruncationResult :=
  TextTruncation.truncateHead (utf8ByteLength runtimeBuffer) content options

def truncateTail (runtimeBuffer : Bool) (content : List UInt16) (options : TruncationOptions) :
    TruncationResult :=
  TextTruncation.truncateTail (utf8ByteLength runtimeBuffer) truncateStringToBytesFromEnd
    content options

end Harness

/-! ## The coding agent -/

namespace CodingAgent

def truncateStringToBytesFromEnd (str : List UInt16) (maxBytes : Nat) : List UInt16 :=
  let buf := Utf8.encode (decode str)
  if buf.length ≤ maxBytes then str
  else encode
    (Utf8.decode (buf.drop (Utf8.characterStart buf (buf.length - maxBytes))))

def truncateHead (content : List UInt16) (options : TruncationOptions) : TruncationResult :=
  TextTruncation.truncateHead byteLength content options

def truncateTail (content : List UInt16) (options : TruncationOptions) : TruncationResult :=
  TextTruncation.truncateTail byteLength truncateStringToBytesFromEnd content options

end CodingAgent

end Recode.TextTruncation

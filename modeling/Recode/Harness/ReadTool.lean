import Recode.Harness.Image
import Recode.Tools.TextTruncationGuarantees

/-! # The read tool

A text file is read page by page. A page ends at the limit that the caller asks for or at a limit
of the tool, and names the offset to continue from. A file that begins like an image is attached
instead. -/

namespace Recode.Harness.ReadTool

open Tools (Limit TruncationOptions DEFAULT_MAX_LINES DEFAULT_MAX_BYTES)
open TextTruncation (newline TruncationResult)

/-- A quotient with one digit after the point, rounded to the nearest and up between two. -/
def oneDecimal (numerator denominator : Nat) : String :=
  let tenths := (20 * numerator + denominator) / (2 * denominator)
  s!"{tenths / 10}.{tenths % 10}"

def formatSize (bytes : Nat) : String :=
  if bytes < 1024 then s!"{bytes}B"
  else if bytes < 1024 * 1024 then oneDecimal bytes 1024 ++ "KB"
  else oneDecimal bytes (1024 * 1024) ++ "MB"

/-- What is said after the content of a page. -/
inductive Notice where
  | lineExceeds (line bytes : Nat) (path : String)
  | showing (first last total : Nat) (limit : Limit) (nextOffset : Nat)
  | more (remaining nextOffset : Nat)
deriving DecidableEq

def Notice.text : Notice → String
  | .lineExceeds line bytes path =>
    s!"[Line {line} is {formatSize bytes}, exceeds {formatSize DEFAULT_MAX_BYTES} limit. " ++
      s!"Use bash: sed -n '{line}p' {path} | head -c {DEFAULT_MAX_BYTES}]"
  | .showing first last total .lines nextOffset =>
    s!"\n\n[Showing lines {first}-{last} of {total}. " ++
      s!"Use offset={nextOffset} to continue.]"
  | .showing first last total .bytes nextOffset =>
    s!"\n\n[Showing lines {first}-{last} of {total} ({formatSize DEFAULT_MAX_BYTES} limit). " ++
      s!"Use offset={nextOffset} to continue.]"
  | .more remaining nextOffset =>
    s!"\n\n[{remaining} more lines in file. " ++ s!"Use offset={nextOffset} to continue.]"

/-- The offset that a notice names. -/
def Notice.nextOffset : Notice → Option Nat
  | .lineExceeds .. => none
  | .showing _ _ _ _ nextOffset => some nextOffset
  | .more _ nextOffset => some nextOffset

theorem Notice.text_nextOffset {notice : Notice} {next : Nat}
    (named : notice.nextOffset = some next) :
    ∃ front, notice.text = front ++ s!"Use offset={next} to continue.]" := by
  cases notice with
  | lineExceeds line bytes path => cases named
  | showing first last total limit nextOffset =>
    obtain rfl : nextOffset = next := Option.some_inj.mp named
    cases limit with
    | lines => exact ⟨_, rfl⟩
    | bytes => exact ⟨_, rfl⟩
  | more remaining nextOffset =>
    obtain rfl : nextOffset = next := Option.some_inj.mp named
    exact ⟨_, rfl⟩

structure Page where
  content : List UInt16
  notice : Option Notice
  details : Option TruncationResult

def Page.outputText (page : Page) : List UInt16 :=
  page.content ++ (page.notice.map fun notice => Utf16.encode notice.text.toList).getD []

def Page.nextOffset (page : Page) : Option Nat := page.notice.bind Notice.nextOffset

def textContent (bytes : List UInt8) : List UInt16 := Utf16.encode (Utf8.decodeStream bytes)

def endLine (allLines startLine : Nat) (limit : Option Nat) : Nat :=
  (limit.map fun limit => min (startLine + limit) allLines).getD allLines

def pageOf (path : String) (allLines : List (List UInt16)) (startLine : Nat)
    (userLimitedLines : Option Nat) (truncation : TruncationResult) : Page :=
  let totalFileLines := allLines.length
  let startLineDisplay := startLine + 1
  if truncation.firstLineExceedsLimit then
    ⟨[], some (.lineExceeds startLineDisplay
      (Utf16.byteLength (allLines.getD startLine [])) path), some truncation⟩
  else if truncation.truncated then
    let endLineDisplay := startLineDisplay + truncation.outputLines - 1
    let nextOffset := endLineDisplay + 1
    let limit := if truncation.truncatedBy = some .lines then .lines else .bytes
    ⟨truncation.content, some (.showing startLineDisplay endLineDisplay totalFileLines limit
      nextOffset), some truncation⟩
  else match userLimitedLines with
    | some userLimitedLines =>
      if startLine + userLimitedLines < allLines.length then
        let remaining := allLines.length - (startLine + userLimitedLines)
        let nextOffset := startLine + userLimitedLines + 1
        ⟨truncation.content, some (.more remaining nextOffset), none⟩
      else ⟨truncation.content, none, none⟩
    | none => ⟨truncation.content, none, none⟩

/-- A processor converts or resizes an image, or says why it cannot. -/
structure ProcessedImage where
  data : List Char
  mimeType : String
  hints : List String

structure ReadToolOptions where
  autoResizeImages : Option Bool := none
  imageProcessor : Option (List UInt8 → String → Bool → Except String ProcessedImage) := none

/-- What is returned: a page of text, or what is said about an image with the image. -/
inductive ReadResult where
  | page (page : Page)
  | image (text : String) (image : Option (List Char × String))

def readImage (options : ReadToolOptions) (bytes : List UInt8) (mimeType : String) : ReadResult :=
  match options.imageProcessor with
  | some imageProcessor =>
    match imageProcessor bytes mimeType (options.autoResizeImages.getD true) with
    | .error message => .image s!"Read image file [{mimeType}]\n{message}" none
    | .ok processed =>
      let hints := if processed.hints.isEmpty then "" else "\n" ++ "\n".intercalate processed.hints
      .image (s!"Read image file [{processed.mimeType}]" ++ hints)
        (some (processed.data, processed.mimeType))
  | none =>
    if mimeType = "image/bmp" then
      .image ("Read image file [image/bmp]\n" ++
        "[Image omitted: configure an imageProcessor to convert BMP images.]") none
    else .image s!"Read image file [{mimeType}]" (some (encodeBase64 bytes, mimeType))

def readText (runtimeBuffer : Bool) (path : String) (bytes : List UInt8)
    (offset limit : Option Nat) : Except String Page :=
  let allLines := (textContent bytes).splitOn newline
  let startLine := offset.getD 0 - 1
  if startLine ≥ allLines.length then
    .error s!"Offset {offset.getD 0} is beyond end of file ({allLines.length} lines total)"
  else
    let endLine := endLine allLines.length startLine limit
    let selectedContent := Lines.joined newline ((allLines.take endLine).drop startLine)
    let userLimitedLines := limit.map fun _ => endLine - startLine
    let truncation := TextTruncation.Harness.truncateHead runtimeBuffer selectedContent {}
    .ok (pageOf path allLines startLine userLimitedLines truncation)

def execute (options : ReadToolOptions) (runtimeBuffer : Bool) (path : String)
    (bytes : List UInt8) (offset limit : Option Nat) : Except String ReadResult :=
  match detectSupportedImageMimeType bytes with
  | some mimeType => .ok (readImage options bytes mimeType)
  | none => .page <$> readText runtimeBuffer path bytes offset limit

/-- The pages that are read from an offset on, each with its offset, when the tool is called again
with the offset that the page before named. The number of calls is bounded by fuel. What is said
about an image is no page. -/
def readFrom (options : ReadToolOptions) (runtimeBuffer : Bool) (path : String)
    (bytes : List UInt8) (limit : Option Nat) : Nat → Nat → Option (List (Nat × List UInt16))
  | 0, _ => none
  | fuel + 1, offset =>
    match execute options runtimeBuffer path bytes (some offset) limit with
    | .error _ => none
    | .ok (.image _ _) => none
    | .ok (.page page) =>
      match page.nextOffset with
      | none => some [(offset, page.content)]
      | some next => (readFrom options runtimeBuffer path bytes limit fuel next).map
          ((offset, page.content) :: ·)

end Recode.Harness.ReadTool

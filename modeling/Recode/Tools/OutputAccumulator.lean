import Mathlib.Data.List.DropRight
import Recode.Tools.Truncate

/-! # Streaming output capture

The accumulator of a command's output. It decodes the chunks as they come, counts
lines and bytes, keeps a rolling tail for display, and writes the raw bytes to a
file once the output exceeds a limit. -/

namespace Recode.Tools

open Utf8

structure OutputAccumulatorOptions where
  maxLines : Option Nat := none
  maxBytes : Option Nat := none
  tempFilePrefix : Option String := none

/-- The accumulator. `randomId` is the id its file name will be drawn with, and
`tempFile` what has been written to the file. -/
structure OutputAccumulator where
  maxLines : Nat
  maxBytes : Nat
  maxRollingBytes : Nat
  tempFilePrefix : String
  randomId : String
  decoder : TextDecoder := {}
  rawChunks : List (List UInt8) := []
  tailText : List Char := []
  tailBytes : Nat := 0
  tailStartsAtLineBoundary : Bool := true
  totalRawBytes : Nat := 0
  totalDecodedBytes : Nat := 0
  completedLines : Nat := 0
  totalLines : Nat := 0
  currentLineBytes : Nat := 0
  hasOpenLine : Bool := false
  finished : Bool := false
  tempFilePath : Option String := none
  tempFileStream : Bool := false
  tempFile : List UInt8 := []

structure OutputSnapshot where
  content : List Char
  truncation : TruncationResult
  fullOutputPath : Option String

namespace OutputAccumulator

/-- A new accumulator. -/
def create (options : OutputAccumulatorOptions) (randomId : String) : OutputAccumulator where
  maxLines := options.maxLines.getD DEFAULT_MAX_LINES
  maxBytes := options.maxBytes.getD DEFAULT_MAX_BYTES
  maxRollingBytes := max (options.maxBytes.getD DEFAULT_MAX_BYTES * 2) 1
  tempFilePrefix := options.tempFilePrefix.getD "pi-output"
  randomId := randomId

/-- `tmpdir()` stands for the directory of temporary files. -/
def defaultTempFilePath (fileNamePrefix randomId : String) : String :=
  "tmpdir()/" ++ fileNamePrefix ++ "-" ++ randomId ++ ".log"

def trimTail (output : OutputAccumulator) : OutputAccumulator :=
  let buffer := encode output.tailText
  if buffer.length ≤ output.maxRollingBytes then { output with tailBytes := buffer.length }
  else
    let start := characterStart buffer (buffer.length - output.maxRollingBytes)
    let tailText := decode (buffer.drop start)
    { output with
      tailStartsAtLineBoundary :=
        if start = 0 then output.tailStartsAtLineBoundary
        else decide (buffer[start - 1]? = some 0x0A)
      tailText := tailText
      tailBytes := byteLength tailText }

/-- Adds a text to the tail, which is trimmed when it gets too long. -/
def extendTail (output : OutputAccumulator) (text : List Char) : OutputAccumulator :=
  let bytes := byteLength text
  let output :=
    { output with
      totalDecodedBytes := output.totalDecodedBytes + bytes
      tailText := output.tailText ++ text
      tailBytes := output.tailBytes + bytes }
  if output.tailBytes > output.maxRollingBytes * 2 then output.trimTail else output

def countLines (output : OutputAccumulator) (text : List Char) : OutputAccumulator :=
  let newlines := text.count '\n'
  let output :=
    if newlines = 0 then
      { output with
        currentLineBytes := output.currentLineBytes + byteLength text
        hasOpenLine := true }
    else
      let tail := text.rtakeWhile (· ≠ '\n')
      { output with
        completedLines := output.completedLines + newlines
        currentLineBytes := byteLength tail
        hasOpenLine := decide (tail.length > 0) }
  { output with totalLines := output.completedLines + if output.hasOpenLine then 1 else 0 }

def appendDecodedText (output : OutputAccumulator) (text : List Char) : OutputAccumulator :=
  if text.length = 0 then output
  else (output.extendTail text).countLines text

def shouldUseTempFile (output : OutputAccumulator) : Bool :=
  output.totalRawBytes > output.maxBytes || output.totalDecodedBytes > output.maxBytes ||
    output.totalLines > output.maxLines

/-- Opens the file and writes the chunks held back. -/
def ensureTempFile (output : OutputAccumulator) : OutputAccumulator :=
  if output.tempFilePath.isSome then output
  else
    { output with
      tempFilePath := some (defaultTempFilePath output.tempFilePrefix output.randomId)
      tempFileStream := true
      tempFile := output.rawChunks.flatten
      rawChunks := [] }

def writeTempFile (output : OutputAccumulator) (data : List UInt8) : OutputAccumulator :=
  if output.tempFileStream then { output with tempFile := output.tempFile ++ data } else output

def receive (output : OutputAccumulator) (data : List UInt8) (stream : Bool) : OutputAccumulator :=
  let (decoder, text) := output.decoder.decode data stream
  { output with decoder := decoder }.appendDecodedText text

def persist (output : OutputAccumulator) (data : List UInt8) : OutputAccumulator :=
  if output.tempFileStream || output.shouldUseTempFile then
    output.ensureTempFile.writeTempFile data
  else if data.length > 0 then { output with rawChunks := output.rawChunks ++ [data] }
  else output

/-- Takes a chunk: decodes it, then stores it. -/
def accept (output : OutputAccumulator) (data : List UInt8) : OutputAccumulator :=
  let output := { output with totalRawBytes := output.totalRawBytes + data.length }
  (output.receive data true).persist data

def append (output : OutputAccumulator) (data : List UInt8) : Except String OutputAccumulator :=
  if output.finished then .error "Cannot append to a finished output accumulator"
  else .ok (output.accept data)

def finish (output : OutputAccumulator) : OutputAccumulator :=
  if output.finished then output
  else
    let output := { output with finished := true }.receive [] false
    if output.shouldUseTempFile then output.ensureTempFile else output

def getSnapshotText (output : OutputAccumulator) : List Char :=
  if output.tailStartsAtLineBoundary then output.tailText
  else
    match output.tailText.idxOf? '\n' with
    | none => output.tailText
    | some firstNewline => output.tailText.drop (firstNewline + 1)

def snapshotTruncation (output : OutputAccumulator) : TruncationResult :=
  let tailTruncation :=
    truncateTail output.getSnapshotText
      { maxLines := some output.maxLines, maxBytes := some output.maxBytes }
  let truncated :=
    output.totalLines > output.maxLines || output.totalDecodedBytes > output.maxBytes
  let truncatedBy :=
    if truncated then
      tailTruncation.truncatedBy.or
        (some (if output.totalDecodedBytes > output.maxBytes then .bytes else .lines))
    else none
  { tailTruncation with
    truncated := truncated
    truncatedBy := truncatedBy
    totalLines := output.totalLines
    totalBytes := output.totalDecodedBytes
    maxLines := output.maxLines
    maxBytes := output.maxBytes }

def snapshot (output : OutputAccumulator) (persistIfTruncated : Bool) :
    OutputSnapshot × OutputAccumulator :=
  let truncation := output.snapshotTruncation
  let output :=
    if persistIfTruncated && truncation.truncated then output.ensureTempFile else output
  ({ content := truncation.content
     truncation := truncation
     fullOutputPath := output.tempFilePath }, output)

def closeTempFile (output : OutputAccumulator) : OutputAccumulator :=
  if output.tempFileStream then { output with tempFileStream := false } else output

def getLastLineBytes (output : OutputAccumulator) : Nat :=
  output.currentLineBytes

/-- The states of an accumulator, with the bytes appended so far. The file is closed
only after the output is finished. -/
inductive Reached (options : OutputAccumulatorOptions) (randomId : String) :
    List UInt8 → OutputAccumulator → Prop
  | create : Reached options randomId [] (create options randomId)
  | append {bytes data : List UInt8} {output after : OutputAccumulator} :
      Reached options randomId bytes output → output.append data = .ok after →
        Reached options randomId (bytes ++ data) after
  | finish {bytes : List UInt8} {output : OutputAccumulator} :
      Reached options randomId bytes output → Reached options randomId bytes output.finish
  | snapshot {bytes : List UInt8} {output : OutputAccumulator} (persistIfTruncated : Bool) :
      Reached options randomId bytes output →
        Reached options randomId bytes (output.snapshot persistIfTruncated).2
  | closeTempFile {bytes : List UInt8} {output : OutputAccumulator} :
      Reached options randomId bytes output → output.finished = true →
        Reached options randomId bytes output.closeTempFile

end OutputAccumulator

end Recode.Tools

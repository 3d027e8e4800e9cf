import Mathlib.Data.List.Basic

/-! # Images among files

What kind of image a file is, as its first bytes say, and how an image is written in text. -/

namespace Recode.Harness.ReadTool

/-- A byte of a buffer; zero after its end. -/
def byteAt (buffer : List UInt8) (index : Nat) : Nat := (buffer.getD index 0).toNat

def startsWith (buffer bytes : List UInt8) : Bool := bytes.isPrefixOf buffer

def startsWithAscii (buffer : List UInt8) (offset : Nat) (text : String) : Bool :=
  startsWith (buffer.drop offset) (text.toList.map fun char => UInt8.ofNat char.toNat)

def readUint16LE (buffer : List UInt8) (offset : Nat) : Nat :=
  byteAt buffer offset + byteAt buffer (offset + 1) * 0x100

def readUint32BE (buffer : List UInt8) (offset : Nat) : Nat :=
  byteAt buffer offset * 0x1000000 + byteAt buffer (offset + 1) * 0x10000 +
    byteAt buffer (offset + 2) * 0x100 + byteAt buffer (offset + 3)

def readUint32LE (buffer : List UInt8) (offset : Nat) : Nat :=
  byteAt buffer offset + byteAt buffer (offset + 1) * 0x100 +
    byteAt buffer (offset + 2) * 0x10000 + byteAt buffer (offset + 3) * 0x1000000

def PNG_SIGNATURE : List UInt8 := [0x89, 0x50, 0x4e, 0x47, 0x0d, 0x0a, 0x1a, 0x0a]

def isPng (buffer : List UInt8) : Bool :=
  16 ≤ buffer.length && readUint32BE buffer PNG_SIGNATURE.length = 13 &&
    startsWithAscii buffer 12 "IHDR"

/-- The chunks from an offset on, up to the first with image data. -/
def isAnimatedFrom (buffer : List UInt8) (offset : Nat) : Bool :=
  if _more : offset + 8 ≤ buffer.length then
    if startsWithAscii buffer (offset + 4) "acTL" then true
    else if startsWithAscii buffer (offset + 4) "IDAT" then false
    else
      let nextOffset := offset + 8 + readUint32BE buffer offset + 4
      if nextOffset > buffer.length then false else isAnimatedFrom buffer nextOffset
  else false
termination_by buffer.length - offset

def isAnimatedPng (buffer : List UInt8) : Bool := isAnimatedFrom buffer PNG_SIGNATURE.length

def isBmp (buffer : List UInt8) : Bool :=
  let declaredFileSize := readUint32LE buffer 2
  let pixelDataOffset := readUint32LE buffer 10
  let dibHeaderSize := readUint32LE buffer 14
  let format := fun at_ => readUint16LE buffer at_ = 1 &&
    [1, 4, 8, 16, 24, 32].contains (readUint16LE buffer (at_ + 2))
  if buffer.length < 26 then false
  else if declaredFileSize ≠ 0 ∧ declaredFileSize < 26 then false
  else if pixelDataOffset < 14 + dibHeaderSize then false
  else if declaredFileSize ≠ 0 ∧ pixelDataOffset ≥ declaredFileSize then false
  else if dibHeaderSize = 12 then format 22
  else if 40 ≤ dibHeaderSize ∧ dibHeaderSize ≤ 124 then
    if buffer.length < 30 then false else format 26
  else false

def detectSupportedImageMimeType (buffer : List UInt8) : Option String :=
  if startsWith buffer [0xff, 0xd8, 0xff] then
    if buffer[3]? = some 0xf7 then none else some "image/jpeg"
  else if startsWith buffer PNG_SIGNATURE then
    if isPng buffer && !isAnimatedPng buffer then some "image/png" else none
  else if startsWithAscii buffer 0 "GIF" then some "image/gif"
  else if startsWithAscii buffer 0 "RIFF" && startsWithAscii buffer 8 "WEBP" then
    some "image/webp"
  else if startsWithAscii buffer 0 "BM" && isBmp buffer then some "image/bmp"
  else none

/-- A digit of base 64. -/
def digit (value : Nat) : Char :=
  "ABCDEFGHIJKLMNOPQRSTUVWXYZabcdefghijklmnopqrstuvwxyz0123456789+/".toList.getD value '='

def encodeBase64 : List UInt8 → List Char
  | [] => []
  | [first] => [digit (first.toNat / 4), digit (first.toNat % 4 * 16), '=', '=']
  | [first, second] => [digit (first.toNat / 4),
      digit (first.toNat % 4 * 16 + second.toNat / 16), digit (second.toNat % 16 * 4), '=']
  | first :: second :: third :: bytes => digit (first.toNat / 4) ::
      digit (first.toNat % 4 * 16 + second.toNat / 16) ::
      digit (second.toNat % 16 * 4 + third.toNat / 64) :: digit (third.toNat % 64) ::
      encodeBase64 bytes

end Recode.Harness.ReadTool

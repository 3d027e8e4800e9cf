import Mathlib.Data.List.DropRight
import Recode.Lib.Lines
import Recode.Lib.Occurrences
import Recode.Lib.Splice
import Recode.Lib.Utf16

/-! # Text replacement of the edit tool

The edits of a call are matched against one content, exactly or after both are normalised, and are
applied together. The strings are those of the program, lists of code units. -/

namespace Recode.EditDiff

open Occurrences (indexOf count)
open Splice (Range)

abbrev newline : UInt16 := 0x0A

abbrev carriageReturn : UInt16 := 0x0D

/-! ## Line endings -/

inductive LineEnding
  | crlf
  | lf
deriving DecidableEq

def LineEnding.text : LineEnding → List UInt16
  | .crlf => [carriageReturn, newline]
  | .lf => [newline]

def detectLineEnding (content : List UInt16) : LineEnding :=
  let crlfIdx := indexOf [carriageReturn, newline] content
  let lfIdx := indexOf [newline] content
  match lfIdx, crlfIdx with
  | none, _ => .lf
  | some _, none => .lf
  | some lfIdx, some crlfIdx => if crlfIdx < lfIdx then .crlf else .lf

def replaceCrLf : List UInt16 → List UInt16
  | [] => []
  | [unit] => [unit]
  | unit :: next :: text =>
    if unit = carriageReturn ∧ next = newline then newline :: replaceCrLf text
    else unit :: replaceCrLf (next :: text)

def normalizeToLF (text : List UInt16) : List UInt16 :=
  (replaceCrLf text).map fun unit => if unit = carriageReturn then newline else unit

def restoreUnit (ending : LineEnding) (unit : UInt16) : List UInt16 :=
  if unit = newline then ending.text else [unit]

def restoreLineEndings (text : List UInt16) (ending : LineEnding) : List UInt16 :=
  match ending with
  | .crlf => text.flatMap (restoreUnit .crlf)
  | .lf => text

/-- The byte order mark of a content, and the rest. -/
def stripBom : List UInt16 → List UInt16 × List UInt16
  | unit :: text => if unit = 0xFEFF then ([unit], text) else ([], unit :: text)
  | [] => ([], [])

/-! ## Normalisation for matching -/

/-- The white space and line terminators that `trimEnd` removes. -/
def isWhiteSpace (unit : UInt16) : Bool :=
  unit ∈ [0x09, 0x0A, 0x0B, 0x0C, 0x0D, 0x20, 0xA0, 0x1680, 0x2028, 0x2029, 0x202F, 0x205F, 0x3000,
    0xFEFF] || (0x2000 ≤ unit && unit ≤ 0x200A)

def trimEnd (line : List UInt16) : List UInt16 := line.rdropWhile isWhiteSpace

/-- The replacements of quotes, dashes and spaces, which are of different units. -/
def asciiUnit (unit : UInt16) : UInt16 :=
  if unit ∈ [0x2018, 0x2019, 0x201A, 0x201B] then 0x27
  else if unit ∈ [0x201C, 0x201D, 0x201E, 0x201F] then 0x22
  else if unit ∈ [0x2010, 0x2011, 0x2012, 0x2013, 0x2014, 0x2015, 0x2212] then 0x2D
  else if unit ∈ [0xA0, 0x202F, 0x205F, 0x3000] ∨ (0x2002 ≤ unit ∧ unit ≤ 0x200A) then 0x20
  else unit

section Matching

variable (nfkc : List UInt16 → List UInt16)

def normalizeForFuzzyMatch (text : List UInt16) : List UInt16 :=
  (Lines.joined newline (((nfkc text).splitOn newline).map trimEnd)).map asciiUnit

structure FuzzyMatchResult where
  /-- Where the match starts, if there is one. -/
  index : Option Nat
  matchLength : Nat
  usedFuzzyMatch : Bool
  contentForReplacement : List UInt16

def FuzzyMatchResult.found (result : FuzzyMatchResult) : Bool := result.index.isSome

def fuzzyFindText (content oldText : List UInt16) : FuzzyMatchResult :=
  match indexOf oldText content with
  | some exactIndex => ⟨some exactIndex, oldText.length, false, content⟩
  | none =>
    let fuzzyContent := normalizeForFuzzyMatch nfkc content
    let fuzzyOldText := normalizeForFuzzyMatch nfkc oldText
    match indexOf fuzzyOldText fuzzyContent with
    | none => ⟨none, 0, false, content⟩
    | some fuzzyIndex => ⟨some fuzzyIndex, fuzzyOldText.length, true, fuzzyContent⟩

/-- The number of parts that a string is split into. An empty separator is between all units. -/
def splitLength (content separator : List UInt16) : Nat :=
  if separator = [] then content.length else count separator content + 1

def countOccurrences (content oldText : List UInt16) : Int :=
  splitLength (normalizeForFuzzyMatch nfkc content) (normalizeForFuzzyMatch nfkc oldText) - 1

structure Edit where
  oldText : List UInt16
  newText : List UInt16
deriving DecidableEq

/-- An edit with the line endings that texts are matched with. -/
def Edit.normalized (edit : Edit) : Edit where
  oldText := normalizeToLF edit.oldText
  newText := normalizeToLF edit.newText

structure MatchedEdit where
  editIndex : Nat
  matchIndex : Nat
  matchLength : Nat
  newText : List UInt16
deriving DecidableEq

def MatchedEdit.range (edit : MatchedEdit) : Range UInt16 where
  start := edit.matchIndex
  length := edit.matchLength
  new := edit.newText

/-! ## Errors -/

def getNotFoundError (path : String) (editIndex totalEdits : Nat) : String :=
  if totalEdits = 1 then
    s!"Could not find the exact text in {path}. The old text must match exactly including all " ++
      "whitespace and newlines."
  else
    s!"Could not find edits[{editIndex}] in {path}. The oldText must match exactly including " ++
      "all whitespace and newlines."

def getDuplicateError (path : String) (editIndex totalEdits : Nat) (occurrences : Int) : String :=
  if totalEdits = 1 then
    s!"Found {occurrences} occurrences of the text in {path}. The text must be unique. " ++
      "Please provide more context to make it unique."
  else
    s!"Found {occurrences} occurrences of edits[{editIndex}] in {path}. Each oldText must be " ++
      "unique. Please provide more context to make it unique."

def getEmptyOldTextError (path : String) (editIndex totalEdits : Nat) : String :=
  if totalEdits = 1 then s!"oldText must not be empty in {path}."
  else s!"edits[{editIndex}].oldText must not be empty in {path}."

def getNoChangeError (path : String) (totalEdits : Nat) : String :=
  if totalEdits = 1 then
    s!"No changes made to {path}. The replacement produced identical content. This might " ++
      "indicate an issue with special characters or the text not existing as expected."
  else s!"No changes made to {path}. The replacements produced identical content."

def getOverlapError (path : String) (previous current : Nat) : String :=
  s!"edits[{previous}] and edits[{current}] overlap in {path}. Merge them into one edit or " ++
    "target disjoint regions."

def outsideError : String := "Replacement range is outside the base content."

def lineCountError : String :=
  "Cannot preserve unchanged lines because the base content has a different line count."

/-! ## Replacements -/

def splitLinesWithEndings : List UInt16 → List (List UInt16)
  | [] => []
  | unit :: content =>
    if unit = newline then [unit] :: splitLinesWithEndings content
    else match splitLinesWithEndings content with
      | [] => [[unit]]
      | line :: lines => (unit :: line) :: lines

structure LineSpan where
  start : Nat
  stop : Nat
deriving DecidableEq

def spansFrom : Nat → List (List UInt16) → List LineSpan
  | _, [] => []
  | offset, line :: lines =>
    ⟨offset, offset + line.length⟩ :: spansFrom (offset + line.length) lines

def getLineSpans (content : List UInt16) : List LineSpan :=
  spansFrom 0 (splitLinesWithEndings content)

/-- The first line that a replacement touches, and the line after the last one. -/
def getReplacementLineRange (lines : List LineSpan) (replacement : Range UInt16) :
    Except String (Nat × Nat) :=
  match lines.findIdx? fun line =>
      replacement.start ≥ line.start && replacement.start < line.stop with
  | none => .error outsideError
  | some startLine =>
    match (lines.drop startLine).findIdx? fun line => !decide (line.stop < replacement.stop) with
    | none => .error outsideError
    | some more => .ok (startLine, startLine + more + 1)

/-- The replacements one after the other, the last one first. -/
def applyReplacements (content : List UInt16) (replacements : List (Range UInt16)) (offset : Nat) :
    List UInt16 :=
  replacements.foldr (fun replacement result =>
    result.take (replacement.start - offset) ++
      (replacement.new ++ result.drop (replacement.start - offset + replacement.length))) content

/-- Lines that are rewritten together. -/
structure Group where
  startLine : Nat
  endLine : Nat
  replacements : List (Range UInt16)
deriving DecidableEq

/-- The loop over the replacements. The newest group is the first one. -/
def groupReplacements (lines : List LineSpan) :
    List Group → List (Range UInt16) → Except String (List Group)
  | groups, [] => .ok groups.reverse
  | groups, replacement :: replacements =>
    match getReplacementLineRange lines replacement with
    | .error message => .error message
    | .ok (startLine, endLine) =>
      match groups with
      | current :: before =>
        if startLine < current.endLine then
          groupReplacements lines ({ current with
            endLine := max current.endLine endLine
            replacements := current.replacements ++ [replacement] } :: before) replacements
        else
          groupReplacements lines (⟨startLine, endLine, [replacement]⟩ :: groups) replacements
      | [] => groupReplacements lines [⟨startLine, endLine, [replacement]⟩] replacements

/-- The part of a list between two indices. -/
def slice {Item : Type} (items : List Item) (start stop : Nat) : List Item :=
  (items.take stop).drop start

def overlayGroups (originalLines : List (List UInt16)) (baseLines : List LineSpan)
    (baseContent : List UInt16) : Nat → List Group → List UInt16
  | originalLineIndex, [] => (originalLines.drop originalLineIndex).flatten
  | originalLineIndex, group :: groups =>
    let groupStartOffset := ((baseLines[group.startLine]?).map LineSpan.start).getD 0
    let groupEndOffset := ((baseLines[group.endLine - 1]?).map LineSpan.stop).getD 0
    (slice originalLines originalLineIndex group.startLine).flatten ++
      (applyReplacements (slice baseContent groupStartOffset groupEndOffset) group.replacements
        groupStartOffset ++
        overlayGroups originalLines baseLines baseContent group.endLine groups)

def sortReplacements (replacements : List (Range UInt16)) : List (Range UInt16) :=
  replacements.mergeSort fun a b => a.start ≤ b.start

def applyReplacementsPreservingUnchangedLines (originalContent baseContent : List UInt16)
    (replacements : List (Range UInt16)) : Except String (List UInt16) :=
  let originalLines := splitLinesWithEndings originalContent
  let baseLines := getLineSpans baseContent
  if originalLines.length ≠ baseLines.length then .error lineCountError
  else match groupReplacements baseLines [] (sortReplacements replacements) with
    | .error message => .error message
    | .ok groups => .ok (overlayGroups originalLines baseLines baseContent 0 groups)

/-! ## Applying edits -/

structure AppliedEditsResult where
  baseContent : List UInt16
  newContent : List UInt16
deriving DecidableEq

def findEmptyOldText (path : String) (totalEdits : Nat) : Nat → List Edit → Option String
  | _, [] => none
  | i, edit :: edits =>
    if edit.oldText.length = 0 then some (getEmptyOldTextError path i totalEdits)
    else findEmptyOldText path totalEdits (i + 1) edits

def findMatches (path : String) (totalEdits : Nat) (replacementBaseContent : List UInt16) :
    Nat → List Edit → Except String (List MatchedEdit)
  | _, [] => .ok []
  | i, edit :: edits =>
    let matchResult := fuzzyFindText nfkc replacementBaseContent edit.oldText
    match matchResult.index with
    | none => .error (getNotFoundError path i totalEdits)
    | some index =>
      let occurrences := countOccurrences nfkc replacementBaseContent edit.oldText
      if occurrences > 1 then .error (getDuplicateError path i totalEdits occurrences)
      else (findMatches path totalEdits replacementBaseContent (i + 1) edits).map
        (⟨i, index, matchResult.matchLength, edit.newText⟩ :: ·)

def sortMatches (matchedEdits : List MatchedEdit) : List MatchedEdit :=
  matchedEdits.mergeSort fun a b => a.matchIndex ≤ b.matchIndex

def findOverlap (path : String) : List MatchedEdit → Option String
  | previous :: current :: matchedEdits =>
    if previous.matchIndex + previous.matchLength > current.matchIndex then
      some (getOverlapError path previous.editIndex current.editIndex)
    else findOverlap path (current :: matchedEdits)
  | _ => none

def usesFuzzyMatch (normalizedContent : List UInt16) (normalizedEdits : List Edit) : Bool :=
  normalizedEdits.any fun edit => (fuzzyFindText nfkc normalizedContent edit.oldText).usedFuzzyMatch

def replacementBase (normalizedContent : List UInt16) (normalizedEdits : List Edit) : List UInt16 :=
  if usesFuzzyMatch nfkc normalizedContent normalizedEdits then
    normalizeForFuzzyMatch nfkc normalizedContent
  else normalizedContent

def matchEdits (normalizedContent : List UInt16) (edits : List Edit) (path : String) :
    Except String (List MatchedEdit) :=
  let normalizedEdits := edits.map Edit.normalized
  match findEmptyOldText path normalizedEdits.length 0 normalizedEdits with
  | some message => .error message
  | none =>
    match findMatches nfkc path normalizedEdits.length
        (replacementBase nfkc normalizedContent normalizedEdits) 0 normalizedEdits with
    | .error message => .error message
    | .ok matchedEdits =>
      match findOverlap path (sortMatches matchedEdits) with
      | some message => .error message
      | none => .ok (sortMatches matchedEdits)

def applyEditsToNormalizedContent (normalizedContent : List UInt16) (edits : List Edit)
    (path : String) : Except String AppliedEditsResult :=
  let normalizedEdits := edits.map Edit.normalized
  match matchEdits nfkc normalizedContent edits path with
  | .error message => .error message
  | .ok matchedEdits =>
    let replacementBaseContent := replacementBase nfkc normalizedContent normalizedEdits
    let replacements := matchedEdits.map MatchedEdit.range
    let newContent :=
      if usesFuzzyMatch nfkc normalizedContent normalizedEdits then
        applyReplacementsPreservingUnchangedLines normalizedContent replacementBaseContent
          replacements
      else .ok (applyReplacements replacementBaseContent replacements 0)
    match newContent with
    | .error message => .error message
    | .ok newContent =>
      if normalizedContent = newContent then
        .error (getNoChangeError path normalizedEdits.length)
      else .ok ⟨normalizedContent, newContent⟩

/-! ## The tool -/

/-- What a call of the tool leaves in the file, and what it returns. -/
structure Execution where
  file : List UInt8
  result : Except String String

/-- The tool on a file that it can read and write, without an abort and a language server. -/
def execute (path : String) (edits : List Edit) (file : List UInt8) : Execution :=
  if edits.length = 0 then
    ⟨file, .error "Edit tool input is invalid. edits must contain at least one replacement."⟩
  else
    let rawContent := Utf16.encode (Utf8.decode file)
    let (bom, content) := stripBom rawContent
    let originalEnding := detectLineEnding content
    let normalizedContent := normalizeToLF content
    match applyEditsToNormalizedContent nfkc normalizedContent edits path with
    | .error message => ⟨file, .error message⟩
    | .ok applied =>
      let finalContent := bom ++ restoreLineEndings applied.newContent originalEnding
      ⟨Utf8.encode (Utf16.decode finalContent),
        .ok s!"Successfully replaced {edits.length} block(s) in {path}."⟩

end Matching

end Recode.EditDiff

import Recode.Text

/-! # The chunks of a memory file

A memory file is cut into its entries, when it has nothing else, or else into
overlapping windows of lines. A chunk is known by a digest of its document, its
first line and its text. -/

namespace Recode.MemoryIndex

open Text

def TARGET_CHARACTERS : Nat := 1600

def OVERLAP_CHARACTERS : Nat := 320

inductive RecodeMemoryScope
  | global
  | project
deriving DecidableEq

def RecodeMemoryScope.text : RecodeMemoryScope → String
  | .global => "global"
  | .project => "project"

structure RecodeMemoryChunk where
  id : String
  documentId : String
  scope : RecodeMemoryScope
  path : String
  lineStart : Nat
  lineEnd : Nat
  text : String
  tokenCount : Nat
deriving DecidableEq

/-- The SHA-256 of a text as hexadecimal digits. -/
structure Digest where
  sha256 : String → String

variable (digest : Digest)

/-- The first digits of a digest. -/
def Digest.short (text : String) : String :=
  String.ofList ((digest.sha256 text).toList.take 24)

def estimateTokens (text : String) : Nat :=
  max 1 ((utf16Length text + 3) / 4)

def chunkIdText (documentId : String) (lineStart : Nat) (text : String) : String :=
  documentId ++ ":" ++ (Nat.repr lineStart ++ ":" ++ text)

def chunkId (documentId : String) (lineStart : Nat) (text : String) : String :=
  digest.short (chunkIdText documentId lineStart text)

def documentIdText (scope : RecodeMemoryScope) (path : String) : String :=
  scope.text ++ ":" ++ path

def recodeMemoryDocumentId (scope : RecodeMemoryScope) (path : String) : String :=
  digest.short (documentIdText scope path)

/-- Line ends as single newlines. -/
def normalizeNewlines : List Char → List Char
  | '\r' :: '\n' :: rest => '\n' :: normalizeNewlines rest
  | char :: rest => char :: normalizeNewlines rest
  | [] => []

def linesOf (content : String) : List (List Char) :=
  (normalizeNewlines content.toList).splitOn '\n'

/-- A line that starts an entry: a dash and white space, after any white space. -/
def isEntryStart (line : List Char) : Bool :=
  match line.dropWhile isTrimmed with
  | '-' :: char :: _ => isTrimmed char
  | _ => false

def isMetadata (line : List Char) : Bool :=
  match line.dropWhile isTrimmed with
  | [] => true
  | char :: _ => char = '#'

def entryStarts (lines : List (List Char)) : List Nat :=
  (List.range lines.length).filter fun index => isEntryStart (lines.getD index [])

def entrySections (count : Nat) : List Nat → List (Nat × Nat)
  | [] => []
  | start :: rest => (start, rest.head?.getD count) :: entrySections count rest

/-- The number of lines in a window: until the target is reached, but at least one. -/
def windowLength : List (List Char) → Nat → Bool → Nat
  | [], _, _ => 0
  | line :: rest, size, first =>
    if size < TARGET_CHARACTERS || first then
      windowLength rest (size + utf16Length (String.ofList line) + 1) false + 1
    else 0

def windowEnd (lines : List (List Char)) (start : Nat) : Nat :=
  start + windowLength (lines.drop start) 0 true

/-- Where the next window starts: some lines before the end of the last one. -/
def overlapStart (lines : List (List Char)) (start : Nat) : Nat → Nat → Nat
  | 0, _ => 0
  | next + 1, overlap =>
    if next + 1 > start + 1 && overlap < OVERLAP_CHARACTERS then
      overlapStart lines start next
        (overlap + utf16Length (String.ofList (lines.getD next [])) + 1)
    else next + 1

theorem windowEnd_gt {lines : List (List Char)} {start : Nat} (inside : start < lines.length) :
    start < windowEnd lines start := by
  rw [windowEnd, List.drop_eq_getElem_cons inside, windowLength, if_pos (by simp)]
  omega

theorem overlapStart_gt (lines : List (List Char)) {start : Nat} (next overlap : Nat)
    (later : start < next) : start < overlapStart lines start next overlap := by
  induction next generalizing overlap with
  | zero => exact absurd later (Nat.not_lt_zero start)
  | succ next ih =>
    rw [overlapStart]
    split
    · rename_i goes
      rw [Bool.and_eq_true, decide_eq_true_iff] at goes
      exact ih _ (by omega)
    · exact later

def windowSections (lines : List (List Char)) (start : Nat) : List (Nat × Nat) :=
  if start < lines.length then
    if windowEnd lines start < lines.length then
      (start, windowEnd lines start) ::
        windowSections lines (overlapStart lines start (windowEnd lines start) 0)
    else [(start, windowEnd lines start)]
  else []
termination_by lines.length - start
decreasing_by
  have later := overlapStart_gt lines (windowEnd lines start) 0 (windowEnd_gt (by assumption))
  omega

/-- The chunk of some lines, unless they are blank. -/
def chunkAt (documentId : String) (scope : RecodeMemoryScope) (path : String)
    (lines : List (List Char)) (section_ : Nat × Nat) : Option RecodeMemoryChunk :=
  let rawText := trim
    (String.ofList (['\n'].intercalate ((lines.take section_.2).drop section_.1)))
  if rawText = "" then none
  else
    some
      { id := chunkId digest documentId (section_.1 + 1) rawText
        documentId := documentId
        scope := scope
        path := path
        lineStart := section_.1 + 1
        lineEnd := section_.2
        text := rawText
        tokenCount := estimateTokens rawText }

/-- The parts that a file is cut into. -/
def sectionsOf (lines : List (List Char)) : List (Nat × Nat) :=
  let starts := entryStarts lines
  let prefixIsOnlyMetadata := (lines.take (starts.head?.getD lines.length)).all isMetadata
  if starts.length > 0 ∧ prefixIsOnlyMetadata then entrySections lines.length starts
  else windowSections lines 0

def chunkRecodeMemory (documentId : String) (scope : RecodeMemoryScope) (path content : String) :
    List RecodeMemoryChunk :=
  let lines := linesOf content
  (sectionsOf lines).filterMap (chunkAt digest documentId scope path lines)

theorem chunk_documentId {digest : Digest} {documentId path content : String}
    {scope : RecodeMemoryScope} {chunk : RecodeMemoryChunk}
    (member : chunk ∈ chunkRecodeMemory digest documentId scope path content) :
    chunk.documentId = documentId := by
  obtain ⟨section_, -, cut⟩ := List.mem_filterMap.mp member
  rw [chunkAt] at cut
  split at cut
  · cases cut
  · cases cut
    rfl

end Recode.MemoryIndex

import Recode.Session.Entry

/-! # Memory reviews of a session branch

A reviewer reads the messages of a branch, in chunks of bounded text, and proposes memories.
The last entry it has read is recorded in a custom entry of the same branch; the next review
starts behind it. -/

namespace Recode.Shiori

open Text

def recodeShioriCheckpoint : String := "recode-shiori-checkpoint"

def recodeShioriMessageEntry : String := "recode-shiori-message"

def shioriChunkCharacters : Nat := 24000

def shioriMaxChunksPerRun : Int := 4

/-- The text of a content's items, one below the other. -/
def contentText (items : List String) : String :=
  "\n".intercalate (items.filter fun text => text ≠ "")

def inputItem : InputBlock → String
  | .text text _ => text
  | .image _ _ => ""

def assistantItem : AssistantBlock → String
  | .text text _ => text
  | .thinking _ _ _ => ""
  | .toolCall _ name arguments =>
    "[tool " ++ name ++ " " ++ String.ofList (Json.obj arguments).stringify ++ "]"

def inputText : InputContent → String
  | .text text => text
  | .blocks blocks => contentText (blocks.map inputItem)

/-- What is left of a text without its first code units. -/
def dropUnits : List Char → Nat → List Char
  | [], _ => []
  | char :: chars, 0 => char :: chars
  | char :: chars, count + 1 =>
    if (utf16Units char).length ≤ count + 1 then
      dropUnits chars (count + 1 - (utf16Units char).length)
    else '\uFFFD' :: chars

def sliceBack (text : String) (count : Nat) : String :=
  String.ofList (dropUnits text.toList (utf16Length text - count))

def clipToolOutput (text : String) : String :=
  if utf16Length text > 2000 then
    sliceFront text 1600 ++ "\n...[tool output clipped]...\n" ++ sliceBack text 300
  else text

def renderEntry (entry : SessionTreeEntry) : Option String :=
  match entry.body with
  | .message (.user content _) =>
    let text := trim (inputText content)
    if text = "" then none else some ("[" ++ entry.id.text ++ "] USER\n" ++ text)
  | .message (.assistant message) =>
    let text := trim (contentText (message.content.map assistantItem))
    if text = "" then none else some ("[" ++ entry.id.text ++ "] ASSISTANT\n" ++ text)
  | .message (.toolResult _ toolName content _ isError _) =>
    let clipped := clipToolOutput (trim (contentText (content.map inputItem)))
    some ("[" ++ entry.id.text ++ "] TOOL " ++ toolName ++ (if isError then " ERROR" else "") ++
      "\n" ++ if clipped = "" then "(no text)" else clipped)
  | _ => none

/-- Whether a reviewer reads anything of an entry. -/
def renders (entry : SessionTreeEntry) : Bool := (renderEntry entry).isSome

structure RecodeShioriCheckpoint where
  lastReviewedEntryId : String
  reviewedAt : String
  saved : Decimal

def checkpointFromEntry (entry : SessionTreeEntry) : Option RecodeShioriCheckpoint :=
  match entry.body with
  | .custom customType (some data) =>
    if customType = recodeShioriCheckpoint then
      match (data.get? "lastReviewedEntryId").bind Json.asStr?,
          (data.get? "reviewedAt").bind Json.asStr? with
      | some lastReviewedEntryId, some reviewedAt =>
        some ⟨lastReviewedEntryId, reviewedAt,
          ((data.get? "saved").bind Json.asNum?).getD (.ofInt 0)⟩
      | _, _ => none
    else none
  | _ => none

def getRecodeShioriCheckpoint (branch : List SessionTreeEntry) : Option RecodeShioriCheckpoint :=
  branch.reverse.findSome? checkpointFromEntry

def checkpointIndex (branch : List SessionTreeEntry) : Option Nat :=
  (getRecodeShioriCheckpoint branch).bind fun checkpoint =>
    branch.findIdx? fun entry => entry.id.text = checkpoint.lastReviewedEntryId

/-- How many entries of a branch lie up to its checkpoint. -/
def checkpointEnd (branch : List SessionTreeEntry) : Nat :=
  match checkpointIndex branch with
  | some index => index + 1
  | none => 0

/-- The entries that a reviewer has still to read. -/
def pendingEntries (branch : List SessionTreeEntry) : List SessionTreeEntry :=
  (branch.drop (checkpointEnd branch)).filter renders

/-- The entries to read up to an end, if they contain it, and all of them if they do not. -/
def pendingThrough (branch : List SessionTreeEntry) (throughEntryId : Option String) :
    List SessionTreeEntry :=
  let throughIndex := (truthy throughEntryId).bind fun id =>
    (pendingEntries branch).findIdx? fun entry => entry.id.text = id
  match throughIndex with
  | some index => (pendingEntries branch).take (index + 1)
  | none => pendingEntries branch

structure RecodeShioriReviewChunk where
  entries : List SessionTreeEntry
  transcript : String

/-- The chunks that are cut, and the one that is being filled. -/
structure ChunkBuilder where
  chunks : List RecodeShioriReviewChunk := []
  entries : List SessionTreeEntry := []
  transcriptParts : List String := []
  length : Nat := 0

namespace ChunkBuilder

def flush (builder : ChunkBuilder) : ChunkBuilder :=
  if builder.entries = [] then builder
  else { chunks := builder.chunks ++
          [⟨builder.entries, "\n\n".intercalate builder.transcriptParts⟩] }

/-- The chunk that an entry goes to: a new one if the entry would make this one too long. -/
def room (builder : ChunkBuilder) (rendered : String) : ChunkBuilder :=
  if builder.entries ≠ [] ∧
      builder.length + utf16Length rendered + 2 > shioriChunkCharacters then builder.flush
  else builder

def push (builder : ChunkBuilder) (entry : SessionTreeEntry) : ChunkBuilder :=
  let rendered := (renderEntry entry).getD ""
  let open_ := builder.room rendered
  { open_ with
    entries := open_.entries ++ [entry]
    transcriptParts := open_.transcriptParts ++ [sliceFront rendered shioriChunkCharacters]
    length := open_.length + utf16Length rendered + 2 }

end ChunkBuilder

def chunksOf (pending : List SessionTreeEntry) : List RecodeShioriReviewChunk :=
  (pending.foldl ChunkBuilder.push {}).flush.chunks

def sliceChunks (chunks : List RecodeShioriReviewChunk) : Int → List RecodeShioriReviewChunk
  | .ofNat count => chunks.take count
  | .negSucc count => chunks.take (chunks.length - (count + 1))

structure Review where
  chunks : List RecodeShioriReviewChunk
  pendingEntries : Nat
  lastPendingEntryId : Option EntryId
  hasMore : Bool

def buildRecodeShioriReviewChunks (branch : List SessionTreeEntry) (maxChunks : Option Int)
    (throughEntryId : Option String) : Review :=
  let pending := pendingThrough branch throughEntryId
  let chunks := chunksOf pending
  let maxChunks := maxChunks.getD shioriMaxChunksPerRun
  { chunks := sliceChunks chunks maxChunks
    pendingEntries := pending.length
    lastPendingEntryId := pending.getLast?.map (·.id)
    hasMore := decide ((chunks.length : Int) > maxChunks) }

inductive RecodeMemoryScope
  | global | project
deriving DecidableEq

/-- What a run reads of a memory that was proposed to it: the normalized text, the scope that
routing chose, and whether the memory is known already. -/
structure Candidate where
  candidateKey : String
  scope : Option RecodeMemoryScope
  duplicate : Bool

/-- The options of a run. A run either takes a function that its messages go to or appends
them to the branch. -/
structure ReviewOptions where
  enabled : Bool := true
  projectTrusted : Bool := true
  maxChunks : Option Int := none
  throughEntryId : Option String := none
  reviewedEntriesBefore : Option Nat := none
  totalEntries : Option Nat := none
  greetingText : String := ""
  appendMessages : Option Bool := none
  appendMessage : Bool := false

/-- What a run has counted. -/
structure Tally where
  seenCandidates : List String := []
  pendingWrites : List RecodeMemoryScope := []
  skippedDuplicates : Nat := 0
  reviewedEntries : Nat := 0
  lastReviewedEntryId : Option EntryId := none

namespace Tally

def candidate (tally : Tally) (candidate : Candidate) : Tally :=
  if candidate.candidateKey ∈ tally.seenCandidates then
    { tally with skippedDuplicates := tally.skippedDuplicates + 1 }
  else
    let tally := { tally with seenCandidates := candidate.candidateKey :: tally.seenCandidates }
    match candidate.scope with
    | none => tally
    | some scope =>
      if candidate.duplicate then
        { tally with skippedDuplicates := tally.skippedDuplicates + 1 }
      else { tally with pendingWrites := tally.pendingWrites ++ [scope] }

/-- A chunk is reviewed. -/
def chunk (tally : Tally) (chunk : RecodeShioriReviewChunk) (candidates : List Candidate) : Tally :=
  let tally := candidates.foldl Tally.candidate tally
  { tally with
    reviewedEntries := tally.reviewedEntries + chunk.entries.length
    lastReviewedEntryId := chunk.entries.getLast?.map (·.id) }

def saved (tally : Tally) : Nat := tally.pendingWrites.length

def savedIn (tally : Tally) (scope : RecodeMemoryScope) : Nat :=
  (tally.pendingWrites.filter fun write => write = scope).length

end Tally

structure RecodeShioriRunResult where
  reviewedEntries : Nat
  saved : Nat
  savedGlobal : Nat
  savedProject : Nat
  skippedDuplicates : Nat
  hasMore : Bool
  lastReviewedEntryId : EntryId

/-- A run in progress: the branch as it read it, the review it has built, and the chunks it
has not reviewed. -/
structure Run where
  branch : List SessionTreeEntry
  options : ReviewOptions
  review : Review
  remaining : List RecodeShioriReviewChunk
  tally : Tally

/-- The start of a run. A run with nothing to review returns at once. -/
def beginRun (branch : List SessionTreeEntry) (options : ReviewOptions) :
    Except String (Option Run) :=
  if !options.enabled then .error "Kioku memory is disabled. Enable it from /memory"
  else if !options.projectTrusted then
    .error "Shiori is unavailable until this project is trusted"
  else
    let review := buildRecodeShioriReviewChunks branch options.maxChunks options.throughEntryId
    match review.chunks with
    | [] => .ok none
    | chunk :: _ =>
      .ok (some ⟨branch, options, review, review.chunks,
        { lastReviewedEntryId := chunk.entries.getLast?.map (·.id) }⟩)

namespace Run

def greeting (run : Run) : String :=
  let before := run.options.reviewedEntriesBefore.getD 0
  let total := run.options.totalEntries.getD run.review.pendingEntries
  if run.options.totalEntries.isSome || run.options.reviewedEntriesBefore.isSome then
    run.options.greetingText ++ " (" ++ toString before ++ "/" ++ toString total ++ " entries)"
  else
    run.options.greetingText ++ " (" ++ toString run.review.pendingEntries ++ " entries)"

def completion (run : Run) : String :=
  let saved := run.tally.saved
  let project := run.tally.savedIn .project
  let global := run.tally.savedIn .global
  let skipped := run.tally.skippedDuplicates
  " · ".intercalate
    ([if saved = 0 then "No new memories"
      else "Saved " ++ toString saved ++ " " ++ if saved = 1 then "memory" else "memories"] ++
    (if project > 0 then [toString project ++ " project"] else []) ++
    (if global > 0 then [toString global ++ " global"] else []) ++
    [toString run.tally.reviewedEntries ++ " reviewed"] ++
    (if skipped > 0 then
      [toString skipped ++ " " ++ (if skipped = 1 then "duplicate" else "duplicates") ++ " skipped"]
    else []) ++ if run.review.hasMore then ["more entries remain"] else [])

def reviewed (run : Run) (chunk : RecodeShioriReviewChunk) (rest : List RecodeShioriReviewChunk)
    (candidates : List Candidate) : Run :=
  { run with remaining := rest, tally := run.tally.chunk chunk candidates }

def result (run : Run) (lastReviewedEntryId : EntryId) : RecodeShioriRunResult where
  reviewedEntries := run.tally.reviewedEntries
  saved := run.tally.saved
  savedGlobal := run.tally.savedIn .global
  savedProject := run.tally.savedIn .project
  skippedDuplicates := run.tally.skippedDuplicates
  hasMore := run.review.hasMore
  lastReviewedEntryId := lastReviewedEntryId

end Run

/-- The identifier and the time that an appended entry is given. -/
structure Stamp where
  id : EntryId
  timestamp : Nat

def appendCustomEntry (branch : List SessionTreeEntry) (stamp : Stamp) (customType : String)
    (data : Json) : List SessionTreeEntry :=
  branch ++ [⟨stamp.id, branch.getLast?.map (·.id), stamp.timestamp, .custom customType data⟩]

def appendRecodeShioriMessage (branch : List SessionTreeEntry) (stamp : Stamp)
    (message : String) : List SessionTreeEntry :=
  appendCustomEntry branch stamp recodeShioriMessageEntry (.obj [("message", .str message)])

/-- The stamps of the entries that the end of a run appends, and the time it records. -/
structure FinishStamps where
  checkpoint : Stamp
  greeting : Stamp
  completion : Stamp
  reviewedAt : String

def FinishStamps.ids (stamps : FinishStamps) : List EntryId :=
  [stamps.checkpoint.id, stamps.greeting.id, stamps.completion.id]

/-- What the end of a run appends to the branch. -/
def Run.appendEnd (run : Run) (branch : List SessionTreeEntry) (stamps : FinishStamps)
    (lastReviewedEntryId : EntryId) : List SessionTreeEntry :=
  let branch := appendCustomEntry branch stamps.checkpoint recodeShioriCheckpoint
    (.obj [("lastReviewedEntryId", .str lastReviewedEntryId.text),
      ("reviewedAt", .str stamps.reviewedAt), ("saved", .num (.ofInt run.tally.saved))])
  if run.options.appendMessages.getD true && !run.options.appendMessage then
    appendRecodeShioriMessage
      (appendRecodeShioriMessage branch stamps.greeting run.greeting) stamps.completion
      run.completion
  else branch

/-- A branch under review, with the runs that succeeded and what they returned. -/
structure State where
  branch : List SessionTreeEntry := []
  running : Option Run := none
  succeeded : List (Run × RecodeShioriRunResult) := []

/-- The runs on a branch follow one another: the runtime starts none while one is in
progress. Entries are appended at any time, and only the end of a run appends a
checkpoint. -/
inductive Step (state : State) : State → Prop
  | append (entry : SessionTreeEntry) (fresh : entry.id ∉ state.branch.map (·.id))
      (other : checkpointFromEntry entry = none) :
      Step state { state with branch := state.branch ++ [entry] }
  | refuse (options : ReviewOptions) (message : String) (idle : state.running = none)
      (refused : beginRun state.branch options = .error message) : Step state state
  | start (options : ReviewOptions) (run : Option Run) (idle : state.running = none)
      (started : beginRun state.branch options = .ok run) :
      Step state { state with running := run }
  | review (run : Run) (chunk : RecodeShioriReviewChunk)
      (rest : List RecodeShioriReviewChunk) (candidates : List Candidate)
      (running : state.running = some run) (next : run.remaining = chunk :: rest) :
      Step state { state with running := some (run.reviewed chunk rest candidates) }
  | fail (run : Run) (running : state.running = some run) :
      Step state { state with running := none }
  | finish (run : Run) (lastReviewedEntryId : EntryId) (stamps : FinishStamps)
      (running : state.running = some run) (done : run.remaining = [])
      (last : run.tally.lastReviewedEntryId = some lastReviewedEntryId)
      (fresh : ∀ id ∈ stamps.ids, id ∉ state.branch.map (·.id)) (apart : stamps.ids.Nodup) :
      Step state
        { branch := run.appendEnd state.branch stamps lastReviewedEntryId
          running := none
          succeeded := state.succeeded ++ [(run, run.result lastReviewedEntryId)] }

/-- What can become of a branch that starts without entries. -/
inductive Reachable : State → Prop
  | initial : Reachable {}
  | step {state after : State} (reachable : Reachable state) (step : Step state after) :
      Reachable after

end Recode.Shiori

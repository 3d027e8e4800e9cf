import Recode.Message
import Recode.SessionV4.Types

/-! # Entries and records as the recovery reads them

Recovery looks into entries and records: the messages entries carry, the intents of operations,
the attempts, tool starts and queue items that records announce. The storage sees the same
objects as JSON with a few fields of its own. -/

namespace Recode.SessionV4
namespace Recovery

/-- What is needed to ask a provider for a deferred answer. -/
structure DeferredHandle where
  provider : String
  modelId : String
  api : String
  id : String
  expiresAt : Option Nat
  pollAfterMs : Option Nat
  data : Option Json

/-- A message of a session. An answer may be deferred. -/
inductive SessionMessage where
  | assistant (message : AssistantMessage) (deferred : Option DeferredHandle)
  | other (message : AgentMessage) (other : message.isAssistant = false)

/-- A call of a tool in an answer. -/
structure AgentToolCall where
  id : String
  name : String
  arguments : List (String × Json)

/-- The tool calls of an answer, in order. -/
def toolCalls (content : List AssistantBlock) : List AgentToolCall :=
  content.filterMap fun
    | .toolCall id name arguments => some ⟨id, name, arguments⟩
    | _ => none

namespace SessionMessage

def assistant? : SessionMessage → Option (AssistantMessage × Option DeferredHandle)
  | assistant message deferred => some (message, deferred)
  | other _ _ => none

def toolResult? : SessionMessage → Option (String × String)
  | other (.toolResult toolCallId toolName _ _ _ _) _ => some (toolCallId, toolName)
  | _ => none

def role : SessionMessage → String
  | assistant _ _ => "assistant"
  | other (.user _ _) _ => "user"
  | other (.assistant _) _ => "assistant"
  | other (.toolResult _ _ _ _ _ _) _ => "toolResult"
  | other (.bashExecution _) _ => "bashExecution"
  | other (.custom _ _ _ _ _) _ => "custom"
  | other (.branchSummary _ _ _) _ => "branchSummary"
  | other (.compactionSummary _ _ _) _ => "compactionSummary"

end SessionMessage

/-- What an entry carries, by type. -/
inductive EntryContent where
  | message (message : SessionMessage) (terminate : Bool)
  | modelChange (provider modelId : String)
  | thinkingLevelChange (thinkingLevel : String)
  | activeToolsChange (activeToolNames : List String)
  | compaction (summary : String) (retainedTail : List SessionMessage) (tokensBefore : Nat)
      (details : Option Json) (usage : Option Usage)
  | branchSummary (fromId summary : String) (details : Option Json) (usage : Option Usage)
  | custom (customType : String) (data : Option Json)

/-- The type of an entry with this content. -/
def EntryContent.type : EntryContent → EntryType
  | .message _ _ => .message
  | .modelChange _ _ => .modelChange
  | .thinkingLevelChange _ => .thinkingLevelChange
  | .activeToolsChange _ => .activeToolsChange
  | .compaction _ _ _ _ _ => .compaction
  | .branchSummary _ _ _ _ => .branchSummary
  | .custom _ _ => .custom

/-- An entry before the storage places it. -/
structure ProvisionedEntry where
  id : String
  content : EntryContent

/-- An entry of a session. -/
structure Entry extends ProvisionedEntry where
  parentId : Option String
  seq : Nat
  timestamp : Nat

namespace Entry

/-- The answer an entry carries. -/
def assistant? (entry : Entry) : Option (AssistantMessage × Option DeferredHandle) :=
  match entry.content with
  | .message message _ => message.assistant?
  | _ => none

def toolResult? (entry : Entry) : Option (String × String) :=
  match entry.content with
  | .message message _ => message.toolResult?
  | _ => none

/-- An entry carries a message that ends the run. -/
def terminates (entry : Entry) : Bool :=
  match entry.content with
  | .message _ terminate => terminate
  | _ => false

end Entry

/-- What every record carries. -/
structure RecordBase where
  id : String
  seq : Nat
  lane : String
  timestamp : Nat

/-- What an operation sets out to do. -/
inductive OperationIntent where
  | run (originalPrompt : List SessionMessage) (initialMessages : List ProvisionedEntry)
      (systemPromptOverride : Option String) (resumeData : Option (List (String × Json)))
  | compaction (customInstructions : Option String) (resultEntryId : String)
  | navigation (targetId : Option String) (summarize : Bool)
      (customInstructions label summaryEntryId : Option String)

/-- The kind of an intent. -/
def OperationIntent.kind : OperationIntent → OperationKind
  | .run _ _ _ _ => .run
  | .compaction _ _ => .compaction
  | .navigation _ _ _ _ _ => .navigation

def OperationIntent.initialMessages : OperationIntent → List ProvisionedEntry
  | .run _ initialMessages _ _ => initialMessages
  | _ => []

structure OperationStartedRecord extends RecordBase where
  sourceLeafId : Option String
  intent : OperationIntent

structure AbortRequestedRecord extends RecordBase where
  runId : String

/-- How an operation ended. -/
inductive OperationOutcome where
  | completed | aborted | failed | declined
deriving DecidableEq

structure OperationFinishedRecord extends RecordBase where
  runId : String
  outcome : OperationOutcome
  error : Option (String × String)

/-- The steps of an operation that are attempted. -/
inductive StepKind where
  | assistant | compaction | branchSummary
deriving DecidableEq, Repr

def StepKind.text : StepKind → String
  | .assistant => "assistant"
  | .compaction => "compaction"
  | .branchSummary => "branch_summary"

/-- Why a compaction was started. -/
inductive CompactionReason where
  | manual | threshold | overflow
deriving DecidableEq, Repr

/-- The reason a stored attempt gives: one of the known ones or any other value. -/
inductive StoredReason where
  | known (reason : CompactionReason)
  | unknown
deriving DecidableEq, Repr

structure StepAttemptRecord extends RecordBase where
  runId : String
  step : StepKind
  attempt : Nat
  resultEntryId : String
  compactionReason : Option StoredReason

/-- Whether a tool may be called again after a restart. -/
inductive ToolReplay where
  | never | safe
deriving DecidableEq

structure ToolStartedRecord extends RecordBase where
  runId : String
  assistantEntryId : String
  toolIndex : Nat
  toolCallId : String
  toolName : String
  effectiveArgs : List (String × Json)
  resultEntryId : String
  replay : ToolReplay

/-- The queue an item waits in. Items of the next run belong to no run yet. -/
inductive QueuePlace where
  | steer (runId : String)
  | followUp (runId : String)
  | nextRun
deriving DecidableEq, Repr

/-- The run of a queued item. -/
def QueuePlace.runId : QueuePlace → Option String
  | .steer runId => some runId
  | .followUp runId => some runId
  | .nextRun => none

def QueuePlace.text : QueuePlace → String
  | .steer _ => "steer"
  | .followUp _ => "followUp"
  | .nextRun => "nextRun"

structure QueueEnqueuedRecord extends RecordBase where
  place : QueuePlace
  target : ProvisionedEntry

structure QueueCancelledRecord extends RecordBase where
  runId : Option String
  entryId : String

structure WriteDeferredRecord extends RecordBase where
  runId : String
  target : ProvisionedEntry

/-- The steps whose requests report usage. -/
inductive RequestCause where
  | assistant | compaction | branchSummary | deferredFetch
deriving DecidableEq

/-- What used tokens. -/
inductive UsageCause where
  | request (cause : RequestCause) (runId entryId : String) (attempt : Nat)
      (stopReason : StopReason)
  | tool (runId entryId toolCallId : String)
  | hook (runId entryId : String)
  | adjustment (runId entryId : Option String) (details : Option Json)

/-- The run that used tokens. -/
def UsageCause.runId : UsageCause → Option String
  | .request _ runId _ _ _ => some runId
  | .tool runId _ _ => some runId
  | .hook runId _ => some runId
  | .adjustment runId _ _ => runId

structure UsageRecord extends RecordBase where
  usage : Usage
  cause : UsageCause

/-- A record of a lane, by type. -/
inductive LaneRecord where
  | operationStarted (record : OperationStartedRecord)
  | abortRequested (record : AbortRequestedRecord)
  | operationFinished (record : OperationFinishedRecord)
  | stepAttempt (record : StepAttemptRecord)
  | toolStarted (record : ToolStartedRecord)
  | queueEnqueued (record : QueueEnqueuedRecord)
  | queueCancelled (record : QueueCancelledRecord)
  | writeDeferred (record : WriteDeferredRecord)
  | usage (record : UsageRecord)

namespace LaneRecord

def base : LaneRecord → RecordBase
  | operationStarted record => record.toRecordBase
  | abortRequested record => record.toRecordBase
  | operationFinished record => record.toRecordBase
  | stepAttempt record => record.toRecordBase
  | toolStarted record => record.toRecordBase
  | queueEnqueued record => record.toRecordBase
  | queueCancelled record => record.toRecordBase
  | writeDeferred record => record.toRecordBase
  | usage record => record.toRecordBase

def id (record : LaneRecord) : String := record.base.id

def seq (record : LaneRecord) : Nat := record.base.seq

/-- The run a record names. -/
def runId : LaneRecord → Option String
  | operationStarted _ => none
  | abortRequested record => some record.runId
  | operationFinished record => some record.runId
  | stepAttempt record => some record.runId
  | toolStarted record => some record.runId
  | queueEnqueued record => record.place.runId
  | queueCancelled record => record.runId
  | writeDeferred record => some record.runId
  | usage record => record.cause.runId

def started? : LaneRecord → Option OperationStartedRecord
  | operationStarted record => some record
  | _ => none

def finished? : LaneRecord → Option OperationFinishedRecord
  | operationFinished record => some record
  | _ => none

def attempt? : LaneRecord → Option StepAttemptRecord
  | stepAttempt record => some record
  | _ => none

def toolStarted? : LaneRecord → Option ToolStartedRecord
  | toolStarted record => some record
  | _ => none

def enqueued? : LaneRecord → Option QueueEnqueuedRecord
  | queueEnqueued record => some record
  | _ => none

def cancelled? : LaneRecord → Option QueueCancelledRecord
  | queueCancelled record => some record
  | _ => none

/-- The entry a record promises to write later. -/
def deferredWrite? : LaneRecord → Option WriteDeferredRecord
  | writeDeferred record => some record
  | _ => none

variable {record : LaneRecord}

@[simp] theorem started?_eq_some {start : OperationStartedRecord} :
    record.started? = some start ↔ record = .operationStarted start := by
  cases record <;> simp [started?]

@[simp] theorem finished?_eq_some {finish : OperationFinishedRecord} :
    record.finished? = some finish ↔ record = .operationFinished finish := by
  cases record <;> simp [finished?]

@[simp] theorem enqueued?_eq_some {item : QueueEnqueuedRecord} :
    record.enqueued? = some item ↔ record = .queueEnqueued item := by
  cases record <;> simp [enqueued?]

@[simp] theorem cancelled?_eq_some {cancel : QueueCancelledRecord} :
    record.cancelled? = some cancel ↔ record = .queueCancelled cancel := by
  cases record <;> simp [cancelled?]

end LaneRecord

end Recovery
end Recode.SessionV4

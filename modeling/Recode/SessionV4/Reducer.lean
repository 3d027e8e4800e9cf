import Recode.SessionV4.RecordLog

/-! # The state of a lane after a restart

From the records of a lane, the entries its open operation appended and a few entries before
them, recovery derives what the operation has done and what it still has to do. -/

namespace Recode.SessionV4
namespace Recovery

/-- The model of a lane. -/
structure LaneModel where
  provider : String
  modelId : String
deriving DecidableEq, Repr

structure EffectiveLaneConfiguration where
  model : LaneModel
  thinkingLevel : String
  activeToolNames : List String
deriving DecidableEq, Repr

/-- What produced an answer that ended in an error. -/
inductive FailureSource where
  | step | deferredFetch
deriving DecidableEq, Repr

structure TerminalFailureState where
  entryId : String
  source : FailureSource
  message : AssistantMessage

/-- A call of the newest answer with calls. -/
structure ToolCallState where
  toolIndex : Nat
  toolCall : AgentToolCall
  started : Option ToolStartedRecord
  resultExists : Bool
  terminate : Bool

structure ToolBatchState where
  assistantEntryId : String
  calls : List ToolCallState
  truncated : Bool
  unresolved : Bool

/-- The step that is being attempted. -/
structure StepState where
  kind : StepKind
  attempts : Nat
  resultEntryId : String
  compactionReason : Option StoredReason
deriving DecidableEq, Repr

/-- The newest entry of the operation. -/
structure NewestOwn where
  entryId : String
  type : EntryType
  role : Option String
  stopReason : Option StopReason
deriving DecidableEq

/-- Which of the entries that an operation promises exist. -/
structure OperationTargets where
  result : Option Bool
  summary : Option Bool
deriving DecidableEq, Repr

structure OperationState where
  id : String
  kind : OperationKind
  intent : OperationIntent
  aborting : Bool
  step : Option StepState
  toolBatch : Option ToolBatchState
  missingInitialMessages : List ProvisionedEntry
  pendingSteer : List ProvisionedEntry
  pendingFollowUp : List ProvisionedEntry
  pendingWrites : List ProvisionedEntry
  deferred : Option DeferredHandle
  overflowRecoveryUsed : Bool
  newestOwn : Option NewestOwn
  targets : OperationTargets

structure LaneState where
  lane : String
  leafId : Option String
  operation : Option OperationState
  pendingNextRun : List ProvisionedEntry

structure LaneReductionInput extends RecordLogSlice where
  leafId : Option String
  /-- Entries appended by the open operation, oldest first. -/
  ownEntries : List Entry
  /-- Entries before the operation that may write the configuration, oldest first. -/
  configurationEntries : List Entry
  /-- What applies where no entry writes the configuration. -/
  defaults : EffectiveLaneConfiguration

structure LaneReductionResult where
  laneState : LaneState
  effectiveConfiguration : EffectiveLaneConfiguration
  terminalFailure : Option TerminalFailureState

/-- The configuration after an entry. -/
def configure (configuration : EffectiveLaneConfiguration) (entry : Entry) :
    EffectiveLaneConfiguration :=
  match entry.content with
  | .modelChange provider modelId => { configuration with model := ⟨provider, modelId⟩ }
  | .thinkingLevelChange thinkingLevel => { configuration with thinkingLevel }
  | .activeToolsChange activeToolNames => { configuration with activeToolNames }
  | .message (.assistant message _) _ =>
    { configuration with model := ⟨message.provider, message.model⟩ }
  | _ => configuration

/-- The configuration that the looked up entries and those of the operation leave in force. -/
def deriveEffectiveConfiguration (input : LaneReductionInput) : EffectiveLaneConfiguration :=
  let entriesById := InsertionMap.indexBy (fun entry : Entry => entry.id)
    (input.configurationEntries ++ input.ownEntries)
  (bySequence (fun entry : Entry => entry.seq) (entriesById.entries.map Prod.snd)).foldl configure
    input.defaults

def deriveNewestOwn (entry : Entry) : NewestOwn :=
  match entry.content with
  | .message (.assistant message _) _ =>
    ⟨entry.id, .message, some "assistant", some message.stopReason⟩
  | .message message _ => ⟨entry.id, .message, some message.role, none⟩
  | content => ⟨entry.id, content.type, none, none⟩

section ToolBatch

variable (ownEntries : List Entry) (entriesById : EntryIndex) (deferredWriteIds : List String)

def newestToolAnswer : Option (Entry × AssistantMessage) :=
  ownEntries.reverse.findSome? fun entry =>
    match entry.assistant? with
    | some (message, _) => if toolCalls message.content = [] then none else some (entry, message)
    | none => none

def startOf (operationId assistantEntryId : String) (records : List LaneRecord)
    (toolIndex : Nat) : Option ToolStartedRecord :=
  (records.filterMap LaneRecord.toolStarted?).reverse.find? fun record =>
    record.runId = operationId && record.assistantEntryId = assistantEntryId &&
      record.toolIndex = toolIndex

def holdsResult (assistantEntry : Entry) (toolCallId : String) (entry : Entry) : Bool :=
  entry.seq > assistantEntry.seq && entry.id ∉ deferredWriteIds &&
    entry.toolResult?.any fun result => result.1 = toolCallId

/-- The result of a call: the one its start promised, or else the first one of the call. -/
def resultOf (assistantEntry : Entry) (started : Option ToolStartedRecord) (toolCallId : String) :
    Option Entry :=
  (started.bind fun started => entriesById.get? started.resultEntryId).or
    (ownEntries.find? (holdsResult deferredWriteIds assistantEntry toolCallId))

def deriveToolBatch (operationId : String) (records : List LaneRecord) : Option ToolBatchState :=
  (newestToolAnswer ownEntries).map fun (assistantEntry, message) =>
    let calls := (toolCalls message.content).mapIdx fun toolIndex toolCall =>
      let started := startOf operationId assistantEntry.id records toolIndex
      let result := resultOf ownEntries entriesById deferredWriteIds assistantEntry started
        toolCall.id
      { toolIndex, toolCall, started
        resultExists := result.isSome
        terminate := result.any Entry.terminates : ToolCallState }
    { assistantEntryId := assistantEntry.id
      calls
      truncated := message.stopReason = .length
      unresolved := calls.any fun call => !call.resultExists }

end ToolBatch

namespace LaneReductionInput

variable (input : LaneReductionInput)

/-- The operation's entries in order. -/
def orderedOwn : List Entry := bySequence (fun entry : Entry => entry.seq) input.ownEntries

def allById : EntryIndex :=
  InsertionMap.indexBy (fun entry : Entry => entry.id) (input.entries ++ input.orderedOwn)

def cancelledQueueIds : List String :=
  input.ordered.filterMap fun record => record.cancelled?.map QueueCancelledRecord.entryId

/-- The queued items that are neither cancelled nor stored. -/
def pendingQueueRecords : List QueueEnqueuedRecord :=
  (input.ordered.filterMap LaneRecord.enqueued?).filter fun record =>
    !input.allById.contains record.target.id && record.target.id ∉ input.cancelledQueueIds

def started : Option OperationStartedRecord := input.openOperations.head?

/-- The items that the open run took over. -/
def capturedInitialMessageIds : List String :=
  (input.started.elim [] fun started => started.intent.initialMessages).map (·.id)

def pendingNextRun : List ProvisionedEntry :=
  (input.pendingQueueRecords.filter fun record =>
    record.place = .nextRun && record.target.id ∉ input.capturedInitialMessageIds).map (·.target)

def operationRecords (operationId : String) : List LaneRecord :=
  input.ordered.filter fun record =>
    match record with
    | .operationStarted record => record.id = operationId
    | record => record.runId = some operationId

def aborting (operationId : String) : Bool :=
  (input.operationRecords operationId).any fun
    | .abortRequested _ => true
    | _ => false

/-- The pending items of a queue of a run, unless it is being aborted. -/
def pendingOf (operationId : String) (place : QueuePlace) : List ProvisionedEntry :=
  if input.aborting operationId then []
  else (input.pendingQueueRecords.filter fun record => record.place = place).map (·.target)

def pendingWrites (operationId : String) : List ProvisionedEntry :=
  (((input.operationRecords operationId).filterMap LaneRecord.deferredWrite?).filter fun record =>
    !input.allById.contains record.target.id).map (·.target)

def missingInitialMessages (intent : OperationIntent) : List ProvisionedEntry :=
  intent.initialMessages.filter fun target => !input.allById.contains target.id

def attempts (operationId : String) : List StepAttemptRecord :=
  (input.operationRecords operationId).filterMap LaneRecord.attempt?

def step (operationId : String) : Option StepState :=
  match (input.attempts operationId).getLast? with
  | none => none
  | some newestAttempt =>
    if input.allById.contains newestAttempt.resultEntryId then none
    else some
      { kind := newestAttempt.step
        attempts := newestAttempt.attempt
        resultEntryId := newestAttempt.resultEntryId
        compactionReason :=
          if newestAttempt.step = .compaction then newestAttempt.compactionReason else none }

def consumedInputIds (started : OperationStartedRecord) : List String :=
  started.intent.initialMessages.map (·.id) ++
    ((input.operationRecords started.id).filterMap LaneRecord.enqueued?).filterMap fun record =>
      if record.place = .nextRun then none else some record.target.id

/-- The numbers of the inputs that were stored as messages. -/
def consumedInputSequences (started : OperationStartedRecord) : List Nat :=
  (input.consumedInputIds started).filterMap fun id =>
    (input.allById.get? id).bind fun entry =>
      if entry.content.type = .message then some entry.seq else none

def overflowRecoveryUsed (started : OperationStartedRecord) : Bool :=
  (input.attempts started.id).any fun record =>
    record.step = .compaction && record.compactionReason = some (.known .overflow) &&
      (input.consumedInputSequences started).all (record.seq > ·)

def deferred : Option DeferredHandle :=
  input.orderedOwn.getLast?.bind Entry.assistant? |>.bind fun (message, handle) =>
    if message.stopReason = .deferred then handle else none

def targets : OperationIntent → OperationTargets
  | .run _ _ _ _ => ⟨none, none⟩
  | .compaction _ resultEntryId => ⟨some (input.allById.contains resultEntryId), none⟩
  | .navigation _ _ _ _ summaryEntryId =>
    ⟨none, (Text.truthy summaryEntryId).map fun id => input.allById.contains id⟩

/-- The entries that the operation was asked to write later. -/
def deferredWriteIds (operationId : String) : List String :=
  ((input.operationRecords operationId).filterMap LaneRecord.deferredWrite?).map (·.target.id)

def producedByStep (operationId entryId : String) : Bool :=
  (input.attempts operationId).any fun record => record.resultEntryId = entryId

def producedByDeferredFetch (operationId entryId : String) : Bool :=
  ((input.operationRecords operationId).any fun
    | .usage record =>
      match record.cause with
      | .request .deferredFetch _ usedBy _ _ => usedBy = entryId
      | _ => false
    | _ => false) ||
    (input.orderedOwn.dropLast.getLast?.bind Entry.assistant?).any fun (message, _) =>
      message.stopReason = .deferred

/-- The error in which the newest answer ended, if a step or a fetch produced it. -/
def terminalFailure (operationId : String) : Option TerminalFailureState :=
  input.orderedOwn.getLast?.bind fun newest =>
    newest.assistant?.bind fun (message, _) =>
      if message.stopReason = .error ∧ newest.id ∉ input.deferredWriteIds operationId then
        if input.producedByStep operationId newest.id then
          some ⟨newest.id, .step, message⟩
        else if input.producedByDeferredFetch operationId newest.id then
          some ⟨newest.id, .deferredFetch, message⟩
        else none
      else none

def operation (started : OperationStartedRecord) : OperationState where
  id := started.id
  kind := started.intent.kind
  intent := started.intent
  aborting := input.aborting started.id
  step := input.step started.id
  toolBatch := deriveToolBatch input.orderedOwn input.allById (input.deferredWriteIds started.id)
    started.id (input.operationRecords started.id)
  missingInitialMessages := input.missingInitialMessages started.intent
  pendingSteer := input.pendingOf started.id (.steer started.id)
  pendingFollowUp := input.pendingOf started.id (.followUp started.id)
  pendingWrites := input.pendingWrites started.id
  deferred := input.deferred
  overflowRecoveryUsed := input.overflowRecoveryUsed started
  newestOwn := input.orderedOwn.getLast?.map deriveNewestOwn
  targets := input.targets started.intent

end LaneReductionInput

def reduceLaneState (isDeepEqual : ProvisionedEntry → ProvisionedEntry → Bool)
    (input : LaneReductionInput) : Except RecordLogCorruption LaneReductionResult := do
  validateRecordLog isDeepEqual input.toRecordLogSlice
  return {
    laneState :=
      { lane := input.lane
        leafId := input.leafId
        operation := input.started.map input.operation
        pendingNextRun := input.pendingNextRun }
    effectiveConfiguration := deriveEffectiveConfiguration input
    terminalFailure := input.started.bind fun started => input.terminalFailure started.id }

theorem reduceLaneState_of_accepted {isDeepEqual : ProvisionedEntry → ProvisionedEntry → Bool}
    {input : LaneReductionInput}
    (accepted : validateRecordLog isDeepEqual input.toRecordLogSlice = .ok ()) :
    reduceLaneState isDeepEqual input = .ok
      { laneState :=
          { lane := input.lane
            leafId := input.leafId
            operation := input.started.map input.operation
            pendingNextRun := input.pendingNextRun }
        effectiveConfiguration := deriveEffectiveConfiguration input
        terminalFailure := input.started.bind fun started => input.terminalFailure started.id
            } := by
  rw [reduceLaneState, accepted]
  rfl

end Recovery
end Recode.SessionV4

import Mathlib.Data.List.Sort
import Recode.Lib.InsertionMap
import Recode.SessionV4.Records

/-! # Valid record logs

Recovery begins with a check of the records of a lane against each other and against the
entries. The records are read in the order of their numbers; the first contradiction is
reported, and a slice without one is accepted. -/

namespace Recode.SessionV4
namespace Recovery

open InsertionMap List

/-- What contradicts itself in a record log. -/
inductive RecordLogCorruptionReason where
  | multipleOpenOperations
  | unknownOperation
  | recordAfterFinish
  | nonConsecutiveAttempt
  | invalidCompactionReason
  | queueAfterAbort
  | invalidQueueCancellation
  | inconsistentStep
  | toolCallMismatch
  | duplicateToolInvocation
  | provisionedEntryMismatch
  | invalidDeferredHandle
deriving DecidableEq, Repr

structure RecordLogCorruption where
  reason : RecordLogCorruptionReason
  message : String
deriving DecidableEq, Repr

/-- What recovery reads of a lane. -/
structure RecordLogSlice where
  lane : String
  openOperations : List OperationStartedRecord
  records : List LaneRecord
  /-- Entries of the operation, and entries fetched by identifiers that records name. -/
  entries : List Entry

abbrev EntryIndex := InsertionMap String Entry

/-- Values in the order of their numbers. Values with one number keep their order. -/
def bySequence {Item : Type} (seqOf : Item → Nat) (items : List Item) : List Item :=
  items.insertionSort fun left right => seqOf left ≤ seqOf right

theorem bySequence_perm {Item : Type} (seqOf : Item → Nat) (items : List Item) :
    (bySequence seqOf items).Perm items :=
  perm_insertionSort _ items

theorem bySequence_pairwise {Item : Type} (seqOf : Item → Nat) (items : List Item) :
    (bySequence seqOf items).Pairwise fun earlier later => seqOf earlier ≤ seqOf later := by
  have : Std.Total fun left right : Item => seqOf left ≤ seqOf right :=
    ⟨fun left right => Nat.le_total (seqOf left) (seqOf right)⟩
  have : IsTrans Item fun left right => seqOf left ≤ seqOf right :=
    ⟨fun _ _ _ => Nat.le_trans⟩
  exact pairwise_insertionSort _ items

theorem bySequence_strict {Item : Type} {seqOf : Item → Nat} {items : List Item}
    (distinct : (items.map seqOf).Nodup) :
    (bySequence seqOf items).Pairwise fun earlier later => seqOf earlier < seqOf later := by
  have apart : ((bySequence seqOf items).map seqOf).Nodup :=
    ((bySequence_perm seqOf items).map seqOf).nodup_iff.mpr distinct
  rw [List.Nodup, pairwise_map] at apart
  refine (bySequence_pairwise seqOf items).imp₂ ?_ apart
  exact fun _ _ ordered different => Nat.lt_of_le_of_ne ordered different

def corrupt (reason : RecordLogCorruptionReason) (message : String) :
    Except RecordLogCorruption Unit :=
  .error ⟨reason, message⟩

section Checks

variable (isDeepEqual : ProvisionedEntry → ProvisionedEntry → Bool) (entriesById : EntryIndex)

def validateExactProvisionedEntry (target : ProvisionedEntry) : Except RecordLogCorruption Unit :=
  match entriesById.get? target.id with
  | none => .ok ()
  | some entry =>
    if isDeepEqual entry.toProvisionedEntry target then .ok ()
    else corrupt .provisionedEntryMismatch
      s!"Provisioned entry {target.id} exists with content different from its intent"

/-- An entry whose identifier a record provided is of the promised kind. -/
def validateResultEntry (resultEntryId : String) (matchesResult : Entry → Bool)
    (description : String) : Except RecordLogCorruption Unit :=
  match entriesById.get? resultEntryId with
  | none => .ok ()
  | some entry =>
    if matchesResult entry then .ok ()
    else corrupt .provisionedEntryMismatch
      s!"Provisioned {description} entry {resultEntryId} exists with different content"

def validateAttemptReason (record : StepAttemptRecord) : Except RecordLogCorruption Unit :=
  if record.step = .compaction then
    match record.compactionReason with
    | some (.known _) => .ok ()
    | _ => corrupt .invalidCompactionReason
        s!"Compaction attempt {record.id} has no valid compaction reason"
  else
    match record.compactionReason with
    | none => .ok ()
    | some _ => corrupt .invalidCompactionReason
        s!"{record.step.text} attempt {record.id} has a compaction reason"

/-- An attempt tries the same step again, whose result is not there yet. -/
def continuesSeries (record previous : StepAttemptRecord) : Bool :=
  previous.step = record.step &&
    (entriesById.get? previous.resultEntryId).all fun result => decide (result.seq ≥ record.seq)

def expectedAttempt (record : StepAttemptRecord) (previous : Option StepAttemptRecord) : Nat :=
  match previous.filter (continuesSeries entriesById record) with
  | none => 1
  | some previous => previous.attempt + 1

/-- Attempts of a step are numbered, and attempts of a summary agree on their result. -/
def validateAttemptSequence (record : StepAttemptRecord) (previous : Option StepAttemptRecord) :
    Except RecordLogCorruption Unit :=
  let expected := expectedAttempt entriesById record previous
  if record.attempt ≠ expected then
    corrupt .nonConsecutiveAttempt
      s!"{record.step.text} attempt {record.id} is {record.attempt}; expected {expected}"
  else
    match previous.filter (continuesSeries entriesById record) with
    | none => .ok ()
    | some previous =>
      if record.step = .assistant then .ok ()
      else if record.resultEntryId ≠ previous.resultEntryId then
        corrupt .inconsistentStep
          s!"{record.step.text} attempts disagree on their result entry id"
      else if record.compactionReason ≠ previous.compactionReason then
        corrupt .inconsistentStep
          s!"{record.step.text} attempts disagree on their compaction reason"
      else .ok ()

def validateAttemptResult (record : StepAttemptRecord) : Except RecordLogCorruption Unit :=
  match record.step with
  | .assistant => validateResultEntry entriesById record.resultEntryId
      (·.assistant?.isSome) "assistant result"
  | .compaction => validateResultEntry entriesById record.resultEntryId
      (·.content.type = .compaction) "compaction result"
  | .branchSummary => validateResultEntry entriesById record.resultEntryId
      (·.content.type = .branchSummary) "branch-summary result"

/-- A tool start names a call of an answer by its position. -/
def validateToolCall (record : ToolStartedRecord) : Except RecordLogCorruption Unit :=
  match (entriesById.get? record.assistantEntryId).bind Entry.assistant? with
  | none =>
    corrupt .toolCallMismatch s!"Tool start {record.id} does not reference an assistant entry"
  | some (message, _) =>
    if (toolCalls message.content)[record.toolIndex]?.any fun toolCall =>
        toolCall.id = record.toolCallId && toolCall.name = record.toolName then
      .ok ()
    else corrupt .toolCallMismatch
      s!"Tool start {record.id} does not match its assistant tool-call ordinal"

def validateToolStart (record : ToolStartedRecord) (invocations : List (String × Nat)) :
    Except RecordLogCorruption Unit :=
  if (record.assistantEntryId, record.toolIndex) ∈ invocations then
    corrupt .duplicateToolInvocation
      s!"Tool invocation {record.assistantEntryId}:{record.toolIndex} is duplicated"
  else do
    validateToolCall entriesById record
    validateResultEntry entriesById record.resultEntryId
      (·.toolResult? = some (record.toolCallId, record.toolName)) "tool result"

def validateOperationResult (record : OperationStartedRecord) : Except RecordLogCorruption Unit :=
  match record.intent with
  | .run _ initialMessages _ _ =>
    initialMessages.forM (validateExactProvisionedEntry isDeepEqual entriesById)
  | .compaction _ resultEntryId =>
    validateResultEntry entriesById resultEntryId (·.content.type = .compaction)
      "manual compaction"
  | .navigation _ _ _ _ summaryEntryId =>
    match Text.truthy summaryEntryId with
    | none => .ok ()
    | some summaryEntryId =>
      validateResultEntry entriesById summaryEntryId (·.content.type = .branchSummary)
        "navigation summary"

def validateDeferredHandle (entry : Entry) : Except RecordLogCorruption Unit :=
  match entry.assistant? with
  | some (message, none) =>
    if message.stopReason = .deferred then
      corrupt .invalidDeferredHandle
        s!"Deferred assistant entry {entry.id} does not carry a handle"
    else .ok ()
  | _ => .ok ()

end Checks

/-- What the records read so far say. -/
structure LogScan where
  starts : InsertionMap String OperationStartedRecord
  finishedAt : InsertionMap String Nat
  abortedAt : InsertionMap String Nat
  queueEnqueues : InsertionMap String QueueEnqueuedRecord
  latestAttempt : InsertionMap String StepAttemptRecord
  toolInvocations : List (String × Nat)

namespace LogScan

/-- Nothing read yet. -/
def start : LogScan := ⟨.empty, .empty, .empty, .empty, .empty, []⟩

def validateRun (scan : LogScan) (record : LaneRecord) : Except RecordLogCorruption Unit :=
  match record.runId with
  | none => .ok ()
  | some runId =>
    if ¬ scan.starts.contains runId then
      corrupt .unknownOperation s!"Record {record.id} references unknown operation {runId}"
    else if (scan.finishedAt.get? runId).any (record.seq > ·) then
      corrupt .recordAfterFinish s!"Record {record.id} follows the finish of operation {runId}"
    else .ok ()

def validateEnqueue (scan : LogScan) (record : QueueEnqueuedRecord) :
    Except RecordLogCorruption Unit :=
  if (record.place.runId.bind scan.abortedAt.get?).any (record.seq > ·) then
    corrupt .queueAfterAbort
      s!"{record.place.text} item {record.target.id} was enqueued after abort"
  else .ok ()

/-- A cancellation names an item that was queued before, for the same run, and has not become
an entry. -/
def validateCancellation (scan : LogScan) (entriesById : EntryIndex)
    (record : QueueCancelledRecord) : Except RecordLogCorruption Unit :=
  let refused : Except RecordLogCorruption Unit := corrupt .invalidQueueCancellation
    s!"Queue cancellation {record.id} has no pending matching enqueue"
  match scan.queueEnqueues.get? record.entryId with
  | none => refused
  | some enqueue =>
    if enqueue.seq ≥ record.seq ∨ enqueue.place.runId ≠ record.runId ∨
        entriesById.contains record.entryId then refused
    else .ok ()

variable (isDeepEqual : ProvisionedEntry → ProvisionedEntry → Bool) (entriesById : EntryIndex)

def checkRecord (scan : LogScan) : LaneRecord → Except RecordLogCorruption Unit
  | .operationStarted record => validateOperationResult isDeepEqual entriesById record
  | .operationFinished _ => .ok ()
  | .abortRequested _ => .ok ()
  | .stepAttempt record => do
    validateAttemptReason record
    validateAttemptSequence entriesById record (scan.latestAttempt.get? record.runId)
    validateAttemptResult entriesById record
  | .toolStarted record => validateToolStart entriesById record scan.toolInvocations
  | .queueEnqueued record => do
    scan.validateEnqueue record
    validateExactProvisionedEntry isDeepEqual entriesById record.target
  | .queueCancelled record => scan.validateCancellation entriesById record
  | .writeDeferred record => validateExactProvisionedEntry isDeepEqual entriesById record.target
  | .usage _ => .ok ()

def note (scan : LogScan) : LaneRecord → LogScan
  | .operationStarted record => { scan with starts := scan.starts.insert record.id record }
  | .operationFinished record =>
    { scan with finishedAt := scan.finishedAt.insert record.runId record.seq }
  | .abortRequested record =>
    { scan with abortedAt := scan.abortedAt.insert record.runId record.seq }
  | .stepAttempt record =>
    { scan with latestAttempt := scan.latestAttempt.insert record.runId record }
  | .toolStarted record =>
    { scan with
      toolInvocations := scan.toolInvocations ++ [(record.assistantEntryId, record.toolIndex)] }
  | .queueEnqueued record =>
    { scan with queueEnqueues := scan.queueEnqueues.insert record.target.id record }
  | .queueCancelled _ => scan
  | .writeDeferred _ => scan
  | .usage _ => scan

def validateRecord (scan : LogScan) (record : LaneRecord) : Except RecordLogCorruption LogScan := do
  scan.validateRun record
  scan.checkRecord isDeepEqual entriesById record
  return scan.note record

end LogScan

def RecordLogSlice.entriesById (input : RecordLogSlice) : EntryIndex :=
  indexBy (fun entry => entry.id) input.entries

def RecordLogSlice.ordered (input : RecordLogSlice) : List LaneRecord :=
  bySequence LaneRecord.seq input.records

/-- Check a slice without changing anything. -/
def validateRecordLog (isDeepEqual : ProvisionedEntry → ProvisionedEntry → Bool)
    (input : RecordLogSlice) : Except RecordLogCorruption Unit :=
  if input.openOperations.length > 1 then
    corrupt .multipleOpenOperations s!"Lane {input.lane} has at least two open operations"
  else do
    (input.entriesById.entries.map Prod.snd).forM validateDeferredHandle
    let _ ← input.ordered.foldlM (LogScan.validateRecord isDeepEqual input.entriesById) .start
    return

namespace LogScan

def ofRecords (records : List LaneRecord) : LogScan := records.foldl note start

variable (records : List LaneRecord)

theorem ofRecords_snoc (record : LaneRecord) :
    ofRecords (records ++ [record]) = (ofRecords records).note record :=
  foldl_concat ..

/-! What the records read so far say of a run or an item is what the last record about it says. -/

/-- A part of the scan that notes each record of one kind under a key indexes those records. -/
theorem index_ofRecords {Record : Type} {part : LogScan → InsertionMap String Record}
    {key : Record → String} {select : LaneRecord → Option Record}
    (empty : part start = indexBy key []) (noted : ∀ scan record, part (scan.note record) =
      (select record).elim (part scan) fun kept => (part scan).insert (key kept) kept) :
    part (ofRecords records) = indexBy key (records.filterMap select) := by
  induction records using reverseRecOn with
  | nil => exact empty
  | append_singleton records record ih =>
    rw [ofRecords_snoc, noted, ih, filterMap_append]
    cases selected : select record with
    | none => simp [selected]
    | some kept => simp [selected, indexBy_append_singleton]

theorem starts_ofRecords : (ofRecords records).starts =
    indexBy (fun record => record.id) (records.filterMap LaneRecord.started?) :=
  index_ofRecords records rfl fun _ record => by cases record <;> rfl

theorem queueEnqueues_ofRecords :
    (ofRecords records).queueEnqueues = indexBy (fun record => record.target.id)
      (records.filterMap LaneRecord.enqueued?) :=
  index_ofRecords records rfl fun _ record => by cases record <;> rfl

theorem latestAttempt_ofRecords :
    (ofRecords records).latestAttempt = indexBy (fun record => record.runId)
      (records.filterMap LaneRecord.attempt?) :=
  index_ofRecords records rfl fun _ record => by cases record <;> rfl

theorem toolInvocations_ofRecords :
    (ofRecords records).toolInvocations = (records.filterMap LaneRecord.toolStarted?).map
      fun record => (record.assistantEntryId, record.toolIndex) := by
  induction records using reverseRecOn with
  | nil => rfl
  | append_singleton records record ih =>
    rw [ofRecords_snoc, filterMap_append, map_append]
    cases record with
    | toolStarted record =>
      exact congrArg (· ++ [(record.assistantEntryId, record.toolIndex)]) ih
    | _ => exact ih.trans (append_nil _).symm

theorem finishedAt_ofRecords (runId : String) :
    (ofRecords records).finishedAt.get? runId = ((indexBy (fun record => record.runId)
        (records.filterMap LaneRecord.finished?)).get? runId).map fun record => record.seq := by
  induction records using reverseRecOn with
  | nil => rfl
  | append_singleton records record ih =>
    rw [ofRecords_snoc, filterMap_append]
    cases record with
    | operationFinished record =>
      have added := indexBy_append_singleton (fun record => record.runId)
        (records.filterMap LaneRecord.finished?) record
      change ((ofRecords records).finishedAt.insert record.runId record.seq).get? runId =
        ((indexBy _ (_ ++ [record])).get? runId).map _
      rw [added, get?_insert, get?_insert, ih]
      split <;> rfl
    | _ =>
      rw [show filterMap LaneRecord.finished? [_] = [] from rfl, append_nil]
      exact ih

def Passes (isDeepEqual : ProvisionedEntry → ProvisionedEntry → Bool) (entriesById : EntryIndex)
    (before : List LaneRecord) (record : LaneRecord) : Prop :=
  (ofRecords before).validateRun record = .ok () ∧
    (ofRecords before).checkRecord isDeepEqual entriesById record = .ok ()

variable {isDeepEqual : ProvisionedEntry → ProvisionedEntry → Bool} {entriesById : EntryIndex}

theorem validateRecord_eq_ok (before : List LaneRecord) (record : LaneRecord) (scan : LogScan) :
    (ofRecords before).validateRecord isDeepEqual entriesById record = .ok scan ↔
      Passes isDeepEqual entriesById before record ∧ scan = (ofRecords before).note record := by
  unfold validateRecord Passes
  cases (ofRecords before).validateRun record with
  | error error => simp [bind, Except.bind]
  | ok _ =>
    cases (ofRecords before).checkRecord isDeepEqual entriesById record with
    | error error => simp [bind, Except.bind]
    | ok _ =>
      simp only [bind, Except.bind, pure, Except.pure, Except.ok.injEq, true_and]
      exact eq_comm

theorem foldlM_validateRecord (scan : LogScan) :
    records.foldlM (validateRecord isDeepEqual entriesById) start = .ok scan ↔
      (∀ before record after, records = before ++ record :: after →
        Passes isDeepEqual entriesById before record) ∧ scan = ofRecords records := by
  induction records using reverseRecOn generalizing scan with
  | nil =>
    simp only [foldlM_nil, pure, Except.pure, Except.ok.injEq]
    constructor
    · rintro rfl
      refine ⟨fun before record after none => ?_, rfl⟩
      exact (append_ne_nil_of_right_ne_nil before (cons_ne_nil _ _) none.symm).elim
    · exact fun read => read.2.symm
  | append_singleton records last ih =>
    rw [foldlM_append]
    constructor
    · intro read
      cases first : records.foldlM (validateRecord isDeepEqual entriesById) start with
      | error error =>
        rw [first] at read
        cases read
      | ok middle =>
        obtain ⟨passes, rfl⟩ := (ih middle).mp first
        rw [first] at read
        have step : (ofRecords records).validateRecord isDeepEqual entriesById last =
            .ok scan := by
          rw [← read]
          exact (bind_pure _).symm
        obtain ⟨lastPasses, rfl⟩ := (validateRecord_eq_ok _ _ _).mp step
        refine ⟨?_, (ofRecords_snoc records last).symm⟩
        intro before record after split
        rcases eq_nil_or_concat after with rfl | ⟨front, other, rfl⟩
        · obtain ⟨rfl, same⟩ := append_inj' split rfl
          cases same
          exact lastPasses
        · rw [concat_eq_append, ← cons_append, ← append_assoc] at split
          obtain ⟨rfl, -⟩ := append_inj' split rfl
          exact passes before record front rfl
    · rintro ⟨passes, rfl⟩
      have first := (ih (ofRecords records)).mpr ⟨fun before record after split =>
        passes before record (after ++ [last]) (by rw [split]; simp), rfl⟩
      have step := (validateRecord_eq_ok records last _).mpr
        ⟨passes records last [] rfl, rfl⟩
      rw [first, ofRecords_snoc]
      change (validateRecord isDeepEqual entriesById (ofRecords records) last >>= pure) = _
      rw [step]
      rfl

end LogScan

/-- A slice is accepted when at most one operation is open, every deferred answer has a handle
and every record passes the checks after the records before it. -/
theorem validateRecordLog_eq_ok (isDeepEqual : ProvisionedEntry → ProvisionedEntry → Bool)
    (input : RecordLogSlice) : validateRecordLog isDeepEqual input = .ok () ↔
      input.openOperations.length ≤ 1 ∧
      (input.entriesById.entries.map Prod.snd).forM validateDeferredHandle = .ok () ∧
      ∀ before record after, input.ordered = before ++ record :: after →
        LogScan.Passes isDeepEqual input.entriesById before record := by
  unfold validateRecordLog
  by_cases many : input.openOperations.length > 1
  · rw [if_pos many]
    refine iff_of_false nofun fun accepted => ?_
    omega
  rw [if_neg many]
  cases handles : (input.entriesById.entries.map Prod.snd).forM validateDeferredHandle with
  | error error => simp [bind, Except.bind]
  | ok _ =>
    simp only [Nat.not_lt.mp many, true_and]
    cases read : input.ordered.foldlM
        (LogScan.validateRecord isDeepEqual input.entriesById) .start with
    | error error =>
      refine iff_of_false nofun fun passes => ?_
      rw [(LogScan.foldlM_validateRecord _ _).mpr ⟨passes, rfl⟩] at read
      cases read
    | ok scan => exact iff_of_true rfl ((LogScan.foldlM_validateRecord _ _).mp read).1

end Recovery
end Recode.SessionV4

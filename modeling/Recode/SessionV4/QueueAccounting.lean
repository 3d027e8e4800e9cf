import Recode.SessionV4.Reducer

/-! # The queues of a lane

Items wait in a queue until they become entries, are cancelled or are taken over by a run. The
check of the log keeps the last queuing of every item, and the reduction leaves out every item
that is cancelled anywhere. Both agree with a queue that is read record by record wherever the
last queuing decides and no item is queued again after its cancellation. -/

namespace Recode.SessionV4
namespace Recovery

open List InsertionMap

def readQueue (waiting : List QueueEnqueuedRecord) : LaneRecord → List QueueEnqueuedRecord
  | .queueEnqueued record => waiting ++ [record]
  | .queueCancelled record => waiting.filter fun item =>
    !(item.target.id = record.entryId && item.place.runId = record.runId)
  | _ => waiting

/-- The items that wait after some records, in the order of their queuing. -/
def waitingAfter (records : List LaneRecord) : List QueueEnqueuedRecord :=
  records.foldl readQueue []

/-- An item that has become an entry, or that the open run took over from the items of the next
run, waits no more. -/
def consumed (entriesById : EntryIndex) (captured : List String) (item : QueueEnqueuedRecord) :
    Bool :=
  entriesById.contains item.target.id || (item.place = .nextRun && item.target.id ∈ captured)

def pendingAfter (entriesById : EntryIndex) (captured : List String) (records : List LaneRecord) :
    List QueueEnqueuedRecord :=
  (waitingAfter records).filter fun item => !consumed entriesById captured item

def RunOpen (before : List LaneRecord) (runId : Option String) : Prop :=
  ∀ id, runId = some id → (∃ record, .operationStarted record ∈ before ∧ record.id = id) ∧
    ∀ record, .operationFinished record ∈ before → record.runId ≠ id

/-- The last queuing of an item, which is the one that the check of the log remembers. -/
def lastQueued (records : List LaneRecord) (id : String) : Option QueueEnqueuedRecord :=
  (records.filterMap LaneRecord.enqueued?).reverse.find? fun item => item.target.id = id

/-- The last queuing of the item speaks for all of them: if it is for the run of the cancellation,
it still waits and no run has taken it over, and otherwise nothing waits for that run. -/
structure LastDecides (captured : List String) (before : List LaneRecord)
    (cancel : QueueCancelledRecord) (last : QueueEnqueuedRecord) : Prop where
  waits : last.place.runId = cancel.runId → last ∈ waitingAfter before
  uncaptured : last.place.runId = cancel.runId → last.place = .nextRun → cancel.entryId ∉ captured
  alone : last.place.runId ≠ cancel.runId → ∀ item ∈ waitingAfter before,
    item.target.id = cancel.entryId → item.place.runId ≠ cancel.runId

namespace LogScan

/-- A record passes the check of its run when the run is open. The records before it have smaller
numbers. -/
theorem validateRun_iff {before : List LaneRecord} {record : LaneRecord}
    (earlier : ∀ other ∈ before, other.seq < record.seq) :
    (ofRecords before).validateRun record = .ok () ↔ RunOpen before record.runId := by
  unfold validateRun RunOpen
  cases record.runId with
  | none =>
    refine iff_of_true rfl fun id named => ?_
    cases named
  | some runId =>
    have started : (ofRecords before).starts.contains runId = true ↔
        ∃ start, .operationStarted start ∈ before ∧ start.id = runId := by
      rw [starts_ofRecords, InsertionMap.contains, isSome_get?_indexBy, mem_map]
      simp
    have finished : ((ofRecords before).finishedAt.get? runId).any (record.seq > ·) = true ↔
        ∃ finish, .operationFinished finish ∈ before ∧ finish.runId = runId := by
      rw [finishedAt_ofRecords]
      constructor
      · intro later
        obtain ⟨seq, found, -⟩ := (Option.any_eq_true _ _).mp later
        obtain ⟨finish, found, -⟩ := Option.map_eq_some_iff.mp found
        obtain ⟨named, member⟩ := key_of_get?_indexBy _ _ found
        exact ⟨finish, by simpa using member, named⟩
      · intro present
        obtain ⟨finish, member, named⟩ := present
        have known : runId ∈ (before.filterMap LaneRecord.finished?).map fun finish =>
            finish.runId := by
          rw [mem_map]
          exact ⟨finish, by simpa using member, named⟩
        rw [← isSome_get?_indexBy, Option.isSome_iff_exists] at known
        obtain ⟨last, found⟩ := known
        have inside := (key_of_get?_indexBy _ _ found).2
        have before : last.seq < record.seq :=
          earlier (.operationFinished last) (by simpa using inside)
        rw [found]
        simpa using before
    simp only []
    by_cases known : (ofRecords before).starts.contains runId = true
    · by_cases ended : ((ofRecords before).finishedAt.get? runId).any (record.seq > ·) = true
      · rw [if_neg (not_not_intro known), if_pos ended]
        refine iff_of_false (fun passed => ?_) fun isOpen => ?_
        · cases passed
        · obtain ⟨finish, member, named⟩ := finished.mp ended
          exact (isOpen runId rfl).2 finish member named
      · rw [if_neg (not_not_intro known), if_neg ended]
        refine iff_of_true rfl fun id named => ?_
        cases named
        exact ⟨started.mp known, fun finish member named =>
          ended (finished.mpr ⟨finish, member, named⟩)⟩
    · rw [if_pos known]
      refine iff_of_false (fun passed => ?_) fun isOpen => ?_
      · cases passed
      · exact known (started.mpr (isOpen runId rfl).1)

theorem validateCancellation_iff {before : List LaneRecord} {cancel : QueueCancelledRecord}
    (entriesById : EntryIndex) (earlier : ∀ other ∈ before, other.seq < cancel.seq) :
    (ofRecords before).validateCancellation entriesById cancel = .ok () ↔
      ∃ last, lastQueued before cancel.entryId = some last ∧ last.place.runId = cancel.runId ∧
        entriesById.contains cancel.entryId = false := by
  have look : (ofRecords before).queueEnqueues.get? cancel.entryId =
      lastQueued before cancel.entryId := by
    rw [queueEnqueues_ofRecords, get?_indexBy, lastQueued]
  rw [validateCancellation, look]
  cases found : lastQueued before cancel.entryId with
  | none => simp [corrupt]
  | some last =>
    have inside : .queueEnqueued last ∈ before := by
      simpa using mem_reverse.mp (mem_of_find?_eq_some found)
    have before : ¬ last.seq ≥ cancel.seq := Nat.not_le.mpr (earlier _ inside)
    by_cases refused : last.seq ≥ cancel.seq ∨ last.place.runId ≠ cancel.runId ∨
        entriesById.contains cancel.entryId = true
    · simp only [if_pos refused]
      refine iff_of_false nofun fun passes => ?_
      obtain ⟨other, same, sameRun, absent⟩ := passes
      cases same
      simp [before, sameRun, absent] at refused
    · simp only [if_neg refused]
      rw [not_or, not_or, not_not, Bool.not_eq_true] at refused
      exact iff_of_true trivial ⟨last, rfl, refused.2⟩

end LogScan

variable {records : List LaneRecord}

theorem waitingAfter_append_singleton (record : LaneRecord) :
    waitingAfter (records ++ [record]) = readQueue (waitingAfter records) record :=
  foldl_concat ..

/-- What waits has been queued. -/
theorem queued_of_mem_waitingAfter {item : QueueEnqueuedRecord}
    (waits : item ∈ waitingAfter records) : .queueEnqueued item ∈ records := by
  induction records using reverseRecOn with
  | nil => cases waits
  | append_singleton records record ih =>
    rw [waitingAfter_append_singleton] at waits
    rw [mem_append, mem_singleton]
    cases record with
    | queueEnqueued other =>
      rw [readQueue, mem_append, mem_singleton] at waits
      exact waits.imp ih (congrArg _)
    | queueCancelled cancel => exact .inl (ih (mem_filter.mp waits).1)
    | _ => exact .inl (ih waits)

def cancelledIds (records : List LaneRecord) : List String :=
  records.filterMap fun record => record.cancelled?.map QueueCancelledRecord.entryId

theorem cancelledIds_append (records more : List LaneRecord) :
    cancelledIds (records ++ more) = cancelledIds records ++ cancelledIds more :=
  filterMap_append

/-- Among items that are not cancelled anywhere, everything queued waits. -/
theorem filter_waitingAfter {kept : QueueEnqueuedRecord → Bool}
    (uncancelled : ∀ item, kept item = true → item.target.id ∉ cancelledIds records) :
    (waitingAfter records).filter kept =
      (records.filterMap LaneRecord.enqueued?).filter kept := by
  induction records using reverseRecOn with
  | nil => rfl
  | append_singleton records record ih =>
    rw [cancelledIds_append] at uncancelled
    have before := ih fun item isKept cancelled =>
      uncancelled item isKept (mem_append_left _ cancelled)
    rw [waitingAfter_append_singleton, filterMap_append, filter_append, ← before]
    cases record with
    | queueEnqueued item => exact filter_append ..
    | queueCancelled cancel =>
      rw [show filterMap LaneRecord.enqueued? [_] = [] from rfl, filter_nil, append_nil,
        readQueue, filter_filter]
      apply filter_congr
      intro item _
      by_cases isKept : kept item = true
      · have different : item.target.id ≠ cancel.entryId := fun same =>
          uncancelled item isKept (mem_append_right _ (same ▸ mem_singleton_self _))
        simp [different]
      · simp [isKept]
    | _ =>
      rw [show filterMap LaneRecord.enqueued? [_] = [] from rfl, filter_nil, append_nil]
      rfl

def targetsAt (place : QueuePlace) (items : List QueueEnqueuedRecord) : List ProvisionedEntry :=
  (items.filter fun item => item.place = place).map fun item => item.target

def AbortRequested (records : List LaneRecord) (runId : String) : Prop :=
  ∃ abort, .abortRequested abort ∈ records ∧ abort.runId = runId

namespace LaneReductionInput

variable (input : LaneReductionInput)

theorem aborting_iff (operationId : String) :
    input.aborting operationId = true ↔ AbortRequested input.records operationId := by
  unfold aborting operationRecords AbortRequested
  have listed (record : LaneRecord) : record ∈ input.ordered ↔ record ∈ input.records :=
    (bySequence_perm LaneRecord.seq input.records).mem_iff
  rw [any_eq_true]
  constructor
  · intro found
    obtain ⟨record, member, isAbort⟩ := found
    rw [mem_filter, listed] at member
    cases record with
    | abortRequested abort =>
      exact ⟨abort, member.1, by simpa [LaneRecord.runId] using member.2⟩
    | _ => cases isAbort
  · intro found
    obtain ⟨abort, member, named⟩ := found
    refine ⟨.abortRequested abort, ?_, rfl⟩
    rw [mem_filter, listed]
    exact ⟨member, by simpa [LaneRecord.runId] using named⟩

/-- The abstract queue of a place at the end of the log. -/
def pendingAt (place : QueuePlace) : List ProvisionedEntry :=
  targetsAt place
    (pendingAfter input.allById input.capturedInitialMessageIds input.ordered)

/-- A list has the pending items of a place, in the order of their queuing. Only items that were
cancelled somewhere may be missing, and an item is there twice only if it was queued twice. -/
structure Accounts (place : QueuePlace) (listed : List ProvisionedEntry) : Prop where
  pending : listed.Sublist (input.pendingAt place)
  complete : ((input.pendingAt place).filter fun target =>
    target.id ∉ cancelledIds input.ordered).Sublist listed
  once : ((targetsAt place (input.ordered.filterMap LaneRecord.enqueued?)).map (·.id)).Nodup →
    (listed.map (·.id)).Nodup

theorem targetsAt_pendingQueueRecords (place : QueuePlace) :
    targetsAt place (input.pendingQueueRecords.filter fun item =>
        !consumed input.allById input.capturedInitialMessageIds item) =
      (input.pendingAt place).filter fun target => target.id ∉ cancelledIds input.ordered := by
  have waiting : input.pendingQueueRecords.filter (fun item =>
        !consumed input.allById input.capturedInitialMessageIds item) =
      (pendingAfter input.allById input.capturedInitialMessageIds input.ordered).filter
        fun item => item.target.id ∉ cancelledIds input.ordered := by
    rw [pendingAfter, filter_comm, filter_waitingAfter fun item isKept => of_decide_eq_true isKept,
      pendingQueueRecords, filter_filter, filter_filter]
    apply filter_congr
    intro item _
    change _ = (_ && decide (item.target.id ∉ input.cancelledQueueIds))
    cases stored : input.allById.contains item.target.id <;> simp [consumed, stored]
  rw [waiting, pendingAt, targetsAt, targetsAt, filter_map, filter_comm]
  rfl

theorem accounts_targetsAt (place : QueuePlace) :
    input.Accounts place (targetsAt place (input.pendingQueueRecords.filter fun item =>
      !consumed input.allById input.capturedInitialMessageIds item)) where
  pending := input.targetsAt_pendingQueueRecords place ▸ filter_sublist
  complete := (input.targetsAt_pendingQueueRecords place).symm ▸ Sublist.refl _
  once := fun once => once.sublist
    ((((filter_sublist.trans filter_sublist).filter _).map _).map _)

theorem accounts_pendingNextRun : input.Accounts .nextRun input.pendingNextRun := by
  have listed : input.pendingNextRun = targetsAt .nextRun
      (input.pendingQueueRecords.filter fun item =>
        !consumed input.allById input.capturedInitialMessageIds item) := by
    rw [pendingNextRun, targetsAt, pendingQueueRecords, filter_filter, filter_filter,
      filter_filter]
    congr 1
    apply filter_congr
    intro item _
    by_cases same : item.place = .nextRun
    · cases stored : input.allById.contains item.target.id <;> simp [same, consumed, stored]
    · simp [same]
  exact listed ▸ input.accounts_targetsAt .nextRun

theorem accounts_pendingOf {operationId : String} {place : QueuePlace} (inRun : place ≠ .nextRun)
    (unaborted : ¬ AbortRequested input.records operationId) :
    input.Accounts place (input.pendingOf operationId place) := by
  have listed : input.pendingOf operationId place = targetsAt place
      (input.pendingQueueRecords.filter fun item =>
        !consumed input.allById input.capturedInitialMessageIds item) := by
    rw [pendingOf, if_neg fun aborting => unaborted ((input.aborting_iff _).mp aborting),
      targetsAt, pendingQueueRecords, filter_filter, filter_filter, filter_filter]
    congr 1
    apply filter_congr
    intro item _
    by_cases same : item.place = place
    · cases stored : input.allById.contains item.target.id <;> simp [same, consumed, stored, inRun]
    · simp [same]
  exact listed ▸ input.accounts_targetsAt place

end LaneReductionInput

variable {input : RecordLogSlice}

theorem earlier_of_ordered
    (distinct : (input.records.map LaneRecord.seq).Nodup) {before after : List LaneRecord}
    {record : LaneRecord} (split : input.ordered = before ++ record :: after) :
    ∀ other ∈ before, other.seq < record.seq := by
  have strict := bySequence_strict distinct
  rw [← RecordLogSlice.ordered, split, pairwise_append] at strict
  exact fun other member => strict.2.2 other member record mem_cons_self

/-- Where the last queuing decides, it is for the run of the cancellation exactly if the item
is pending for it. -/
theorem LastDecides.pending_iff {captured : List String} {before : List LaneRecord}
    {cancel : QueueCancelledRecord} {last : QueueEnqueuedRecord} {entriesById : EntryIndex}
    (found : lastQueued before cancel.entryId = some last)
    (decides : LastDecides captured before cancel last)
    (absent : entriesById.contains cancel.entryId = false) :
    last.place.runId = cancel.runId ↔ ∃ item ∈ pendingAfter entriesById captured before,
      item.target.id = cancel.entryId ∧ item.place.runId = cancel.runId := by
  have named : last.target.id = cancel.entryId := of_decide_eq_true (find?_some
    (p := fun item : QueueEnqueuedRecord => decide (item.target.id = cancel.entryId)) found)
  constructor
  · intro sameRun
    refine ⟨last, mem_filter.mpr ⟨decides.waits sameRun, ?_⟩, named, sameRun⟩
    rw [consumed, named, absent]
    by_cases nextRun : last.place = .nextRun
    · simp [decides.uncaptured sameRun nextRun]
    · simp [nextRun]
  · intro pending
    obtain ⟨item, pending, same, sameRun⟩ := pending
    by_contra otherRun
    exact decides.alone otherRun item (mem_filter.mp pending).1 same sameRun

section Example

def laneOf (openOperations : List OperationStartedRecord) (records : List LaneRecord)
    (ownEntries : List Entry) : LaneReductionInput where
  lane := "main"
  openOperations := openOperations
  records := records
  entries := ownEntries
  leafId := none
  ownEntries := ownEntries
  configurationEntries := []
  defaults := ⟨⟨"provider", "model"⟩, "off", []⟩

def queuedItem (seq : Nat) (id : String) (place : QueuePlace) : LaneRecord :=
  .queueEnqueued ⟨⟨s!"record {seq}", seq, "main", 0⟩, place, ⟨id, .custom "note" none⟩⟩

def cancelledItem (seq : Nat) (id : String) (runId : Option String) : LaneRecord :=
  .queueCancelled ⟨⟨s!"record {seq}", seq, "main", 0⟩, runId, id⟩

def startedRun (seq : Nat) : OperationStartedRecord :=
  ⟨⟨"run", seq, "main", 0⟩, none, .run [] [] none none⟩

/-- A run that takes over the item. -/
def capturingRun (seq : Nat) : OperationStartedRecord :=
  ⟨⟨"run", seq, "main", 0⟩, none, .run [] [⟨"item", .custom "note" none⟩] none none⟩

def finishedRun (seq : Nat) : LaneRecord :=
  .operationFinished ⟨⟨s!"record {seq}", seq, "main", 0⟩, "run", .completed, none⟩

def checkedLane (lane : LaneReductionInput) : Except RecordLogCorruption Unit :=
  validateRecordLog (fun _ _ => true) lane.toRecordLogSlice

def nextRunIds (records : List LaneRecord) : Except RecordLogCorruption (List String) :=
  (reduceLaneState (fun _ _ => true) (laneOf [] records [])).map fun result =>
    result.laneState.pendingNextRun.map (·.id)

/-- The records of a lane before one of its items is cancelled. -/
def beforeCancellation : List LaneRecord :=
  [queuedItem 1 "later" .nextRun, .operationStarted (startedRun 2),
    queuedItem 3 "steer" (.steer "run"), queuedItem 4 "next" (.followUp "run"),
    queuedItem 5 "last" .nextRun]

/-- A cancellation of one of four waiting items passes, and the three others stay. -/
def cancelledLane : LaneReductionInput :=
  laneOf [startedRun 2] (beforeCancellation ++ [cancelledItem 6 "steer" (some "run")]) []

end Example

end Recovery
end Recode.SessionV4

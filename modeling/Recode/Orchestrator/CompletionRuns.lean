import Recode.Orchestrator.CompletionQueue
import Mathlib.Data.List.Nodup

/-! # Runs of the completion queue

What each call does to the stored array: it drops acknowledged records, changes
records one by one, and may append a new one. -/

namespace Recode.Orchestrator

open Procedure List Option

/-- A call of the queue, with the readings of the clock and the random identifier it uses. -/
inductive QueueCall where
  | enqueue (input : EnqueueCompletionInput) (id : String) (cleanedAt createdAt : Int)
  | claim (parent : CompletionParentIdentity) (owner : String) (limit : Int) (now : Int)
  | acknowledge (claim : CompletionClaim) (now : Int)
  | release (claim : CompletionClaim)
  | list (parent : Option CompletionParentIdentity) (now : Int)

/-- A run: the storage, the claims handed out, the records returned by `enqueue`, and the
identifiers of acknowledged completions. -/
structure QueueRun where
  storage : CompletionQueueStorage
  issued : List CompletionClaim
  enqueued : List CompletionRecord
  acknowledged : List String

namespace MaestroCompletionQueue

variable (queue : MaestroCompletionQueue) (parseDate : String → Option Int)

/-- The run after a call. -/
def runCall (run : QueueRun) : QueueCall → QueueRun
  | .enqueue input id cleanedAt createdAt =>
    let outcome := (queue.enqueue parseDate input id cleanedAt createdAt).perform run.storage
    { run with
      storage := outcome.2
      enqueued := run.enqueued ++ outcome.1.toOption.toList }
  | .claim parent owner limit now =>
    let outcome := (queue.claim parent owner limit now).perform run.storage
    { run with storage := outcome.2, issued := run.issued ++ outcome.1.toOption.getD [] }
  | .acknowledge claim now =>
    let outcome := (acknowledge claim now).perform run.storage
    { run with
      storage := outcome.2
      acknowledged := run.acknowledged ++
        if outcome.1.toOption = some true then [claim.record.id] else [] }
  | .release claim => { run with storage := ((release claim).perform run.storage).2 }
  | .list parent now => { run with storage := ((queue.list parent now).perform run.storage).2 }

def runCalls (run : QueueRun) (calls : List QueueCall) : QueueRun :=
  calls.foldl (queue.runCall parseDate) run

/-- A run over a storage that holds an array. Its records were enqueued earlier. -/
def startRun (stored : List CompletionRecord) : QueueRun where
  storage := ⟨stored, []⟩
  issued := []
  enqueued := stored
  acknowledged := (stored.filter fun record => record.deliveryState = .acknowledged).map (·.id)

/-- What a call does to one record, and the claim it hands out for it. -/
inductive RecordStep : QueueCall → CompletionRecord → CompletionRecord →
    Option CompletionClaim → Prop
  | same (call : QueueCall) (record : CompletionRecord) : RecordStep call record record none
  | take {parent : CompletionParentIdentity} {owner : String} {limit now : Int}
      {record : CompletionRecord} (valid : isBoundedString owner 512 = true)
      (open_ : record.deliveryState ≠ .acknowledged)
      (free : queue.heldByOther owner now record = false) :
      RecordStep (.claim parent owner limit now) record (taken owner now record)
        (some ⟨taken owner now record, owner, (taken owner now record).claimGeneration⟩)
  | acknowledge {claim : CompletionClaim} {now : Int} {record : CompletionRecord}
      (named : record.id = claim.record.id) (claimed : record.deliveryState = .claimed)
      (owned : record.claimOwner = some claim.owner)
      (current : record.claimGeneration = claim.generation) :
      RecordStep (.acknowledge claim now) record
        { record with deliveryState := .acknowledged, acknowledgedAt := some now } none
  | release {claim : CompletionClaim} {record : CompletionRecord}
      (named : record.id = claim.record.id) (claimed : record.deliveryState = .claimed)
      (owned : record.claimOwner = some claim.owner)
      (current : record.claimGeneration = claim.generation) :
      RecordStep (.release claim) record
        { record with deliveryState := .pending, claimOwner := none, claimedAt := none } none

/-- Records changed one by one, with the claims handed out for them. -/
inductive RecordSteps (call : QueueCall) : List CompletionRecord → List CompletionRecord →
    List CompletionClaim → Prop
  | nil : RecordSteps call [] [] []
  | cons {record changed : CompletionRecord} {claim : Option CompletionClaim}
      {records others : List CompletionRecord} {claims : List CompletionClaim}
      (step : queue.RecordStep call record changed claim)
      (steps : RecordSteps call records others claims) :
      RecordSteps call (record :: records) (changed :: others) (claim.toList ++ claims)

/-- Some acknowledged records were dropped. -/
structure Retains (records kept : List CompletionRecord) : Prop where
  sublist : kept.Sublist records
  retained : ∀ record ∈ records, record.deliveryState ≠ .acknowledged → record ∈ kept

theorem Retains.refl (records : List CompletionRecord) : Retains records records :=
  ⟨.refl _, fun _ member _ => member⟩

theorem Retains.trans {records kept fewer : List CompletionRecord} (first : Retains records kept)
    (second : Retains kept fewer) : Retains records fewer :=
  ⟨second.sublist.trans first.sublist, fun record member unacknowledged =>
    second.retained record (first.retained record member unacknowledged) unacknowledged⟩

variable (storage : CompletionQueueStorage) {call : QueueCall} {records : List CompletionRecord}

theorem retains_filter {keep : CompletionRecord → Bool}
    (keeps : ∀ record, record.deliveryState ≠ .acknowledged → keep record = true) :
    Retains records (records.filter keep) :=
  ⟨filter_sublist, fun record member unacknowledged =>
    mem_filter.mpr ⟨member, keeps record unacknowledged⟩⟩

theorem RecordSteps.refl (call : QueueCall) (records : List CompletionRecord) :
    queue.RecordSteps call records records [] := by
  induction records with
  | nil => exact .nil
  | cons record records ih => exact .cons (.same call record) ih

/-- A storage after acknowledged records were dropped. -/
structure Cleared (before after : CompletionQueueStorage) : Prop where
  retains : Retains before.stored after.stored
  saves : ∀ save ∈ after.saves, save ∈ before.saves ∨ Retains before.stored save

/-- A storage after a call: what was kept, how it was changed, what was added. -/
structure Evolution (call : QueueCall) (before after : CompletionQueueStorage)
    (kept changed : List CompletionRecord) (claims : List CompletionClaim)
    (added : Option CompletionRecord) : Prop where
  retains : Retains before.stored kept
  steps : queue.RecordSteps call kept changed claims
  stored : after.stored = changed ++ added.toList
  saves : ∀ save ∈ after.saves,
    save ∈ before.saves ∨ Retains before.stored save ∨ save = after.stored

theorem Cleared.refl : Cleared storage storage :=
  ⟨.refl _, fun _ member => .inl member⟩

theorem Cleared.trans {before middle after : CompletionQueueStorage} (first : Cleared before middle)
    (second : Cleared middle after) : Cleared before after := by
  refine ⟨first.retains.trans second.retains, fun save member => ?_⟩
  rcases second.saves save member with earlier | fewer
  · exact first.saves save earlier
  · exact .inr (first.retains.trans fewer)

theorem Cleared.evolution {before after : CompletionQueueStorage} (cleared : Cleared before after)
    (call : QueueCall) :
    queue.Evolution call before after after.stored after.stored [] none where
  retains := cleared.retains
  steps := .refl queue call after.stored
  stored := (append_nil _).symm
  saves save member := by
    rcases cleared.saves save member with earlier | fewer
    · exact .inl earlier
    · exact .inr (.inl fewer)

theorem Cleared.save {before after : CompletionQueueStorage} (cleared : Cleared before after)
    {kept : List CompletionRecord} (retains : Retains after.stored kept) :
    Cleared before ⟨kept, after.saves ++ [kept]⟩ := by
  refine ⟨cleared.retains.trans retains, fun save member => ?_⟩
  rcases mem_append.mp member with earlier | last
  · exact cleared.saves save earlier
  · rw [mem_singleton.mp last]
    exact .inr (cleared.retains.trans retains)

theorem Evolution.of_save {before middle : CompletionQueueStorage}
    (cleared : Cleared before middle) {changed : List CompletionRecord}
    {claims : List CompletionClaim} (steps : queue.RecordSteps call middle.stored changed claims)
    (added : Option CompletionRecord) :
    queue.Evolution call before
      ⟨changed ++ added.toList, middle.saves ++ [changed ++ added.toList]⟩
      middle.stored changed claims added where
  retains := cleared.retains
  steps := steps
  stored := rfl
  saves save member := by
    rcases mem_append.mp member with earlier | last
    · rcases cleared.saves save earlier with older | fewer
      · exact .inl older
      · exact .inr (.inl fewer)
    · exact .inr (.inr (mem_singleton.mp last))

/-- Cleaning up drops acknowledged records. -/
theorem cleanupAcknowledged_perform (now : Int) :
    ∃ after, (queue.cleanupAcknowledged storage.stored now).perform storage =
      (.ok after.stored, after) ∧ Cleared storage after := by
  have retains : Retains storage.stored
      (storage.stored.filter fun record => !queue.outlived now record) := by
    apply retains_filter
    intro record unacknowledged
    simp [outlived, unacknowledged]
  by_cases same : (storage.stored.filter fun record => !queue.outlived now record).length =
      storage.stored.length
  · have all := retains.sublist.eq_of_length same
    refine ⟨storage, ?_, .refl storage⟩
    simp only [cleanupAcknowledged, all, ne_eq, not_true_eq_false, ↓reduceIte]
    rfl
  · refine ⟨_, ?_, (Cleared.refl storage).save retains⟩
    simp only [cleanupAcknowledged, ne_eq, same, not_false_eq_true, ↓reduceIte]
    rfl

theorem makeRoom_perform :
    ∃ after, (queue.makeRoom storage.stored).perform storage = (.ok after.stored, after) ∧
      Cleared storage after := by
  have retains : Retains storage.stored
      (storage.stored.filter fun record => decide (record.deliveryState ≠ .acknowledged)) := by
    apply retains_filter
    intro record unacknowledged
    simp [unacknowledged]
  by_cases full : queue.maxEntries ≤ storage.stored.length
  swap
  · exact ⟨storage, by simp [makeRoom, full], .refl storage⟩
  by_cases same : (storage.stored.filter fun record =>
      decide (record.deliveryState ≠ .acknowledged)).length = storage.stored.length
  · refine ⟨storage, ?_, .refl storage⟩
    simp only [makeRoom, full, same, ne_eq, not_true_eq_false, ↓reduceIte]
    rfl
  · refine ⟨_, ?_, (Cleared.refl storage).save retains⟩
    simp only [makeRoom, full, same, ne_eq, not_false_eq_true, ↓reduceIte]
    rfl

theorem load_perform :
    CompletionQueueStorage.load.perform storage = (.ok storage.stored, storage) := rfl

/-- How an enqueue ends: refused, with the stored record of the child, or with a new one. -/
inductive EnqueueOutcome (input : EnqueueCompletionInput) (id : String) (createdAt : Int)
    (kept : List CompletionRecord) :
    Except String CompletionRecord → Option CompletionRecord → Prop
  | refused (message : String) : EnqueueOutcome input id createdAt kept (.error message) none
  | existing {record : CompletionRecord} (stored : record ∈ kept) :
      EnqueueOutcome input id createdAt kept (.ok record) none
  | added (valid : validateInput parseDate input = .ok ())
      (new : ∀ record ∈ kept, record.childInstanceId ≠ input.childInstanceId)
      (room : kept.length < queue.maxEntries) :
      EnqueueOutcome input id createdAt kept (.ok (newRecord input id createdAt))
        (some (newRecord input id createdAt))

theorem enqueue_perform (input : EnqueueCompletionInput) (id : String) (cleanedAt createdAt : Int) :
    ∃ after result kept added,
      (queue.enqueue parseDate input id cleanedAt createdAt).perform storage = (result, after) ∧
      queue.Evolution (.enqueue input id cleanedAt createdAt) storage after kept kept [] added ∧
      queue.EnqueueOutcome parseDate input id createdAt kept result added := by
  cases valid : validateInput parseDate input with
  | error message =>
    refine ⟨storage, _, storage.stored, none, ?_, (Cleared.refl storage).evolution queue _,
      .refused message⟩
    rw [enqueue, valid]
    exact perform_bind_error (perform_check _ _) _
  | ok checked =>
    obtain ⟨cleaned, performs, cleared⟩ := queue.cleanupAcknowledged_perform storage cleanedAt
    rw [enqueue, valid, perform_bind_ok (perform_check _ _),
      perform_bind_ok (load_perform storage), perform_bind_ok performs]
    cases found : cleaned.stored.find? fun record =>
        record.childInstanceId = input.childInstanceId with
    | some existing =>
      have stored := mem_of_find?_eq_some found
      by_cases conflict : existing.resultHash ≠ input.resultHash ∨
          existing.parentInstanceId ≠ input.parentInstanceId ∨
          existing.parentSessionId ≠ input.parentSessionId
      · refine ⟨cleaned, _, cleaned.stored, none, ?_, cleared.evolution queue _, .refused
          s!"Conflicting completion already exists for child {input.childInstanceId}"⟩
        simp only [if_pos conflict]
        rfl
      · refine ⟨cleaned, _, cleaned.stored, none, ?_, cleared.evolution queue _, .existing stored⟩
        simp only [if_neg conflict]
        rfl
    | none =>
      obtain ⟨roomy, makes, dropped⟩ := queue.makeRoom_perform cleaned
      have cleared := cleared.trans dropped
      simp only
      rw [perform_bind_ok makes]
      by_cases full : queue.maxEntries ≤ roomy.stored.length
      · refine ⟨roomy, _, roomy.stored, none, ?_, cleared.evolution queue _, .refused
          ("Maestro completion queue capacity reached; " ++
            "refusing to drop an unacknowledged completion")⟩
        simp only [if_pos full]
        rfl
      · refine ⟨_, _, roomy.stored, some (newRecord input id createdAt), ?_,
          Evolution.of_save queue cleared (.refl queue _ _) _,
          .added valid ?_ (Nat.lt_of_not_le full)⟩
        · simp only [if_neg full]
          rfl
        · intro record member
          have absent := List.find?_eq_none.mp found record (dropped.retains.sublist.subset member)
          simpa using absent

/-- The loop of `claim` takes records one by one. -/
theorem claimLoop_steps (parent : CompletionParentIdentity) {owner : String} (limit now : Int)
    (valid : isBoundedString owner 512 = true) (claims : List CompletionClaim)
    (records : List CompletionRecord) :
    ∃ taken, (queue.claimLoop parent owner limit.toNat now claims records).2 = claims ++ taken ∧
      queue.RecordSteps (.claim parent owner limit now) records
        (queue.claimLoop parent owner limit.toNat now claims records).1 taken := by
  induction records generalizing claims with
  | nil => exact ⟨[], (append_nil _).symm, .nil⟩
  | cons record records ih =>
    rw [claimLoop]
    split
    · obtain ⟨taken, appended, steps⟩ := ih claims
      exact ⟨taken, appended, .cons (.same _ _) steps⟩
    rename_i skips
    simp only [Bool.or_eq_true, decide_eq_true_eq, not_or, Bool.not_eq_true] at skips
    obtain ⟨rest, appended, steps⟩ := ih (claims ++
      [⟨taken owner now record, owner, (taken owner now record).claimGeneration⟩])
    refine ⟨_ :: rest, ?_, .cons (.take valid skips.1.2 skips.2) steps⟩
    exact appended.trans (append_assoc _ _ _)

theorem requireBoundedIdentity_ok {name : String} {value : Option String} {required : Bool}
    (passes : requireBoundedIdentity name value required = .ok ()) :
    value.all (isBoundedString · 512) = true := by
  rw [requireBoundedIdentity] at passes
  split at passes
  · cases passes
  rename_i bounded
  simp only [Bool.or_eq_true, Bool.and_eq_true, not_or] at bounded
  cases value with
  | none => rfl
  | some value =>
    have inside := bounded.2
    simp only [any_some, Bool.or_eq_true, decide_eq_true_eq, not_or, not_lt] at inside
    simp [isBoundedString, inside]

theorem validateClaim_owner {parent : CompletionParentIdentity} {owner : String} {limit : Int}
    (passes : validateClaim parent owner limit = .ok ()) : isBoundedString owner 512 = true := by
  rw [validateClaim] at passes
  cases instance_ : requireBoundedIdentity "parent.instanceId" parent.instanceId false with
  | error message => rw [instance_] at passes; cases passes
  | ok checked =>
    cases session : requireBoundedIdentity "parent.sessionId" parent.sessionId false with
    | error message => rw [instance_, session] at passes; cases passes
    | ok checked =>
      cases owned : requireBoundedIdentity "owner" (some owner) true with
      | error message =>
        rw [instance_, session, owned] at passes
        simp only [bind, Except.bind] at passes
        split at passes <;> cases passes
      | ok checked => exact requireBoundedIdentity_ok owned

theorem claim_perform (parent : CompletionParentIdentity) (owner : String) (limit now : Int) :
    ∃ after result kept changed claims,
      (queue.claim parent owner limit now).perform storage = (result, after) ∧
      queue.Evolution (.claim parent owner limit now) storage after kept changed claims none ∧
      result.toOption.getD [] = claims := by
  cases valid : validateClaim parent owner limit with
  | error message =>
    refine ⟨storage, .error message, storage.stored, storage.stored, [], ?_,
      (Cleared.refl storage).evolution queue _, rfl⟩
    rw [claim, valid]
    exact perform_bind_error (perform_check _ _) _
  | ok checked =>
    obtain ⟨cleaned, performs, cleared⟩ := queue.cleanupAcknowledged_perform storage now
    obtain ⟨taken, appended, steps⟩ := queue.claimLoop_steps parent limit now
      (validateClaim_owner valid) [] cleaned.stored
    rw [nil_append] at appended
    rw [claim, valid, perform_bind_ok (perform_check _ _),
      perform_bind_ok (load_perform storage), perform_bind_ok performs]
    by_cases some_ : 0 < taken.length
    · have evolves := Evolution.of_save queue cleared steps none
      rw [toList_none, append_nil] at evolves
      refine ⟨_, .ok taken, _, _, taken, ?_, evolves, rfl⟩
      simp only [appended, some_, ↓reduceIte]
      rfl
    · obtain rfl : taken = [] := length_eq_zero_iff.mp (by omega)
      refine ⟨cleaned, .ok [], cleaned.stored, cleaned.stored, [], ?_,
        cleared.evolution queue _, rfl⟩
      simp only [appended, length_nil, Nat.lt_irrefl, ↓reduceIte]
      rfl

theorem recordSteps_map {change : CompletionRecord → CompletionRecord}
    {records : List CompletionRecord}
    (steps : ∀ record ∈ records, queue.RecordStep call record (change record) none) :
    queue.RecordSteps call records (records.map change) [] := by
  induction records with
  | nil => exact .nil
  | cons record records ih =>
    have rest := ih fun other member => steps other (mem_cons_of_mem _ member)
    exact .cons (steps record mem_cons_self) rest

theorem replaceRecord_steps (distinct : (records.map CompletionRecord.id).Nodup)
    {found changed : CompletionRecord} (stored : found ∈ records)
    (step : queue.RecordStep call found changed none) (sameId : changed.id = found.id) :
    queue.RecordSteps call records (replaceRecord records changed) [] := by
  apply recordSteps_map
  intro record member
  by_cases named : record.id = changed.id
  · obtain rfl := inj_on_of_nodup_map distinct member stored (named.trans sameId)
    rw [if_pos named]
    exact step
  · rw [if_neg named]
    exact .same call record

theorem mem_replaceRecord {found changed : CompletionRecord} (stored : found ∈ records)
    (sameId : changed.id = found.id) : changed ∈ replaceRecord records changed :=
  mem_map.mpr ⟨found, stored, if_pos sameId.symm⟩

/-- A claim names a stored record's current owner and generation. -/
def Names (claim : CompletionClaim) (record : CompletionRecord) : Prop :=
  record.id = claim.record.id ∧ record.claimOwner = some claim.owner ∧
    record.claimGeneration = claim.generation

theorem acknowledge_perform (distinct : (storage.stored.map CompletionRecord.id).Nodup)
    (claim : CompletionClaim) (now : Int) :
    ∃ after done changed, (acknowledge claim now).perform storage = (.ok done, after) ∧
      queue.Evolution (.acknowledge claim now) storage after storage.stored changed [] none ∧
      (done = true → ∃ record ∈ after.stored, record.id = claim.record.id ∧
        record.deliveryState = .acknowledged) ∧
      (done = false → after = storage) := by
  rw [acknowledge, perform_bind_ok (load_perform storage)]
  have unchanged := (Cleared.refl storage).evolution queue (.acknowledge claim now)
  cases found : storage.stored.find? fun record => record.id = claim.record.id with
  | none => exact ⟨storage, false, storage.stored, rfl, unchanged, by simp, fun _ => rfl⟩
  | some record =>
    have stored := mem_of_find?_eq_some found
    have named : record.id = claim.record.id := by simpa using List.find?_some found
    by_cases other : record.claimOwner ≠ some claim.owner ∨
        record.claimGeneration ≠ claim.generation
    · refine ⟨storage, false, storage.stored, ?_, unchanged, by simp, fun _ => rfl⟩
      simp only [if_pos other]
      rfl
    simp only [if_neg other]
    simp only [not_or, not_not] at other
    by_cases done : record.deliveryState = .acknowledged
    · refine ⟨storage, true, storage.stored, ?_, unchanged,
        fun _ => ⟨record, stored, named, done⟩, by simp⟩
      simp only [if_pos done]
      rfl
    by_cases claimed : record.deliveryState = .claimed
    · have step : queue.RecordStep (.acknowledge claim now) record
          { record with deliveryState := .acknowledged, acknowledgedAt := some now } none :=
        .acknowledge named claimed other.1 other.2
      have steps := queue.replaceRecord_steps distinct stored step rfl
      have evolves := Evolution.of_save queue (Cleared.refl storage) steps none
      rw [toList_none, append_nil] at evolves
      refine ⟨_, true, _, ?_, evolves, fun _ =>
        ⟨_, mem_replaceRecord stored rfl, named, rfl⟩, by simp⟩
      simp only [claimed, ne_eq, not_true_eq_false, ↓reduceIte]
      rfl
    · refine ⟨storage, false, storage.stored, ?_, unchanged, by simp, fun _ => rfl⟩
      simp only [if_neg done, if_pos claimed]
      rfl

theorem release_perform
    (distinct : (storage.stored.map CompletionRecord.id).Nodup) (claim : CompletionClaim) :
    ∃ after done changed, (release claim).perform storage = (.ok done, after) ∧
      queue.Evolution (.release claim) storage after storage.stored changed [] none := by
  rw [release, perform_bind_ok (load_perform storage)]
  have unchanged := (Cleared.refl storage).evolution queue (.release claim)
  cases found : storage.stored.find? fun record => record.id = claim.record.id with
  | none => exact ⟨storage, false, storage.stored, rfl, unchanged⟩
  | some record =>
    have stored := mem_of_find?_eq_some found
    have named : record.id = claim.record.id := by simpa using List.find?_some found
    by_cases refused : record.deliveryState ≠ .claimed ∨ record.claimOwner ≠ some claim.owner ∨
        record.claimGeneration ≠ claim.generation
    · refine ⟨storage, false, storage.stored, ?_, unchanged⟩
      simp only [if_pos refused]
      rfl
    · simp only [if_neg refused]
      simp only [not_or, not_not] at refused
      have step : queue.RecordStep (.release claim) record
          { record with deliveryState := .pending, claimOwner := none, claimedAt := none } none :=
        .release named refused.1 refused.2.1 refused.2.2
      have steps := queue.replaceRecord_steps distinct stored step rfl
      have evolves := Evolution.of_save queue (Cleared.refl storage) steps none
      rw [toList_none, append_nil] at evolves
      exact ⟨_, true, _, rfl, evolves⟩

/-- A claim that names no stored record's current owner and generation is refused. -/
theorem refused_of_unnamed {storage : CompletionQueueStorage} {claim : CompletionClaim}
    (unnamed : ∀ record ∈ storage.stored, ¬ Names claim record) (now : Int) :
    (acknowledge claim now).perform storage = (.ok false, storage) ∧
      (release claim).perform storage = (.ok false, storage) := by
  rw [acknowledge, release, perform_bind_ok (load_perform storage),
    perform_bind_ok (load_perform storage)]
  cases found : storage.stored.find? fun record => record.id = claim.record.id with
  | none => exact ⟨rfl, rfl⟩
  | some record =>
    have stored := mem_of_find?_eq_some found
    have named : record.id = claim.record.id := by simpa using List.find?_some found
    have other : record.claimOwner ≠ some claim.owner ∨
        record.claimGeneration ≠ claim.generation := by
      by_contra both
      simp only [not_or, not_not] at both
      exact unnamed record stored ⟨named, both⟩
    constructor
    · simp only [if_pos other]
      rfl
    · simp only [if_pos (Or.inr other)]
      rfl

theorem list_perform (parent : Option CompletionParentIdentity) (now : Int) :
    ∃ after result, (queue.list parent now).perform storage = (result, after) ∧
      queue.Evolution (.list parent now) storage after after.stored after.stored [] none := by
  obtain ⟨cleaned, performs, cleared⟩ := queue.cleanupAcknowledged_perform storage now
  refine ⟨cleaned, .ok (cleaned.stored.filter fun record => parent.all (matchesParent record)), ?_,
    cleared.evolution queue _⟩
  rw [list, perform_bind_ok (load_perform storage), perform_bind_ok performs]
  rfl

end MaestroCompletionQueue
end Recode.Orchestrator

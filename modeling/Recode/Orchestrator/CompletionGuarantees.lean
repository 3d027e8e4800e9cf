import Recode.Orchestrator.CompletionInvariant
import Mathlib.Data.List.Induction

/-! # What the completion queue guarantees over whole runs

No completion is lost before it is acknowledged, and none is stored twice. As long
as generations are counted exactly, at most one claim of a completion is effective,
and superseded claims are refused. The random identifiers are assumed to be new and
of bounded length. -/

namespace Recode.Orchestrator
namespace MaestroCompletionQueue

open List Procedure

variable {queue : MaestroCompletionQueue} {parseDate : String → Option Int}

def newId : QueueCall → Option String
  | .enqueue _ id _ _ => some id
  | _ => none

/-- The identifiers drawn in a run are new and of bounded length. -/
def FreshIds (stored : List CompletionRecord) (calls : List QueueCall) : Prop :=
  (stored.map CompletionRecord.id ++ calls.filterMap newId).Nodup ∧
    ∀ id ∈ calls.filterMap newId, isBoundedString id 512 = true

variable {stored : List CompletionRecord} {bound : Nat} {used : List String} {run : QueueRun}

theorem FreshIds.of_append {calls later : List QueueCall}
    (fresh : FreshIds stored (calls ++ later)) : FreshIds stored calls := by
  obtain ⟨distinct, bounded⟩ := fresh
  rw [filterMap_append] at distinct bounded
  rw [← append_assoc] at distinct
  exact ⟨distinct.of_append_left, fun id member => bounded id (mem_append_left _ member)⟩

variable {call : QueueCall}

theorem FreshIds.last {calls : List QueueCall}
    (fresh : FreshIds stored (calls ++ [call])) (id : String) (draws : newId call = some id) :
    id ∉ stored.map CompletionRecord.id ++ calls.filterMap newId ∧
      isBoundedString id 512 = true := by
  obtain ⟨distinct, bounded⟩ := fresh
  have last : [call].filterMap newId = [id] := by simp [draws]
  rw [filterMap_append, last] at distinct bounded
  rw [← append_assoc, nodup_append] at distinct
  refine ⟨fun used => distinct.2.2 id used id (by simp) rfl, bounded id (by simp)⟩

def effective (records : List CompletionRecord) (claim : CompletionClaim) : Bool :=
  records.any fun record => record.id = claim.record.id && record.deliveryState = .claimed &&
    record.claimOwner = some claim.owner && record.claimGeneration = claim.generation

/-- What holds of a run: `used` are the identifiers drawn so far. -/
structure Invariant (parseDate : String → Option Int) (bound : Nat) (used : List String)
    (run : QueueRun) : Prop where
  stored : GoodArray parseDate bound run.storage.stored
  saves : ∀ save ∈ run.storage.saves, GoodArray parseDate bound save
  usedIds : ∀ record ∈ run.storage.stored, record.id ∈ used
  issuedIds : ∀ claim ∈ run.issued, claim.record.id ∈ used
  issuedBelow : ∀ claim ∈ run.issued, ∀ record ∈ run.storage.stored,
    record.id = claim.record.id → claim.generation ≤ record.claimGeneration
  issuedOrder : bound ≤ Double.exactLimit → run.issued.Pairwise fun earlier later =>
    earlier.record.id = later.record.id → earlier.generation < later.generation
  kept : ∀ record ∈ run.enqueued, record.id ∉ run.acknowledged →
    ∃ current ∈ run.storage.stored, SameCompletion record current ∧
      current.deliveryState ≠ .acknowledged
  acknowledged : ∀ record ∈ run.storage.stored, record.deliveryState = .acknowledged →
    record.id ∈ run.acknowledged

theorem invariant_start (good : GoodArray parseDate bound stored) :
    Invariant parseDate bound (stored.map CompletionRecord.id) (startRun stored) where
  stored := good
  saves _ member := by cases member
  usedIds _ member := mem_map_of_mem member
  issuedIds _ member := by cases member
  issuedBelow _ member := by cases member
  issuedOrder _ := .nil
  kept record member unacknowledged := by
    refine ⟨record, member, .refl record, fun acknowledged => unacknowledged ?_⟩
    exact mem_map.mpr ⟨record, mem_filter.mpr ⟨member, decide_eq_true acknowledged⟩, rfl⟩
  acknowledged record member acknowledged :=
    mem_map.mpr ⟨record, mem_filter.mpr ⟨member, decide_eq_true acknowledged⟩, rfl⟩

/-- An added record is a new pending one. -/
structure Adds (parseDate : String → Option Int) (used : List String)
    (kept : List CompletionRecord) (added : CompletionRecord) : Prop where
  shaped : Shaped parseDate added
  unclaimed : added.claimGeneration = 0
  pending : added.deliveryState = .pending
  newId : added.id ∉ used
  newChild : ∀ record ∈ kept, record.childInstanceId ≠ added.childInstanceId
  room : kept.length < maxCompletions

section Step

variable {bound : Nat} {used : List String} {run : QueueRun} {call : QueueCall}
  {after : CompletionQueueStorage} {kept changed : List CompletionRecord}
  {claims : List CompletionClaim} {added : Option CompletionRecord}

section

variable (inv : Invariant parseDate bound used run)
  (evolves : queue.Evolution call run.storage after kept changed claims added)
include inv evolves

theorem Invariant.good_kept :
    GoodArray parseDate bound kept :=
  inv.stored.retains evolves.retains

theorem Invariant.stored_after
    (adds : ∀ record, added = some record → Adds parseDate used kept record) :
    GoodArray parseDate (bound + GoodArray.raise call) after.stored := by
  have good := (inv.good_kept evolves).steps evolves.steps
  rw [evolves.stored]
  cases added with
  | none => rwa [Option.toList_none, append_nil]
  | some record =>
    obtain ⟨shaped, unclaimed, -, newId, newChild, room⟩ := adds record rfl
    have lengths := congrArg length evolves.steps.ids
    rw [length_map, length_map] at lengths
    refine good.append shaped unclaimed (lengths ▸ room) ?_ ?_
    · intro other member same
      have listed : other.id ∈ kept.map CompletionRecord.id :=
        evolves.steps.ids ▸ mem_map_of_mem member
      obtain ⟨before, present, named⟩ := mem_map.mp listed
      have present := inv.usedIds before (evolves.retains.sublist.subset present)
      exact newId (same ▸ named ▸ present)
    · intro other member same
      have listed : other.childInstanceId ∈ kept.map CompletionRecord.childInstanceId :=
        evolves.steps.children ▸ mem_map_of_mem member
      obtain ⟨before, present, named⟩ := mem_map.mp listed
      exact newChild before present (named.trans same)

theorem Invariant.saves_after
    (adds : ∀ record, added = some record → Adds parseDate used kept record)
    (save : List CompletionRecord) (member : save ∈ after.saves) :
    GoodArray parseDate (bound + GoodArray.raise call) save := by
  rcases evolves.saves save member with earlier | fewer | last
  · exact (inv.saves save earlier).mono (Nat.le_add_right _ _)
  · exact (inv.stored.retains fewer).mono (Nat.le_add_right _ _)
  · rw [last]
    exact inv.stored_after evolves adds

/-- A stored record after a call comes from a stored one, or was added. -/
theorem Invariant.origin {record : CompletionRecord} (member : record ∈ after.stored) :
    (∃ before ∈ run.storage.stored, ∃ claim, queue.RecordStep call before record claim ∧
      claims.filter (fun handed => handed.record.id = before.id) = claim.toList) ∨
      added = some record := by
  rw [evolves.stored, mem_append, Option.mem_toList] at member
  refine member.imp_left fun changed => ?_
  obtain ⟨before, present, claim, step, handed⟩ :=
    evolves.steps.origin (inv.good_kept evolves).ids changed
  exact ⟨before, evolves.retains.sublist.subset present, claim, step, handed⟩

/-- Claims handed out by a call go beyond those handed out before. -/
theorem Invariant.issued_after (exact : bound + GoodArray.raise call ≤ Double.exactLimit) :
    (run.issued ++ claims).Pairwise fun earlier later =>
      earlier.record.id = later.record.id → earlier.generation < later.generation := by
  rw [pairwise_append]
  have distinct := (inv.good_kept evolves).ids.sublist evolves.steps.claims_sublist
  refine ⟨inv.issuedOrder (Nat.le_of_add_right_le exact), ?_, ?_⟩
  · rw [nodup_iff_pairwise_ne, pairwise_map] at distinct
    exact distinct.imp fun different same => absurd same different
  · intro earlier issued later given same
    obtain ⟨before, present, step, -⟩ := evolves.steps.claim_origin given
    have stored := evolves.retains.sublist.subset present
    have named : before.id = earlier.record.id := by
      rw [same, step.sameCompletion.id]
    have below := inv.issuedBelow earlier issued before stored named
    have raised := step.generation ((Nat.add_le_add (inv.stored.generations before stored)
      (GoodArray.length_le_raise step)).trans exact)
    rw [← step.names.2] at raised
    simp only [Option.toList_some, length_singleton] at raised
    omega

theorem Invariant.below_after
    (adds : ∀ record, added = some record → Adds parseDate used kept record)
    (claim : CompletionClaim) (issued : claim ∈ run.issued ++ claims)
    (record : CompletionRecord) (member : record ∈ after.stored)
    (named : record.id = claim.record.id) : claim.generation ≤ record.claimGeneration := by
  rcases mem_append.mp issued with earlier | now
  · rcases inv.origin evolves member with ⟨before, present, handed, step, -⟩ | new
    · have same : before.id = claim.record.id := by
        rw [← named, step.sameCompletion.id]
      exact (inv.issuedBelow claim earlier before present same).trans
        (step.generation_bounds (inv.stored.doubles before present)).1
    · have unused := (adds record new).newId
      exact absurd (inv.issuedIds claim earlier) (named ▸ unused)
  · obtain ⟨before, present, step, changed⟩ := evolves.steps.claim_origin now
    have same : claim.record = record := by
      have distinct := (inv.stored_after evolves adds).ids
      have stored : claim.record ∈ after.stored := by
        rw [evolves.stored]
        exact mem_append_left _ changed
      exact inj_on_of_nodup_map distinct stored member named.symm
    rw [step.names.2, same]

theorem Invariant.extend (adds : ∀ record, added = some record → Adds parseDate used kept record)
    {usedAfter : List String} (usedMore : ∀ id ∈ used, id ∈ usedAfter)
    (usedNew : ∀ record, added = some record → record.id ∈ usedAfter)
    {returned : List CompletionRecord} (stored : ∀ record ∈ returned, record ∈ after.stored)
    {acknowledged : List String}
    (acknowledges : ∀ before ∈ run.storage.stored, ∀ record ∈ after.stored, ∀ claim,
      queue.RecordStep call before record claim → before.deliveryState ≠ .acknowledged →
        record.deliveryState = .acknowledged → record.id ∈ acknowledged) :
    Invariant parseDate (bound + GoodArray.raise call) usedAfter
      { storage := after
        issued := run.issued ++ claims
        enqueued := run.enqueued ++ returned
        acknowledged := run.acknowledged ++ acknowledged } := by
  have acknowledgedAfter : ∀ record ∈ after.stored, record.deliveryState = .acknowledged →
      record.id ∈ run.acknowledged ++ acknowledged := by
    intro record member done
    rcases inv.origin evolves member with ⟨before, present, claim, step, -⟩ | new
    · by_cases earlier : before.deliveryState = .acknowledged
      · obtain rfl := step.acknowledged_same earlier
        exact mem_append_left _ (inv.acknowledged record present done)
      · exact mem_append_right _
          (acknowledges before present record member claim step earlier done)
    · rw [(adds record new).pending] at done
      cases done
  refine ⟨inv.stored_after evolves adds, inv.saves_after evolves adds, ?_, ?_,
    inv.below_after evolves adds, inv.issued_after evolves, ?_, acknowledgedAfter⟩
  · intro record member
    rcases inv.origin evolves member with ⟨before, present, claim, step, -⟩ | new
    · rw [step.sameCompletion.id]
      exact usedMore _ (inv.usedIds before present)
    · exact usedNew record new
  · intro claim issued
    rcases mem_append.mp issued with earlier | now
    · exact usedMore _ (inv.issuedIds claim earlier)
    · obtain ⟨before, present, step, -⟩ := evolves.steps.claim_origin now
      rw [step.sameCompletion.id]
      exact usedMore _ (inv.usedIds before (evolves.retains.sublist.subset present))
  · intro record member unacknowledged
    rcases mem_append.mp member with earlier | now
    · have before := fun done => unacknowledged (mem_append_left _ done)
      obtain ⟨current, present, same, state⟩ := inv.kept record earlier before
      have retained := evolves.retains.retained current present state
      obtain ⟨next, changedNext, claim, step⟩ := evolves.steps.target retained
      have storedNext : next ∈ after.stored := by
        rw [evolves.stored]
        exact mem_append_left _ changedNext
      refine ⟨next, storedNext, same.trans step.sameCompletion, fun done => unacknowledged ?_⟩
      have listed := acknowledges current present next storedNext claim step state done
      rw [step.sameCompletion.id, same.id] at listed
      exact mem_append_right _ listed
    · exact ⟨record, stored record now, .refl record, fun done =>
        unacknowledged (acknowledgedAfter record (stored record now) done)⟩

end

end Step

theorem never_acknowledges {before after : CompletionRecord} {claim : Option CompletionClaim}
    {ids : List String} (other : ∀ named now, call ≠ .acknowledge named now)
    (step : queue.RecordStep call before after claim)
    (earlier : before.deliveryState ≠ .acknowledged) (later : after.deliveryState = .acknowledged) :
    after.id ∈ ids := by
  obtain ⟨named, now, same, -⟩ := step.acknowledges earlier later
  exact absurd same (other named now)

theorem Invariant.extend_quiet
    {after : CompletionQueueStorage} {kept changed : List CompletionRecord}
    {claims : List CompletionClaim} (inv : Invariant parseDate bound used run)
    (evolves : queue.Evolution call run.storage after kept changed claims none)
    (other : ∀ named now, call ≠ .acknowledge named now) {usedAfter : List String}
    (more : ∀ id ∈ used, id ∈ usedAfter) :
    Invariant parseDate (bound + GoodArray.raise call) usedAfter
      { storage := after
        issued := run.issued ++ claims
        enqueued := run.enqueued
        acknowledged := run.acknowledged } := by
  have none_returned : ∀ record ∈ ([] : List CompletionRecord), record ∈ after.stored := by simp
  have none_acknowledged : ∀ before ∈ run.storage.stored, ∀ record ∈ after.stored, ∀ claim,
      queue.RecordStep call before record claim → before.deliveryState ≠ .acknowledged →
        record.deliveryState = .acknowledged → record.id ∈ ([] : List String) :=
    fun _ _ _ _ _ step => never_acknowledges other step
  have extended := inv.extend evolves (by simp) more (by simp) none_returned none_acknowledged
  simpa only [append_nil] using extended

theorem Invariant.runCall (inv : Invariant parseDate bound used run) (call : QueueCall)
    (fresh : ∀ id, newId call = some id → id ∉ used ∧ isBoundedString id 512 = true) :
    Invariant parseDate (bound + GoodArray.raise call) (used ++ (newId call).toList)
      (queue.runCall parseDate run call) := by
  have more : ∀ id ∈ used, id ∈ used ++ (newId call).toList := fun id => mem_append_left _
  cases call with
  | enqueue input id cleanedAt createdAt =>
    obtain ⟨after, result, kept, added, performs, evolves, outcome⟩ :=
      queue.enqueue_perform parseDate run.storage input id cleanedAt createdAt
    obtain ⟨unused, bounded⟩ := fresh id rfl
    have quiet : ∀ before ∈ run.storage.stored, ∀ record ∈ after.stored, ∀ claim,
        queue.RecordStep (.enqueue input id cleanedAt createdAt) before record claim →
          before.deliveryState ≠ .acknowledged → record.deliveryState = .acknowledged →
            record.id ∈ ([] : List String) :=
      fun _ _ _ _ _ step => never_acknowledges (by simp) step
    have adds : ∀ record, added = some record → Adds parseDate used kept record := by
      intro record new
      cases outcome with
      | added valid newChild room =>
        obtain rfl := Option.some.inj new
        refine ⟨newRecord_shaped valid bounded createdAt, rfl, rfl, unused, newChild, ?_⟩
        exact Nat.lt_of_lt_of_le room queue.maxEntries_bounds.2
      | _ => cases new
    have drawn : ∀ record, added = some record → record.id ∈ used ++ [id] := by
      intro record new
      cases outcome with
      | added valid newChild room =>
        obtain rfl := Option.some.inj new
        simp [newRecord]
      | _ => cases new
    have stored : ∀ record ∈ result.toOption.toList, record ∈ after.stored := by
      intro record returned
      rw [evolves.stored]
      cases outcome with
      | refused message => cases returned
      | existing present =>
        obtain rfl := mem_singleton.mp returned
        exact mem_append_left _ present
      | added valid newChild room =>
        obtain rfl := mem_singleton.mp returned
        simp
    have extended := inv.extend evolves adds more drawn stored quiet
    simpa only [MaestroCompletionQueue.runCall, performs, append_nil] using extended
  | claim parent owner limit now =>
    obtain ⟨after, result, kept, changed, claims, performs, evolves, rfl⟩ :=
      queue.claim_perform run.storage parent owner limit now
    have extended := inv.extend_quiet evolves (by simp) more
    simpa only [MaestroCompletionQueue.runCall, performs, append_nil] using extended
  | acknowledge claim now =>
    obtain ⟨after, done, changed, performs, evolves, acknowledges, unchanged⟩ :=
      queue.acknowledge_perform run.storage inv.stored.ids claim now
    have none_returned : ∀ record ∈ ([] : List CompletionRecord), record ∈ after.stored := by simp
    have listed : ∀ before ∈ run.storage.stored, ∀ record ∈ after.stored, ∀ handed,
        queue.RecordStep (.acknowledge claim now) before record handed →
          before.deliveryState ≠ .acknowledged → record.deliveryState = .acknowledged →
            record.id ∈ if done = true then [claim.record.id] else [] := by
      intro before present record member handed step earlier later
      obtain ⟨named, _, same, names⟩ := step.acknowledges earlier later
      cases same
      cases done with
      | true => simpa [step.sameCompletion.id] using names
      | false =>
        rw [unchanged rfl] at member
        obtain rfl := inj_on_of_nodup_map inv.stored.ids member present
          step.sameCompletion.id
        exact absurd later earlier
    have extended := inv.extend evolves (by simp) more (by simp) none_returned listed
    simpa [MaestroCompletionQueue.runCall, performs, Except.toOption] using extended
  | release claim =>
    obtain ⟨after, done, changed, performs, evolves⟩ :=
      queue.release_perform run.storage inv.stored.ids claim
    have extended := inv.extend_quiet evolves (by simp) more
    simpa only [MaestroCompletionQueue.runCall, performs, append_nil] using extended
  | list parent now =>
    obtain ⟨after, result, performs, evolves⟩ := queue.list_perform run.storage parent now
    have extended := inv.extend_quiet evolves (by simp) more
    simpa only [MaestroCompletionQueue.runCall, performs, append_nil] using extended

/-- What holds in every state of every run. -/
structure Guarantees (run : QueueRun) : Prop where
  /-- A completion that was enqueued and not acknowledged is still stored. -/
  kept : ∀ record ∈ run.enqueued, record.id ∉ run.acknowledged →
    ∃ current ∈ run.storage.stored, SameCompletion record current
  /-- A child has at most one record. -/
  children : (run.storage.stored.map CompletionRecord.childInstanceId).Nodup

/-- What holds in every state while generations are exact. -/
structure Distinguishes (run : QueueRun) : Prop where
  /-- At most one claim of a record is effective. -/
  oneEffective : ∀ id, (run.issued.filter fun claim =>
    claim.record.id = id && effective run.storage.stored claim).length ≤ 1
  /-- A superseded claim is refused and changes nothing. -/
  superseded : run.issued.Pairwise fun earlier later => earlier.record.id = later.record.id →
    ∀ now, (acknowledge earlier now).perform run.storage = (.ok false, run.storage) ∧
      (release earlier).perform run.storage = (.ok false, run.storage)

/-- A record's generation grows by one at each claim and does not change otherwise. -/
def Counts (run next : QueueRun) : Prop :=
  ∃ claims, next.issued = run.issued ++ claims ∧
    ∀ before ∈ run.storage.stored, ∀ after ∈ next.storage.stored, after.id = before.id →
      after.claimGeneration = before.claimGeneration +
        (claims.filter fun claim => claim.record.id = before.id).length ∧
      (claims.filter fun claim => claim.record.id = before.id).length ≤ 1

/-- What holds of every call of every run. -/
structure CallGuarantees (queue : MaestroCompletionQueue) (call : QueueCall)
    (run next : QueueRun) : Prop where
  /-- A record's generation never decreases. -/
  generations : ∀ before ∈ run.storage.stored, ∀ after ∈ next.storage.stored,
    after.id = before.id → before.claimGeneration ≤ after.claimGeneration
  /-- A record passes to another owner only by a claim after the first one's time. -/
  owners : ∀ before ∈ run.storage.stored, ∀ after ∈ next.storage.stored, after.id = before.id →
    ∀ owner other, before.claimOwner = some owner → after.claimOwner = some other →
      other ≠ owner → ∃ parent limit now claimedAt, call = .claim parent other limit now ∧
        before.claimedAt = some claimedAt ∧ (claimedAt : ℚ) + queue.claimLeaseMs ≤ now

/-- A list ordered by a relation that no two of its items meet has at most one item. -/
theorem length_le_one {Item : Type} {Related : Item → Item → Prop} {items : List Item}
    (ordered : items.Pairwise Related)
    (never : ∀ first ∈ items, ∀ second ∈ items, ¬ Related first second) : items.length ≤ 1 := by
  cases items with
  | nil => exact Nat.zero_le 1
  | cons first rest =>
    cases rest with
    | nil => exact Nat.le_refl 1
    | cons second rest =>
      have related := (pairwise_cons.mp ordered).1 second mem_cons_self
      exact absurd related (never first (by simp) second (by simp))

theorem effective_generation {records : List CompletionRecord} {claim : CompletionClaim}
    (holds : effective records claim = true) :
    ∃ record ∈ records, record.id = claim.record.id ∧
      record.claimGeneration = claim.generation := by
  rw [effective, any_eq_true] at holds
  obtain ⟨record, member, facts⟩ := holds
  simp only [Bool.and_eq_true, decide_eq_true_eq] at facts
  exact ⟨record, member, facts.1.1.1, facts.2⟩

theorem Invariant.guarantees (inv : Invariant parseDate bound used run) : Guarantees run where
  kept record member unacknowledged := by
    obtain ⟨current, present, same, -⟩ := inv.kept record member unacknowledged
    exact ⟨current, present, same⟩
  children := inv.stored.children

theorem Invariant.distinguishes (inv : Invariant parseDate bound used run)
    (exact : bound ≤ Double.exactLimit) : Distinguishes run where
  oneEffective id := by
    refine length_le_one ((inv.issuedOrder exact).filter _) ?_
    intro first firstMember second secondMember growing
    simp only [mem_filter, Bool.and_eq_true, decide_eq_true_eq] at firstMember secondMember
    obtain ⟨record, stored, named, current⟩ := effective_generation firstMember.2.2
    obtain ⟨other, stored', named', current'⟩ := effective_generation secondMember.2.2
    have ids : first.record.id = second.record.id :=
      firstMember.2.1.trans secondMember.2.1.symm
    have same : record = other := by
      apply inj_on_of_nodup_map inv.stored.ids stored stored'
      rw [named, named', ids]
    have less := growing ids
    rw [← current, ← current', same] at less
    exact absurd less (Nat.lt_irrefl _)
  superseded := by
    refine (inv.issuedOrder exact).imp_of_mem ?_
    intro earlier later _ issued growing same now
    apply refused_of_unnamed
    rintro record member ⟨named, -, current⟩
    have below := inv.issuedBelow later issued record member (named.trans same)
    have less := growing same
    omega

theorem runCall_evolution (queue : MaestroCompletionQueue) (parseDate : String → Option Int)
    (run : QueueRun) (distinct : (run.storage.stored.map CompletionRecord.id).Nodup)
    (call : QueueCall) :
    ∃ kept changed claims added,
      queue.Evolution call run.storage (queue.runCall parseDate run call).storage kept changed
        claims added ∧ (queue.runCall parseDate run call).issued = run.issued ++ claims ∧
      ∀ record, added = some record → newId call = some record.id := by
  cases call with
  | enqueue input id cleanedAt createdAt =>
    obtain ⟨after, result, kept, added, performs, evolves, outcome⟩ :=
      queue.enqueue_perform parseDate run.storage input id cleanedAt createdAt
    refine ⟨kept, kept, [], added, ?_, (append_nil _).symm, ?_⟩
    · simpa only [runCall, performs] using evolves
    · intro record new
      cases outcome with
      | added valid newChild room =>
        obtain rfl := Option.some.inj new
        rfl
      | _ => cases new
  | claim parent owner limit now =>
    obtain ⟨after, result, kept, changed, claims, performs, evolves, rfl⟩ :=
      queue.claim_perform run.storage parent owner limit now
    refine ⟨kept, changed, result.toOption.getD [], none, ?_, ?_, by simp⟩
    · simpa only [runCall, performs] using evolves
    · simp only [runCall, performs]
  | acknowledge claim now =>
    obtain ⟨after, done, changed, performs, evolves, -⟩ :=
      queue.acknowledge_perform run.storage distinct claim now
    refine ⟨run.storage.stored, changed, [], none, ?_, (append_nil _).symm, by simp⟩
    simpa only [runCall, performs] using evolves
  | release claim =>
    obtain ⟨after, done, changed, performs, evolves⟩ :=
      queue.release_perform run.storage distinct claim
    refine ⟨run.storage.stored, changed, [], none, ?_, (append_nil _).symm, by simp⟩
    simpa only [runCall, performs] using evolves
  | list parent now =>
    obtain ⟨after, result, performs, evolves⟩ := queue.list_perform run.storage parent now
    refine ⟨after.stored, after.stored, [], none, ?_, (append_nil _).symm, by simp⟩
    simpa only [runCall, performs] using evolves

theorem Invariant.callGuarantees (inv : Invariant parseDate bound used run) (call : QueueCall)
    (fresh : ∀ id, newId call = some id → id ∉ used) :
    CallGuarantees queue call run (queue.runCall parseDate run call) ∧
      (bound + GoodArray.raise call ≤ Double.exactLimit →
        Counts run (queue.runCall parseDate run call)) := by
  obtain ⟨kept, changed, claims, added, evolves, issued, drawn⟩ :=
    runCall_evolution queue parseDate run inv.stored.ids call
  have origin : ∀ before ∈ run.storage.stored,
      ∀ after ∈ (queue.runCall parseDate run call).storage.stored, after.id = before.id →
        ∃ claim, queue.RecordStep call before after claim ∧
          claims.filter (fun handed => handed.record.id = before.id) = claim.toList := by
    intro before present after member same
    rcases inv.origin evolves member with ⟨source, stored, claim, step, handed⟩ | new
    · have equal : source = before := by
        apply inj_on_of_nodup_map inv.stored.ids stored present
        rw [← same, step.sameCompletion.id]
      subst equal
      exact ⟨claim, step, handed⟩
    · have unused := fresh after.id (drawn after new)
      rw [same] at unused
      exact absurd (inv.usedIds before present) unused
  refine ⟨⟨?_, ?_⟩, fun exact => ⟨claims, issued, ?_⟩⟩
  · intro before present after member same
    obtain ⟨claim, step, -⟩ := origin before present after member same
    exact (step.generation_bounds (inv.stored.doubles before present)).1
  · intro before present after member same owner other owned passed different
    obtain ⟨claim, step, -⟩ := origin before present after member same
    exact step.passes (inv.stored.shaped before present) owned passed different
  · intro before present after member same
    obtain ⟨claim, step, handed⟩ := origin before present after member same
    rw [handed]
    refine ⟨step.generation ((Nat.add_le_add (inv.stored.generations before present)
      (GoodArray.length_le_raise step)).trans exact), ?_⟩
    cases claim <;> simp

theorem runCalls_invariant (good : GoodArray parseDate bound stored) (calls : List QueueCall)
    (fresh : FreshIds stored calls) :
    Invariant parseDate (bound + calls.countP isClaim)
      (stored.map CompletionRecord.id ++ calls.filterMap newId)
      (queue.runCalls parseDate (startRun stored) calls) := by
  induction calls using reverseRecOn with
  | nil => simpa [runCalls] using invariant_start good
  | append_singleton calls call ih =>
    have earlier := ih fresh.of_append
    have next : Invariant parseDate _ _ (queue.runCall parseDate _ call) :=
      earlier.runCall call fresh.last
    have bounds : bound + (calls ++ [call]).countP isClaim =
        bound + calls.countP isClaim + GoodArray.raise call := by
      rw [countP_append, countP_singleton, Nat.add_assoc, GoodArray.raise]
    have ids : stored.map CompletionRecord.id ++ (calls ++ [call]).filterMap newId =
        stored.map CompletionRecord.id ++ calls.filterMap newId ++ (newId call).toList := by
      rw [filterMap_append, append_assoc]
      cases drawn : newId call <;> simp [drawn]
    rw [bounds, ids, runCalls, foldl_append]
    exact next

/-- No generation can pass a limit: not that of a stored record, nor that of a new one. -/
structure ClaimsFit (limit : Nat) (stored : List CompletionRecord) (calls : List QueueCall) :
    Prop where
  few : calls.countP isClaim ≤ limit
  below : ∀ record ∈ stored, record.claimGeneration + calls.countP isClaim ≤ limit

theorem ClaimsFit.good {limit : Nat} {calls : List QueueCall} (fits : ClaimsFit limit stored calls)
    (good : GoodArray parseDate bound stored) :
    GoodArray parseDate (limit - calls.countP isClaim) stored :=
  { good with
    generations := fun record present => Nat.le_sub_of_add_le (fits.below record present) }

theorem ClaimsFit.invariant {limit : Nat} {calls : List QueueCall}
    (fits : ClaimsFit limit stored calls) (good : GoodArray parseDate bound stored)
    (fresh : FreshIds stored calls) :
    Invariant parseDate limit (stored.map CompletionRecord.id ++ calls.filterMap newId)
      (queue.runCalls parseDate (startRun stored) calls) := by
  have inv : Invariant parseDate _ _ (queue.runCalls parseDate (startRun stored) calls) :=
    runCalls_invariant (fits.good good) calls fresh
  rwa [Nat.sub_add_cancel fits.few] at inv

/-- Over a storage with valid contents, every run keeps the queue's guarantees. As long as all
generations are exact, they count claims and tell them apart, and as long as they are safe
integers, saving is never refused. -/
theorem runCalls_guarantees (queue : MaestroCompletionQueue) (parseDate : String → Option Int)
    (stored : List CompletionRecord) (calls : List QueueCall)
    (valid : isCompletionArray parseDate stored = true) (fresh : FreshIds stored calls) :
    Guarantees (queue.runCalls parseDate (startRun stored) calls) ∧
      (ClaimsFit Double.exactLimit stored calls →
        Distinguishes (queue.runCalls parseDate (startRun stored) calls)) ∧
      (∀ earlier call later, calls = earlier ++ call :: later →
        CallGuarantees queue call (queue.runCalls parseDate (startRun stored) earlier)
          (queue.runCalls parseDate (startRun stored) (earlier ++ [call])) ∧
        (ClaimsFit Double.exactLimit stored (earlier ++ [call]) →
          Counts (queue.runCalls parseDate (startRun stored) earlier)
            (queue.runCalls parseDate (startRun stored) (earlier ++ [call])))) ∧
      (ClaimsFit maxSafeInteger stored calls →
        ∀ save ∈ (queue.runCalls parseDate (startRun stored) calls).storage.saves,
          isCompletionArray parseDate save = true) := by
  have good := (isCompletionArray_iff parseDate stored).mp valid
  refine ⟨(runCalls_invariant good calls fresh).guarantees,
    fun fits => (fits.invariant good fresh).distinguishes (Nat.le_refl _), ?_, ?_⟩
  · rintro earlier call later rfl
    rw [append_cons] at fresh
    have until_ := fresh.of_append
    have drawn : ∀ id, newId call = some id → id ∉ _ := fun id draws => (until_.last id draws).1
    rw [runCalls, runCalls, foldl_append]
    refine ⟨((runCalls_invariant good earlier until_.of_append).callGuarantees call drawn).1,
      fun fits => ?_⟩
    have inv : Invariant parseDate _ _ (queue.runCalls parseDate (startRun stored) earlier) :=
      runCalls_invariant (fits.good good) earlier until_.of_append
    refine (inv.callGuarantees call drawn).2 ?_
    have few := fits.few
    rw [countP_append, countP_singleton] at few ⊢
    unfold GoodArray.raise
    omega
  · intro fits save member
    exact (isCompletionArray_iff parseDate save).mpr ((fits.invariant good fresh).saves save member)

def defaultQueue : MaestroCompletionQueue where
  claimLeaseMs := 30000
  acknowledgedRetentionMs := 3600000
  maxEntries := 256
  lease_nonneg := Nat.ofNat_nonneg 30000
  retention_nonneg := Nat.ofNat_nonneg 3600000
  maxEntries_bounds := by decide

/-- A reading of the dates that occur below. -/
def readEpoch (text : String) : Option Int :=
  if text = "1970-01-01" then some 0 else none

def waitingRecord : CompletionRecord where
  id := "r1"
  parentInstanceId := some "p1"
  parentSessionId := none
  childInstanceId := "c1"
  childSessionId := none
  terminalState := .succeeded
  summary := none
  resultHash := String.ofList (replicate 64 'a')
  completedAt := "1970-01-01"
  createdAt := 0
  deliveryState := .pending
  claimOwner := none
  claimGeneration := 0
  claimedAt := none
  acknowledgedAt := none

theorem waitingRecord_valid : isCompletionArray readEpoch [waitingRecord] = true := by
  have digest : isSha256 (String.ofList (replicate 64 'a')) = true := by
    rw [isSha256, String.toList_ofList]
    decide
  have record : isCompletionRecord readEpoch waitingRecord = true := by
    rw [isCompletionRecord, waitingRecord]
    simp only [digest]
    decide
  rw [isCompletionArray]
  simp [record, maxCompletions]

/-- Two owners take the completion one after the other, and the second one acknowledges it. -/
def twoOwners : List QueueCall :=
  let first := taken "w1" 0 waitingRecord
  let second := taken "w2" 5 { first with
    deliveryState := .pending, claimOwner := none, claimedAt := none }
  [.claim ⟨some "p1", none⟩ "w1" 1 0, .release ⟨first, "w1", first.claimGeneration⟩,
    .claim ⟨some "p1", none⟩ "w2" 1 5, .acknowledge ⟨second, "w2", second.claimGeneration⟩ 6]

theorem runCalls_guarantees_twoOwners :
    ((defaultQueue.runCalls readEpoch (startRun [waitingRecord]) twoOwners).issued.map
        fun claim => (claim.owner, claim.generation)) = [("w1", 1), ("w2", 2)] ∧
      (defaultQueue.runCalls readEpoch (startRun [waitingRecord]) twoOwners).acknowledged = ["r1"] ∧
      Distinguishes (defaultQueue.runCalls readEpoch (startRun [waitingRecord]) twoOwners) ∧
      ∀ save ∈ (defaultQueue.runCalls readEpoch (startRun [waitingRecord]) twoOwners).storage.saves,
        isCompletionArray readEpoch save = true := by
  have guaranteed := runCalls_guarantees defaultQueue readEpoch [waitingRecord] twoOwners
    waitingRecord_valid ⟨by decide, by decide⟩
  exact ⟨by decide +kernel, by decide +kernel, guaranteed.2.1 ⟨by decide, by decide⟩,
    guaranteed.2.2.2 ⟨by decide, by decide⟩⟩

/-- The completion has been claimed as often as a safe integer can count. -/
def countedRecord : CompletionRecord := { waitingRecord with claimGeneration := maxSafeInteger }

/-- Its owner claims it, releases it and claims it again. -/
def claimedAgain : List QueueCall :=
  [.claim ⟨some "p1", none⟩ "w1" 1 0,
    .release ⟨taken "w1" 0 countedRecord, "w1", Double.exactLimit⟩,
    .claim ⟨some "p1", none⟩ "w1" 1 0]

/-- Behind the largest safe integer a claim cannot be saved, and after the next one the generation
is the same, so the superseded claim is effective too. -/
theorem claimedAgain_confused :
    isCompletionArray readEpoch [countedRecord] = true ∧ FreshIds [countedRecord] claimedAgain ∧
      (∃ save ∈ (defaultQueue.runCalls readEpoch (startRun [countedRecord])
        claimedAgain).storage.saves, isCompletionArray readEpoch save = false) ∧
      (defaultQueue.runCalls readEpoch (startRun [countedRecord]) claimedAgain).issued.map
        (effective (defaultQueue.runCalls readEpoch (startRun [countedRecord])
          claimedAgain).storage.stored) = [true, true] := by
  refine ⟨?_, ⟨by decide, by decide⟩, ?_, by decide +kernel⟩
  · decide +kernel
  · decide +kernel

end MaestroCompletionQueue
end Recode.Orchestrator

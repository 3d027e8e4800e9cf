import Recode.Orchestrator.CompletionRuns

/-! # The invariant of the completion queue

Every array the queue stores or hands to its storage passes the storage's checks
as long as the claim generations stay safe integers; claims handed out for one
record carry growing generations, so at most the last one is effective. -/

namespace Recode.Orchestrator

open List Procedure CompletionRecord Text

/-- Two records of one completion: they differ at most in its delivery. -/
def SameCompletion (earlier later : CompletionRecord) : Prop :=
  later = { earlier with
    deliveryState := later.deliveryState
    claimOwner := later.claimOwner
    claimGeneration := later.claimGeneration
    claimedAt := later.claimedAt
    acknowledgedAt := later.acknowledgedAt }

theorem SameCompletion.refl (record : CompletionRecord) : SameCompletion record record := rfl

theorem SameCompletion.trans {first second third : CompletionRecord}
    (earlier : SameCompletion first second) (later : SameCompletion second third) :
    SameCompletion first third := by
  rw [SameCompletion] at *
  rw [later, earlier]

theorem SameCompletion.id {earlier later : CompletionRecord}
    (same : SameCompletion earlier later) : later.id = earlier.id := by
  rw [same]

/-- A record passes the storage's checks but for the size of its generation. -/
def Shaped (parseDate : String → Option Int) (record : CompletionRecord) : Prop :=
  isCompletionRecord parseDate { record with claimGeneration := 0 } = true

theorem isCompletionRecord_iff (parseDate : String → Option Int) (record : CompletionRecord) :
    isCompletionRecord parseDate record = true ↔
      Shaped parseDate record ∧ record.claimGeneration ≤ maxSafeInteger := by
  simp only [Shaped, isCompletionRecord, Bool.and_eq_true, decide_eq_true_eq, Nat.zero_le, and_true]
  constructor
  · rintro ⟨⟨⟨front, generation⟩, owner⟩, state⟩
    exact ⟨⟨⟨front, owner⟩, state⟩, generation⟩
  · rintro ⟨⟨⟨front, owner⟩, state⟩, generation⟩
    exact ⟨⟨⟨front, generation⟩, owner⟩, state⟩

/-- A record's optional fields fit its delivery state. -/
def FitsDelivery (record : CompletionRecord) : CompletionDeliveryState → Prop
  | .pending => record.claimOwner.isNone ∧ record.claimedAt.isNone ∧ record.acknowledgedAt.isNone
  | .claimed => record.claimOwner.isSome ∧ record.claimedAt.isSome ∧ record.acknowledgedAt.isNone
  | .acknowledged =>
    record.claimOwner.isSome ∧ record.claimedAt.isSome ∧ record.acknowledgedAt.isSome

theorem shaped_delivery {parseDate : String → Option Int} {record : CompletionRecord}
    (shaped : Shaped parseDate record) : FitsDelivery record record.deliveryState := by
  simp only [Shaped, isCompletionRecord, Bool.and_eq_true] at shaped
  cases state : record.deliveryState <;>
    simpa only [state, FitsDelivery, Bool.and_eq_true, and_assoc] using shaped.2

namespace MaestroCompletionQueue

variable {queue : MaestroCompletionQueue} {parseDate : String → Option Int}

def isClaim : QueueCall → Bool
  | .claim _ _ _ _ => true
  | _ => false

namespace RecordStep

variable {call : QueueCall} {record changed : CompletionRecord} {claim : Option CompletionClaim}

section

variable (step : queue.RecordStep call record changed claim)
include step

theorem sameCompletion :
    SameCompletion record changed := by
  cases step <;> rfl

/-- As long as it is exact, a generation counts the claims of its record. -/
theorem generation (exact : record.claimGeneration + claim.toList.length ≤ Double.exactLimit) :
    changed.claimGeneration = record.claimGeneration + claim.toList.length := by
  cases step with
  | take valid open_ free => exact Double.round_of_le exact
  | _ => rfl

theorem generation_bounds (within : record.claimGeneration ≤ Double.exactLimit) :
    record.claimGeneration ≤ changed.claimGeneration ∧
      changed.claimGeneration ≤ record.claimGeneration + claim.toList.length ∧
      changed.claimGeneration ≤ Double.exactLimit := by
  cases step with
  | take valid open_ free =>
    rw [taken, Option.toList_some, length_singleton]
    rcases Nat.lt_or_eq_of_le within with less | limit
    · rw [Double.round_of_le less]
      exact ⟨Nat.le_succ _, Nat.le_refl _, less⟩
    · rw [limit, Double.round_succ_exactLimit]
      exact ⟨Nat.le_refl _, Nat.le_succ _, Nat.le_refl _⟩
  | _ => exact ⟨Nat.le_refl _, Nat.le_refl _, within⟩

theorem claim_none (other : isClaim call = false) : claim = none := by
  cases step with
  | take valid open_ free => cases other
  | _ => rfl

end

theorem names {handed : CompletionClaim}
    (step : queue.RecordStep call record changed (some handed)) :
    handed.record = changed ∧ handed.generation = changed.claimGeneration := by
  cases step with
  | take valid open_ free => exact ⟨rfl, rfl⟩

section

variable (step : queue.RecordStep call record changed claim)
include step

theorem acknowledged_same
    (acknowledged : record.deliveryState = .acknowledged) : changed = record := by
  cases step with
  | same => rfl
  | take valid open_ free => exact absurd acknowledged open_
  | acknowledge named claimed owned current =>
    rw [claimed] at acknowledged
    cases acknowledged
  | release named claimed owned current =>
    rw [claimed] at acknowledged
    cases acknowledged

theorem acknowledges (before : record.deliveryState ≠ .acknowledged)
    (after : changed.deliveryState = .acknowledged) :
    ∃ named now, call = .acknowledge named now ∧ record.id = named.record.id := by
  cases step with
  | same => exact absurd after before
  | take valid open_ free => cases after
  | acknowledge named claimed owned current => exact ⟨_, _, rfl, named⟩
  | release named claimed owned current => cases after

/-- A record passes from one owner to another only when the first one's time has run out. -/
theorem passes (shaped : Shaped parseDate record) {owner next : String}
    (owned : record.claimOwner = some owner) (passed : changed.claimOwner = some next)
    (other : next ≠ owner) :
    ∃ parent limit now claimedAt, call = .claim parent next limit now ∧
      record.claimedAt = some claimedAt ∧ (claimedAt : ℚ) + queue.claimLeaseMs ≤ now := by
  cases step with
  | same => exact absurd (Option.some.inj (passed.symm.trans owned)) other
  | take valid open_ free =>
    rename_i parent taker limit now
    obtain rfl : taker = next := Option.some.inj passed
    have delivery := shaped_delivery shaped
    cases state : record.deliveryState with
    | pending =>
      rw [state, FitsDelivery, owned] at delivery
      cases delivery.1
    | acknowledged => exact absurd state open_
    | claimed =>
      rw [state] at delivery
      obtain ⟨claimedAt, at_⟩ := Option.isSome_iff_exists.mp delivery.2.1
      refine ⟨parent, limit, now, claimedAt, rfl, at_, ?_⟩
      have different : ¬ owner = taker := Ne.symm other
      simpa [heldByOther, state, owned, at_, different] using free
  | acknowledge named claimed owned' current =>
    exact absurd (Option.some.inj (passed.symm.trans owned)) other
  | release named claimed owned' current => cases passed

end

theorem shaped (step : queue.RecordStep call record changed claim)
    (shaped : Shaped parseDate record) : Shaped parseDate changed := by
  cases step with
  | same => exact shaped
  | take valid open_ free =>
    simp only [Shaped, isCompletionRecord, Bool.and_eq_true, taken] at shaped ⊢
    exact ⟨⟨⟨shaped.1.1.1, rfl⟩, valid⟩, ⟨⟨rfl, rfl⟩, rfl⟩⟩
  | acknowledge named claimed owned current =>
    simp only [Shaped, isCompletionRecord, Bool.and_eq_true, claimed] at shaped ⊢
    exact ⟨shaped.1, ⟨shaped.2.1, rfl⟩⟩
  | release named claimed owned current =>
    simp only [Shaped, isCompletionRecord, Bool.and_eq_true, claimed] at shaped ⊢
    exact ⟨⟨shaped.1.1, rfl⟩, ⟨⟨rfl, rfl⟩, shaped.2.2⟩⟩

end RecordStep

namespace RecordSteps

variable {call : QueueCall} {records changed : List CompletionRecord}
  {claims : List CompletionClaim}

section

variable (steps : queue.RecordSteps call records changed claims)
include steps

theorem ids :
    changed.map CompletionRecord.id = records.map CompletionRecord.id := by
  induction steps with
  | nil => rfl
  | cons step _ ih => rw [map_cons, map_cons, ih, step.sameCompletion.id]

theorem children :
    changed.map childInstanceId =
      records.map childInstanceId := by
  induction steps with
  | nil => rfl
  | cons step _ ih =>
    rw [map_cons, map_cons, ih, step.sameCompletion]

theorem claims_sublist :
    (claims.map fun claim => claim.record.id).Sublist (records.map CompletionRecord.id) := by
  induction steps with
  | nil => exact .refl _
  | @cons record first claim records others claims step _ ih =>
    cases claim with
    | none => exact ih.cons _
    | some handed =>
      have named : handed.record.id = record.id := by
        rw [step.names.1, step.sameCompletion.id]
      rw [Option.toList_some, singleton_append, map_cons, map_cons, named]
      exact ih.cons_cons _

theorem origin (distinct : (records.map CompletionRecord.id).Nodup) {after : CompletionRecord}
    (member : after ∈ changed) :
    ∃ before ∈ records, ∃ claim, queue.RecordStep call before after claim ∧
      claims.filter (fun handed => handed.record.id = before.id) = claim.toList := by
  induction steps with
  | nil => cases member
  | @cons record first claim records others claims step steps ih =>
    rw [map_cons, nodup_cons] at distinct
    have own : ∀ handed ∈ claim.toList, handed.record.id = record.id := by
      intro handed given
      rw [Option.mem_toList] at given
      subst given
      rw [step.names.1, step.sameCompletion.id]
    rcases mem_cons.mp member with rfl | later
    · refine ⟨record, mem_cons_self, claim, step, ?_⟩
      have elsewhere : claims.filter (fun handed => handed.record.id = record.id) = [] := by
        rw [filter_eq_nil_iff]
        intro handed given same
        have listed := steps.claims_sublist.subset (mem_map_of_mem given)
        exact distinct.1 (of_decide_eq_true same ▸ listed)
      rw [filter_append, elsewhere, append_nil, filter_eq_self]
      exact fun handed given => decide_eq_true (own handed given)
    · obtain ⟨before, kept, taken, earlier, filtered⟩ := ih distinct.2 later
      refine ⟨before, mem_cons_of_mem _ kept, taken, earlier, ?_⟩
      have other : claim.toList.filter (fun handed => handed.record.id = before.id) = [] := by
        rw [filter_eq_nil_iff]
        intro handed given same
        rw [own handed given] at same
        exact distinct.1 (of_decide_eq_true same ▸ mem_map_of_mem kept)
      rw [filter_append, other, nil_append, filtered]

theorem target {before : CompletionRecord} (member : before ∈ records) :
    ∃ after ∈ changed, ∃ claim, queue.RecordStep call before after claim := by
  induction steps with
  | nil => cases member
  | cons step _ ih =>
    rcases mem_cons.mp member with rfl | later
    · exact ⟨_, mem_cons_self, _, step⟩
    · obtain ⟨after, changed, claim, found⟩ := ih later
      exact ⟨after, mem_cons_of_mem _ changed, claim, found⟩

theorem claim_origin {handed : CompletionClaim} (given : handed ∈ claims) :
    ∃ before ∈ records, queue.RecordStep call before handed.record (some handed) ∧
      handed.record ∈ changed := by
  induction steps with
  | nil => cases given
  | @cons record first claim records others claims step _ ih =>
    rcases mem_append.mp given with now | later
    · rw [Option.mem_toList] at now
      subst now
      have same := step.names.1
      refine ⟨record, mem_cons_self, ?_, ?_⟩
      · rw [same]
        exact step
      · rw [same]
        exact mem_cons_self
    · obtain ⟨before, kept, found, present⟩ := ih later
      exact ⟨before, mem_cons_of_mem _ kept, found, mem_cons_of_mem _ present⟩

end

end RecordSteps

/-- An array that passes the storage's checks, with generations up to a bound. -/
structure GoodArray (parseDate : String → Option Int) (bound : Nat)
    (records : List CompletionRecord) : Prop where
  shaped : ∀ record ∈ records, Shaped parseDate record
  short : records.length ≤ maxCompletions
  ids : (records.map CompletionRecord.id).Nodup
  children : (records.map childInstanceId).Nodup
  generations : ∀ record ∈ records, record.claimGeneration ≤ bound
  doubles : ∀ record ∈ records, record.claimGeneration ≤ Double.exactLimit

theorem isCompletionArray_iff (parseDate : String → Option Int) (records : List CompletionRecord) :
    isCompletionArray parseDate records = true ↔ GoodArray parseDate maxSafeInteger records := by
  simp only [isCompletionArray, Bool.and_eq_true, decide_eq_true_eq, all_eq_true,
    isCompletionRecord_iff]
  constructor
  · rintro ⟨⟨⟨short, each⟩, ids⟩, children⟩
    exact ⟨fun record member => (each record member).1, short, ids, children,
      fun record member => (each record member).2,
      fun record member => (each record member).2.trans (by decide)⟩
  · rintro ⟨shaped, short, ids, children, generations, -⟩
    exact ⟨⟨⟨short, fun record member => ⟨shaped record member, generations record member⟩⟩, ids⟩,
      children⟩

namespace GoodArray

variable {bound larger : Nat} {records kept changed : List CompletionRecord}

theorem mono (good : GoodArray parseDate bound records) (le : bound ≤ larger) :
    GoodArray parseDate larger records where
  shaped := good.shaped
  short := good.short
  ids := good.ids
  children := good.children
  generations record member := (good.generations record member).trans le
  doubles := good.doubles

theorem retains (good : GoodArray parseDate bound records) (retains : Retains records kept) :
    GoodArray parseDate bound kept where
  shaped record member := good.shaped record (retains.sublist.subset member)
  short := retains.sublist.length_le.trans good.short
  ids := good.ids.sublist (retains.sublist.map _)
  children := good.children.sublist (retains.sublist.map _)
  generations record member := good.generations record (retains.sublist.subset member)
  doubles record member := good.doubles record (retains.sublist.subset member)

/-- How far one call can raise a generation. -/
def raise (call : QueueCall) : Nat := if isClaim call then 1 else 0

theorem length_le_raise {call : QueueCall} {record changed : CompletionRecord}
    {claim : Option CompletionClaim} (step : queue.RecordStep call record changed claim) :
    claim.toList.length ≤ raise call := by
  cases claims : isClaim call with
  | false =>
    rw [step.claim_none claims]
    exact Nat.zero_le _
  | true =>
    rw [raise, claims, if_pos rfl]
    cases claim <;> simp

theorem steps {call : QueueCall} {claims : List CompletionClaim}
    (good : GoodArray parseDate bound records)
    (steps : queue.RecordSteps call records changed claims) :
    GoodArray parseDate (bound + raise call) changed where
  shaped after member := by
    obtain ⟨before, present, _, step, -⟩ := steps.origin good.ids member
    exact step.shaped (good.shaped before present)
  short := by
    have lengths := congrArg length steps.ids
    rw [length_map, length_map] at lengths
    exact lengths ▸ good.short
  ids := steps.ids ▸ good.ids
  children := steps.children ▸ good.children
  generations after member := by
    obtain ⟨before, present, claim, step, -⟩ := steps.origin good.ids member
    have raised := (step.generation_bounds (good.doubles before present)).2.1
    exact raised.trans (Nat.add_le_add (good.generations before present) (length_le_raise step))
  doubles after member := by
    obtain ⟨before, present, claim, step, -⟩ := steps.origin good.ids member
    exact (step.generation_bounds (good.doubles before present)).2.2

theorem append (good : GoodArray parseDate bound records) {added : CompletionRecord}
    (shaped : Shaped parseDate added) (unclaimed : added.claimGeneration = 0)
    (room : records.length < maxCompletions) (newId : ∀ record ∈ records, record.id ≠ added.id)
    (newChild : ∀ record ∈ records, record.childInstanceId ≠ added.childInstanceId) :
    GoodArray parseDate bound (records ++ [added]) where
  shaped record member := by
    rcases mem_append.mp member with earlier | last
    · exact good.shaped record earlier
    · rw [mem_singleton.mp last]
      exact shaped
  short := by
    rw [length_append]
    exact room
  ids := by
    rw [map_append, nodup_append]
    refine ⟨good.ids, by simp, ?_⟩
    intro old member new single same
    obtain ⟨record, present, rfl⟩ := mem_map.mp member
    rw [map_singleton, mem_singleton] at single
    exact newId record present (same.trans single)
  children := by
    rw [map_append, nodup_append]
    refine ⟨good.children, by simp, ?_⟩
    intro old member new single same
    obtain ⟨record, present, rfl⟩ := mem_map.mp member
    rw [map_singleton, mem_singleton] at single
    exact newChild record present (same.trans single)
  generations record member := by
    rcases mem_append.mp member with earlier | last
    · exact good.generations record earlier
    · rw [mem_singleton.mp last, unclaimed]
      exact Nat.zero_le _
  doubles record member := by
    rcases mem_append.mp member with earlier | last
    · exact good.doubles record earlier
    · rw [mem_singleton.mp last, unclaimed]
      exact Nat.zero_le _

end GoodArray

/-- What is enqueued passes the storage's checks. -/
theorem newRecord_shaped {input : EnqueueCompletionInput} {id : String}
    (valid : validateInput parseDate input = .ok ()) (bounded : isBoundedString id 512 = true)
    (createdAt : Int) : Shaped parseDate (newRecord input id createdAt) := by
  rw [validateInput] at valid
  obtain ⟨_, parentInstance, valid⟩ := bind_eq_ok valid
  obtain ⟨_, parentSession, valid⟩ := bind_eq_ok valid
  obtain ⟨parented, valid⟩ := guard_eq_ok valid
  obtain ⟨_, child, valid⟩ := bind_eq_ok valid
  obtain ⟨_, childSession, valid⟩ := bind_eq_ok valid
  obtain ⟨digest, valid⟩ := guard_eq_ok valid
  have dated : ¬ (parseDate input.completedAt).isNone = true := by
    intro undated
    rw [if_pos undated] at valid
    cases valid
  have identified : ¬ (input.parentInstanceId.isNone && input.parentSessionId.isNone) = true := by
    intro missing
    rw [Bool.and_eq_true, Option.isNone_iff_eq_none, Option.isNone_iff_eq_none] at missing
    rw [missing.1, missing.2] at parented
    exact parented rfl
  have summary : (newRecord input id createdAt).summary.all (isBoundedString · 4000) = true := by
    cases given : input.summary with
    | none => simp [newRecord, given, truthy]
    | some summary =>
      have short := utf16Length_sliceFront_le (trim summary) 4000
      by_cases blank : sliceFront (trim summary) 4000 = ""
      · simp [newRecord, given, truthy, blank]
      · simp [newRecord, given, truthy, blank, isBoundedString, short]
  have childBounded : isBoundedString input.childInstanceId 512 = true :=
    requireBoundedIdentity_ok child
  have dates : (parseDate input.completedAt).isSome = true := by
    rw [Option.isSome_iff_ne_none]
    exact fun none => dated (none ▸ rfl)
  have named : (!(input.parentInstanceId.isNone && input.parentSessionId.isNone)) = true := by
    simpa only [Bool.not_eq_true', Bool.not_eq_true] using identified
  have hashed : isSha256 input.resultHash = true := by simpa using digest
  simp only [Shaped, isCompletionRecord, Bool.and_eq_true]
  exact ⟨⟨⟨⟨⟨⟨⟨⟨⟨⟨⟨bounded, requireBoundedIdentity_ok parentInstance⟩,
    requireBoundedIdentity_ok parentSession⟩, named⟩, childBounded⟩,
    requireBoundedIdentity_ok childSession⟩, summary⟩, hashed⟩, dates⟩, rfl⟩, rfl⟩, rfl⟩

end MaestroCompletionQueue
end Recode.Orchestrator

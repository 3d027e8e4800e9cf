import Recode.Delegation.WorkerSlots

/-! # The runs of a worker directory stay within its limits

The limits are checked against the records that are running and the one-shot tasks
counted. As long as every active turn has its record in the directory, these bound the
runs that are really executing. -/

namespace Recode.Delegation

open WorkerDirectory List

variable {directory : WorkerDirectory} {state after : State}

def State.activeRuns (state : State) : Nat :=
  (state.turns.filter Turn.active).length + (state.oneShots.filter OneShot.active).length

def State.activeRunsOf (state : State) (workerId : String) : Nat :=
  (state.turns.filter fun turn => turn.active && turn.workerId = workerId).length +
    (state.oneShots.filter fun oneShot => oneShot.active && oneShot.workerId = workerId).length

/-- The runs stay within the limits, no conversation has two, and the directory is not
too large. -/
structure Safe (directory : WorkerDirectory) (state : State) : Prop where
  total : state.activeRuns ≤ directory.maxActiveConversations
  worker : ∀ workerId, state.activeRunsOf workerId ≤ directory.maxActiveConversationsPerWorker
  conversation : ∀ conversationId,
    (state.turns.filter fun turn =>
      turn.active && turn.conversationId = conversationId).length ≤ 1
  size : state.conversations.entries.length ≤ directory.maxConversations

/-- What a call leaves, whether it throws or not. -/
structure CallKept (directory : WorkerDirectory) (state after : State) (reply : Reply) :
    Prop where
  linked : Linked after
  safe : Safe directory after
  unchanged : ∀ error, reply = .threw error → after.conversations = state.conversations

section

variable (linked : Linked state)
include linked

theorem CallKept.refl (safe : Safe directory state) (reply : Reply) :
    CallKept directory state state reply :=
  ⟨linked, safe, fun _ _ => rfl⟩

/-- Active turns are counted by the records that run. -/
theorem Linked.activeTurns_le (chosen : Turn → Bool) (kind : Nat → Bool)
    (active : ∀ turn ∈ state.turns, chosen turn = true → turn.active = true)
    (kinds : ∀ turn ∈ state.turns, chosen turn = true → kind turn.record = true) :
    (state.turns.filter chosen).length ≤ (state.running.filter kind).length := by
  have distinct : ((state.turns.filter chosen).map Turn.record).Nodup :=
    linked.single.sublist (filter_sublist.map _)
  have inside : (state.turns.filter chosen).map Turn.record ⊆ state.running.filter kind := by
    intro record member
    obtain ⟨turn, chose, rfl⟩ := mem_map.mp member
    obtain ⟨known, chose⟩ := mem_filter.mp chose
    have held := linked.active turn known (active turn known chose)
    exact mem_filter.mpr
      ⟨mem_filter.mpr ⟨held, linked.running turn known held⟩, kinds turn known chose⟩
  have length := (subperm_of_subset distinct inside).length_le
  rwa [length_map] at length

theorem Linked.activeRuns_le :
    state.activeRuns ≤ state.running.length + state.activeOneShots := by
  have turns := linked.activeTurns_le Turn.active (fun _ => true)
    (fun _ _ active => active) (fun _ _ _ => rfl)
  have tasks : (state.oneShots.filter OneShot.active).length ≤ state.oneShots.length :=
    length_filter_le _ _
  rw [filter_eq_self.mpr fun _ _ => rfl] at turns
  rw [State.activeRuns, linked.total]
  omega

theorem Linked.activeRunsOf_le (workerId : String) :
    state.activeRunsOf workerId ≤
      (state.running.filter fun record => (state.records record).worker.id = workerId).length +
        state.activeOneShotsOf workerId := by
  have turns := linked.activeTurns_le
    (fun turn => turn.active && turn.workerId = workerId)
    (fun record => (state.records record).worker.id = workerId)
    (fun _ _ chosen => (Bool.and_eq_true_iff.mp chosen).1)
    (fun turn member chosen => by
      rw [← (linked.identity turn member).2]
      exact (Bool.and_eq_true_iff.mp chosen).2)
  have tasks : (state.oneShots.filter fun oneShot =>
      oneShot.active && oneShot.workerId = workerId).length ≤
        (state.oneShots.filter fun oneShot => oneShot.workerId = workerId).length := by
    rw [← filter_filter]
    exact length_filter_le _ _
  rw [State.activeRunsOf, linked.oneShots]
  omega

theorem Linked.conversation (conversationId : String) :
    (state.turns.filter fun turn =>
      turn.active && turn.conversationId = conversationId).length ≤ 1 := by
  have distinct : ((state.turns.filter fun turn =>
      turn.active && turn.conversationId = conversationId).map Turn.record).Nodup :=
    linked.single.sublist (filter_sublist.map _)
  have same : ∀ record ∈ (state.turns.filter fun turn =>
      turn.active && turn.conversationId = conversationId).map Turn.record,
        state.conversations.get? conversationId = some record := by
    intro record member
    obtain ⟨turn, chosen, rfl⟩ := mem_map.mp member
    obtain ⟨known, chosen⟩ := mem_filter.mp chosen
    obtain ⟨active, named⟩ := Bool.and_eq_true_iff.mp chosen
    have held := linked.get?_of_held (linked.active turn known active)
    rwa [← (linked.identity turn known).1, of_decide_eq_true named] at held
  rw [← length_map (f := Turn.record)]
  generalize (state.turns.filter fun turn =>
    turn.active && turn.conversationId = conversationId).map Turn.record = records at *
  match records with
  | [] => exact Nat.zero_le 1
  | [_] => exact Nat.le_refl 1
  | first :: second :: rest =>
    have equal := (same first (by simp)).symm.trans (same second (by simp))
    rw [Option.some.inj equal] at distinct
    exact absurd mem_cons_self (nodup_cons.mp distinct).1

end

/-- What the limits allow when a call passes the check. -/
theorem assertCanStartWorkerIds_ok {requested : List String}
    (passed : directory.assertCanStartWorkerIds state requested = .ok ()) :
    state.running.length + state.activeOneShots + requested.length ≤
        directory.maxActiveConversations ∧ ∀ workerId ∈ requested,
        (state.running.filter fun record =>
            (state.records record).worker.id = workerId).length + state.activeOneShotsOf workerId +
            (requested.filter fun candidate => candidate = workerId).length ≤
          directory.maxActiveConversationsPerWorker := by
  rw [assertCanStartWorkerIds] at passed
  split at passed
  · cases passed
  rename_i room
  split at passed
  · cases passed
  rename_i none
  refine ⟨Nat.le_of_not_lt room, ?_⟩
  intro workerId member
  have fits := find?_eq_none.mp none workerId (mem_eraseDups.mpr member)
  rw [exceedsWorkerLimit, decide_eq_true_iff] at fits
  exact Nat.le_of_not_lt fits

/-- Some runs are added that the limits were checked for. -/
theorem Safe.started {requested : List String} (linked : Linked state)
    (safe : Safe directory state) (linkedAfter : Linked after)
    (passed : directory.assertCanStartWorkerIds state requested = .ok ())
    (runs : after.activeRuns ≤ state.activeRuns + requested.length)
    (runsOf : ∀ workerId, after.activeRunsOf workerId ≤ state.activeRunsOf workerId +
      (requested.filter fun candidate => candidate = workerId).length)
    (size : after.conversations.entries.length ≤ directory.maxConversations) :
    Safe directory after := by
  obtain ⟨total, workers⟩ := assertCanStartWorkerIds_ok passed
  refine ⟨?_, ?_, linkedAfter.conversation, size⟩
  · have counted := linked.activeRuns_le
    omega
  · intro workerId
    have bound := runsOf workerId
    by_cases asked : workerId ∈ requested
    · have counted := linked.activeRunsOf_le workerId
      have fits := workers workerId asked
      omega
    have none : (requested.filter fun candidate => candidate = workerId) = [] := by
      rw [filter_eq_nil_iff]
      intro candidate member same
      exact asked (of_decide_eq_true same ▸ member)
    rw [none, length_nil] at bound
    exact Nat.le_trans bound (safe.worker workerId)

/-- Runs that end, and records that go, leave the limits kept. -/
theorem Safe.fewer (safe : Safe directory state) (linkedAfter : Linked after)
    (runs : after.activeRuns ≤ state.activeRuns)
    (runsOf : ∀ workerId, after.activeRunsOf workerId ≤ state.activeRunsOf workerId)
    (size : after.conversations.entries.length ≤ directory.maxConversations) :
    Safe directory after :=
  ⟨Nat.le_trans runs safe.total, fun workerId => Nat.le_trans (runsOf workerId)
    (safe.worker workerId), linkedAfter.conversation, size⟩

end Recode.Delegation

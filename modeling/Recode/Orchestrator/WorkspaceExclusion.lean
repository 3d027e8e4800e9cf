import Recode.Orchestrator.CompletionGuarantees
import Recode.Orchestrator.SupervisorChildren
import Mathlib.Data.List.Perm.Subperm

/-! # Exclusive worktrees

A candidate for writing is checked against the instances that are registered
with an active status. That keeps two children that may write out of one
worktree as long as such a child lives only while its instance counts. -/

namespace Recode.Orchestrator

open MaestroCompletionQueue List Procedure

section Admission

variable {comparablePath : String → String} {candidate : WorkspaceOwnershipReceipt}
  {existing : List InstanceRecord} {parentInstanceId : Option String}

theorem checks_of_admitted (writes : candidate.access = .write)
    (admitted : assertWorkspaceAdmission comparablePath candidate existing parentInstanceId =
      .ok ()) :
    checkParent comparablePath candidate ((existing.filter isActive).find? fun record =>
        some record.id = Text.truthy parentInstanceId) = .ok () ∧
      ∀ record ∈ existing, isActive record = true →
        checkOwner candidate parentInstanceId record = .ok () := by
  rw [assertWorkspaceAdmission] at admitted
  obtain ⟨-, admitted⟩ := guard_eq_ok admitted
  rw [if_neg (by rw [writes]; decide)] at admitted
  obtain ⟨⟨⟩, parent, owners⟩ := bind_eq_ok admitted
  refine ⟨parent, ?_⟩
  intro record member active
  apply forM_eq_ok owners
  exact mem_filter.mpr ⟨member, active⟩

/-- An admitted candidate for writing shares its worktree with no active instance that may
write, not even with its parent. -/
theorem worktree_of_admitted (distinct : (existing.map InstanceRecord.id).Nodup)
    (named : parentInstanceId ≠ some "") (writes : candidate.access = .write)
    (admitted : assertWorkspaceAdmission comparablePath candidate existing parentInstanceId =
      .ok ()) {record : InstanceRecord} (member : record ∈ existing)
    (active : isActive record = true) {receipt : WorkspaceOwnershipReceipt}
    (known : record.workspaceReceipt = some receipt) (owns : receipt.access = .write) :
    receipt.worktreeIdentity ≠ candidate.worktreeIdentity := by
  obtain ⟨parent, owners⟩ := checks_of_admitted writes admitted
  have owner := owners record member active
  rw [checkOwner] at owner
  by_cases isParent : some record.id = parentInstanceId
  · have truthy : Text.truthy parentInstanceId = some record.id := by
      rw [← isParent]
      apply Text.truthy_some
      intro empty
      rw [empty] at isParent
      exact named isParent.symm
    have found : ((existing.filter isActive).find? fun other =>
        some other.id = Text.truthy parentInstanceId) = some record := by
      cases search : (existing.filter isActive).find? fun other =>
          some other.id = Text.truthy parentInstanceId with
      | none =>
        have absent := find?_eq_none.mp search record
          (mem_filter.mpr ⟨member, active⟩)
        rw [truthy] at absent
        exact (absent (decide_eq_true rfl)).elim
      | some other =>
        have same := find?_some search
        rw [truthy, decide_eq_true_iff] at same
        have listed := (mem_filter.mp (mem_of_find?_eq_some search)).1
        rw [inj_on_of_nodup_map distinct listed member (Option.some.inj same)]
    rw [found, checkParent, known] at parent
    intro shared
    have sibling : isSiblingWorktree comparablePath candidate receipt = false := by
      rw [isSiblingWorktree]
      split
      · rw [shared]
        simp
      · rfl
    simp only [owns, sibling, and_self, ↓reduceIte] at parent
    cases parent
  · rw [if_neg isParent, known] at owner
    intro shared
    simp only [owns, shared, ne_eq, not_true_eq_false, ↓reduceIte] at owner
    cases owner

end Admission

namespace Supervisor

/-- The registered live instances are those of their identifiers, and every child has one. -/
structure Linked (state : Supervisor) : Prop where
  registered : ∀ instanceId live, state.liveInstances.get? instanceId = some live →
    live < state.lives.fresh ∧ (state.record live).id = instanceId
  children : ∀ process < state.processes.fresh,
    (state.processes.read process).live < state.lives.fresh

theorem linked_initial : initial.Linked where
  registered _ _ found := by cases found
  children _ below := (Nat.not_lt_zero _ below).elim

variable {before after : Supervisor} {state : Supervisor}

theorem Linked.retains (linked : before.Linked)
    (retains : Retains before after) : after.Linked where
  registered instanceId live found := by
    obtain ⟨below, named⟩ := linked.registered instanceId live
      (retains.registered instanceId live found)
    exact ⟨retains.fresh ▸ below, (retains.identity live).id.trans named⟩
  children process below := by
    rw [retains.owner, retains.fresh]
    exact linked.children process (retains.processes ▸ below)

variable {receipt : WorkspaceOwnershipReceipt} {process : Nat}

theorem Linked.admits
    (linked : before.Linked) (admits : Admits before after receipt) : after.Linked where
  registered instanceId live found := by
    rw [admits.fresh]
    rcases admits.registered instanceId live found with old | ⟨rfl, named⟩
    · obtain ⟨below, named⟩ := linked.registered instanceId live old
      exact ⟨Nat.lt_succ_of_lt below, (admits.identity live below).id.trans named⟩
    · exact ⟨Nat.lt_succ_self _, named⟩
  children process below := by
    rw [admits.fresh]
    by_cases old : process < before.processes.fresh
    · rw [admits.owner process old]
      exact Nat.lt_succ_of_lt (linked.children process old)
    have new : process = before.processes.fresh := by
      have := admits.processes
      omega
    rw [new, admits.child (new ▸ below)]
    exact Nat.lt_succ_self _

theorem Linked.step (linked : state.Linked) (options : SupervisorOptions)
    (now : Int) (event : SupervisorEvent) : (state.step options now event).Linked := by
  rcases step_retains options state now event with retains | ⟨receipt, -, admits⟩
  · exact linked.retains retains
  · exact linked.admits admits

theorem Linked.run (linked : state.Linked) (options : SupervisorOptions)
    (events : List (Int × SupervisorEvent)) : (state.run options events).Linked := by
  induction events generalizing state with
  | nil => exact linked
  | cons event events ih => exact ih (linked.step options event.1 event.2)

/-- The records of the live instances have distinct identifiers. -/
theorem Linked.distinct (linked : state.Linked) :
    (state.listLiveInstances.map InstanceRecord.id).Nodup := by
  have keys : state.listLiveInstances.map InstanceRecord.id =
      state.liveInstances.entries.map Prod.fst := by
    rw [listLiveInstances, map_map]
    apply map_congr_left
    intro entry member
    apply (linked.registered entry.1 entry.2 _).2
    exact (state.liveInstances.get?_eq_some_iff _ _).mpr member
  rw [keys]
  exact state.liveInstances.keys_nodup

def WritesTo (state : Supervisor) (process : Nat) (worktree : String) : Prop :=
  process < state.processes.fresh ∧ (state.processes.read process).exited = false ∧
    ∃ receipt, (state.record (state.processes.read process).live).workspaceReceipt = some receipt ∧
      receipt.access = .write ∧ receipt.worktreeIdentity = worktree

def OwnerActive (state : Supervisor) (process : Nat) : Prop :=
  state.isRegistered (state.processes.read process).live = true ∧
    isActive (state.record (state.processes.read process).live) = true

/-- An admitted spawn finds no child that may write to its worktree and whose instance is active. -/
theorem ownerActive_of_admission {options : SupervisorOptions} {state : Supervisor}
    {event : SupervisorEvent} (linked : state.Linked)
    (admitted : state.admission options event = some receipt) (writes : receipt.access = .write)
    (child : state.WritesTo process receipt.worktreeIdentity) : ¬ state.OwnerActive process := by
  intro owner
  obtain ⟨-, -, own, known, owns, shared⟩ := child
  cases event with
  | spawn request inspected created uuid =>
    cases inspected with
    | error error => cases admitted
    | ok inspected =>
      rw [admission] at admitted
      split at admitted
      · rename_i checks
        obtain rfl := Option.some.inj admitted
        simp only [Bool.and_eq_true, isNewRequest, decide_eq_true_iff] at checks
        obtain ⟨⟨⟨⟨⟨-, named⟩, -⟩, -⟩, -⟩, passes⟩ := checks
        cases check : assertWorkspaceAdmission options.comparablePath inspected
            state.listLiveInstances request.parentInstanceId with
        | error error =>
          rw [check] at passes
          cases passes
        | ok _ =>
          have listed := (InsertionMap.get?_eq_some_iff _ _ _).mp (of_decide_eq_true owner.1)
          have member := mem_map_of_mem (f := fun entry => state.record entry.2) listed
          exact worktree_of_admitted linked.distinct named writes check member owner.2 known
            owns shared
      · cases admitted
  | _ => cases admitted

def Exclusive (state : Supervisor) : Prop :=
  ∀ worktree process other, state.WritesTo process worktree → state.WritesTo other worktree →
    process = other

theorem WritesTo.of_retains {worktree : String} (retains : Retains before after)
    (writes : after.WritesTo process worktree) : before.WritesTo process worktree := by
  obtain ⟨below, running, receipt, known, writes⟩ := writes
  refine ⟨retains.processes ▸ below, ?_, receipt, ?_, writes⟩
  · cases exited : (before.processes.read process).exited with
    | false => rfl
    | true => rw [retains.exited process exited] at running; exact running
  · rw [← known, retains.owner]
    exact (retains.identity _).workspaceReceipt.symm

theorem WritesTo.of_admits {worktree : String} (linked : before.Linked)
    (admits : Admits before after receipt) (writes : after.WritesTo process worktree) :
    before.WritesTo process worktree ∨ process = before.processes.fresh ∧ receipt.access = .write ∧
        receipt.worktreeIdentity = worktree := by
  obtain ⟨below, running, own, known, writes⟩ := writes
  by_cases old : process < before.processes.fresh
  · left
    refine ⟨old, ?_, own, ?_, writes⟩
    · cases exited : (before.processes.read process).exited with
      | false => rfl
      | true => rw [admits.exited process old exited] at running; exact running
    · rw [← known, admits.owner process old]
      exact (admits.identity _ (linked.children process old)).workspaceReceipt.symm
  · have new : process = before.processes.fresh := by
      have := admits.processes
      omega
    rw [new, admits.child (new ▸ below), admits.receipt] at known
    obtain rfl := Option.some.inj known
    exact Or.inr ⟨new, writes⟩

/-- Children stay exclusive when every child that may write to the worktree of an admitted spawn
belongs to an active instance. -/
theorem Exclusive.step {options : SupervisorOptions} {state : Supervisor} (linked : state.Linked)
    (exclusive : state.Exclusive) {now : Int} {event : SupervisorEvent}
    (owners : ∀ receipt, state.admission options event = some receipt → receipt.access = .write →
      ∀ process, state.WritesTo process receipt.worktreeIdentity → state.OwnerActive process) :
    (state.step options now event).Exclusive := by
  intro worktree process other first second
  rcases step_retains options state now event with retains | ⟨receipt, admitted, admits⟩
  · exact exclusive worktree process other (first.of_retains retains) (second.of_retains retains)
  have alone : receipt.access = .write → ∀ process,
      ¬ state.WritesTo process receipt.worktreeIdentity := fun writes process child =>
    ownerActive_of_admission linked admitted writes child
      (owners receipt admitted writes process child)
  rcases first.of_admits linked admits with old | ⟨new, writes, shared⟩
  · rcases second.of_admits linked admits with alsoOld | ⟨-, writes, shared⟩
    · exact exclusive worktree process other old alsoOld
    · exact (alone writes process (shared ▸ old)).elim
  · rcases second.of_admits linked admits with old | ⟨alsoNew, -, -⟩
    · exact (alone writes other (shared ▸ old)).elim
    · exact new.trans alsoNew.symm

/-- In every run, a spawn for writing is admitted beside no unexited child that may write to the
same worktree exactly when every such child belongs to an active instance; and when that holds at
every admission of the run, no two such children ever share a worktree. -/
theorem write_worktrees_exclusive (options : SupervisorOptions)
    (events : List (Int × SupervisorEvent)) :
    (∀ earlier event later receipt, events = earlier ++ event :: later →
      (initial.run options earlier).admission options event.2 = some receipt →
      receipt.access = .write →
        ((∀ process, ¬ (initial.run options earlier).WritesTo process receipt.worktreeIdentity) ↔
          ∀ process, (initial.run options earlier).WritesTo process receipt.worktreeIdentity →
            (initial.run options earlier).OwnerActive process)) ∧
      ((∀ earlier event later receipt, events = earlier ++ event :: later →
        (initial.run options earlier).admission options event.2 = some receipt →
        receipt.access = .write →
          ∀ process, (initial.run options earlier).WritesTo process receipt.worktreeIdentity →
            (initial.run options earlier).OwnerActive process) →
        ∀ earlier later, events = earlier ++ later → (initial.run options earlier).Exclusive) := by
  have linked : ∀ earlier, (initial.run options earlier).Linked := fun earlier =>
    linked_initial.run options earlier
  constructor
  · intro earlier event later receipt _ admitted writes
    constructor
    · intro none process child
      exact (none process child).elim
    · intro owners process child
      exact ownerActive_of_admission (linked earlier) admitted writes child (owners process child)
  · intro owners earlier
    induction earlier using reverseRecOn with
    | nil =>
      intro _ _ worktree process _ first
      exact (Nat.not_lt_zero process first.1).elim
    | append_singleton earlier event ih =>
      intro later whole
      rw [run_append]
      rw [append_assoc, singleton_append] at whole
      apply (ih (event :: later) whole).step (linked earlier)
      intro receipt admitted writes
      exact owners earlier event later receipt whole admitted writes

/-- Children are started for newer and newer instances, and the registered instances fit. -/
structure Manned (options : SupervisorOptions) (state : Supervisor) : Prop where
  linked : state.Linked
  ordered : ∀ process other, process < other → other < state.processes.fresh →
    (state.processes.read process).live < (state.processes.read other).live
  fits : state.liveInstances.entries.length ≤ options.maxLiveInstances

variable {options : SupervisorOptions} {now : Int} {event : SupervisorEvent}

theorem room_of_admission (admitted : state.admission options event = some receipt) :
    state.liveInstances.entries.length < options.maxLiveInstances := by
  unfold admission at admitted
  grind

theorem length_entries_le {before after : InsertionMap String Nat} (more : List String)
    (inside : ∀ key value, after.get? key = some value →
      before.get? key = some value ∨ key ∈ more) :
    after.entries.length ≤ before.entries.length + more.length := by
  have keys : after.entries.map Prod.fst ⊆ before.entries.map Prod.fst ++ more := by
    intro key member
    obtain ⟨entry, listed, rfl⟩ := mem_map.mp member
    rw [mem_append]
    exact (inside _ _ ((after.get?_eq_some_iff _ _).mpr listed)).imp_left fun old =>
      mem_map_of_mem ((before.get?_eq_some_iff _ _).mp old)
  simpa using (subperm_of_subset after.keys_nodup keys).length_le

theorem Manned.step (manned : state.Manned options) :
    (state.step options now event).Manned options := by
  have linked := manned.linked.step options now event
  rcases state.step_retains options now event with retains | ⟨receipt, admitted, admits⟩
  · refine ⟨linked, ?_, (length_entries_le [] fun id live found =>
      .inl (retains.registered id live found)).trans manned.fits⟩
    simp only [retains.processes, retains.owner]
    exact manned.ordered
  refine ⟨linked, fun process other earlier below => ?_, ?_⟩
  · rcases Nat.lt_or_ge other state.processes.fresh with old | new
    · rw [admits.owner process (earlier.trans old), admits.owner other old]
      exact manned.ordered process other earlier old
    · obtain rfl := Nat.le_antisymm (Nat.le_of_lt_succ (below.trans_le admits.processes)) new
      rw [admits.owner process earlier, admits.child below]
      exact manned.linked.children process earlier
  · refine (length_entries_le [((state.step options now event).record state.lives.fresh).id]
      fun id live found => ?_).trans (room_of_admission admitted)
    rcases admits.registered id live found with before | ⟨rfl, rfl⟩
    · exact .inl before
    · exact .inr (mem_singleton_self _)

/-- In every run each child is the only one that its instance ever has, and no more instances are
registered than may be. -/
theorem run_manned (options : SupervisorOptions) (events : List (Int × SupervisorEvent)) :
    (initial.run options events).Manned options := by
  have start : initial.Manned options :=
    ⟨linked_initial, fun _ _ _ below => absurd below (Nat.not_lt_zero _), Nat.zero_le _⟩
  generalize initial = state at start ⊢
  induction events generalizing state with
  | nil => exact start
  | cons event events ih => exact ih _ start.step

/-- A registry whose options were not set. -/
def defaultRegistry : SessionTurnLeaseRegistry where
  maxEntries := 512
  defaultTimeoutMs := 30000
  maxEntries_bounds := by decide
  timeout_nonneg := defaultQueue.lease_nonneg

/-- The options of a supervisor that were not set, with readings of dates for the runs below. -/
def defaultOptions : SupervisorOptions where
  maxLiveInstances := 10
  maxSubscribersPerInstance := 16
  turnLeases := defaultRegistry
  turnLeaseTimeoutMs := 30000
  completionQueue := defaultQueue
  terminalRetentionMs := 86400000
  parseDate := readEpoch
  toISOString _ := "1970-01-01T00:00:00.000Z"
  hashResult _ := ""
  comparablePath path := path

def writeReceipt (instanceId : String) : WorkspaceOwnershipReceipt :=
  ⟨instanceId, .write, "/repo", some "/repo/.git", "worktree"⟩

def spawnWriter (instanceId : String) : SupervisorEvent :=
  .spawn ⟨instanceId, .write, none, none⟩ (.ok (writeReceipt instanceId)) (.ok (some ⟨1, "start"⟩))
    "u"

/-- An instance is spawned, answers, comes online and is told to stop. -/
def stoppingWriter : List (Int × SupervisorEvent) :=
  [(0, spawnWriter "first"), (1, .spawnAnswered 0 (.state "session" none) "u"),
    (2, .spawnRegistered 0 (.ok none) "u"), (3, .stop "first" "u")]

/-- While the child of a stopping instance has not exited, a second instance that may write is
admitted to its worktree. -/
theorem stopping_writer_shares_worktree :
    (initial.run defaultOptions stoppingWriter).admission defaultOptions (spawnWriter "second") =
        some (writeReceipt "second") ∧
      (initial.run defaultOptions stoppingWriter).WritesTo 0 "worktree" ∧
      ¬ (initial.run defaultOptions
        (stoppingWriter ++ [(4, spawnWriter "second")])).Exclusive := by
  refine ⟨by decide +kernel, ⟨by decide +kernel, by decide +kernel, writeReceipt "first",
    by decide +kernel, rfl, rfl⟩, ?_⟩
  intro exclusive
  have same := exclusive "worktree" 0 1
    ⟨by decide +kernel, by decide +kernel, writeReceipt "first", by decide +kernel, rfl, rfl⟩
    ⟨by decide +kernel, by decide +kernel, writeReceipt "second", by decide +kernel, rfl, rfl⟩
  cases same

/-- A writer is stopped, its child exits, and a second writer is spawned on its worktree. -/
def replacedWriter : List (Int × SupervisorEvent) :=
  stoppingWriter ++ [(4, .exit 0 none "u"), (5, spawnWriter "second")]

/-- The first writer is admitted beside no child, and the second one beside one that exited. -/
theorem write_worktrees_exclusive_replaced :
    (initial.run defaultOptions replacedWriter).WritesTo 1 "worktree" ∧
      (initial.run defaultOptions replacedWriter).Exclusive := by
  refine ⟨⟨by decide +kernel, by decide +kernel, writeReceipt "second", by decide +kernel, rfl,
    rfl⟩, (write_worktrees_exclusive defaultOptions replacedWriter).2 ?_ _ [] (append_nil _).symm⟩
  rintro earlier event later receipt whole admitted writes process ⟨started, going, -⟩
  rcases earlier with _ | ⟨_, _ | ⟨_, _ | ⟨_, _ | ⟨_, _ | ⟨_, _ | ⟨_, _ | _⟩⟩⟩⟩⟩⟩ <;> cases whole
  · exact absurd started (Nat.not_lt_zero _)
  · cases admitted
  · cases admitted
  · cases admitted
  · cases admitted
  · obtain rfl : process = 0 := Nat.lt_one_iff.mp started
    exact absurd going (by decide +kernel)

end Supervisor
end Recode.Orchestrator

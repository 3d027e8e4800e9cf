import Recode.Orchestrator.TurnHolding

/-! # Turns and children that come and go

An instance gives its turn back before it loses its child, so no accepted token
is left with an instance that has none. -/

namespace Recode.Orchestrator

open LiveInstance ObjectStore
namespace Supervisor

open Option

variable {stopping : Option Nat} {state : Supervisor} {live : Nat}

/-- An instance with a child that can be sent commands is registered. -/
theorem Staffed.isRegistered (staffed : state.Staffed stopping)
    (child : state.HasChild live) : state.isRegistered live = true := by
  obtain ⟨process, below, rfl, runs⟩ := child
  apply staffed.removed
  rw [staffed.running process below runs]
  exact some_ne_none _

/-- Turns and waiting calls stay, and children are lost only by instances without a turn. -/
structure SameTurns (before after : Supervisor) : Prop where
  turnLeases : after.turnLeases = before.turnLeases
  tasks : after.tasks = before.tasks
  turn : ∀ live < before.lives.fresh, after.turnOf live = before.turnOf live
  syncs : ∀ live < before.lives.fresh,
    (after.lives.read live).identitySync = (before.lives.read live).identitySync
  lives : before.lives.fresh ≤ after.lives.fresh
  kept : before.processes.fresh ≤ after.processes.fresh
  owner : ∀ process < before.processes.fresh,
    (after.processes.read process).live = (before.processes.read process).live
  child : ∀ live token, before.turnOf live = some token → before.HasChild live → after.HasChild live

theorem HasChild.below (staffed : state.Staffed stopping)
    (child : state.HasChild live) : live < state.lives.fresh := by
  obtain ⟨process, below, rfl, -⟩ := child
  exact staffed.linked.children process below

theorem SameTurns.moves {after : Supervisor} (same : SameTurns state after)
    (staffed : state.Staffed stopping) (held : state.Held) (still : after.Staffed stopping) :
    Moves stopping state after := by
  have turns : ∀ live token, state.turnOf live = some token → state.HasChild live →
      after.turnOf live = some token ∧ after.HasChild live := by
    intro live token holds child
    rw [same.turn live (child.below staffed)]
    exact ⟨holds, same.child live token holds child⟩
  refine ⟨still, ?_, ?_⟩
  · constructor
    · rw [same.tasks]
      exact held.allocated
    · intro ref live process token asks
      rw [same.tasks] at asks
      obtain ⟨⟨below, owner⟩, known⟩ := held.asked ref live process token asks
      refine ⟨⟨Nat.lt_of_lt_of_le below same.kept, ?_⟩, same.turnLeases ▸ known⟩
      rw [same.owner process below, owner]
    · intro ref live process token asks
      rw [same.tasks] at asks
      obtain ⟨⟨below, owner⟩, known⟩ := held.prompted ref live process token asks
      refine ⟨⟨Nat.lt_of_lt_of_le below same.kept, ?_⟩, ?_⟩
      · rw [same.owner process below, owner]
      · rw [same.turnLeases, same.turn live]
        · exact known
        · rw [← owner]
          exact staffed.linked.children process below
    · rw [same.turnLeases, same.tasks]
      exact held.waiting
    · rw [same.turnLeases, same.tasks]
      intro token granted unreleased
      rcases held.held token granted unreleased with calls | ⟨live, holds, child⟩
      · exact Or.inl calls
      · exact Or.inr ⟨live, turns live token holds child⟩
  · constructor
    · rw [same.turnLeases]
    · exact same.lives
    · rw [same.turnLeases]
      exact fun _ _ => id
    · intro live token _ accepted
      rw [Accepted, same.turnLeases]
      rcases accepted with given | ⟨holds, child⟩
      · exact Or.inl given
      · exact Or.inr (turns live token holds child)
    · intro live known token _ pending
      rw [Pending, same.turnLeases, same.syncs live known]
      exact pending

section

variable (staffed : state.Staffed stopping) (held : state.Held)
include staffed held

/-- A process can no longer be sent commands, and its instance has no turn. -/
theorem moves_processes {process : Nat} {change : RpcProcess → RpcProcess}
    (owner : (change (state.processes.read process)).live = (state.processes.read process).live)
    (exited : (state.processes.read process).exited = true →
      (change (state.processes.read process)).exited = true)
    (disposing : (state.processes.read process).disposing = true →
      (change (state.processes.read process)).disposing = true)
    (free : process < state.processes.fresh → state.isRunning process = true →
      state.turnOf (state.processes.read process).live = none) :
    Moves stopping state { state with processes := state.processes.modify process change } := by
  have owners : ∀ other, ((state.processes.modify process change).read other).live =
      (state.processes.read other).live := fun other =>
    read_modify_kept RpcProcess.live state.processes process other owner
  have runs : ∀ other, isRunning { state with
      processes := state.processes.modify process change } other = true →
        state.isRunning other = true := by
    intro other running
    by_cases same : other = process
    · subst same
      simp only [isRunning, read_modify_self, Bool.and_eq_true,
        Bool.not_eq_true'] at running ⊢
      constructor
      · by_contra exit
        rw [exited (Bool.not_eq_false _ ▸ exit)] at running
        cases running.1
      · by_contra dispose
        rw [disposing (Bool.not_eq_false _ ▸ dispose)] at running
        cases running.2
    · simp only [isRunning, read_modify_of_ne _ _ same] at running
      exact running
  apply SameTurns.moves _ staffed held
  · constructor
    · constructor
      · exact staffed.linked.registered
      · intro other below
        rw [owners]
        exact staffed.linked.children other below
    · exact staffed.unnamed
    · exact staffed.distinct
    · exact staffed.bound
    · intro live other is
      rw [owners]
      exact staffed.process live other is
    · intro other below running
      rw [owners]
      exact staffed.running other below (runs other running)
    · exact staffed.removed
    · exact staffed.ending
    · exact staffed.called
    · exact staffed.cleaned
  · refine ⟨rfl, rfl, fun _ _ => rfl, fun _ _ => rfl, Nat.le_refl _, Nat.le_refl _,
      fun other _ => owners other, ?_⟩
    intro live token holds child
    obtain ⟨other, below, owned, running⟩ := child
    refine ⟨other, below, (owners other).trans owned, ?_⟩
    by_cases same : other = process
    · subst same
      rw [← owned, free below running] at holds
      cases holds
    · simp only [isRunning, read_modify_of_ne _ _ same]
      exact running

/-- An instance is unsubscribed from a process that can no longer be sent commands. -/
theorem moves_unbound
    (stopped : ∀ process, state.processOf live = some process → state.isRunning process = false) :
    Moves stopping state ((state.clearBindings live).modifyLive live fun entry =>
      { entry with rpcProcess := none }) := by
  let after := (state.clearBindings live).modifyLive live fun entry =>
    { entry with rpcProcess := none }
  let clear : LiveInstance → LiveInstance := fun entry => { entry with bound := none }
  let take : LiveInstance → LiveInstance := fun entry => { entry with rpcProcess := none }
  have record : ∀ other, after.record other = state.record other := fun other =>
    ((state.clearBindings live).kept_modifyLive LiveInstance.record live other take rfl).trans
      (state.kept_modifyLive LiveInstance.record live other clear rfl)
  have turn : ∀ other, after.turnOf other = state.turnOf other := fun other =>
    ((state.clearBindings live).kept_modifyLive turnLease live other take rfl).trans
      (state.kept_modifyLive turnLease live other clear rfl)
  have syncs : ∀ other, (after.lives.read other).identitySync =
      (state.lives.read other).identitySync := fun other =>
    ((state.clearBindings live).kept_modifyLive identitySync live other take
      rfl).trans (state.kept_modifyLive identitySync live other clear rfl)
  have self : after.processOf live = none ∧ (after.lives.read live).bound = none := by
    simp [after, processOf, modifyLive, clearBindings]
  have others : ∀ other, other ≠ live → after.processOf other = state.processOf other ∧
      (after.lives.read other).bound = (state.lives.read other).bound := by
    intro other different
    simp [after, processOf, modifyLive, clearBindings, read_modify_of_ne, different]
  have staffs : ∀ other, after.processOf other ≠ none →
      other ≠ live ∧ state.processOf other ≠ none := by
    intro other staffs
    have different : other ≠ live := fun same => staffs (same ▸ self.1)
    rw [(others other different).1] at staffs
    exact ⟨different, staffs⟩
  suffices both : after.Staffed stopping ∧ SameTurns state after from
    both.2.moves staffed held both.1
  constructor
  · constructor
    · apply staffed.linked.retains
      exact (state.retains_clearBindings live).trans
        (retains_modifyLive (state.clearBindings live) live take (.refl _))
    · intro other unknown
      rw [record]
      exact staffed.unnamed other unknown
    · intro known below other
      rw [record, record]
      exact staffed.distinct known below other
    · intro other
      by_cases same : other = live
      · rw [same, self.1, self.2]
      · rw [(others other same).1, (others other same).2, staffed.bound]
    · intro other process is
      obtain ⟨different, -⟩ := staffs other (by rw [is]; exact some_ne_none _)
      rw [(others other different).1] at is
      exact staffed.process other process is
    · intro process below runs
      have is := staffed.running process below runs
      have different : (state.processes.read process).live ≠ live := by
        intro same
        rw [same] at is
        have halted := stopped process is
        rw [show state.isRunning process = true from runs] at halted
        cases halted
      exact (others _ different).1.trans is
    · intro other is
      obtain ⟨-, was⟩ := staffs other is
      rw [isRegistered, record]
      exact staffed.removed other was
    · intro other spared is
      obtain ⟨-, was⟩ := staffs other is
      rw [record]
      exact staffed.ending other spared was
    · exact staffed.called
    · intro ref other cleans
      by_cases same : other = live
      · rw [same]
        exact self.1
      · rw [(others other same).1]
        exact staffed.cleaned ref other cleans
  · exact ⟨rfl, rfl, fun other _ => turn other, fun other _ => syncs other, Nat.le_refl _,
      Nat.le_refl _, fun _ _ => rfl, fun _ _ _ child => child⟩

theorem moves_deleteLive
    (none : state.processOf live = none) : Moves stopping state (state.deleteLive live) := by
  apply SameTurns.moves _ staffed held
  · constructor
    · exact staffed.linked.retains (state.retains_deleteLive live)
    · exact staffed.unnamed
    · exact staffed.distinct
    · exact staffed.bound
    · exact staffed.process
    · exact staffed.running
    · intro other staffs
      have registered := staffed.removed other staffs
      rw [isRegistered, decide_eq_true_iff] at registered ⊢
      have below := (staffed.linked.registered _ other registered).1
      have different : (state.record other).id ≠ (state.record live).id := by
        intro same
        rw [staffed.distinct other below live same.symm] at none
        exact staffs none
      rw [deleteLive]
      exact (InsertionMap.get?_erase_of_ne _ different).trans registered
    · exact staffed.ending
    · exact staffed.called
    · exact staffed.cleaned
  · exact ⟨rfl, rfl, fun _ _ => rfl, fun _ _ => rfl, Nat.le_refl _, Nat.le_refl _,
      fun _ _ => rfl, fun _ _ _ child => child⟩

theorem moves_addLive (record : InstanceRecord) (named : record.id ≠ "")
    (new : ∀ live < state.lives.fresh, (state.record live).id ≠ record.id) :
    Moves stopping state (state.addLive record) := by
  let entry : LiveInstance := { record := record }
  have self : (state.lives.alloc entry).read state.lives.fresh = entry :=
    read_alloc_fresh ..
  have others : ∀ live, live ≠ state.lives.fresh →
      (state.lives.alloc entry).read live = state.lives.read live := fun live different =>
    read_alloc_of_ne _ _ different
  have records : ∀ live, live ≠ state.lives.fresh →
      (state.addLive record).record live = state.record live := fun live different =>
    congrArg LiveInstance.record (others live different)
  have fresh : (state.addLive record).record state.lives.fresh = record :=
    congrArg LiveInstance.record self
  have processes : ∀ live, (state.addLive record).processOf live ≠ none →
      live ≠ state.lives.fresh ∧ (state.addLive record).processOf live = state.processOf live := by
    intro live staffs
    have different : live ≠ state.lives.fresh := by
      intro same
      apply staffs
      rw [same]
      exact congrArg LiveInstance.rpcProcess self
    exact ⟨different, congrArg LiveInstance.rpcProcess (others live different)⟩
  apply SameTurns.moves _ staffed held
  · constructor
    · constructor
      · intro instanceId live found
        change (state.liveInstances.insert record.id state.lives.fresh).get? instanceId = some live
          at found
        rw [InsertionMap.get?_insert] at found
        split at found
        · rename_i same
          rw [← some.inj found, fresh]
          exact ⟨Nat.lt_succ_self _, same.symm⟩
        · obtain ⟨below, id⟩ := staffed.linked.registered instanceId live found
          rw [records live (Nat.ne_of_lt below)]
          exact ⟨Nat.lt_succ_of_lt below, id⟩
      · exact fun process below => Nat.lt_succ_of_lt (staffed.linked.children process below)
    · intro live unknown
      rw [records live (Nat.ne_of_gt unknown)]
      exact staffed.unnamed live (Nat.le_of_lt unknown)
    · intro live below other same
      by_cases isNew : live = state.lives.fresh
      · by_cases alsoNew : other = state.lives.fresh
        · rw [isNew, alsoNew]
        rw [isNew, fresh, records other alsoNew] at same
        by_cases known : other < state.lives.fresh
        · exact (new other known same).elim
        · rw [staffed.unnamed other (Nat.le_of_not_lt known)] at same
          exact (named same.symm).elim
      · have known : live < state.lives.fresh := by
          have := Nat.lt_succ_iff.mp below
          omega
        by_cases alsoNew : other = state.lives.fresh
        · rw [alsoNew, fresh, records live isNew] at same
          exact (new live known same.symm).elim
        · rw [records live isNew, records other alsoNew] at same
          exact staffed.distinct live known other same
    · intro live
      by_cases isNew : live = state.lives.fresh
      · rw [isNew]
        change ((state.lives.alloc entry).read state.lives.fresh).bound =
          ((state.lives.alloc entry).read state.lives.fresh).rpcProcess
        rw [self]
      · change ((state.lives.alloc entry).read live).bound =
          ((state.lives.alloc entry).read live).rpcProcess
        rw [others live isNew]
        exact staffed.bound live
    · intro live process is
      have staffs := processes live (by rw [is]; exact some_ne_none _)
      rw [staffs.2] at is
      exact staffed.process live process is
    · intro process below runs
      have known := staffed.linked.children process below
      have is := staffed.running process below runs
      exact (congrArg LiveInstance.rpcProcess (others _ (Nat.ne_of_lt known))).trans is
    · intro live staffs
      obtain ⟨different, same⟩ := processes live staffs
      rw [same] at staffs
      have registered := staffed.removed live staffs
      rw [isRegistered, decide_eq_true_iff] at registered ⊢
      have below := (staffed.linked.registered _ live registered).1
      rw [records live different]
      exact (InsertionMap.get?_insert_of_ne _ _ (new live below)).trans registered
    · intro live spared staffs
      obtain ⟨different, same⟩ := processes live staffs
      rw [same] at staffs
      rw [records live different]
      exact staffed.ending live spared staffs
    · exact fun ref live calls => Nat.lt_succ_of_lt (staffed.called ref live calls)
    · intro ref live cleans
      by_cases isNew : live = state.lives.fresh
      · rw [isNew]
        exact congrArg LiveInstance.rpcProcess self
      · exact (congrArg LiveInstance.rpcProcess (others live isNew)).trans
          (staffed.cleaned ref live cleans)
  · refine ⟨rfl, rfl, ?_, ?_, Nat.le_succ _, Nat.le_refl _, fun _ _ => rfl,
      fun _ _ _ child => child⟩
    · exact fun live below => congrArg turnLease (others live (Nat.ne_of_lt below))
    · exact fun live below => congrArg identitySync (others live (Nat.ne_of_lt below))

theorem moves_addChild (none : state.processOf live = none) (below : live < state.lives.fresh)
    (registered : state.isRegistered live = true)
    (runs : isEnding (state.record live).status = false)
    (uncleaned : ∀ ref, (state.tasks.read ref).cleans ≠ some live) :
    Moves stopping state (bindRpcProcess { state with
      processes := state.processes.alloc ⟨live, false, false⟩ } live state.processes.fresh) := by
  let made : Supervisor := { state with
    processes := state.processes.alloc ⟨live, false, false⟩ }
  let after := made.bindRpcProcess live state.processes.fresh
  let clear : LiveInstance → LiveInstance := fun entry => { entry with bound := .none }
  let bind : LiveInstance → LiveInstance := fun entry =>
    { entry with rpcProcess := some state.processes.fresh, bound := some state.processes.fresh }
  have record : ∀ other, after.record other = state.record other := fun other =>
    ((made.clearBindings live).kept_modifyLive LiveInstance.record live other bind rfl).trans
      (made.kept_modifyLive LiveInstance.record live other clear rfl)
  have turn : ∀ other, after.turnOf other = state.turnOf other := fun other =>
    ((made.clearBindings live).kept_modifyLive turnLease live other bind rfl).trans
      (made.kept_modifyLive turnLease live other clear rfl)
  have syncs : ∀ other, (after.lives.read other).identitySync =
      (state.lives.read other).identitySync := fun other =>
    ((made.clearBindings live).kept_modifyLive identitySync live other bind
      rfl).trans (made.kept_modifyLive identitySync live other clear rfl)
  have self : after.processOf live = some state.processes.fresh ∧
      (after.lives.read live).bound = some state.processes.fresh := by
    simp [after, processOf, modifyLive, bindRpcProcess]
  have others : ∀ other, other ≠ live → after.processOf other = state.processOf other ∧
      (after.lives.read other).bound = (state.lives.read other).bound := by
    intro other different
    simp [after, made, processOf, modifyLive, bindRpcProcess, clearBindings,
      read_modify_of_ne, different]
  have child : after.processes.read state.processes.fresh = ⟨live, false, false⟩ :=
    read_alloc_fresh ..
  have children : ∀ process, process ≠ state.processes.fresh →
      after.processes.read process = state.processes.read process := fun process different =>
    read_alloc_of_ne _ _ different
  have older : ∀ process < after.processes.fresh, process ≠ state.processes.fresh →
      process < state.processes.fresh := by
    intro process allocated different
    have : process < state.processes.fresh + 1 := allocated
    omega
  suffices both : after.Staffed stopping ∧ SameTurns state after from
    both.2.moves staffed held both.1
  constructor
  · constructor
    · constructor
      · intro instanceId other found
        rw [record]
        exact staffed.linked.registered instanceId other found
      · intro process allocated
        by_cases new : process = state.processes.fresh
        · rw [new, child]
          exact below
        · rw [children process new]
          exact staffed.linked.children process (older process allocated new)
    · intro other unknown
      rw [record]
      exact staffed.unnamed other unknown
    · intro known under other
      rw [record, record]
      exact staffed.distinct known under other
    · intro other
      by_cases same : other = live
      · rw [same, self.1, self.2]
      · rw [(others other same).1, (others other same).2, staffed.bound]
    · intro other process is
      by_cases same : other = live
      · rw [same, self.1] at is
        rw [← some.inj is, child, same]
        exact ⟨Nat.lt_succ_self _, rfl⟩
      · rw [(others other same).1] at is
        obtain ⟨allocated, owner⟩ := staffed.process other process is
        rw [children process (Nat.ne_of_lt allocated)]
        exact ⟨Nat.lt_succ_of_lt allocated, owner⟩
    · intro process allocated running
      by_cases new : process = state.processes.fresh
      · rw [new, child]
        exact self.1
      have known := older process allocated new
      rw [isRunning, children process new] at running
      have is := staffed.running process known running
      rw [children process new]
      have different : (state.processes.read process).live ≠ live := by
        intro same
        rw [same, none] at is
        cases is
      exact (others _ different).1.trans is
    · intro other staffs
      rw [isRegistered, record]
      by_cases same : other = live
      · rw [same]
        exact registered
      · rw [(others other same).1] at staffs
        exact staffed.removed other staffs
    · intro other spared staffs
      rw [record]
      by_cases same : other = live
      · rw [same]
        exact runs
      · rw [(others other same).1] at staffs
        exact staffed.ending other spared staffs
    · exact staffed.called
    · intro ref other cleans
      have different : other ≠ live := fun same => uncleaned ref (same ▸ cleans)
      rw [(others other different).1]
      exact staffed.cleaned ref other cleans
  · refine ⟨rfl, rfl, fun other _ => turn other, fun other _ => syncs other, Nat.le_refl _,
      Nat.le_succ _, ?_, ?_⟩
    · intro process known
      rw [children process (Nat.ne_of_lt known)]
    · intro other token _ held
      obtain ⟨process, known, owner, running⟩ := held
      refine ⟨process, Nat.lt_succ_of_lt known, ?_, ?_⟩
      · rw [children process (Nat.ne_of_lt known)]
        exact owner
      · rw [isRunning, children process (Nat.ne_of_lt known)]
        exact running

end

end Supervisor
end Recode.Orchestrator

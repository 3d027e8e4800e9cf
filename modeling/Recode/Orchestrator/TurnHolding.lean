import Recode.Orchestrator.TurnLeaseProgress
import Recode.Orchestrator.WorkspaceExclusion

/-! # Who holds a turn

A granted token is held by the call that asked for it, and after an accepted
prompt by its instance, whose child is then running. The invariant relates the
children, the waiting calls and the registry of turns; each change of the
supervisor keeps it and loses sight of no token. -/

namespace Recode.Orchestrator

open Option ObjectStore SessionTurnLeaseRegistry

/-- The live instance whose process a waiting call has taken away. -/
def Task.cleans : Task → Option Nat
  | .dispose live _ _ => some live
  | .disconnect live _ _ _ => some live
  | .exitPresence live => some live
  | _ => none

/-- The live instance of a waiting call. -/
def Task.live : Task → Option Nat
  | .spawnState live _ => some live
  | .spawnPresence live => some live
  | .dispose live _ _ => some live
  | .disconnect live _ _ _ => some live
  | .exitPresence live => some live
  | .acquire live _ _ => some live
  | .prompt live _ _ => some live
  | .command live _ _ => some live
  | .refresh live _ => some live
  | .finished => none

theorem Task.live_of_cleans {task : Task} {live : Nat} (cleans : task.cleans = some live) :
    task.live = some live := by
  cases task <;> first | exact cleans | cases cleans

/-- The token that a call of `handleRpcForLive` holds or waits for. -/
def Task.turn : Task → Option Nat
  | .acquire _ _ token => some token
  | .prompt _ _ token => some token
  | _ => none

namespace Supervisor

section Reads

variable (state : Supervisor) (live : Nat)

def turnOf : Option Nat := (state.lives.read live).turnLease

def processOf : Option Nat := (state.lives.read live).rpcProcess

/-- A live instance has a child that can be sent commands. -/
def HasChild : Prop :=
  ∃ process < state.processes.fresh, (state.processes.read process).live = live ∧
    state.isRunning process = true

def Accepted (token : Nat) : Prop :=
  state.turnLeases.releasedToken token = true ∨ state.turnOf live = some token ∧ state.HasChild live

/-- A synchronization that will release a token waits, unless it was released. -/
def Pending (token : Nat) : Prop :=
  state.turnLeases.releasedToken token = true ∨ ∃ sync ∈ (state.lives.read live).identitySync,
      sync.token = token ∧ sync.releaseAfterSync = true

end Reads

/-- The children and their instances. A call may be about to stop an instance. -/
structure Staffed (state : Supervisor) (stopping : Option Nat) : Prop where
  linked : state.Linked
  unnamed : ∀ live, state.lives.fresh ≤ live → (state.record live).id = ""
  distinct : ∀ live < state.lives.fresh, ∀ other,
    (state.record other).id = (state.record live).id → other = live
  bound : ∀ live, (state.lives.read live).bound = state.processOf live
  process : ∀ live process, state.processOf live = some process →
    process < state.processes.fresh ∧ (state.processes.read process).live = live
  running : ∀ process < state.processes.fresh, state.isRunning process = true →
    state.processOf (state.processes.read process).live = some process
  removed : ∀ live, state.processOf live ≠ none → state.isRegistered live = true
  ending : ∀ live, stopping ≠ some live → state.processOf live ≠ none →
    isEnding (state.record live).status = false
  called : ∀ ref live, (state.tasks.read ref).live = some live → live < state.lives.fresh
  cleaned : ∀ ref live, (state.tasks.read ref).cleans = some live → state.processOf live = none

/-- The waiting calls and the tokens. -/
structure Held (state : Supervisor) : Prop where
  allocated : ∀ ref, (state.tasks.read ref).turn ≠ none → ref < state.tasks.fresh
  asked : ∀ ref live process token, state.tasks.read ref = .acquire live process token →
    (process < state.processes.fresh ∧ (state.processes.read process).live = live) ∧
      token < state.turnLeases.acquisitions.fresh
  prompted : ∀ ref live process token, state.tasks.read ref = .prompt live process token →
    (process < state.processes.fresh ∧ (state.processes.read process).live = live) ∧
      (token < state.turnLeases.acquisitions.fresh ∧ state.turnLeases.Granted token) ∧
        (state.turnLeases.releasedToken token = true ∨ state.turnOf live = some token)
  waiting : ∀ token, state.turnLeases.waitsFor token ≠ none → state.turnLeases.Granted token ∨
    ∃ ref live process, state.tasks.read ref = .acquire live process token
  held : ∀ token, state.turnLeases.Granted token → state.turnLeases.releasedToken token = false →
      (∃ ref, (state.tasks.read ref).turn = some token) ∨
        ∃ live, state.turnOf live = some token ∧ state.HasChild live

/-- No token is lost sight of. -/
structure Advance (before after : Supervisor) : Prop where
  tokens : before.turnLeases.acquisitions.fresh ≤ after.turnLeases.acquisitions.fresh
  lives : before.lives.fresh ≤ after.lives.fresh
  released : ∀ token < before.turnLeases.acquisitions.fresh,
    before.turnLeases.releasedToken token = true → after.turnLeases.releasedToken token = true
  accepted : ∀ live, ∀ token < before.turnLeases.acquisitions.fresh,
    before.Accepted live token → after.Accepted live token
  pending : ∀ live < before.lives.fresh, ∀ token < before.turnLeases.acquisitions.fresh,
    before.Pending live token → after.Pending live token

/-- A change that keeps the invariant and sight of every token. -/
structure Moves (stopping : Option Nat) (before after : Supervisor) : Prop where
  staffed : after.Staffed stopping
  held : after.Held
  advance : Advance before after

namespace Advance

theorem refl (state : Supervisor) : Advance state state :=
  ⟨Nat.le_refl _, Nat.le_refl _, fun _ _ => id, fun _ _ _ => id, fun _ _ _ _ => id⟩

theorem trans {first second third : Supervisor} (before : Advance first second)
    (after : Advance second third) : Advance first third where
  tokens := Nat.le_trans before.tokens after.tokens
  lives := Nat.le_trans before.lives after.lives
  released token below given :=
    after.released token (Nat.lt_of_lt_of_le below before.tokens)
      (before.released token below given)
  accepted live token below given :=
    after.accepted live token (Nat.lt_of_lt_of_le below before.tokens)
      (before.accepted live token below given)
  pending live known token below given :=
    after.pending live (Nat.lt_of_lt_of_le known before.lives) token
      (Nat.lt_of_lt_of_le below before.tokens) (before.pending live known token below given)

end Advance

theorem Moves.trans {earlier : Option Nat} {first second third : Supervisor}
    (before : Moves earlier first second) (after : Moves stopping second third) :
    Moves stopping first third :=
  ⟨after.staffed, after.held, before.advance.trans after.advance⟩

variable {stopping : Option Nat} {state : Supervisor}

theorem Moves.refl (staffed : state.Staffed stopping) (held : state.Held) :
    Moves stopping state state :=
  ⟨staffed, held, .refl state⟩

/-! ## Changes that leave the children alone -/

/-- The instances and their children stay as they are. -/
structure SameStaff (stopping : Option Nat) (before after : Supervisor) : Prop where
  liveInstances : after.liveInstances = before.liveInstances
  processes : after.processes = before.processes
  fresh : after.lives.fresh = before.lives.fresh
  record : ∀ live, (before.record live).SameIdentity (after.record live)
  ending : ∀ live, stopping ≠ some live → isEnding (after.record live).status = true →
    isEnding (before.record live).status = true
  process : ∀ live, after.processOf live = before.processOf live
  bound : ∀ live, (after.lives.read live).bound = (before.lives.read live).bound
  called : ∀ ref live, (after.tasks.read ref).live = some live →
    (before.tasks.read ref).live = some live ∨ live < before.lives.fresh
  cleaned : ∀ ref live, (after.tasks.read ref).cleans = some live →
    (before.tasks.read ref).cleans = some live ∨ before.processOf live = none

namespace SameStaff

variable {after : Supervisor} (same : SameStaff stopping state after)
include same

theorem isRegistered (live : Nat) : after.isRegistered live = state.isRegistered live := by
  rw [Supervisor.isRegistered, same.liveInstances, (same.record live).id, Supervisor.isRegistered]

theorem isRunning (process : Nat) : after.isRunning process = state.isRunning process := by
  rw [Supervisor.isRunning, same.processes, Supervisor.isRunning]

theorem hasChild {live : Nat} : after.HasChild live ↔ state.HasChild live := by
  simp only [HasChild, same.processes, same.isRunning]

theorem retains : Retains state after where
  fresh := same.fresh
  identity := same.record
  processes := by rw [same.processes]
  owner _ := by rw [same.processes]
  exited _ := by rw [same.processes]; exact id
  registered _ _ := by rw [same.liveInstances]; exact id

theorem staffed (staffed : state.Staffed stopping) : after.Staffed stopping where
  linked := staffed.linked.retains same.retains
  unnamed live := by
    rw [same.fresh, (same.record live).id]
    exact staffed.unnamed live
  distinct live below other := by
    rw [(same.record live).id, (same.record other).id]
    exact staffed.distinct live (same.fresh ▸ below) other
  bound live := by rw [same.bound, same.process, staffed.bound]
  process live process := by
    rw [same.process, same.processes]
    exact staffed.process live process
  running process := by
    rw [same.processes, same.isRunning, same.process]
    exact staffed.running process
  removed live := by
    rw [same.process, same.isRegistered]
    exact staffed.removed live
  ending live spared staffs := by
    rw [same.process] at staffs
    have runs := staffed.ending live spared staffs
    cases ending : isEnding (after.record live).status with
    | false => rfl
    | true =>
      rw [same.ending live spared ending] at runs
      exact runs
  called ref live calls := by
    rw [same.fresh]
    rcases same.called ref live calls with before | below
    · exact staffed.called ref live before
    · exact below
  cleaned ref live cleans := by
    rw [same.process]
    rcases same.cleaned ref live cleans with before | none
    · exact staffed.cleaned ref live before
    · exact none

end SameStaff

/-- A change touches neither turns nor children. It may touch the waiting synchronizations. -/
structure Steady (stopping : Option Nat) (before after : Supervisor) : Prop
    extends SameStaff stopping before after where
  tasks : after.tasks = before.tasks
  turnLeases : after.turnLeases = before.turnLeases
  turn : ∀ live, after.turnOf live = before.turnOf live

theorem Quiet.steady {after : Supervisor} (quiet : Quiet state after) :
    Steady stopping state after where
  liveInstances := quiet.liveInstances
  processes := quiet.processes
  tasks := quiet.tasks
  turnLeases := quiet.turnLeases
  fresh := quiet.fresh
  record live := (quiet.lives live).record.toSameIdentity
  ending live _ := (quiet.lives live).record.ending
  process live := (quiet.lives live).rpcProcess
  bound live := (quiet.lives live).bound
  turn live := (quiet.lives live).turnLease
  called _ _ calls := Or.inl (quiet.tasks ▸ calls)
  cleaned _ _ cleans := Or.inl (quiet.tasks ▸ cleans)

namespace Steady

variable {after : Supervisor} (steady : Steady stopping state after)
include steady

theorem held (held : state.Held) : after.Held where
  allocated := by
    rw [steady.tasks]
    exact held.allocated
  asked := by
    rw [steady.tasks, steady.processes, steady.turnLeases]
    exact held.asked
  prompted ref live := by
    rw [steady.tasks, steady.processes, steady.turnLeases, steady.turn]
    exact held.prompted ref live
  waiting := by
    rw [steady.tasks, steady.turnLeases]
    exact held.waiting
  held := by
    simp only [steady.tasks, steady.turnLeases, steady.turn, steady.toSameStaff.hasChild]
    exact held.held

/-- A change that touches no turn moves on when it keeps the synchronizations that will
release. -/
theorem moves (staffed : state.Staffed stopping) (held : state.Held)
    (pending : ∀ live token, state.Pending live token → after.Pending live token) :
    Moves stopping state after where
  staffed := steady.toSameStaff.staffed staffed
  held := steady.held held
  advance :=
    { tokens := by rw [steady.turnLeases]
      lives := by rw [steady.fresh]
      released := by
        rw [steady.turnLeases]
        exact fun _ _ => id
      accepted := by
        simp only [Accepted, steady.turnLeases, steady.turn, steady.toSameStaff.hasChild]
        exact fun _ _ _ => id
      pending := fun live _ token _ => pending live token }

end Steady

theorem Quiet.moves {after : Supervisor} (quiet : Quiet state after)
    (staffed : state.Staffed stopping) (held : state.Held) : Moves stopping state after := by
  apply quiet.steady.moves staffed held
  intro live token pending
  rw [Pending, quiet.turnLeases, (quiet.lives live).identitySync]
  exact pending

/-! ## Tokens -/

theorem turnOf_releaseTurnLease (state : Supervisor) (live other token : Nat) (now : Int) :
    (state.releaseTurnLease live (some token) now).turnOf other =
      if other = live ∧ state.turnOf live = some token then none else state.turnOf other := by
  by_cases same : other = live
  · subst same
    simp only [releaseTurnLease, turnOf, modifyLive, read_modify_self, true_and]
    split <;> rfl
  · simp only [releaseTurnLease, turnOf, modifyLive, read_modify_of_ne _ _ same, same,
      false_and, ↓reduceIte]

theorem sameTurn_releaseTurnLease (state : Supervisor) (live other token : Nat) (now : Int) :
    ((state.releaseTurnLease live (some token) now).lives.read other).record =
        (state.lives.read other).record ∧
      (state.releaseTurnLease live (some token) now).processOf other = state.processOf other ∧
      ((state.releaseTurnLease live (some token) now).lives.read other).bound =
        (state.lives.read other).bound ∧
      ((state.releaseTurnLease live (some token) now).lives.read other).identitySync =
        (state.lives.read other).identitySync := by
  by_cases same : other = live
  · subst same
    simp only [releaseTurnLease, processOf, modifyLive, read_modify_self]
    split <;> exact ⟨rfl, rfl, rfl, rfl⟩
  · simp only [releaseTurnLease, processOf, modifyLive, read_modify_of_ne _ _ same,
      and_self]

theorem sameStaff_releaseTurnLease (stopping : Option Nat) (state : Supervisor)
    (live token : Nat) (now : Int) :
    SameStaff stopping state (state.releaseTurnLease live (some token) now) where
  liveInstances := rfl
  processes := rfl
  fresh := rfl
  record other := by
    rw [Supervisor.record, Supervisor.record,
      (state.sameTurn_releaseTurnLease live other token now).1]
    exact .refl _
  ending other _ := by
    rw [Supervisor.record, Supervisor.record,
      (state.sameTurn_releaseTurnLease live other token now).1]
    exact id
  process other := (state.sameTurn_releaseTurnLease live other token now).2.1
  bound other := (state.sameTurn_releaseTurnLease live other token now).2.2.1
  called _ _ := Or.inl
  cleaned _ _ := Or.inl

section

variable (staffed : state.Staffed stopping) (held : state.Held)
include staffed held

/-- Tokens are released or granted, and every turn that is taken from an instance was released. -/
theorem moves_progress {after : Supervisor} (same : SameStaff stopping state after)
    (tasks : after.tasks = state.tasks)
    (progress : SessionTurnLeaseRegistry.Progress state.turnLeases after.turnLeases)
    (given : ∀ token, state.turnLeases.releasedToken token = true →
      after.turnLeases.releasedToken token = true)
    (kept : ∀ live token, state.turnOf live = some token →
      after.turnLeases.releasedToken token = true ∨ after.turnOf live = some token)
    (syncs : ∀ live, (after.lives.read live).identitySync = (state.lives.read live).identitySync) :
    Moves stopping state after where
  staffed := same.staffed staffed
  held :=
    { allocated := by
        rw [tasks]
        exact held.allocated
      asked := by
        intro ref live process token waits
        rw [tasks] at waits
        rw [same.processes, progress.fresh]
        exact held.asked ref live process token waits
      prompted := by
        intro ref live process token waits
        rw [tasks] at waits
        rw [same.processes, progress.fresh]
        obtain ⟨child, ⟨below, granted⟩, known⟩ := held.prompted ref live process token waits
        exact ⟨child, ⟨below, progress.granted token granted⟩,
          known.elim (fun already => Or.inl (given token already)) (kept live token)⟩
      waiting := by
        intro token waits
        rw [tasks]
        exact (held.waiting token (progress.waits token waits)).imp_left (progress.granted token)
      held := by
        intro token granted unreleased
        have open_ : state.turnLeases.releasedToken token = false :=
          Bool.eq_false_iff.mpr fun already => by simp [given token already] at unreleased
        have before : state.turnLeases.Granted token ∨
            ∃ ref live process, state.tasks.read ref = .acquire live process token :=
          (progress.newly token granted).elim Or.inl (held.waiting token)
        rw [tasks]
        rcases before with old | ⟨ref, live, process, asks⟩
        · refine (held.held token old open_).imp_right fun ⟨live, holds, child⟩ => ?_
          refine ⟨live, ?_, same.hasChild.mpr child⟩
          exact (kept live token holds).resolve_left (by simp [unreleased])
        · exact Or.inl ⟨ref, congrArg Task.turn asks⟩ }
  advance :=
    { tokens := Nat.le_of_eq progress.fresh.symm
      lives := Nat.le_of_eq same.fresh.symm
      released := fun token _ => given token
      accepted := by
        rintro live token - (already | ⟨holds, child⟩)
        · exact Or.inl (given token already)
        · exact (kept live token holds).imp_right fun still => ⟨still, same.hasChild.mpr child⟩
      pending := by
        intro live _ token _ pending
        rw [Pending, syncs]
        exact pending.imp_left (given token) }

theorem moves_releaseTurnLease (live token : Nat) (now : Int) :
    Moves stopping state (state.releaseTurnLease live (some token) now) := by
  have released := fun other => releasedToken_release state.turnLeases token other now now
  apply moves_progress staffed held (sameStaff_releaseTurnLease stopping state live token now) rfl
    (progress_release state.turnLeases token now now)
  · intro other already
    exact (released other).trans (by rw [already, Bool.or_true])
  · intro owner other holds
    by_cases mine : other = token
    · exact Or.inl ((released other).trans (by rw [mine, decide_eq_true rfl, Bool.true_or]))
    right
    rw [turnOf_releaseTurnLease, if_neg]
    · exact holds
    · rintro ⟨rfl, owns⟩
      rw [holds] at owns
      exact mine (some.inj owns)
  · exact fun owner => (state.sameTurn_releaseTurnLease live owner token now).2.2.2

end

theorem read_awaitNext_self (state : Supervisor) (ref : Nat) (task : Task) :
    (state.awaitNext ref task).tasks.read ref = task := by
  simp [awaitNext]

theorem read_awaitNext_of_ne (state : Supervisor) {ref other : Nat} (task : Task)
    (different : other ≠ ref) :
    (state.awaitNext ref task).tasks.read other = state.tasks.read other := by
  simp [awaitNext, read_modify_of_ne, different]

theorem turnOf_releaseOwnTurn (state : Supervisor) (live : Nat) (now : Int) :
    (state.releaseOwnTurn live now).turnOf live = none := by
  rw [releaseOwnTurn]
  cases holds : (state.lives.read live).turnLease with
  | none => exact holds
  | some token =>
    rw [turnOf_releaseTurnLease]
    exact if_pos ⟨rfl, holds⟩

section

variable (staffed : state.Staffed stopping) (held : state.Held)
include staffed held

theorem moves_releaseOwnTurn (live : Nat)
    (now : Int) : Moves stopping state (state.releaseOwnTurn live now) := by
  rw [releaseOwnTurn]
  cases (state.lives.read live).turnLease with
  | none => exact .refl staffed held
  | some token => exact moves_releaseTurnLease staffed held live token now

theorem moves_turnLeases {turnLeases : TurnLeases}
    (progress : SessionTurnLeaseRegistry.Progress state.turnLeases turnLeases)
    (released : ∀ token, turnLeases.releasedToken token = state.turnLeases.releasedToken token) :
    Moves stopping state { state with turnLeases := turnLeases } := by
  have same : SameStaff stopping state { state with turnLeases := turnLeases } :=
    ⟨rfl, rfl, rfl, fun _ => .refl _, fun _ _ => id, fun _ => rfl, fun _ => rfl, fun _ _ => Or.inl,
      fun _ _ => Or.inl⟩
  apply moves_progress staffed held same rfl progress
  · exact fun token already => (released token).trans already
  · exact fun _ _ => Or.inr
  · exact fun _ => rfl

/-! ## Waiting calls -/

/-- A call without a token goes on or begins. -/
theorem moves_task {tasks : ObjectStore Task} {ref : Nat} {task : Task}
    (fresh : state.tasks.fresh ≤ tasks.fresh) (self : tasks.read ref = task)
    (others : ∀ other, other ≠ ref → tasks.read other = state.tasks.read other)
    (was : (state.tasks.read ref).turn = none) (turn : task.turn = none)
    (called : task.live.elim True (· < state.lives.fresh))
    (cleaned : task.cleans.elim True (state.processOf · = none)) :
    Moves stopping state { state with tasks := tasks } := by
  have staff : SameStaff stopping state { state with tasks := tasks } := by
    refine ⟨rfl, rfl, rfl, fun _ => .refl _, fun _ _ => id, fun _ => rfl, fun _ => rfl, ?_, ?_⟩
    · intro other live calls
      by_cases same : other = ref
      · rw [same, self] at calls
        rw [calls] at called
        exact Or.inr called
      · exact Or.inl ((congrArg Task.live (others other same)).symm.trans calls)
    · intro other live cleans
      by_cases same : other = ref
      · rw [same, self] at cleans
        rw [cleans] at cleaned
        exact Or.inr cleaned
      · exact Or.inl ((congrArg Task.cleans (others other same)).symm.trans cleans)
  have before : ∀ other, (tasks.read other).turn ≠ none →
      tasks.read other = state.tasks.read other := by
    intro other holds
    apply others
    rintro rfl
    exact holds (self ▸ turn)
  have after : ∀ other, (state.tasks.read other).turn ≠ none →
      tasks.read other = state.tasks.read other := by
    intro other holds
    apply others
    rintro rfl
    exact holds was
  refine ⟨staff.staffed staffed, ?_, ⟨Nat.le_refl _, Nat.le_refl _, fun _ _ => id,
    fun _ _ _ => id, fun _ _ _ _ => id⟩⟩
  constructor
  · intro other holds
    rw [before other holds] at holds
    exact Nat.lt_of_lt_of_le (held.allocated other holds) fresh
  · intro other live process token waits
    apply held.asked other
    rw [← before other (by rw [waits]; exact some_ne_none _)]
    exact waits
  · intro other live process token waits
    apply held.prompted other
    rw [← before other (by rw [waits]; exact some_ne_none _)]
    exact waits
  · intro token waits
    refine (held.waiting token waits).imp_right fun ⟨other, live, process, asks⟩ => ?_
    exact ⟨other, live, process, (after other (by rw [asks]; exact some_ne_none _)).trans asks⟩
  · intro token granted unreleased
    refine (held.held token granted unreleased).imp_left fun ⟨other, holds⟩ => ⟨other, ?_⟩
    exact (congrArg Task.turn (after other (by rw [holds]; exact some_ne_none _))).trans holds

theorem moves_await {task : Task} (turn : task.turn = none)
    (called : task.live.elim True (· < state.lives.fresh))
    (cleaned : task.cleans.elim True (state.processOf · = none)) :
    Moves stopping state (state.await task) := by
  apply moves_task staffed held (Nat.le_succ _) (read_alloc_fresh state.tasks task)
    (fun _ => read_alloc_of_ne _ _) _ turn called cleaned
  by_contra waits
  exact Nat.lt_irrefl _ (held.allocated _ waits)

theorem moves_awaitNext {ref : Nat} {task : Task} (was : (state.tasks.read ref).turn = none)
    (turn : task.turn = none) (called : task.live.elim True (· < state.lives.fresh))
    (cleaned : task.cleans.elim True (state.processOf · = none)) :
    Moves stopping state (state.awaitNext ref task) :=
  moves_task staffed held (Nat.le_refl _) (state.read_awaitNext_self ref task)
    (fun _ => state.read_awaitNext_of_ne task) was turn called cleaned

/-- A call of `handleRpcForLive` ends, when its token is not left unheld. -/
theorem moves_finished {ref : Nat} (waits : ∀ token, (state.tasks.read ref).turn = some token →
      state.turnLeases.waitsFor token ≠ none → state.turnLeases.Granted token)
    (holds : ∀ token, (state.tasks.read ref).turn = some token → state.turnLeases.Granted token →
      state.turnLeases.releasedToken token = false →
        ∃ live, state.turnOf live = some token ∧ state.HasChild live) :
    Moves stopping state (state.awaitNext ref .finished) := by
  have other : ∀ other, other ≠ ref →
      (state.awaitNext ref .finished).tasks.read other = state.tasks.read other := fun _ =>
    state.read_awaitNext_of_ne .finished
  have self := state.read_awaitNext_self ref .finished
  have still : ∀ changed, (∃ turn, ((state.awaitNext ref .finished).tasks.read changed).turn =
      some turn) → changed ≠ ref := by
    intro changed holds same
    obtain ⟨turn, held⟩ := holds
    rw [same, self] at held
    cases held
  have staff : SameStaff stopping state (state.awaitNext ref .finished) := by
    refine ⟨rfl, rfl, rfl, fun _ => .refl _, fun _ _ => id, fun _ => rfl, fun _ => rfl, ?_, ?_⟩
    · intro changed live calls
      by_cases same : changed = ref
      · rw [same, self] at calls
        cases calls
      · rw [other changed same] at calls
        exact Or.inl calls
    · intro changed live cleans
      by_cases same : changed = ref
      · rw [same, self] at cleans
        cases cleans
      · rw [other changed same] at cleans
        exact Or.inl cleans
  refine ⟨staff.staffed staffed, ?_, ⟨Nat.le_refl _, Nat.le_refl _, fun _ _ => id,
    fun _ _ _ => id, fun _ _ _ _ => id⟩⟩
  constructor
  · intro changed turn
    have ne := still changed (ne_none_iff_exists'.mp turn)
    rw [other changed ne] at turn
    exact held.allocated changed turn
  · intro changed live process token asks
    have ne := still changed ⟨token, by rw [asks]; rfl⟩
    rw [other changed ne] at asks
    exact held.asked changed live process token asks
  · intro changed live process token asks
    have ne := still changed ⟨token, by rw [asks]; rfl⟩
    rw [other changed ne] at asks
    exact held.prompted changed live process token asks
  · intro token waiting
    rcases held.waiting token waiting with granted | ⟨changed, live, process, asks⟩
    · exact Or.inl granted
    by_cases same : changed = ref
    · left
      apply waits token _ waiting
      rw [← same, asks]
      rfl
    · right
      refine ⟨changed, live, process, ?_⟩
      rw [other changed same]
      exact asks
  · intro token granted unreleased
    rcases held.held token granted unreleased with ⟨changed, turn⟩ | kept
    · by_cases same : changed = ref
      · right
        exact holds token (same ▸ turn) granted unreleased
      · left
        refine ⟨changed, ?_⟩
        rw [other changed same]
        exact turn
    · exact Or.inr kept

theorem moves_ask {turnLeases : TurnLeases}
    (asked : SessionTurnLeaseRegistry.Asked state.turnLeases turnLeases) {live process : Nat}
    (child : process < state.processes.fresh ∧ (state.processes.read process).live = live) :
    Moves stopping state ({ state with turnLeases := turnLeases }.await
      (.acquire live process state.turnLeases.acquisitions.fresh)) := by
  have self := read_alloc_fresh state.tasks
    (.acquire live process state.turnLeases.acquisitions.fresh)
  have other : ∀ ref, ref ≠ state.tasks.fresh →
      (state.tasks.alloc (.acquire live process state.turnLeases.acquisitions.fresh)).read ref =
        state.tasks.read ref := fun _ => read_alloc_of_ne _ _
  have old : ∀ ref, (state.tasks.read ref).turn ≠ none → ref ≠ state.tasks.fresh := fun ref turn =>
    Nat.ne_of_lt (held.allocated ref turn)
  have below : ∀ {token}, token < state.turnLeases.acquisitions.fresh →
      token < turnLeases.acquisitions.fresh ∧ token ≠ state.turnLeases.acquisitions.fresh := by
    intro token lt
    rw [asked.fresh]
    omega
  have staff : SameStaff stopping state ({ state with turnLeases := turnLeases }.await
      (.acquire live process state.turnLeases.acquisitions.fresh)) := by
    refine ⟨rfl, rfl, rfl, fun _ => .refl _, fun _ _ => id, fun _ => rfl, fun _ => rfl, ?_, ?_⟩
    · intro ref owner calls
      by_cases new : ref = state.tasks.fresh
      · rw [await, new, self] at calls
        rw [← some.inj calls, ← child.2]
        exact Or.inr (staffed.linked.children process child.1)
      · rw [await, other ref new] at calls
        exact Or.inl calls
    · intro ref owner cleans
      by_cases new : ref = state.tasks.fresh
      · rw [await, new, self] at cleans
        cases cleans
      · rw [await, other ref new] at cleans
        exact Or.inl cleans
  refine ⟨staff.staffed staffed, ?_, ?_⟩
  · constructor
    · intro ref turn
      by_cases new : ref = state.tasks.fresh
      · rw [new]
        exact Nat.lt_succ_self _
      · rw [await, other ref new] at turn
        exact Nat.lt_succ_of_lt (held.allocated ref turn)
    · intro ref owner called token asks
      by_cases new : ref = state.tasks.fresh
      · rw [await, new, self] at asks
        cases asks
        refine ⟨child, ?_⟩
        rw [await, asked.fresh]
        exact Nat.lt_succ_self _
      · rw [await, other ref new] at asks
        obtain ⟨child, known⟩ := held.asked ref owner called token asks
        exact ⟨child, (below known).1⟩
    · intro ref owner called token asks
      by_cases new : ref = state.tasks.fresh
      · rw [await, new, self] at asks
        cases asks
      rw [await, other ref new] at asks
      obtain ⟨child, ⟨known, granted⟩, holds⟩ := held.prompted ref owner called token asks
      refine ⟨child, ⟨(below known).1, asked.granted token granted⟩, ?_⟩
      rw [await, asked.released token (below known).2]
      exact holds
    · intro token waits
      by_cases new : token = state.turnLeases.acquisitions.fresh
      · exact Or.inr ⟨state.tasks.fresh, live, process, by rw [await, self, new]⟩
      rw [await, asked.waits token new] at waits
      rcases held.waiting token waits with granted | ⟨ref, owner, called, asks⟩
      · exact Or.inl (asked.granted token granted)
      · refine Or.inr ⟨ref, owner, called, ?_⟩
        rw [await, other ref (old ref (by rw [asks]; exact some_ne_none _))]
        exact asks
    · intro token granted unreleased
      by_cases new : token = state.turnLeases.acquisitions.fresh
      · exact Or.inl ⟨state.tasks.fresh, by rw [await, self, new]; rfl⟩
      rw [await, asked.released token new] at unreleased
      rcases held.held token (asked.newly token new granted) unreleased with ⟨ref, turn⟩ | holds
      · refine Or.inl ⟨ref, ?_⟩
        rw [await, other ref (old ref (by rw [turn]; exact some_ne_none _))]
        exact turn
      · exact Or.inr holds
  · constructor
    · rw [await, asked.fresh]
      exact Nat.le_succ _
    · exact Nat.le_refl _
    · intro token known released
      exact (asked.released token (below known).2).trans released
    · intro owner token known accepted
      rw [Accepted, await, asked.released token (below known).2]
      exact accepted
    · intro owner _ token known pending
      rw [Pending, await, asked.released token (below known).2]
      exact pending

theorem moves_turnGranted
    {ref live process token : Nat} (asks : state.tasks.read ref = .acquire live process token)
    (granted : state.turnLeases.Granted token) (free : state.turnOf live = none) :
    Moves stopping state (state.turnGranted ref live process token) := by
  let after := state.turnGranted ref live process token
  have self : after.tasks.read ref = .prompt live process token := read_awaitNext_self _ _ _
  have other : ∀ other, other ≠ ref →
      after.tasks.read other = state.tasks.read other :=
    fun other ne => read_awaitNext_of_ne _ _ ne
  have taken : after.turnOf live = some token := by
    simp [after, turnGranted, turnOf, awaitNext, modifyLive]
  have turns : ∀ owner held, state.turnOf owner = some held →
      after.turnOf owner = some held := by
    intro owner kept holds
    by_cases same : owner = live
    · rw [same, free] at holds
      cases holds
    · simp only [after, turnGranted, turnOf, awaitNext, modifyLive, read_modify_of_ne _ _ same]
      exact holds
  let grant : LiveInstance → LiveInstance := fun entry => { entry with turnLease := some token }
  have syncs : ∀ owner, (after.lives.read owner).identitySync =
      (state.lives.read owner).identitySync := fun owner =>
    state.kept_modifyLive LiveInstance.identitySync live owner grant rfl
  have staff : SameStaff stopping state after := by
    have record : ∀ owner, after.record owner = state.record owner := fun owner =>
      state.kept_modifyLive LiveInstance.record live owner grant rfl
    refine ⟨rfl, rfl, rfl, ?_, ?_, ?_, ?_, ?_, ?_⟩
    · intro owner
      rw [record]
      exact .refl _
    · intro owner _
      rw [record]
      exact id
    · exact fun owner => state.kept_modifyLive LiveInstance.rpcProcess live owner grant rfl
    · exact fun owner => state.kept_modifyLive LiveInstance.bound live owner grant rfl
    · intro changed owner calls
      by_cases same : changed = ref
      · rw [same, self] at calls
        left
        rw [same, asks]
        exact calls
      · rw [other changed same] at calls
        exact Or.inl calls
    · intro changed owner cleans
      by_cases same : changed = ref
      · rw [same, self] at cleans
        cases cleans
      · rw [other changed same] at cleans
        exact Or.inl cleans
  obtain ⟨child, known⟩ := held.asked ref live process token asks
  refine ⟨staff.staffed staffed, ?_, ⟨Nat.le_refl _, Nat.le_refl _, fun _ _ => id, ?_, ?_⟩⟩
  · constructor
    · intro changed turn
      by_cases same : changed = ref
      · rw [same]
        exact held.allocated ref (by rw [asks]; exact some_ne_none _)
      · rw [other changed same] at turn
        exact held.allocated changed turn
    · intro changed owner called waiting waits
      by_cases same : changed = ref
      · rw [same, self] at waits
        cases waits
      · rw [other changed same] at waits
        exact held.asked changed owner called waiting waits
    · intro changed owner called waiting waits
      by_cases same : changed = ref
      · rw [same, self] at waits
        cases waits
        exact ⟨child, ⟨known, granted⟩, Or.inr taken⟩
      · rw [other changed same] at waits
        obtain ⟨child, known, holds⟩ := held.prompted changed owner called waiting waits
        exact ⟨child, known, holds.imp_right (turns owner waiting)⟩
    · intro waiting waits
      rcases held.waiting waiting waits with old | ⟨changed, owner, called, asksToo⟩
      · exact Or.inl old
      by_cases same : changed = ref
      · rw [same, asks] at asksToo
        cases asksToo
        exact Or.inl granted
      · right
        refine ⟨changed, owner, called, ?_⟩
        rw [other changed same]
        exact asksToo
    · intro holding old unreleased
      rcases held.held holding old unreleased with ⟨changed, turn⟩ | ⟨owner, holds, staffs⟩
      · by_cases same : changed = ref
        · rw [same, asks] at turn
          refine Or.inl ⟨ref, ?_⟩
          rw [self]
          exact turn
        · refine Or.inl ⟨changed, ?_⟩
          rw [other changed same]
          exact turn
      · exact Or.inr ⟨owner, turns owner holding holds, staff.hasChild.mpr staffs⟩
  · intro owner holding _ accepted
    rcases accepted with given | ⟨holds, staffs⟩
    · exact Or.inl given
    · exact Or.inr ⟨turns owner holding holds, staff.hasChild.mpr staffs⟩
  · intro owner _ holding _ pending
    rw [Pending, syncs]
    exact pending

end

end Supervisor
end Recode.Orchestrator

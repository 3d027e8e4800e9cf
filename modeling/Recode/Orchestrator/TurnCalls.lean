import Recode.Orchestrator.TurnChildren

/-! # Turns through the supervisor's calls

Every call of the supervisor keeps the invariant of turns and children, as long
as no turn is granted to an instance that still has one. -/

namespace Recode.Orchestrator

open ObjectStore List
namespace Supervisor

open SessionTurnLeaseRegistry Option

variable {stopping : Option Nat} {state : Supervisor}

theorem Moves.next {earlier : Option Nat} {first second third : Supervisor}
    (before : Moves earlier first second)
    (after : second.Staffed earlier → second.Held → Moves stopping second third) :
    Moves stopping first third :=
  before.trans (after before.staffed before.held)

/-- An instance that is not running may be stopped. -/
theorem Staffed.excuse (staffed : state.Staffed none) (live : Nat) : state.Staffed (some live) :=
  { staffed with ending := fun live _ => staffed.ending live (some_ne_none live).symm }

/-- An instance without a child needs no excuse any more. -/
theorem Staffed.resume {live : Nat} (staffed : state.Staffed (some live))
    (none : state.processOf live = none) : state.Staffed .none := by
  refine { staffed with ending := ?_ }
  intro other _ staffs
  apply staffed.ending other _ staffs
  intro same
  rw [← some.inj same] at staffs
  exact staffs none

section Calls

variable (staffed : state.Staffed stopping) (held : state.Held) (options : SupervisorOptions)
  (now : Int)
include staffed held

/-! ## Cleaning up -/

theorem moves_finishStop {live : Nat} (none : state.processOf live = .none)
    (termination : Option TerminationOutcome) (diagnostic : Option String) (uuid : String) :
    Moves stopping state (state.finishStop options now live termination diagnostic uuid) := by
  rw [finishStop]
  dsimp only
  let ended : LiveInstance → LiveInstance := fun entry => { entry with
    record := { entry.record with
      status := if (diagnostic.isSome || termination.any fun termination => !termination.exited)
        then .failed else .cancelled
      completedAt := some now
      terminationOutcome := termination
      terminalDiagnostic := diagnostic.or
        (if (termination.any fun termination => !termination.exited) then
          some "RPC process did not exit after forced termination" else .none) } }
  have quiet : Quiet state (state.modifyLive live ended) := by
    apply state.quiet_modifyLive live
    refine ⟨⟨⟨rfl, rfl, rfl, rfl⟩, ?_⟩, rfl, rfl, rfl, rfl⟩
    intro ending
    dsimp only [ended] at ending
    split at ending <;> cases ending
  refine Moves.next ?_ (quiet_completeManagedInstance options now _ live _ uuid).moves
  refine Moves.next ?_ (quiet_upsertInstance options now _ _).moves
  refine (quiet.moves staffed held).next fun staffed held => ?_
  exact moves_deleteLive staffed held ((quiet.lives live).rpcProcess.trans none)

theorem moves_finishFailSpawn {live : Nat} (none : state.processOf live = .none)
    (error : NamedError) (uuid : String) :
    Moves stopping state (state.finishFailSpawn options now live error uuid) := by
  have failed : Quiet state (state.updateRecord options now live fun record =>
      { record with status := .failed, completedAt := some now }) :=
    state.quiet_updateRecord options now live _
      ⟨⟨rfl, rfl, rfl, rfl⟩, nofun⟩
  have completed := failed.trans (quiet_completeManagedInstance options now _ live {
    state := .failed
    errorClassification := some error.name
    errorMessage := some error.message } uuid)
  refine (completed.moves staffed held).next fun staffed held => ?_
  exact moves_deleteLive staffed held ((completed.lives live).rpcProcess.trans none)

theorem moves_done {ref : Nat} (was : (state.tasks.read ref).turn = none) :
    Moves stopping state (state.awaitNext ref .finished) := by
  exact moves_awaitNext staffed held was rfl trivial trivial

theorem moves_finishCleanup {ref live : Nat} (was : (state.tasks.read ref).turn = none)
    (none : state.processOf live = .none) (termination : Option TerminationOutcome)
    (diagnostics : List String) (next : AfterCleanup) (uuid : String) :
    Moves stopping state
      (state.finishCleanup options now ref live termination diagnostics next uuid) := by
  have waited := moves_done staffed held was
  cases next with
  | stop =>
    refine waited.next fun staffed held => ?_
    exact moves_finishStop staffed held options now none termination _ uuid
  | failSpawn error =>
    refine waited.next fun staffed held => ?_
    exact moves_finishFailSpawn staffed held options now none error uuid

theorem moves_continueCleanup {ref live : Nat} (was : (state.tasks.read ref).turn = none)
    (below : live < state.lives.fresh) (none : state.processOf live = .none)
    (termination : Option TerminationOutcome) (diagnostics : List String) (next : AfterCleanup)
    (uuid : String) :
    Moves stopping state
      (state.continueCleanup options now ref live termination diagnostics next uuid) := by
  rw [continueCleanup]
  split
  · exact moves_awaitNext staffed held was rfl below none
  · exact moves_finishCleanup staffed held options now was none termination diagnostics next uuid

/-- A child is disposed of only while its instance holds no turn. -/
theorem moves_disposing {live process : Nat} (is : state.processOf live = some process)
    (free : state.turnOf live = none) :
    Moves stopping state ((clearBindings { state with
      processes := state.processes.modify process fun process =>
        { process with disposing := true } } live).modifyLive live fun entry =>
          { entry with rpcProcess := none }) := by
  obtain ⟨-, owner⟩ := staffed.process live process is
  let dispose : RpcProcess → RpcProcess := fun process => { process with disposing := true }
  have told : Moves stopping state { state with
      processes := state.processes.modify process dispose } := by
    apply moves_processes staffed held rfl id (fun _ => rfl)
    intro _ _
    rw [owner]
    exact free
  refine told.next fun staffed held => ?_
  apply moves_unbound staffed held
  intro other same
  obtain rfl := some.inj (is.symm.trans same)
  simp [isRunning, dispose]

end Calls

section Stopping

variable (options : SupervisorOptions) (now : Int)

theorem processOf_releaseOwnTurn (live other : Nat) :
    (state.releaseOwnTurn live now).processOf other = state.processOf other := by
  rw [releaseOwnTurn]
  cases (state.lives.read live).turnLease with
  | none => rfl
  | some token => exact (state.sameTurn_releaseTurnLease live other token now).2.1

theorem fresh_releaseOwnTurn (live : Nat) :
    (state.releaseOwnTurn live now).lives.fresh = state.lives.fresh ∧
      (state.releaseOwnTurn live now).tasks = state.tasks := by
  rw [releaseOwnTurn]
  cases (state.lives.read live).turnLease with
  | none => exact ⟨rfl, rfl⟩
  | some token => exact ⟨rfl, rfl⟩

/-- The clean-up gives the turn back before it disposes of the child. -/
theorem moves_cleanupAcquiredResources {ref live : Nat} (staffed : state.Staffed (some live))
    (held : state.Held) (below : live < state.lives.fresh)
    (was : (state.tasks.read ref).turn = none) (next : AfterCleanup) (uuid : String) :
    Moves none state (state.cleanupAcquiredResources options now ref live next uuid) := by
  let settle : LiveInstance → LiveInstance := fun entry => { entry with
    pendingUiRequest := none
    record := { entry.record with pendingUiRequest := none } }
  let settled := (state.releaseOwnTurn live now).modifyLive live settle
  have quiet : Quiet (state.releaseOwnTurn live now) settled :=
    quiet_modifyLive _ live settle
      ⟨⟨⟨rfl, rfl, rfl, rfl⟩, fun ending => ending⟩, rfl, rfl, rfl, rfl⟩
  have released := (moves_releaseOwnTurn staffed held live now).next quiet.moves
  have free : settled.turnOf live = none :=
    (quiet.lives live).turnLease.trans (state.turnOf_releaseOwnTurn live now)
  have is : settled.processOf live = state.processOf live :=
    (quiet.lives live).rpcProcess.trans (processOf_releaseOwnTurn now live live)
  have known : live < settled.lives.fresh := by
    rw [quiet.fresh, (fresh_releaseOwnTurn now live).1]
    exact below
  have waits : (settled.tasks.read ref).turn = none := by
    rw [quiet.tasks, (fresh_releaseOwnTurn now live).2]
    exact was
  rw [cleanupAcquiredResources]
  cases found : (state.lives.read live).rpcProcess with
  | none =>
    refine released.next fun staffed held => ?_
    have none := is.trans found
    have cleared : Quiet settled (settled.clearBindings live) := by
      apply settled.quiet_modifyLive live
      refine ⟨.refl _, rfl, ?_, rfl, rfl⟩
      exact none.symm.trans (staffed.bound live).symm
    have unbound := (cleared.lives live).rpcProcess.trans none
    refine (cleared.moves staffed held).next fun staffed held => ?_
    exact moves_continueCleanup (staffed.resume unbound) held options now waits known unbound
      .none [] next uuid
  | some process =>
    refine released.next fun staffed held => ?_
    refine (moves_disposing staffed held (is.trans found) free).next fun staffed held => ?_
    have unbound : processOf ((clearBindings { settled with
        processes := settled.processes.modify process fun process =>
          { process with disposing := true } } live).modifyLive live fun entry =>
            { entry with rpcProcess := none }) live = none := by
      simp [processOf, modifyLive]
    exact moves_awaitNext (staffed.resume unbound) held waits rfl known unbound

theorem moves_stopManagedInstance (staffed : state.Staffed none) (held : state.Held)
    (instanceId uuid : String) :
    Moves none state (state.stopManagedInstance options now instanceId uuid) := by
  rw [stopManagedInstance]
  cases found : state.liveInstances.get? instanceId with
  | none => exact .refl staffed held
  | some live =>
    obtain ⟨below, -⟩ := staffed.linked.registered instanceId live found
    let mark : LiveInstance → LiveInstance := fun entry =>
      { entry with record := { entry.record with status := .stopping } }
    let stopping := state.setStatus options now live .stopping
    have marked : Steady (some live) state stopping := by
      constructor
      · constructor
        · rfl
        · rfl
        · rfl
        · intro other
          exact state.related_modifyLive
            (fun before after => before.record.SameIdentity after.record) (fun _ => .refl _) live
            other mark ⟨rfl, rfl, rfl, rfl⟩
        · intro other spared ending
          have different : other ≠ live := fun same => spared (same ▸ rfl)
          have same : stopping.record other = state.record other :=
            congrArg LiveInstance.record (read_modify_of_ne _ mark different)
          rw [same] at ending
          exact ending
        · exact fun other => state.kept_modifyLive LiveInstance.rpcProcess live other mark rfl
        · exact fun other => state.kept_modifyLive LiveInstance.bound live other mark rfl
        · exact fun _ _ => Or.inl
        · exact fun _ _ => Or.inl
      · rfl
      · rfl
      · exact fun other => state.kept_modifyLive LiveInstance.turnLease live other mark rfl
    have moved : Moves (some live) state stopping := by
      apply marked.moves (staffed.excuse live) held
      intro other token pending
      rw [Pending]
      rw [show (stopping.lives.read other).identitySync =
        (state.lives.read other).identitySync from
          state.kept_modifyLive LiveInstance.identitySync live other mark rfl]
      exact pending
    refine moved.next fun staffed held => ?_
    have waited : Moves (some live) stopping (stopping.await .finished) :=
      moves_await staffed held rfl trivial trivial
    refine waited.next fun staffed held => ?_
    apply moves_cleanupAcquiredResources options now staffed held below
    exact congrArg Task.turn (read_alloc_fresh state.tasks .finished)

theorem moves_failSpawn (staffed : state.Staffed none) (held : state.Held) {ref live : Nat}
    (below : live < state.lives.fresh) (was : (state.tasks.read ref).turn = none)
    (error : NamedError) (uuid : String) :
    Moves none state (state.failSpawn options now ref live error uuid) := by
  have failing : Quiet state (state.setStatus options now live .error) :=
    state.quiet_setStatus options now live rfl
  refine (failing.moves staffed held).next fun staffed held => ?_
  apply moves_cleanupAcquiredResources options now (staffed.excuse live) held
  · rw [failing.fresh]
    exact below
  · rw [failing.tasks]
    exact was

/-! ## The ends of waiting calls -/

variable {ref live process : Nat} {rest : List IdentitySync}

section

variable (staffed : state.Staffed none) (held : state.Held)
include staffed held

theorem moves_disposed
    {next : AfterCleanup} (waits : state.tasks.read ref = .dispose live process next)
    (result : Except String TerminationOutcome) (uuid : String) :
    Moves none state (state.disposed options now ref live next result uuid) := by
  have was : (state.tasks.read ref).turn = none := by rw [waits]; rfl
  have below := staffed.called ref live (by rw [waits]; rfl)
  have unbound := staffed.cleaned ref live (by rw [waits]; rfl)
  cases result with
  | ok termination => exact moves_continueCleanup staffed held options now was below unbound ..
  | error message => exact moves_continueCleanup staffed held options now was below unbound ..

theorem moves_disconnected {ref live : Nat}
    {termination : Option TerminationOutcome} {diagnostics : List String} {next : AfterCleanup}
    (waits : state.tasks.read ref = .disconnect live termination diagnostics next)
    (result : Outcome) (uuid : String) :
    Moves none state
      (state.disconnected options now ref live termination diagnostics next result uuid) := by
  have was : (state.tasks.read ref).turn = none := by rw [waits]; rfl
  have unbound := staffed.cleaned ref live (by rw [waits]; rfl)
  cases result with
  | ok _ =>
    let withdraw : LiveInstance → LiveInstance := fun entry => { entry with
      radiusPiId := none
      record := { entry.record with radiusPiId := none } }
    have quiet : Quiet state (state.modifyLive live withdraw) :=
      state.quiet_modifyLive live withdraw
        ⟨⟨⟨rfl, rfl, rfl, rfl⟩, fun ending => ending⟩, rfl, rfl, rfl, rfl⟩
    refine (quiet.moves staffed held).next fun staffed held => ?_
    exact moves_finishCleanup staffed held options now was
      ((quiet.lives live).rpcProcess.trans unbound) ..
  | error message => exact moves_finishCleanup staffed held options now was unbound ..

theorem moves_spawnAnswered
    (waits : state.tasks.read ref = .spawnState live process) (reply : StateReply) (uuid : String) :
    Moves none state (state.spawnAnswered options now ref live reply uuid) := by
  have was : (state.tasks.read ref).turn = none := by rw [waits]; rfl
  have below := staffed.called ref live (by rw [waits]; rfl)
  have quiet := state.quiet_recordState options now live reply
  have recorded : Moves none state
      ((state.recordState options now live reply).awaitNext ref (.spawnPresence live)) := by
    refine (quiet.moves staffed held).next fun staffed held => ?_
    exact moves_awaitNext staffed held (quiet.tasks ▸ was) rfl (quiet.fresh ▸ below) trivial
  cases reply with
  | error error => exact moves_failSpawn options now staffed held below was error uuid
  | state sessionId sessionFile => exact recorded
  | unsuccessful => exact recorded

theorem moves_spawnRegistered {ref live : Nat} (waits : state.tasks.read ref = .spawnPresence live)
    (registered : Except NamedError (Option String)) (uuid : String) :
    Moves none state (state.spawnRegistered options now ref live registered uuid) := by
  have was : (state.tasks.read ref).turn = none := by rw [waits]; rfl
  have below := staffed.called ref live (by rw [waits]; rfl)
  cases registered with
  | error error => exact moves_failSpawn options now staffed held below was error uuid
  | ok radiusPiId =>
    let present : LiveInstance → LiveInstance := fun entry =>
      { entry with radiusPiId := radiusPiId.or entry.radiusPiId }
    have updated : Quiet state ((state.modifyLive live present).updateRecord options now live
        fun record => { record with radiusPiId := radiusPiId }) :=
      (state.quiet_modifyLive live present ⟨.refl _, rfl, rfl, rfl, rfl⟩).trans
        (quiet_updateRecord options now _ live _ ⟨⟨rfl, rfl, rfl, rfl⟩, fun ending => ending⟩)
    have online : ∀ status, isEnding status = false →
        Moves none state (((((state.modifyLive live present).updateRecord options now live
          fun record => { record with radiusPiId := radiusPiId }).setStatus options now live
            status)).awaitNext ref .finished) := by
      intro status runs
      have quiet := updated.trans (quiet_setStatus options now _ live runs)
      refine (quiet.moves staffed held).next fun staffed held => ?_
      exact moves_done staffed held (quiet.tasks ▸ was)
    rw [spawnRegistered]
    apply online
    split <;> rfl

theorem moves_exitDisconnected {ref live : Nat} (waits : state.tasks.read ref = .exitPresence live)
    (result : Outcome) : Moves none state (state.exitDisconnected options now ref live result) := by
  have was : (state.tasks.read ref).turn = none := by rw [waits]; rfl
  have unbound := staffed.cleaned ref live (by rw [waits]; rfl)
  have waited := moves_done staffed held was
  cases result with
  | ok _ =>
    have quiet : Quiet (state.awaitNext ref .finished)
        ((state.awaitNext ref .finished).updateRecord options now live fun record =>
          { record with radiusPiId := none }) :=
      quiet_updateRecord options now _ live _ ⟨⟨rfl, rfl, rfl, rfl⟩, fun ending => ending⟩
    refine (waited.next quiet.moves).next fun staffed held => ?_
    exact moves_deleteLive staffed held ((quiet.lives live).rpcProcess.trans unbound)
  | error message =>
    refine waited.next fun staffed held => ?_
    exact moves_deleteLive staffed held unbound

end

/-! ## Exits -/

theorem moves_exitMarked (staffed : state.Staffed stopping) (held : state.Held) {process : Nat}
    (free : process < state.processes.fresh → state.isRunning process = true →
      state.turnOf (state.processes.read process).live = none) :
    Moves stopping state { state with
      processes := state.processes.modify process fun process =>
        { process with exited := true } } :=
  moves_processes staffed held rfl (fun _ => rfl) id free

theorem releaseOwnTurn_exited (live process : Nat) (change : RpcProcess → RpcProcess) :
    releaseOwnTurn { state with processes := state.processes.modify process change } live now =
      { state.releaseOwnTurn live now with
        processes := (state.releaseOwnTurn live now).processes.modify process change } := by
  simp only [releaseOwnTurn]
  cases (state.lives.read live).turnLease with
  | none => rfl
  | some token => rfl

section

variable (staffed : state.Staffed none) (held : state.Held)
include staffed held

/-- A child that exited is taken from its instance. -/
theorem moves_exited {live : Nat} (below : live < state.lives.fresh)
    (stopped : ∀ process, state.processOf live = some process → state.isRunning process = false)
    {cleared : Supervisor} (clears : cleared = (state.clearBindings live).modifyLive live
      fun entry => { entry with rpcProcess := none }) :
    Moves none state (if (Text.truthy (cleared.lives.read live).radiusPiId).isSome then
      cleared.await (.exitPresence live) else cleared.deleteLive live) := by
  have unbound : cleared.processOf live = none := by
    rw [clears]
    simp [processOf, modifyLive]
  have moved : Moves none state cleared := clears ▸ moves_unbound staffed held stopped
  refine moved.next fun staffed held => ?_
  split
  · exact moves_await staffed held rfl (clears ▸ below) unbound
  · exact moves_deleteLive staffed held unbound

/-- An unexpected exit ends the turn of the instance. -/
theorem moves_handleUnexpectedRpcExit
    {live process : Nat} (is : state.processOf live = some process) (error : Option NamedError)
    (uuid : String) :
    Moves none state (handleUnexpectedRpcExit options now { state with
      processes := state.processes.modify process fun process =>
        { process with exited := true } } live error uuid) := by
  have staffs : state.processOf live ≠ none := by
    rw [is]
    exact some_ne_none _
  have runs := staffed.ending live (some_ne_none live).symm staffs
  have registered := staffed.removed live staffs
  obtain ⟨allocated, owner⟩ := staffed.process live process is
  have below : live < state.lives.fresh := owner ▸ staffed.linked.children process allocated
  rw [isEnding, Bool.or_eq_false_iff, decide_eq_false_iff_not, decide_eq_false_iff_not] at runs
  rw [handleUnexpectedRpcExit]
  dsimp only
  rw [if_neg, releaseOwnTurn_exited]
  · let released := state.releaseOwnTurn live now
    let marked : Supervisor := { released with
      processes := released.processes.modify process fun process =>
        { process with exited := true } }
    have gave := moves_releaseOwnTurn staffed held live now
    have same : released.processes = state.processes := by
      simp only [released, releaseOwnTurn]
      cases (state.lives.read live).turnLease with
      | none => rfl
      | some token => rfl
    have exits : Moves none released marked := by
      apply moves_exitMarked gave.staffed gave.held
      intro _ _
      rw [same, owner]
      exact state.turnOf_releaseOwnTurn live now
    let answered := marked.modifyLive live fun entry => { entry with pendingUiRequest := none }
    have quiet : Quiet marked answered :=
      marked.quiet_modifyLive live _ ⟨.refl _, rfl, rfl, rfl, rfl⟩
    let fail : InstanceRecord → InstanceRecord := fun record => { record with
      status := .failed
      completedAt := some now
      pendingUiRequest := none
      terminalDiagnostic := error.map NamedError.message }
    have failed := quiet.trans (answered.quiet_updateRecord options now live fail
      ⟨⟨rfl, rfl, rfl, rfl⟩, fun ending => by cases ending⟩)
    have completed := failed.trans (quiet_completeManagedInstance options now _ live {
      state := .failed
      errorClassification := some ((error.map NamedError.name).getD "UnexpectedProcessExit")
      errorMessage := some ((error.map NamedError.message).getD "RPC child exited unexpectedly") }
        uuid)
    refine ((gave.trans exits).next completed.moves).next fun staffed held => ?_
    apply moves_exited staffed held _ _ rfl
    · rw [completed.fresh]
      change live < released.lives.fresh
      rw [(fresh_releaseOwnTurn now live).1]
      exact below
    · intro other same
      have still : marked.processOf live = some process :=
        (processOf_releaseOwnTurn now live live).trans is
      have unchanged := (completed.lives live).rpcProcess.trans still
      obtain rfl := some.inj (same.symm.trans unchanged)
      rw [isRunning, completed.processes]
      simp [marked]
  · change ¬ (!state.isRegistered live || decide ((state.record live).status = .stopping) ||
      decide ((state.record live).status = .stopped)) = true
    simp [registered, runs]

theorem moves_processExited (process : Nat) (error : Option NamedError) (uuid : String) :
    Moves none state (state.processExited options now process error uuid) := by
  rw [processExited]
  split
  · rename_i unsubscribed
    apply moves_exitMarked staffed held
    intro below runs
    have is := (staffed.bound _).trans (staffed.running process below runs)
    rw [isRunning, Bool.and_eq_true, Bool.not_eq_true'] at runs
    simp [is, runs.1] at unsubscribed
  · rename_i subscribed
    simp only [Bool.or_eq_true, decide_eq_true_iff, not_or, not_not] at subscribed
    have is := (staffed.bound _).symm.trans subscribed.2
    exact moves_handleUnexpectedRpcExit options now staffed held is _ uuid

/-! ## Spawning -/

/-- A spawned instance has a child of its own, and no turn. -/
theorem moves_spawnManagedInstance
    {request : SpawnOptions} (new : state.isNewRequest request = true)
    {inspected : Except NamedError WorkspaceOwnershipReceipt}
    {created : Except NamedError (Option ProcessIdentityRecord)} {uuid : String}
    {after : Supervisor}
    (spawned : state.spawnManagedInstance options now request inspected created uuid = .ok after) :
    Moves none state after := by
  simp only [isNewRequest, Bool.and_eq_true, decide_eq_true_iff, List.all_eq_true,
    mem_range] at new
  obtain ⟨⟨⟨named, -⟩, -⟩, distinct⟩ := new
  rw [spawnManagedInstance] at spawned
  obtain ⟨-, spawned⟩ := Procedure.guard_eq_ok spawned
  obtain ⟨receipt, -, spawned⟩ := Procedure.bind_eq_ok spawned
  cases admitted : assertWorkspaceAdmission options.comparablePath receipt state.listLiveInstances
      request.parentInstanceId with
  | error error =>
    rw [admitted] at spawned
    cases spawned
  | ok _ =>
    simp only [admitted] at spawned
    let record := newRecord request receipt
    let live := state.lives.fresh
    have added := moves_addLive staffed held record named distinct
    have stored := quiet_upsertInstance options now (state.addLive record) record
    let waiting := ((state.addLive record).upsertInstance options now record).await .finished
    have registered : Moves none state waiting := by
      refine (added.next stored.moves).next fun staffed held => ?_
      exact moves_await staffed held rfl trivial trivial
    have task : waiting.tasks.read state.tasks.fresh = .finished :=
      read_alloc_fresh ..
    have below : live < waiting.lives.fresh := Nat.lt_succ_self _
    cases created with
    | error error =>
      rw [← Except.ok.inj spawned]
      refine registered.next fun staffed held => ?_
      exact moves_failSpawn options now staffed held below (by rw [task]; rfl) error uuid
    | ok identity =>
      rw [← Except.ok.inj spawned]
      refine registered.next fun waitingStaffed waitingHeld => ?_
      have fresh : waiting.lives.read live = { record := record } :=
        read_alloc_fresh ..
      have none : waiting.processOf live = .none := congrArg LiveInstance.rpcProcess fresh
      have starting : waiting.record live = record := congrArg LiveInstance.record fresh
      have bound := moves_addChild waitingStaffed waitingHeld none below
        (by
          rw [isRegistered, decide_eq_true_iff, starting]
          exact InsertionMap.get?_insert_self ..)
        (by rw [starting]; rfl)
        (by
          intro ref cleans
          by_cases same : ref = state.tasks.fresh
          · rw [same, task] at cleans
            cases cleans
          · have old : waiting.tasks.read ref = state.tasks.read ref :=
              read_alloc_of_ne _ _ same
            rw [old] at cleans
            exact Nat.lt_irrefl _ (staffed.called ref live (Task.live_of_cleans cleans)))
      refine bound.next fun staffed held => ?_
      have waits : ∀ {next : Supervisor}, next.Staffed .none → next.Held →
          next.tasks = waiting.tasks → next.lives.fresh = waiting.lives.fresh →
          Moves .none next (next.awaitNext state.tasks.fresh
            (.spawnState live waiting.processes.fresh)) := by
        intro next staffed held tasks lives
        refine moves_awaitNext staffed held ?_ rfl (lives ▸ below) trivial
        rw [tasks, task]
        rfl
      split
      · have quiet := quiet_updateRecord options now (bindRpcProcess { waiting with
          processes := waiting.processes.alloc ⟨live, false, false⟩ } live
            waiting.processes.fresh) live
              (fun record => { record with processIdentity := identity })
                ⟨⟨rfl, rfl, rfl, rfl⟩, fun ending => ending⟩
        refine (quiet.moves staffed held).next fun staffed held => ?_
        exact waits staffed held quiet.tasks quiet.fresh
      · exact waits staffed held rfl rfl

end

/-! ## Commands -/

section

variable (staffed : state.Staffed stopping) (held : state.Held)
include staffed held

theorem moves_handleRpcForLive {live : Nat}
    {command : RpcCommand} {ownerId : String} {after : Supervisor}
    (called : state.handleRpcForLive options now live command ownerId = .ok after) :
    Moves stopping state after := by
  rw [handleRpcForLive] at called
  dsimp only at called
  cases is : (state.lives.read live).rpcProcess with
  | none =>
    rw [is] at called
    cases called
  | some process =>
    have child := staffed.process live process is
    simp only [is] at called
    split at called
    · cases called
    split at called
    · rw [← Except.ok.inj called]
      exact moves_await staffed held rfl
        (child.2 ▸ staffed.linked.children process child.1) trivial
    split at called
    · cases called
    let count : LiveInstance → LiveInstance := fun entry =>
      { entry with nextTurnGeneration := (state.lives.read live).nextTurnGeneration + 1 }
    have counted : Quiet state (state.modifyLive live count) :=
      state.quiet_modifyLive live count ⟨.refl _, rfl, rfl, rfl, rfl⟩
    split at called
    · rw [← Except.ok.inj called]
      exact counted.moves staffed held
    · rename_i asked
      rw [← Except.ok.inj called]
      refine (counted.moves staffed held).next fun staffed held => ?_
      exact moves_ask staffed held (asked_of_acquire asked) child

/-- A prompt whose turn was never granted is dropped. -/
theorem moves_turnTimedOut
    {ref live process token : Nat} (asks : state.tasks.read ref = .acquire live process token)
    (ungranted : ¬ state.turnLeases.Granted token) :
    Moves stopping state (awaitNext { state with
      turnLeases := expire state.turnLeases token } ref .finished) := by
  have expired := moves_turnLeases staffed held
    (progress_expire state.turnLeases token)
    (releasedToken_expire state.turnLeases token)
  have own : ∀ other, (state.tasks.read ref).turn = some other → other = token := by
    intro other turn
    rw [asks] at turn
    exact (some.inj turn).symm
  refine expired.next fun staffed held => moves_finished staffed held ?_ ?_
  · intro other turn waits
    rw [own other turn] at waits
    exact (waits (waitsFor_expire state.turnLeases token)).elim
  · intro other turn granted
    rw [own other turn, granted_expire] at granted
    exact (ungranted granted).elim

/-- The turn of an accepted prompt is held, or was released. -/
theorem moves_accepted
    {ref live process token : Nat} (asks : state.tasks.read ref = .prompt live process token)
    (runs : state.isRunning process = true) :
    Moves stopping state (state.promptAnswered now ref live token .success) ∧
      (state.promptAnswered now ref live token .success).Accepted live token := by
  obtain ⟨⟨below, owner⟩, -, holds⟩ := held.prompted ref live process token asks
  have child : state.HasChild live := ⟨process, below, owner, runs⟩
  have own : ∀ other, (state.tasks.read ref).turn = some other → other = token := by
    intro other turn
    rw [asks] at turn
    exact (some.inj turn).symm
  constructor
  · apply moves_finished staffed held
    · intro other turn _
      rw [own other turn]
      exact (held.prompted ref live process token asks).2.1.2
    · intro other turn _ unreleased
      rw [own other turn] at unreleased ⊢
      rcases holds with released | taken
      · rw [unreleased] at released
        cases released
      · exact ⟨live, taken, child⟩
  · exact holds.imp_right fun taken => ⟨taken, child⟩

/-- The turn of a failed prompt is released. -/
theorem moves_failed
    {ref live process token : Nat} (asks : state.tasks.read ref = .prompt live process token) :
    Moves stopping state ((state.awaitNext ref .finished).releaseTurnLease live (some token) now) ∧
      ((state.awaitNext ref .finished).releaseTurnLease live (some token)
        now).turnLeases.releasedToken token = true := by
  have released : (state.releaseTurnLease live (some token) now).turnLeases.releasedToken token =
      true := by
    refine (releasedToken_release state.turnLeases token token now now).trans ?_
    rw [decide_eq_true rfl, Bool.true_or]
  have own : ∀ other, (state.tasks.read ref).turn = some other → other = token := by
    intro other turn
    rw [asks] at turn
    exact (some.inj turn).symm
  refine ⟨?_, released⟩
  have granted := (progress_release state.turnLeases token now
    now).granted token (held.prompted ref live process token asks).2.1.2
  refine (moves_releaseTurnLease staffed held live token now).next fun staffed held => ?_
  apply moves_finished staffed held
  · intro other turn _
    rw [own other turn]
    exact granted
  · intro other turn _ unreleased
    rw [own other turn, released] at unreleased
    cases unreleased

theorem moves_commandAnswered {command : RpcCommand}
    (waits : state.tasks.read ref = .command live process command) (reply : RpcReply) :
    Moves stopping state (state.commandAnswered options now ref live command reply) := by
  have was : (state.tasks.read ref).turn = none := by rw [waits]; rfl
  have below := staffed.called ref live (by rw [waits]; rfl)
  have finished := moves_done staffed held was
  unfold commandAnswered
  dsimp only
  split
  · exact finished
  split
  · split
    · exact finished.next (quiet_updateRecord options now _ live id (.refl _)).moves
    exact moves_awaitNext staffed held was rfl below trivial
  · exact finished

theorem moves_refreshAnswered
    (waits : state.tasks.read ref = .refresh live process) (reply : StateReply) :
    Moves stopping state (state.refreshAnswered options now ref live reply) := by
  have was : (state.tasks.read ref).turn = none := by rw [waits]; rfl
  have finished := moves_done staffed held was
  have recorded := finished.next (quiet_recordState options now _ live reply).moves
  cases reply with
  | error error => exact finished
  | state sessionId sessionFile => exact recorded
  | unsuccessful => exact recorded

/-! ## Synchronizing the session identity -/

theorem moves_identitySync {live : Nat} (change : LiveInstance → LiveInstance)
    (same : ∀ entry, ∃ syncs, change entry = { entry with identitySync := syncs })
    (pending : ∀ token, state.Pending live token →
      (state.modifyLive live change).Pending live token) :
    Moves stopping state (state.modifyLive live change) := by
  have field : ∀ {Field : Type} (field : LiveInstance → Field),
      (∀ entry syncs, field { entry with identitySync := syncs } = field entry) → ∀ other,
        field ((state.modifyLive live change).lives.read other) =
          field (state.lives.read other) := by
    intro Field field kept other
    obtain ⟨syncs, changed⟩ := same (state.lives.read live)
    exact state.kept_modifyLive field live other change (by rw [changed, kept])
  have record := field LiveInstance.record fun _ _ => rfl
  have steady : Steady stopping state (state.modifyLive live change) := by
    constructor
    · constructor
      · rfl
      · rfl
      · rfl
      · intro other
        rw [Supervisor.record, Supervisor.record, record]
        exact .refl _
      · intro other _
        rw [Supervisor.record, Supervisor.record, record]
        exact id
      · exact field LiveInstance.rpcProcess fun _ _ => rfl
      · exact field LiveInstance.bound fun _ _ => rfl
      · exact fun _ _ => Or.inl
      · exact fun _ _ => Or.inl
    · rfl
    · rfl
    · exact field LiveInstance.turnLease fun _ _ => rfl
  apply steady.moves staffed held
  intro other token waits
  by_cases own : other = live
  · rw [own] at waits ⊢
    exact pending token waits
  · rw [Pending, modifyLive, read_modify_of_ne _ _ own]
    exact waits

/-- A synchronization is asked for. One that will release makes the turn of the instance
pending. -/
theorem moves_queueSessionIdentitySync (live : Nat) (releaseAfterSync : Bool) :
    Moves stopping state (state.queueSessionIdentitySync live releaseAfterSync) ∧
      ∀ token, releaseAfterSync = true → state.Accepted live token →
        (state.queueSessionIdentitySync live releaseAfterSync).Pending live token := by
  rw [queueSessionIdentitySync]
  cases turn : (state.lives.read live).turnLease with
  | none =>
    refine ⟨.refl staffed held, ?_⟩
    intro token _ accepted
    rcases accepted with released | ⟨taken, -⟩
    · exact Or.inl released
    · rw [turnOf, turn] at taken
      cases taken
  | some own =>
    dsimp only
    let ask : LiveInstance → LiveInstance := fun entry => { entry with
      identitySync := entry.identitySync ++ [⟨own, releaseAfterSync, none⟩] }
    have syncs : ((state.modifyLive live ask).lives.read live).identitySync =
        (state.lives.read live).identitySync ++ [⟨own, releaseAfterSync, none⟩] := by
      rw [modifyLive, read_modify_self]
    constructor
    · apply moves_identitySync staffed held ask fun _ => ⟨_, rfl⟩
      intro token waits
      rw [Pending, syncs]
      rcases waits with released | ⟨sync, member, known⟩
      · exact Or.inl released
      · exact Or.inr ⟨sync, mem_append_left _ member, known⟩
    · intro token releases accepted
      rw [Pending, syncs]
      rcases accepted with released | ⟨taken, -⟩
      · exact Or.inl released
      · rw [turnOf, turn] at taken
        refine Or.inr ⟨_, mem_append_right _ (mem_singleton.mpr rfl), ?_, releases⟩
        exact some.inj taken

theorem moves_finishSync {live : Nat}
    {sync first : IdentitySync} (waits : (state.lives.read live).identitySync = first :: rest)
    (same : first.token = sync.token ∧ first.releaseAfterSync = sync.releaseAfterSync) :
    Moves stopping state (state.finishSync now live sync) := by
  let drop : LiveInstance → LiveInstance := fun entry =>
    { entry with identitySync := entry.identitySync.tail }
  have dropped : ∀ {next : Supervisor}, next.Staffed stopping → next.Held →
      (next.lives.read live).identitySync = first :: rest →
      (first.releaseAfterSync = true → next.turnLeases.releasedToken first.token = true) →
        Moves stopping next (next.modifyLive live drop) := by
    intro next staffed held waits given
    apply moves_identitySync staffed held drop fun _ => ⟨_, rfl⟩
    intro token pending
    have syncs : ((next.modifyLive live drop).lives.read live).identitySync = rest := by
      rw [modifyLive, read_modify_self]
      exact congrArg tail waits
    rw [Pending, syncs]
    rcases pending with released | ⟨known, member, rfl, releases⟩
    · exact Or.inl released
    · rw [waits] at member
      rcases mem_cons.mp member with rfl | later
      · exact Or.inl (given releases)
      · exact Or.inr ⟨known, later, rfl, releases⟩
  rw [finishSync]
  split
  · rename_i releases
    have commutes : (state.modifyLive live drop).releaseTurnLease live (some sync.token) now =
        (state.releaseTurnLease live (some sync.token) now).modifyLive live drop := by
      simp only [releaseTurnLease, modifyLive, modify_modify]
      congr 2
      funext entry
      split <;> rfl
    rw [show (state.modifyLive live fun entry =>
      { entry with identitySync := entry.identitySync.tail }) = state.modifyLive live drop from rfl,
      commutes]
    refine (moves_releaseTurnLease staffed held live sync.token now).next fun staffed held => ?_
    apply dropped staffed held
    · rw [(state.sameTurn_releaseTurnLease live live sync.token now).2.2.2]
      exact waits
    · intro _
      rw [same.1]
      refine (releasedToken_release state.turnLeases sync.token sync.token now now).trans ?_
      rw [decide_eq_true rfl, Bool.true_or]
  · rename_i keeps
    apply dropped staffed held waits
    intro releases
    rw [same.2] at releases
    exact (keeps releases).elim

theorem moves_rebindTurn (live : Nat)
    (sync : IdentitySync) : Moves stopping state (state.rebindTurn now live sync) := by
  rw [rebindTurn]
  split
  · exact .refl staffed held
  split
  · exact .refl staffed held
  split
  · exact .refl staffed held
  · rename_i done
    exact moves_turnLeases staffed held (progress_rebind done)
      (releasedToken_rebind done)

end

theorem lives_rebindTurn (live : Nat) (sync : IdentitySync) :
    (state.rebindTurn now live sync).lives = state.lives := by
  rw [rebindTurn]
  split
  · rfl
  split
  · rfl
  split <;> rfl

section

variable (staffed : state.Staffed stopping) (held : state.Held)
include staffed held

theorem moves_synced {live : Nat} {sync first : IdentitySync} {recorded : Supervisor}
    (quiet : Quiet state recorded) (waits : (state.lives.read live).identitySync = first :: rest)
    (same : first.token = sync.token ∧ first.releaseAfterSync = sync.releaseAfterSync) :
    Moves stopping state ((recorded.rebindTurn now live sync).finishSync now live sync) := by
  refine (quiet.moves staffed held).next fun staffed held => ?_
  refine (moves_rebindTurn now staffed held live sync).next fun staffed held => ?_
  have still : ((recorded.rebindTurn now live sync).lives.read live).identitySync =
      first :: rest := by
    rw [lives_rebindTurn, (quiet.lives live).identitySync]
    exact waits
  exact moves_finishSync now staffed held still same

theorem moves_startSync (live : Nat) : Moves stopping state (state.startSync options now live) := by
  rw [startSync]
  split
  · exact .refl staffed held
  rename_i sync rest waits
  split
  · exact .refl staffed held
  split
  · exact moves_synced now staffed held (quiet_updateRecord options now _ live id (.refl _)) waits
      ⟨rfl, rfl⟩
  rename_i process _
  let ask : LiveInstance → LiveInstance := fun entry =>
    { entry with identitySync := { sync with asked := some process } :: rest }
  apply moves_identitySync staffed held ask fun _ => ⟨_, rfl⟩
  intro token pending
  have syncs : ((state.modifyLive live ask).lives.read live).identitySync =
      { sync with asked := some process } :: rest := by
    rw [modifyLive, read_modify_self]
  rw [Pending, syncs]
  rcases pending with released | ⟨known, member, own, releases⟩
  · exact Or.inl released
  · rw [waits] at member
    rcases mem_cons.mp member with rfl | later
    · exact Or.inr ⟨_, mem_cons_self, own, releases⟩
    · exact Or.inr ⟨known, mem_cons_of_mem _ later, own, releases⟩

theorem moves_syncAnswered {live : Nat} {sync : IdentitySync}
    (waits : (state.lives.read live).identitySync = sync :: rest) (reply : StateReply) :
    Moves stopping state (state.syncAnswered options now live sync reply) := by
  have synced := moves_synced now staffed held (state.quiet_recordState options now live reply)
    waits ⟨rfl, rfl⟩
  cases reply with
  | error error => exact moves_finishSync now staffed held waits ⟨rfl, rfl⟩
  | state sessionId sessionFile => exact synced
  | unsuccessful => exact synced

end

end Stopping

end Supervisor
end Recode.Orchestrator

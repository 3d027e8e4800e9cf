import Recode.Orchestrator.SupervisorFrames

/-! # Instances and their children

What a step keeps of the instances and of the child processes. Only an admitted
spawn adds an instance, and with it at most one child; a child that has exited
stays so, and an instance keeps what it was admitted with. -/

namespace Recode.Orchestrator

open ObjectStore
namespace Supervisor

/-! ## Calls that start no child -/

/-- No instance is added, and none changes what it was admitted with. -/
structure Retains (before after : Supervisor) : Prop where
  fresh : after.lives.fresh = before.lives.fresh
  identity : ∀ live, (before.record live).SameIdentity (after.record live)
  processes : after.processes.fresh = before.processes.fresh
  owner : ∀ process, (after.processes.read process).live = (before.processes.read process).live
  exited : ∀ process, (before.processes.read process).exited = true →
    (after.processes.read process).exited = true
  registered : ∀ instanceId live, after.liveInstances.get? instanceId = some live →
    before.liveInstances.get? instanceId = some live

namespace Retains

theorem refl (state : Supervisor) : Retains state state :=
  ⟨rfl, fun _ => .refl _, rfl, fun _ => rfl, fun _ => id, fun _ _ => id⟩

theorem trans {first second third : Supervisor} (before : Retains first second)
    (after : Retains second third) : Retains first third where
  fresh := after.fresh.trans before.fresh
  identity live := (before.identity live).trans (after.identity live)
  processes := after.processes.trans before.processes
  owner process := (after.owner process).trans (before.owner process)
  exited process := after.exited process ∘ before.exited process
  registered instanceId live := before.registered instanceId live ∘ after.registered instanceId live

end Retains

theorem Quiet.retains {before after : Supervisor} (quiet : Quiet before after) :
    Retains before after where
  fresh := quiet.fresh
  identity live := (quiet.lives live).record.toSameIdentity
  processes := by rw [quiet.processes]
  owner _ := by rw [quiet.processes]
  exited _ := by rw [quiet.processes]; exact id
  registered _ _ := by rw [quiet.liveInstances]; exact id

section Calls

variable (options : SupervisorOptions) (now : Int) (state : Supervisor) (live : Nat)

theorem retains_modifyLive (change : LiveInstance → LiveInstance)
    (kept : (state.record live).SameIdentity (change (state.lives.read live)).record) :
    Retains state (state.modifyLive live change) where
  fresh := rfl
  identity other := state.related_modifyLive
    (fun before after => before.record.SameIdentity after.record) (fun _ => .refl _) live other
    change kept
  processes := rfl
  owner _ := rfl
  exited _ := id
  registered _ _ := id

theorem retains_updateRecord (updates : InstanceRecord → InstanceRecord)
    (kept : (state.record live).SameIdentity (updates (state.record live))) :
    Retains state (state.updateRecord options now live updates) :=
  (state.retains_modifyLive live _ kept).trans (quiet_upsertInstance options now _ _).retains

theorem retains_setStatus (status : InstanceStatus) :
    Retains state (state.setStatus options now live status) :=
  state.retains_updateRecord options now live _ ⟨rfl, rfl, rfl, rfl⟩

theorem retains_tasks (tasks : ObjectStore Task) : Retains state { state with tasks := tasks } :=
  ⟨rfl, fun _ => .refl _, rfl, fun _ => rfl, fun _ => id, fun _ _ => id⟩

theorem retains_turnLeases (turnLeases : TurnLeases) :
    Retains state { state with turnLeases := turnLeases } :=
  ⟨rfl, fun _ => .refl _, rfl, fun _ => rfl, fun _ => id, fun _ _ => id⟩

theorem retains_await (task : Task) : Retains state (state.await task) :=
  state.retains_tasks _

variable (ref : Nat) (termination : Option TerminationOutcome) (diagnostics : List String)
  (next : AfterCleanup) (sync : IdentitySync) (reply : StateReply) (uuid : String) (process : Nat)

theorem retains_awaitNext (task : Task) : Retains state (state.awaitNext ref task) :=
  state.retains_tasks _

theorem retains_deleteLive : Retains state (state.deleteLive live) where
  fresh := rfl
  identity _ := .refl _
  processes := rfl
  owner _ := rfl
  exited _ := id
  registered instanceId other found := by
    rw [deleteLive, InsertionMap.get?_erase] at found
    split at found
    · cases found
    · exact found

theorem retains_processes (change : RpcProcess → RpcProcess)
    (owner : ∀ entry, (change entry).live = entry.live)
    (exited : ∀ entry, entry.exited = true → (change entry).exited = true) :
    Retains state { state with processes := state.processes.modify process change } where
  fresh := rfl
  identity _ := .refl _
  processes := rfl
  owner other := read_modify_kept RpcProcess.live state.processes process other
    (owner _)
  exited other done := by
    by_cases same : other = process
    · subst same
      rw [read_modify_self]
      exact exited _ done
    · rw [read_modify_of_ne _ _ same]
      exact done
  registered _ _ := id

theorem retains_releaseTurnLease (token : Option Nat) :
    Retains state (state.releaseTurnLease live token now) := by
  cases token with
  | none => exact .refl state
  | some token =>
    apply (state.retains_turnLeases _).trans
    apply retains_modifyLive
    dsimp only
    split <;> exact .refl _

theorem retains_clearBindings : Retains state (state.clearBindings live) :=
  state.retains_modifyLive live _ (.refl _)

theorem retains_finishStop (diagnostic : Option String) (uuid : String) :
    Retains state (state.finishStop options now live termination diagnostic uuid) := by
  rw [finishStop]
  dsimp only
  refine Retains.trans ?_ (quiet_completeManagedInstance options now _ live _ uuid).retains
  refine Retains.trans ?_ (quiet_upsertInstance options now _ _).retains
  refine Retains.trans ?_ (retains_deleteLive _ live)
  exact state.retains_modifyLive live _ ⟨rfl, rfl, rfl, rfl⟩

theorem retains_finishFailSpawn (error : NamedError) (uuid : String) :
    Retains state (state.finishFailSpawn options now live error uuid) := by
  rw [finishFailSpawn]
  refine Retains.trans ?_ (retains_deleteLive _ live)
  refine Retains.trans ?_ (quiet_completeManagedInstance options now _ live _ uuid).retains
  exact (state.retains_updateRecord options now live _ ⟨rfl, rfl, rfl, rfl⟩)

theorem retains_finishCleanup :
    Retains state (state.finishCleanup options now ref live termination diagnostics next uuid) := by
  have waited := state.retains_awaitNext ref .finished
  cases next with
  | stop => exact waited.trans (retains_finishStop options now _ live termination _ uuid)
  | failSpawn error => exact waited.trans (retains_finishFailSpawn options now _ live error uuid)

theorem retains_continueCleanup :
    Retains state
      (state.continueCleanup options now ref live termination diagnostics next uuid) := by
  rw [continueCleanup]
  split
  · exact state.retains_awaitNext ref _
  · exact state.retains_finishCleanup options now live ref termination diagnostics next uuid

theorem retains_cleanupAcquiredResources :
    Retains state (state.cleanupAcquiredResources options now ref live next uuid) := by
  rw [cleanupAcquiredResources]
  dsimp only
  have released := state.retains_releaseTurnLease now live (state.lives.read live).turnLease
  have settled := released.trans (retains_modifyLive _ live (fun entry => { entry with
    pendingUiRequest := none
    record := { entry.record with pendingUiRequest := none } }) ⟨rfl, rfl, rfl, rfl⟩)
  have cleared := settled.trans (retains_clearBindings _ live)
  split
  · exact cleared.trans (retains_continueCleanup options now _ live ref none [] next uuid)
  rename_i process _
  have taken := cleared.trans (retains_modifyLive _ live (fun entry =>
    { entry with rpcProcess := none }) (.refl _))
  refine Retains.trans ?_ (retains_awaitNext _ ref _)
  exact taken.trans (retains_processes _ process _ (fun _ => rfl) fun _ => id)

theorem retains_disposed (result : Except String TerminationOutcome) (uuid : String) :
    Retains state (state.disposed options now ref live next result uuid) := by
  cases result with
  | ok termination => exact state.retains_continueCleanup options now live ref _ _ next uuid
  | error message => exact state.retains_continueCleanup options now live ref _ _ next uuid

theorem retains_disconnected (result : Outcome) (uuid : String) :
    Retains state
      (state.disconnected options now ref live termination diagnostics next result uuid) := by
  cases result with
  | ok _ =>
    exact (state.retains_modifyLive live _ ⟨rfl, rfl, rfl, rfl⟩).trans
      (retains_finishCleanup options now _ live ref termination diagnostics next uuid)
  | error message => exact state.retains_finishCleanup options now live ref _ _ next uuid

theorem retains_stopManagedInstance (instanceId uuid : String) :
    Retains state (state.stopManagedInstance options now instanceId uuid) := by
  rw [stopManagedInstance]
  split
  · exact .refl state
  · rename_i live _
    refine Retains.trans ?_ (retains_cleanupAcquiredResources options now _ live _ .stop uuid)
    exact (state.retains_setStatus options now live .stopping).trans (retains_await _ _)

theorem retains_failSpawn (error : NamedError) (uuid : String) :
    Retains state (state.failSpawn options now ref live error uuid) :=
  (state.retains_setStatus options now live .error).trans
    (retains_cleanupAcquiredResources options now _ live ref _ uuid)

theorem retains_bindRpcProcess : Retains state (state.bindRpcProcess live process) :=
  (state.retains_clearBindings live).trans (retains_modifyLive _ live _ (.refl _))

theorem retains_spawnAnswered :
    Retains state (state.spawnAnswered options now ref live reply uuid) := by
  have recorded := (state.quiet_recordState options now live reply).retains.trans
    (retains_awaitNext _ ref (.spawnPresence live))
  cases reply with
  | error error => exact state.retains_failSpawn options now live ref error uuid
  | state sessionId sessionFile => exact recorded
  | unsuccessful => exact recorded

theorem retains_spawnRegistered (registered : Except NamedError (Option String)) (uuid : String) :
    Retains state (state.spawnRegistered options now ref live registered uuid) := by
  cases registered with
  | error error => exact state.retains_failSpawn options now live ref error uuid
  | ok radiusPiId =>
    rw [spawnRegistered]
    refine Retains.trans ?_ (retains_awaitNext _ ref .finished)
    refine Retains.trans ?_ (retains_setStatus options now _ live _)
    refine Retains.trans ?_ (retains_updateRecord options now _ live _ ⟨rfl, rfl, rfl, rfl⟩)
    exact state.retains_modifyLive live _ (.refl _)

theorem retains_handleUnexpectedRpcExit (error : Option NamedError) (uuid : String) :
    Retains state (state.handleUnexpectedRpcExit options now live error uuid) := by
  rw [handleUnexpectedRpcExit]
  dsimp only
  split
  · exact .refl state
  have released := state.retains_releaseTurnLease now live (state.lives.read live).turnLease
  have answered := released.trans (retains_modifyLive _ live (fun entry =>
    { entry with pendingUiRequest := none }) (.refl _))
  have failed := answered.trans (retains_updateRecord options now _ live (fun record =>
    { record with
      status := .failed
      completedAt := some now
      pendingUiRequest := none
      terminalDiagnostic := error.map NamedError.message }) ⟨rfl, rfl, rfl, rfl⟩)
  have completed := failed.trans (quiet_completeManagedInstance options now _ live {
    state := .failed
    errorClassification := some ((error.map NamedError.name).getD "UnexpectedProcessExit")
    errorMessage := some ((error.map NamedError.message).getD "RPC child exited unexpectedly") }
      uuid).retains
  have cleared := (completed.trans (retains_clearBindings _ live)).trans
    (retains_modifyLive _ live (fun entry => { entry with rpcProcess := none }) (.refl _))
  split
  · exact cleared.trans (retains_await _ _)
  · exact cleared.trans (retains_deleteLive _ live)

theorem retains_exitDisconnected (result : Outcome) :
    Retains state (state.exitDisconnected options now ref live result) := by
  have waited := state.retains_awaitNext ref .finished
  cases result with
  | ok _ =>
    refine Retains.trans ?_ (retains_deleteLive _ live)
    exact waited.trans (retains_updateRecord options now _ live _ ⟨rfl, rfl, rfl, rfl⟩)
  | error message => exact waited.trans (retains_deleteLive _ live)

theorem retains_processExited (error : Option NamedError) (uuid : String) :
    Retains state (state.processExited options now process error uuid) := by
  have marked := state.retains_processes process
    (fun entry => { entry with exited := true }) (fun _ => rfl) fun _ _ => rfl
  rw [processExited]
  split
  · exact marked
  · exact marked.trans (retains_handleUnexpectedRpcExit options now _ _ _ uuid)

theorem retains_handleRpcForLive {command : RpcCommand} {ownerId : String} {after : Supervisor}
    (called : state.handleRpcForLive options now live command ownerId = .ok after) :
    Retains state after := by
  rw [handleRpcForLive] at called
  dsimp only at called
  split at called
  · cases called
  split at called
  · cases called
  split at called
  · rw [← Except.ok.inj called]
    exact state.retains_await _
  split at called
  · cases called
  have counted := state.retains_modifyLive live (fun entry =>
    { entry with nextTurnGeneration := (state.lives.read live).nextTurnGeneration + 1 }) (.refl _)
  split at called
  · rw [← Except.ok.inj called]
    exact counted
  · rw [← Except.ok.inj called]
    exact (counted.trans (retains_turnLeases _ _)).trans (retains_await _ _)

theorem retains_turnGranted (ref process token : Nat) :
    Retains state (state.turnGranted ref live process token) :=
  (state.retains_modifyLive live _ (.refl _)).trans (retains_awaitNext _ ref _)

theorem retains_promptAnswered (ref token : Nat) (reply : RpcReply) :
    Retains state (state.promptAnswered now ref live token reply) := by
  have finished := state.retains_awaitNext ref .finished
  have released := finished.trans (retains_releaseTurnLease now _ live (some token))
  cases reply with
  | success => exact finished
  | unsuccessful => exact released
  | error error => exact released

theorem retains_commandAnswered (command : RpcCommand) (reply : RpcReply) :
    Retains state (state.commandAnswered options now ref live command reply) := by
  have finished := state.retains_awaitNext ref .finished
  unfold commandAnswered
  dsimp only
  split
  · exact finished
  split
  · split
    · exact finished.trans (retains_updateRecord options now _ live _ (.refl _))
    · exact state.retains_awaitNext ref _
  · exact finished

theorem retains_refreshAnswered :
    Retains state (state.refreshAnswered options now ref live reply) := by
  have finished := state.retains_awaitNext ref .finished
  have recorded := finished.trans (quiet_recordState options now _ live reply).retains
  cases reply with
  | error error => exact finished
  | state sessionId sessionFile => exact recorded
  | unsuccessful => exact recorded

theorem retains_queueSessionIdentitySync (releaseAfterSync : Bool) :
    Retains state (state.queueSessionIdentitySync live releaseAfterSync) := by
  rw [queueSessionIdentitySync]
  split
  · exact .refl state
  · exact state.retains_modifyLive live _ (.refl _)

theorem retains_finishSync : Retains state (state.finishSync now live sync) := by
  rw [finishSync]
  have done := state.retains_modifyLive live (fun entry =>
    { entry with identitySync := entry.identitySync.tail }) (.refl _)
  split
  · exact done.trans (retains_releaseTurnLease now _ live _)
  · exact done

theorem retains_rebindTurn : Retains state (state.rebindTurn now live sync) := by
  rw [rebindTurn]
  split
  · exact .refl state
  split
  · exact .refl state
  split
  · exact .refl state
  · exact state.retains_turnLeases _

theorem retains_startSync : Retains state (state.startSync options now live) := by
  rw [startSync]
  split
  · exact .refl state
  split
  · exact .refl state
  split
  · have updated := (state.retains_updateRecord options now live id (.refl _))
    exact (updated.trans (retains_rebindTurn now _ live _)).trans (retains_finishSync now _ live _)
  · exact state.retains_modifyLive live _ (.refl _)

theorem retains_syncAnswered : Retains state (state.syncAnswered options now live sync reply) := by
  have synced := ((state.quiet_recordState options now live reply).retains.trans
    (retains_rebindTurn now _ live sync)).trans (retains_finishSync now _ live sync)
  cases reply with
  | error error => exact state.retains_finishSync now live sync
  | state sessionId sessionFile => exact synced
  | unsuccessful => exact synced

end Calls

/-! ## Admitted spawns -/

/-- The workspace that a spawn is admitted to. -/
def admission (options : SupervisorOptions) (state : Supervisor) :
    SupervisorEvent → Option WorkspaceOwnershipReceipt
  | .spawn request (.ok receipt) _ _ =>
    if state.isNewRequest request &&
        state.liveInstances.entries.length < options.maxLiveInstances &&
          (assertWorkspaceAdmission options.comparablePath receipt state.listLiveInstances
            request.parentInstanceId).isOk then some receipt
    else none
  | _ => none

/-- An instance is added with a workspace, and at most one child, which is its own. -/
structure Admits (before after : Supervisor) (receipt : WorkspaceOwnershipReceipt) : Prop where
  fresh : after.lives.fresh = before.lives.fresh + 1
  identity : ∀ live < before.lives.fresh, (before.record live).SameIdentity (after.record live)
  receipt : (after.record before.lives.fresh).workspaceReceipt = some receipt
  processes : after.processes.fresh ≤ before.processes.fresh + 1
  kept : before.processes.fresh ≤ after.processes.fresh
  owner : ∀ process < before.processes.fresh,
    (after.processes.read process).live = (before.processes.read process).live
  exited : ∀ process < before.processes.fresh, (before.processes.read process).exited = true →
    (after.processes.read process).exited = true
  child : before.processes.fresh < after.processes.fresh →
    (after.processes.read before.processes.fresh).live = before.lives.fresh
  registered : ∀ instanceId live, after.liveInstances.get? instanceId = some live →
    before.liveInstances.get? instanceId = some live ∨
      live = before.lives.fresh ∧ (after.record live).id = instanceId

variable {receipt : WorkspaceOwnershipReceipt}

theorem Admits.retains {before middle after : Supervisor}
    (admits : Admits before middle receipt) (retains : Retains middle after) :
    Admits before after receipt where
  fresh := retains.fresh.trans admits.fresh
  identity live below := (admits.identity live below).trans (retains.identity live)
  receipt := (retains.identity _).workspaceReceipt.trans admits.receipt
  processes := retains.processes ▸ admits.processes
  kept := retains.processes ▸ admits.kept
  owner process below := (retains.owner process).trans (admits.owner process below)
  exited process below done := retains.exited process (admits.exited process below done)
  child more := (retains.owner _).trans (admits.child (retains.processes ▸ more))
  registered instanceId live found := by
    rcases admits.registered instanceId live (retains.registered instanceId live found) with
      old | ⟨new, named⟩
    · exact Or.inl old
    · exact Or.inr ⟨new, (retains.identity live).id.trans named⟩

variable (state : Supervisor) (record : InstanceRecord)

theorem record_addLive_fresh : (state.addLive record).record state.lives.fresh = record := by
  simp [addLive, Supervisor.record]

theorem record_addLive_of_lt {live : Nat} (below : live < state.lives.fresh) :
    (state.addLive record).record live = state.record live := by
  simp [addLive, Supervisor.record, read_alloc_of_lt, below]

theorem admits_addLive (known : record.workspaceReceipt = some receipt) :
    Admits state (state.addLive record) receipt where
  fresh := rfl
  identity live below := by
    rw [record_addLive_of_lt _ _ below]
    exact .refl _
  receipt := by
    rw [record_addLive_fresh]
    exact known
  processes := Nat.le_succ _
  kept := Nat.le_refl _
  owner _ _ := rfl
  exited _ _ := id
  child more := (Nat.lt_irrefl _ more).elim
  registered instanceId live found := by
    rw [addLive, InsertionMap.get?_insert] at found
    split at found
    · rename_i same
      rw [← Option.some.inj found, record_addLive_fresh]
      exact Or.inr ⟨rfl, same.symm⟩
    · exact Or.inl found

theorem Admits.addChild {before after : Supervisor}
    (admits : Admits before after receipt) (none : after.processes.fresh = before.processes.fresh) :
    Admits before
      { after with processes := after.processes.alloc ⟨before.lives.fresh, false, false⟩ }
      receipt where
  fresh := admits.fresh
  identity := admits.identity
  receipt := admits.receipt
  processes := Nat.succ_le_succ (Nat.le_of_eq none)
  kept := none ▸ Nat.le_succ _
  owner process below := by
    rw [read_alloc_of_lt _ _ (none ▸ below)]
    exact admits.owner process below
  exited process below := by
    rw [read_alloc_of_lt _ _ (none ▸ below)]
    exact admits.exited process below
  child _ := by
    rw [← none, read_alloc_fresh]
  registered := admits.registered

section Spawn

variable {options : SupervisorOptions} {now : Int} {state after : Supervisor}
  {request : SpawnOptions} {inspected : Except NamedError WorkspaceOwnershipReceipt}
  {created : Except NamedError (Option ProcessIdentityRecord)} {uuid : String}

/-- A spawn goes on only with a workspace that was admitted. -/
theorem admits_of_spawned
    (spawned : state.spawnManagedInstance options now request inspected created uuid = .ok after) :
    ∃ receipt, inspected = .ok receipt ∧
      state.liveInstances.entries.length < options.maxLiveInstances ∧
        assertWorkspaceAdmission options.comparablePath receipt state.listLiveInstances
          request.parentInstanceId = .ok () ∧ Admits state after receipt := by
  rw [spawnManagedInstance] at spawned
  obtain ⟨limit, spawned⟩ := Procedure.guard_eq_ok spawned
  obtain ⟨receipt, found, spawned⟩ := Procedure.bind_eq_ok spawned
  refine ⟨receipt, found, Nat.lt_of_not_le limit, ?_⟩
  cases admitted : assertWorkspaceAdmission options.comparablePath receipt state.listLiveInstances
      request.parentInstanceId with
  | error error =>
    rw [admitted] at spawned
    cases spawned
  | ok _ =>
    refine ⟨rfl, ?_⟩
    simp only [admitted] at spawned
    have added := admits_addLive state (newRecord request receipt) rfl
    have stored := added.retains
      (quiet_upsertInstance options now _ (newRecord request receipt)).retains
    have registered := stored.retains (retains_await _ .finished)
    cases created with
    | error error =>
      rw [← Except.ok.inj spawned]
      exact registered.retains (retains_failSpawn options now _ _ _ error uuid)
    | ok identity =>
      rw [← Except.ok.inj spawned]
      have made := registered.addChild rfl
      have bound := made.retains (retains_bindRpcProcess _ state.lives.fresh
        state.processes.fresh)
      refine Admits.retains ?_ (retains_awaitNext _ state.tasks.fresh
        (.spawnState state.lives.fresh state.processes.fresh))
      split
      · exact bound.retains
          (retains_updateRecord options now _ state.lives.fresh _ ⟨rfl, rfl, rfl, rfl⟩)
      · exact bound

end Spawn

theorem step_retains (options : SupervisorOptions) (state : Supervisor) (now : Int)
    (event : SupervisorEvent) :
    Retains state (state.step options now event) ∨
      ∃ receipt, state.admission options event = some receipt ∧
        Admits state (state.step options now event) receipt := by
  cases event with
  | spawn request inspected created uuid =>
    rw [step]
    split
    · rename_i new
      cases spawned : state.spawnManagedInstance options now request inspected created uuid with
      | error error => exact Or.inl (.refl state)
      | ok after =>
        obtain ⟨receipt, rfl, limit, admitted, admits⟩ := admits_of_spawned spawned
        refine Or.inr ⟨receipt, ?_, admits⟩
        rw [admission, new, admitted, decide_eq_true limit]
        rfl
    · exact Or.inl (.refl state)
  | spawnAnswered ref reply uuid =>
    left
    rw [step]
    split
    · split
      · exact .refl state
      · exact state.retains_spawnAnswered options now _ ref reply uuid
    · exact .refl state
  | spawnRegistered ref registered uuid =>
    left
    rw [step]
    split
    · exact state.retains_spawnRegistered options now _ ref registered uuid
    · exact .refl state
  | stop instanceId uuid => exact Or.inl (state.retains_stopManagedInstance options now _ uuid)
  | disposed ref result uuid =>
    left
    rw [step]
    split
    · exact state.retains_disposed options now _ ref _ result uuid
    · exact .refl state
  | disconnected ref result uuid =>
    left
    rw [step]
    split
    · exact state.retains_disconnected options now _ ref _ _ _ result uuid
    · exact .refl state
  | exit process error uuid => exact Or.inl (state.retains_processExited options now _ _ uuid)
  | exitDisconnected ref result =>
    left
    rw [step]
    split
    · exact state.retains_exitDisconnected options now _ ref result
    · exact .refl state
  | uiRequest process request =>
    left
    rw [step]
    split
    · exact (state.quiet_handleUiRequest options now _ request).retains
    · exact .refl state
  | openStream instanceId ownerId mode attachment =>
    left
    rw [step]
    cases opened : state.openRpcStream options now instanceId ownerId mode attachment with
    | error message => exact .refl state
    | ok after => exact (state.quiet_openRpcStream options now opened).retains
  | uiResponse live stream requestId =>
    left
    rw [step]
    cases answered : state.handleUiResponse options now live stream requestId with
    | error message => exact .refl state
    | ok after => exact (state.quiet_handleUiResponse options now answered).retains
  | closeStream live stream =>
    exact Or.inl (state.quiet_closeRpcStream options now live stream).retains
  | command live command ownerId =>
    left
    rw [step]
    cases called : state.handleRpcForLive options now live command ownerId with
    | error message => exact .refl state
    | ok after => exact state.retains_handleRpcForLive options now live called
  | turnGranted ref =>
    left
    rw [step]
    split
    · split
      · exact state.retains_turnGranted _ ref _ _
      · exact .refl state
    · exact .refl state
  | turnTimedOut ref =>
    left
    rw [step]
    split
    · split
      · exact .refl state
      · exact (state.retains_turnLeases _).trans (retains_awaitNext _ ref _)
    · exact .refl state
  | promptAnswered ref reply =>
    left
    rw [step]
    split
    · split
      · exact .refl state
      · exact state.retains_promptAnswered now _ ref _ reply
    · exact .refl state
  | commandAnswered ref reply =>
    left
    rw [step]
    split
    · split
      · exact .refl state
      · exact state.retains_commandAnswered options now _ ref _ reply
    · exact .refl state
  | refreshAnswered ref reply =>
    left
    rw [step]
    split
    · split
      · exact .refl state
      · exact state.retains_refreshAnswered options now _ ref reply
    · exact .refl state
  | compactionEnd process =>
    left
    rw [step]
    split
    · exact state.retains_queueSessionIdentitySync _ false
    · exact .refl state
  | agentSettled process =>
    left
    rw [step]
    split
    · exact state.retains_queueSessionIdentitySync _ true
    · exact .refl state
  | syncStarted live => exact Or.inl (state.retains_startSync options now live)
  | syncAnswered live reply =>
    left
    rw [step]
    split
    · exact .refl state
    split
    · exact .refl state
    split
    · exact .refl state
    · exact state.retains_syncAnswered options now live _ reply
  | queue call =>
    left
    rw [step]
    split
    · exact (state.quiet_persistCompletions _).retains
    · exact .refl state

end Supervisor
end Recode.Orchestrator

import Recode.Orchestrator.SupervisorSteps

/-! # What the supervisor's calls leave alone

Most calls only record: they write records and files and change neither which
instances are live nor their processes, turns and waiting calls. -/

namespace Recode.Orchestrator

open ObjectStore

/-- The fields of a record that are never written again. -/
structure InstanceRecord.SameIdentity (before after : InstanceRecord) : Prop where
  id : after.id = before.id
  workspaceReceipt : after.workspaceReceipt = before.workspaceReceipt
  parentInstanceId : after.parentInstanceId = before.parentInstanceId
  parentSessionId : after.parentSessionId = before.parentSessionId

namespace InstanceRecord.SameIdentity

theorem refl (record : InstanceRecord) : SameIdentity record record := ⟨rfl, rfl, rfl, rfl⟩

theorem trans {first second third : InstanceRecord} (before : SameIdentity first second)
    (after : SameIdentity second third) : SameIdentity first third where
  id := after.id.trans before.id
  workspaceReceipt := after.workspaceReceipt.trans before.workspaceReceipt
  parentInstanceId := after.parentInstanceId.trans before.parentInstanceId
  parentSessionId := after.parentSessionId.trans before.parentSessionId

end InstanceRecord.SameIdentity

/-- An instance is being stopped, or was. -/
def isEnding (status : InstanceStatus) : Bool := status = .stopping || status = .stopped

/-- A record is of the same instance, and the instance did not begin to stop. -/
structure InstanceRecord.Continues (before after : InstanceRecord) : Prop
    extends SameIdentity before after where
  ending : isEnding after.status = true → isEnding before.status = true

namespace InstanceRecord.Continues

theorem refl (record : InstanceRecord) : Continues record record :=
  ⟨.refl record, fun ending => ending⟩

theorem trans {first second third : InstanceRecord} (before : Continues first second)
    (after : Continues second third) : Continues first third where
  toSameIdentity := before.toSameIdentity.trans after.toSameIdentity
  ending := before.ending ∘ after.ending

end InstanceRecord.Continues

/-- The parts of a live instance that recording does not touch. -/
structure LiveInstance.SameTurn (before after : LiveInstance) : Prop where
  record : before.record.Continues after.record
  rpcProcess : after.rpcProcess = before.rpcProcess
  bound : after.bound = before.bound
  turnLease : after.turnLease = before.turnLease
  identitySync : after.identitySync = before.identitySync

namespace LiveInstance.SameTurn

theorem refl (entry : LiveInstance) : SameTurn entry entry := ⟨.refl _, rfl, rfl, rfl, rfl⟩

theorem trans {first second third : LiveInstance} (before : SameTurn first second)
    (after : SameTurn second third) : SameTurn first third where
  record := before.record.trans after.record
  rpcProcess := after.rpcProcess.trans before.rpcProcess
  bound := after.bound.trans before.bound
  turnLease := after.turnLease.trans before.turnLease
  identitySync := after.identitySync.trans before.identitySync

end LiveInstance.SameTurn

namespace Supervisor

/-- A call only recorded. -/
structure Quiet (before after : Supervisor) : Prop where
  liveInstances : after.liveInstances = before.liveInstances
  processes : after.processes = before.processes
  tasks : after.tasks = before.tasks
  turnLeases : after.turnLeases = before.turnLeases
  fresh : after.lives.fresh = before.lives.fresh
  lives : ∀ live, (before.lives.read live).SameTurn (after.lives.read live)

namespace Quiet

theorem refl (state : Supervisor) : Quiet state state := ⟨rfl, rfl, rfl, rfl, rfl, fun _ => .refl _⟩

theorem trans {first second third : Supervisor} (before : Quiet first second)
    (after : Quiet second third) : Quiet first third where
  liveInstances := after.liveInstances.trans before.liveInstances
  processes := after.processes.trans before.processes
  tasks := after.tasks.trans before.tasks
  turnLeases := after.turnLeases.trans before.turnLeases
  fresh := after.fresh.trans before.fresh
  lives live := (before.lives live).trans (after.lives live)

end Quiet

variable (options : SupervisorOptions) (now : Int) (state : Supervisor)

theorem quiet_persist (files : Files) : Quiet state (state.persist files) :=
  ⟨rfl, rfl, rfl, rfl, rfl, fun _ => .refl _⟩

/-- A relation between live instances that a change keeps. -/
theorem related_modifyLive (related : LiveInstance → LiveInstance → Prop)
    (refl : ∀ entry, related entry entry) (live other : Nat) (change : LiveInstance → LiveInstance)
    (changed : related (state.lives.read live) (change (state.lives.read live))) :
    related (state.lives.read other) ((state.modifyLive live change).lives.read other) := by
  by_cases same : other = live
  · subst same
    rw [modifyLive, read_modify_self]
    exact changed
  · rw [modifyLive, read_modify_of_ne _ _ same]
    exact refl _

theorem kept_modifyLive {Field : Type} (field : LiveInstance → Field) (live other : Nat)
    (change : LiveInstance → LiveInstance)
    (kept : field (change (state.lives.read live)) = field (state.lives.read live)) :
    field ((state.modifyLive live change).lives.read other) = field (state.lives.read other) :=
  read_modify_kept field state.lives live other kept

variable (live : Nat)

theorem quiet_modifyLive (change : LiveInstance → LiveInstance)
    (changed : (state.lives.read live).SameTurn (change (state.lives.read live))) :
    Quiet state (state.modifyLive live change) where
  liveInstances := rfl
  processes := rfl
  tasks := rfl
  turnLeases := rfl
  fresh := rfl
  lives other := state.related_modifyLive LiveInstance.SameTurn .refl live other change changed

theorem quiet_upsertInstance (record : InstanceRecord) :
    Quiet state (state.upsertInstance options now record) :=
  state.quiet_persist _

theorem quiet_updateRecord (updates : InstanceRecord → InstanceRecord)
    (kept : (state.record live).Continues (updates (state.record live))) :
    Quiet state (state.updateRecord options now live updates) := by
  have changed : Quiet state (state.modifyLive live fun entry =>
      { entry with record := updates entry.record }) :=
    state.quiet_modifyLive live _ ⟨kept, rfl, rfl, rfl, rfl⟩
  exact changed.trans (quiet_upsertInstance options now _ _)

theorem quiet_setStatus {status : InstanceStatus} (runs : isEnding status = false) :
    Quiet state (state.setStatus options now live status) := by
  apply state.quiet_updateRecord options now live
  refine ⟨⟨rfl, rfl, rfl, rfl⟩, ?_⟩
  intro ending
  rw [runs] at ending
  cases ending

theorem quiet_persistCompletions (after : QueueRun) :
    Quiet state (state.persistCompletions after) := by
  rw [persistCompletions]
  generalize completionWrites state.files.completions after = writes
  induction writes generalizing state with
  | nil => exact .refl state
  | cons completions writes ih => exact (state.quiet_persist _).trans (ih _)

theorem quiet_enqueuePersistedCompletion (record : InstanceRecord) (uuid : String) :
    Quiet state (state.enqueuePersistedCompletion options now record uuid).2 := by
  rw [enqueuePersistedCompletion]
  cases completionInput options record with
  | none => exact .refl state
  | some input =>
    dsimp only
    split
    · exact state.quiet_persistCompletions _
    · exact state.quiet_persistCompletions _

theorem lives_persistCompletions (after : QueueRun) :
    (state.persistCompletions after).lives = state.lives := by
  rw [persistCompletions]
  generalize completionWrites state.files.completions after = writes
  induction writes generalizing state with
  | nil => rfl
  | cons completions writes ih => exact ih _

theorem lives_of_enqueued {record : InstanceRecord} {result : Except String InstanceRecord}
    {uuid : String} {written : Supervisor}
    (enqueued : state.enqueuePersistedCompletion options now record uuid = (result, written)) :
    written.lives = state.lives := by
  rw [enqueuePersistedCompletion] at enqueued
  cases input : completionInput options record with
  | none =>
    rw [input] at enqueued
    cases enqueued
    rfl
  | some _ =>
    simp only [input] at enqueued
    split at enqueued
    · cases enqueued
      exact state.lives_persistCompletions _
    · cases enqueued
      exact state.lives_persistCompletions _

theorem continues_of_enqueued {record after : InstanceRecord} {uuid : String} {written : Supervisor}
    (enqueued : state.enqueuePersistedCompletion options now record uuid = (.ok after, written)) :
    record.Continues after := by
  rw [enqueuePersistedCompletion] at enqueued
  cases input : completionInput options record with
  | none =>
    rw [input] at enqueued
    cases enqueued
    exact .refl record
  | some _ =>
    simp only [input] at enqueued
    split at enqueued
    · cases enqueued
    · cases enqueued
      exact ⟨⟨rfl, rfl, rfl, rfl⟩, fun ending => ending⟩

theorem quiet_handOff (uuid : String) : Quiet state (state.handOff options now live uuid).1 := by
  rw [handOff]
  split
  · exact .refl state
  have queued := state.quiet_enqueuePersistedCompletion options now (state.record live) uuid
  cases outcome : state.enqueuePersistedCompletion options now (state.record live) uuid with
  | mk result written =>
    rw [outcome] at queued
    refine queued.trans ?_
    cases result with
    | ok record =>
      dsimp only
      refine written.quiet_updateRecord options now live _ ?_
      rw [Supervisor.record, state.lives_of_enqueued options now outcome]
      exact state.continues_of_enqueued options now outcome
    | error message =>
      dsimp only
      exact written.quiet_updateRecord options now live _
        ⟨⟨rfl, rfl, rfl, rfl⟩, fun ending => ending⟩

theorem quiet_completeManagedInstance (completion : MaestroLifecycleCompletion) (uuid : String) :
    Quiet state (state.completeManagedInstance options now live completion uuid) := by
  rw [completeManagedInstance]
  split
  · exact .refl state
  · refine Quiet.trans ?_ (quiet_modifyLive _ live _ ⟨.refl _, rfl, rfl, rfl, rfl⟩)
    refine Quiet.trans ?_ (quiet_handOff options now _ live uuid)
    exact state.quiet_updateRecord options now live _ ⟨⟨rfl, rfl, rfl, rfl⟩, fun ending => ending⟩

theorem quiet_recordState (reply : StateReply) :
    Quiet state (state.recordState options now live reply) := by
  apply state.quiet_updateRecord options now live _
  cases reply with
  | state sessionId sessionFile => exact ⟨⟨rfl, rfl, rfl, rfl⟩, fun ending => ending⟩
  | unsuccessful => exact .refl _
  | error error => exact .refl _

theorem quiet_handleUiRequest (request : RpcExtensionUIRequest) :
    Quiet state (state.handleUiRequest options now live request) := by
  rw [handleUiRequest]
  dsimp only
  split
  · exact .refl state
  have asked := state.quiet_modifyLive live
    (fun entry => { entry with pendingUiRequest := some request }) ⟨.refl _, rfl, rfl, rfl, rfl⟩
  apply asked.trans
  apply quiet_updateRecord options now _ live
  refine ⟨⟨rfl, rfl, rfl, rfl⟩, ?_⟩
  intro ending
  dsimp only at ending
  split at ending
  · exact ending
  · cases ending

theorem quiet_addSubscriber : Quiet state (state.addSubscriber live) :=
  state.quiet_modifyLive live _ ⟨.refl _, rfl, rfl, rfl, rfl⟩

theorem quiet_openRpcStream {instanceId ownerId : String} {mode : RpcStreamMode}
    {attachment : Except String (Option Nat)} {after : Supervisor}
    (opened : state.openRpcStream options now instanceId ownerId mode attachment = .ok after) :
    Quiet state after := by
  rw [openRpcStream] at opened
  cases found : state.liveInstances.get? instanceId with
  | none =>
    rw [found] at opened
    rw [← Except.ok.inj opened]
    exact .refl state
  | some live =>
    simp only [found] at opened
    split at opened
    · rw [← Except.ok.inj opened]
      exact .refl state
    split at opened
    · rw [← Except.ok.inj opened]
      exact state.quiet_addSubscriber live
    split at opened
    · cases opened
    split at opened
    · obtain ⟨_, refused, -⟩ := Procedure.bind_eq_ok opened
      cases refused
    obtain ⟨attached, -, opened⟩ := Procedure.bind_eq_ok opened
    rw [← Except.ok.inj opened]
    refine Quiet.trans ?_ (quiet_addSubscriber _ live)
    let own : LiveInstance → LiveInstance := fun entry =>
      { entry with
        interactiveOwner := some ⟨entry.nextStream, ownerId,
          attached.getD (entry.nextOwnerGeneration + 1)⟩
        nextOwnerGeneration := entry.nextOwnerGeneration + if attached.isSome then 0 else 1 }
    have owned : Quiet state (state.modifyLive live own) :=
      state.quiet_modifyLive live _ ⟨.refl _, rfl, rfl, rfl, rfl⟩
    split
    · exact owned.trans (quiet_setStatus options now _ live rfl)
    · exact owned

theorem quiet_handleUiResponse {live stream : Nat} {requestId : String} {after : Supervisor}
    (answered : state.handleUiResponse options now live stream requestId = .ok after) :
    Quiet state after := by
  rw [handleUiResponse] at answered
  dsimp only at answered
  split at answered
  · cases answered
  split at answered
  · cases answered
  rw [← Except.ok.inj answered]
  exact (state.quiet_modifyLive live _ ⟨.refl _, rfl, rfl, rfl, rfl⟩).trans
    (quiet_updateRecord options now _ live _ ⟨⟨rfl, rfl, rfl, rfl⟩, nofun⟩)

theorem quiet_closeRpcStream (live stream : Nat) :
    Quiet state (state.closeRpcStream options now live stream) := by
  rw [closeRpcStream]
  have left : Quiet state (state.modifyLive live fun entry =>
      { entry with subscribers := entry.subscribers.erase stream }) :=
    state.quiet_modifyLive live _ ⟨.refl _, rfl, rfl, rfl, rfl⟩
  dsimp only
  split
  · have detached := left.trans (quiet_modifyLive _ live (fun entry =>
      { entry with interactiveOwner := none }) ⟨.refl _, rfl, rfl, rfl, rfl⟩)
    split
    · exact detached.trans (quiet_setStatus options now _ live rfl)
    · exact detached
  · exact left

end Supervisor
end Recode.Orchestrator

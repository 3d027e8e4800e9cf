import Recode.Orchestrator.Supervisor

/-! # The supervisor's calls

Each function runs a call from one wait to the next. What the caller waits for
is the task it leaves behind. -/

namespace Recode.Orchestrator

open Text

/-- What an instance is spawned with. -/
structure SpawnOptions where
  instanceId : String
  workspaceAccess : WorkspaceAccessMode
  parentInstanceId : Option String
  parentSessionId : Option String

/-- A child process's answer to `get_state`. -/
inductive StateReply where
  | state (sessionId : String) (sessionFile : Option String)
  | unsuccessful
  | error (error : NamedError)

/-- A child process's answer to a command. -/
inductive RpcReply where
  | success
  | unsuccessful
  | error (error : NamedError)

/-- A stream may answer for an instance, or only watch it. -/
inductive RpcStreamMode where
  | interactive | readOnly
deriving DecidableEq, Repr

/-- An error's message, or nothing when the operation succeeded. -/
abbrev Outcome := Except String Unit

namespace Supervisor

variable (options : SupervisorOptions) (now : Int)

/-! ## Cleaning up -/

def finishStop (state : Supervisor) (live : Nat) (termination : Option TerminationOutcome)
    (diagnostic : Option String) (uuid : String) : Supervisor :=
  let terminationFailed := termination.any fun termination => !termination.exited
  let failed := diagnostic.isSome || terminationFailed
  let terminalDiagnostic := diagnostic.or (if terminationFailed then
    some "RPC process did not exit after forced termination" else none)
  let ended := state.modifyLive live fun entry => { entry with
    record := { entry.record with
      status := if failed then .failed else .cancelled
      completedAt := some now
      terminationOutcome := termination
      terminalDiagnostic := terminalDiagnostic } }
  let forgotten := ended.deleteLive live
  (forgotten.upsertInstance options now (forgotten.record live)).completeManagedInstance options now
    live {
      state := if failed then .failed else .cancelled
      summary := if failed then none else some "Session stopped by Maestro"
      errorClassification := if failed then some "TerminationFailure" else none
      errorMessage := if failed then terminalDiagnostic else none } uuid

def finishFailSpawn (state : Supervisor) (live : Nat) (error : NamedError) (uuid : String) :
    Supervisor :=
  let failed := state.updateRecord options now live fun record =>
    { record with status := .failed, completedAt := some now }
  (failed.completeManagedInstance options now live {
    state := .failed
    errorClassification := some error.name
    errorMessage := some error.message } uuid).deleteLive live

def finishCleanup (state : Supervisor) (ref live : Nat) (termination : Option TerminationOutcome)
    (diagnostics : List String) (next : AfterCleanup) (uuid : String) : Supervisor :=
  let state := state.awaitNext ref .finished
  match next with
  | .stop =>
    let diagnostic := if diagnostics = [] then none
      else some (sliceFront ("; ".intercalate diagnostics) 4096)
    state.finishStop options now live termination diagnostic uuid
  | .failSpawn error => state.finishFailSpawn options now live error uuid

def continueCleanup (state : Supervisor) (ref live : Nat) (termination : Option TerminationOutcome)
    (diagnostics : List String) (next : AfterCleanup) (uuid : String) : Supervisor :=
  if (truthy (state.lives.read live).radiusPiId).isSome then
    state.awaitNext ref (.disconnect live termination diagnostics next)
  else state.finishCleanup options now ref live termination diagnostics next uuid

/-- Unsubscribe from the process of a live instance. -/
def clearBindings (state : Supervisor) (live : Nat) : Supervisor :=
  state.modifyLive live fun entry => { entry with bound := none }

def cleanupAcquiredResources (state : Supervisor) (ref live : Nat) (next : AfterCleanup)
    (uuid : String) : Supervisor :=
  let rpcProcess := (state.lives.read live).rpcProcess
  let settled := (state.releaseOwnTurn live now).modifyLive live fun entry => { entry with
    pendingUiRequest := none
    record := { entry.record with pendingUiRequest := none } }
  let cleared := settled.clearBindings live
  match rpcProcess with
  | none => cleared.continueCleanup options now ref live none [] next uuid
  | some process =>
    let taken := cleared.modifyLive live fun entry => { entry with rpcProcess := none }
    let disposing := { taken with
      processes := taken.processes.modify process fun process =>
        { process with disposing := true } }
    disposing.awaitNext ref (.dispose live process next)

def disposed (state : Supervisor) (ref live : Nat) (next : AfterCleanup)
    (result : Except String TerminationOutcome) (uuid : String) : Supervisor :=
  match result with
  | .ok termination => state.continueCleanup options now ref live (some termination) [] next uuid
  | .error message =>
    state.continueCleanup options now ref live none [s!"RPC disposal failed: {message}"] next uuid

/-- The presence of an instance was withdrawn, or that failed. -/
def disconnected (state : Supervisor) (ref live : Nat) (termination : Option TerminationOutcome)
    (diagnostics : List String) (next : AfterCleanup) (result : Outcome) (uuid : String) :
    Supervisor :=
  match result with
  | .ok _ =>
    let withdrawn := state.modifyLive live fun entry => { entry with
      radiusPiId := none
      record := { entry.record with radiusPiId := none } }
    withdrawn.finishCleanup options now ref live termination diagnostics next uuid
  | .error message =>
    state.finishCleanup options now ref live termination
      (diagnostics ++ [s!"Presence disconnect failed: {message}"]) next uuid

def stopManagedInstance (state : Supervisor) (instanceId uuid : String) : Supervisor :=
  match state.liveInstances.get? instanceId with
  | none => state
  | some live =>
    let stopping := (state.setStatus options now live .stopping).await .finished
    stopping.cleanupAcquiredResources options now state.tasks.fresh live .stop uuid

def failSpawn (state : Supervisor) (ref live : Nat) (error : NamedError) (uuid : String) :
    Supervisor :=
  (state.setStatus options now live .error).cleanupAcquiredResources options now ref live
    (.failSpawn error) uuid

/-! ## Spawning -/

def listLiveInstances (state : Supervisor) : List InstanceRecord :=
  state.liveInstances.entries.map fun entry => state.record entry.2

def bindRpcProcess (state : Supervisor) (live process : Nat) : Supervisor :=
  (state.clearBindings live).modifyLive live fun entry =>
    { entry with rpcProcess := some process, bound := some process }

def addLive (state : Supervisor) (record : InstanceRecord) : Supervisor :=
  { state with
    lives := state.lives.alloc { record := record }
    liveInstances := state.liveInstances.insert record.id state.lives.fresh }

def newRecord (request : SpawnOptions) (receipt : WorkspaceOwnershipReceipt) : InstanceRecord where
  id := request.instanceId
  status := .starting
  cwd := receipt.selectedPath
  parentInstanceId := request.parentInstanceId
  parentSessionId := request.parentSessionId
  workspaceReceipt := some receipt

/-- The first part of `spawnManagedInstance`. What `inspectWorkspace` and `createRpcProcess`
did is given. -/
def spawnManagedInstance (state : Supervisor) (request : SpawnOptions)
    (inspected : Except NamedError WorkspaceOwnershipReceipt)
    (created : Except NamedError (Option ProcessIdentityRecord)) (uuid : String) :
    Except NamedError Supervisor := do
  if options.maxLiveInstances ≤ state.liveInstances.entries.length then
    throw ⟨"Error", "Maestro live instance limit reached"⟩
  let receipt ← inspected
  match assertWorkspaceAdmission options.comparablePath receipt state.listLiveInstances
      request.parentInstanceId with
  | .error error => throw ⟨"WorkspaceSafetyError", error.message⟩
  | .ok _ =>
    let live := state.lives.fresh
    let ref := state.tasks.fresh
    let record := newRecord request receipt
    let registered := ((state.addLive record).upsertInstance options now record).await .finished
    match created with
    | .error error => return registered.failSpawn options now ref live error uuid
    | .ok identity =>
      let process := registered.processes.fresh
      let made := { registered with
        processes := registered.processes.alloc ⟨live, false, false⟩ }
      let bound := made.bindRpcProcess live process
      let identified := if identity.isSome then
        bound.updateRecord options now live fun record =>
          { record with processIdentity := identity }
      else bound
      return identified.awaitNext ref (.spawnState live process)

/-- What `syncInstanceRecord` writes when the child has answered. -/
def recordState (state : Supervisor) (live : Nat) (reply : StateReply) : Supervisor :=
  state.updateRecord options now live fun record =>
    match reply with
    | .state sessionId sessionFile =>
      { record with sessionId := some sessionId, sessionFile := sessionFile }
    | _ => record

def spawnAnswered (state : Supervisor) (ref live : Nat) (reply : StateReply) (uuid : String) :
    Supervisor :=
  match reply with
  | .error error => state.failSpawn options now ref live error uuid
  | reply => (state.recordState options now live reply).awaitNext ref (.spawnPresence live)

def spawnRegistered (state : Supervisor) (ref live : Nat)
    (registered : Except NamedError (Option String)) (uuid : String) : Supervisor :=
  match registered with
  | .error error => state.failSpawn options now ref live error uuid
  | .ok radiusPiId =>
    let present := state.modifyLive live fun entry =>
      { entry with radiusPiId := radiusPiId.or entry.radiusPiId }
    let updated := present.updateRecord options now live fun record =>
      { record with radiusPiId := radiusPiId }
    let status := if (updated.lives.read live).pendingUiRequest.isSome then .waitingInput
      else .online
    (updated.setStatus options now live status).awaitNext ref .finished

/-! ## Unexpected exits -/

/-- A child process exited without having been told to. -/
def handleUnexpectedRpcExit (state : Supervisor) (live : Nat) (error : Option NamedError)
    (uuid : String) : Supervisor :=
  let status := (state.record live).status
  if !state.isRegistered live || status = .stopping || status = .stopped then state
  else
    let answered := (state.releaseOwnTurn live now).modifyLive live fun entry =>
      { entry with pendingUiRequest := none }
    let failed := answered.updateRecord options now live fun record =>
      { record with
        status := .failed
        completedAt := some now
        pendingUiRequest := none
        terminalDiagnostic := error.map NamedError.message }
    let completed := failed.completeManagedInstance options now live {
      state := .failed
      errorClassification := some ((error.map NamedError.name).getD "UnexpectedProcessExit")
      errorMessage := some ((error.map NamedError.message).getD "RPC child exited unexpectedly") }
        uuid
    let cleared := (completed.clearBindings live).modifyLive live fun entry =>
      { entry with rpcProcess := none }
    if (truthy (cleared.lives.read live).radiusPiId).isSome then
      cleared.await (.exitPresence live)
    else cleared.deleteLive live

/-- `handleUnexpectedRpcExit` after the presence was withdrawn, or that failed. -/
def exitDisconnected (state : Supervisor) (ref live : Nat) (result : Outcome) : Supervisor :=
  let finished := state.awaitNext ref .finished
  match result with
  | .ok _ => (finished.updateRecord options now live fun record =>
    { record with radiusPiId := none }).deleteLive live
  | .error _ => finished.deleteLive live

def processExited (state : Supervisor) (process : Nat) (error : Option NamedError)
    (uuid : String) : Supervisor :=
  let exited := state.processes.read process
  let marked := { state with
    processes := state.processes.modify process fun process => { process with exited := true } }
  if exited.exited || (state.lives.read exited.live).bound ≠ some process then marked
  else marked.handleUnexpectedRpcExit options now exited.live
    (if exited.disposing then none else error) uuid

/-! ## Requests to the user -/

/-- The largest request, in bytes of JSON text, that is kept for the user. -/
def maxReplayEventBytes : Nat := 65536

/-- A child process asks its user something. -/
def handleUiRequest (state : Supervisor) (live : Nat) (request : RpcExtensionUIRequest) :
    Supervisor :=
  let entry := state.lives.read live
  if !isBlockingUiRequest request || maxReplayEventBytes < request.bytes then state
  else
    let asked := state.modifyLive live fun entry =>
      { entry with pendingUiRequest := some request }
    asked.updateRecord options now live fun record => { record with
      pendingUiRequest := some request
      status := if entry.interactiveOwner.isSome || record.status ≠ .online then record.status
        else .waitingInput }

/-- A new stream watches an instance. -/
def addSubscriber (state : Supervisor) (live : Nat) : Supervisor :=
  state.modifyLive live fun entry => { entry with
    nextStream := entry.nextStream + 1
    subscribers := entry.subscribers ++ [entry.nextStream] }

/-- Attach a stream to an instance. What the lifecycle of the instance answered to the
attachment is given. -/
def openRpcStream (state : Supervisor) (instanceId ownerId : String) (mode : RpcStreamMode)
    (attachment : Except String (Option Nat)) : Except String Supervisor :=
  match state.liveInstances.get? instanceId with
  | none => .ok state
  | some live =>
    let entry := state.lives.read live
    if entry.rpcProcess.isNone ||
        options.maxSubscribersPerInstance ≤ entry.subscribers.length then .ok state
    else if mode = .readOnly then .ok (state.addSubscriber live)
    else
      match entry.interactiveOwner with
      | some owner => .error
          s!"Interactive owner already attached to {instanceId}: {owner.ownerId}"
      | none => do
        if ownerId = "" ∨ 512 < utf16Length ownerId then
          throw "ownerId must contain 1 to 512 characters"
        let attached ← attachment
        let owned := state.modifyLive live fun entry => { entry with
          interactiveOwner := some ⟨entry.nextStream, ownerId,
            attached.getD (entry.nextOwnerGeneration + 1)⟩
          nextOwnerGeneration := entry.nextOwnerGeneration + if attached.isSome then 0 else 1 }
        let resumed := if entry.record.status = .waitingInput then
            owned.setStatus options now live .online
          else owned
        return resumed.addSubscriber live

/-- The owner of an instance answers what its child process asked. -/
def handleUiResponse (state : Supervisor) (live stream : Nat) (requestId : String) :
    Except String Supervisor :=
  let entry := state.lives.read live
  if !entry.interactiveOwner.any fun owner => owner.stream = stream then
    .error "Stale or read-only RPC attachment"
  else if !entry.pendingUiRequest.any fun request => request.id = requestId then
    .error s!"UI response does not match the pending request: {requestId}"
  else
    let answered := state.modifyLive live fun entry => { entry with pendingUiRequest := none }
    .ok (answered.updateRecord options now live fun record =>
      { record with pendingUiRequest := none, status := .online })

def closeRpcStream (state : Supervisor) (live stream : Nat) : Supervisor :=
  let left := state.modifyLive live fun entry =>
    { entry with subscribers := entry.subscribers.erase stream }
  let entry := left.lives.read live
  if entry.interactiveOwner.any fun owner => owner.stream = stream then
    let detached := left.modifyLive live fun entry => { entry with interactiveOwner := none }
    if entry.pendingUiRequest.isSome && entry.record.status = .online then
      detached.setStatus options now live .waitingInput
    else detached
  else left

/-! ## Commands -/

/-- The first part of `handleRpcForLive`. -/
def handleRpcForLive (state : Supervisor) (live : Nat) (command : RpcCommand) (ownerId : String) :
    Except String Supervisor :=
  let entry := state.lives.read live
  match entry.rpcProcess with
  | none => .error s!"RPC process is unavailable for {entry.record.id}"
  | some process =>
    if (entry.record.workspaceReceipt.any fun receipt => receipt.access = .readOnly) &&
        !isWorkspaceReadOnlyCommand command then
      .error (s!"RPC command {command.type} is unavailable in a read-only " ++
        "workspace session")
    else if command.type ≠ "prompt" then
      .ok (state.await (.command live process command))
    else
      match truthy entry.record.sessionId with
      | none => .error "Cannot acquire a turn lease before session identity is resolved"
      | some sessionId =>
        let generation := entry.nextTurnGeneration + 1
        let counted := state.modifyLive live fun entry =>
          { entry with nextTurnGeneration := generation }
        match options.turnLeases.acquire state.turnLeases sessionId ownerId generation
            (some options.turnLeaseTimeoutMs) now now with
        | .error _ => .ok counted
        | .ok turnLeases =>
          let token := state.turnLeases.acquisitions.fresh
          .ok ({ counted with turnLeases := turnLeases }.await (.acquire live process token))

def turnGranted (state : Supervisor) (ref live process token : Nat) : Supervisor :=
  (state.modifyLive live fun entry => { entry with turnLease := some token }).awaitNext ref
    (.prompt live process token)

def promptAnswered (state : Supervisor) (ref live token : Nat) (reply : RpcReply) : Supervisor :=
  let finished := state.awaitNext ref .finished
  match reply with
  | .success => finished
  | _ => finished.releaseTurnLease live (some token) now

/-- The first part of `syncInstanceRecord` in `handleRpcForLive`. -/
def commandAnswered (state : Supervisor) (ref live : Nat) (command : RpcCommand)
    (reply : RpcReply) : Supervisor :=
  let finished := state.awaitNext ref .finished
  match reply with
  | .error _ => finished
  | _ =>
    if shouldRefreshSessionMetadata command then
      match (state.lives.read live).rpcProcess with
      | none => finished.updateRecord options now live id
      | some process => state.awaitNext ref (.refresh live process)
    else finished

def refreshAnswered (state : Supervisor) (ref live : Nat) (reply : StateReply) : Supervisor :=
  let finished := state.awaitNext ref .finished
  match reply with
  | .error _ => finished
  | reply => finished.recordState options now live reply

/-! ## Synchronizing the session identity -/

/-- The end of a synchronization, whether it succeeded or not. -/
def finishSync (state : Supervisor) (live : Nat) (sync : IdentitySync) : Supervisor :=
  let done := state.modifyLive live fun entry =>
    { entry with identitySync := entry.identitySync.tail }
  if sync.releaseAfterSync then done.releaseTurnLease live (some sync.token) now else done

def rebindTurn (state : Supervisor) (live : Nat) (sync : IdentitySync) : Supervisor :=
  match truthy (state.record live).sessionId with
  | none => state
  | some resolved =>
    if resolved = state.turnLeases.sessionOf sync.token then state
    else
      match SessionTurnLeaseRegistry.rebind state.turnLeases (some sync.token) resolved now with
      | .error _ => state
      | .ok result => { state with turnLeases := result.2 }

def startSync (state : Supervisor) (live : Nat) : Supervisor :=
  match (state.lives.read live).identitySync with
  | [] => state
  | sync :: rest =>
    if sync.asked.isSome then state
    else
      match (state.lives.read live).rpcProcess with
      | none =>
        ((state.updateRecord options now live id).rebindTurn now live sync).finishSync now live
          sync
      | some process =>
        state.modifyLive live fun entry =>
          { entry with identitySync := { sync with asked := some process } :: rest }

def syncAnswered (state : Supervisor) (live : Nat) (sync : IdentitySync) (reply : StateReply) :
    Supervisor :=
  match reply with
  | .error _ => state.finishSync now live sync
  | reply => ((state.recordState options now live reply).rebindTurn now live sync).finishSync now
      live sync

end Supervisor
end Recode.Orchestrator

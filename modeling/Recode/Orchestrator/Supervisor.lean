import Recode.Orchestrator.CompletionRuns
import Recode.Orchestrator.Instances
import Recode.Orchestrator.TurnLease

/-! # The supervisor

The supervisor's live instances, their child processes, the turn leases and the
two files it keeps. A call that waits is kept as a task; what runs without
waiting is one function of the state. -/

namespace Recode.Orchestrator

open Text

/-- A command for a child process. Only the texts the supervisor looks at are kept. -/
structure RpcCommand where
  type : String
  message : String
deriving DecidableEq, Repr

/-- The commands after which the session of an instance is read again. -/
def shouldRefreshSessionMetadata (command : RpcCommand) : Bool :=
  ["new_session", "switch_session", "fork", "clone", "set_session_name"].contains command.type

/-- The commands a session without write access may be sent. -/
def isWorkspaceReadOnlyCommand (command : RpcCommand) : Bool :=
  if command.type = "bash" || command.type = "export_html" then false
  else command.type ≠ "prompt" ||
    ((command.message.toList.dropWhile isTrimmed).head? ≠ some '/')

/-- Whether the parent of an instance was told that it ended. -/
inductive HandoffState where
  | notRequired | queued | failed
deriving DecidableEq, Repr

/-- How an instance ended, as its lifecycle is told. -/
structure MaestroLifecycleCompletion where
  state : CompletionTerminalState
  summary : Option String := none
  errorClassification : Option String := none
  errorMessage : Option String := none
  resultHash : Option String := none
  handoffState : Option HandoffState := none
  handoffDiagnostic : Option String := none
deriving DecidableEq, Repr

/-- What the hash of a result is taken of. -/
structure HashedResult where
  instanceId : String
  sessionId : Option String
  state : CompletionTerminalState
  summary : Option String
  completedAt : String

/-- An error, by its name and its message. -/
structure NamedError where
  name : String
  message : String
deriving DecidableEq, Repr

/-- A child process. The live instance is the one it was created for. -/
structure RpcProcess where
  live : Nat
  exited : Bool
  disposing : Bool
deriving DecidableEq, Repr

/-- A synchronization of the session identity that a turn asked for, and the process it has
asked. -/
structure IdentitySync where
  token : Nat
  releaseAfterSync : Bool
  asked : Option Nat
deriving DecidableEq, Repr

/-- The stream that may answer for an instance. -/
structure InteractiveOwner where
  stream : Nat
  ownerId : String
  ownerGeneration : Nat
deriving DecidableEq, Repr

/-- A live instance. -/
structure LiveInstance where
  record : InstanceRecord
  subscribers : List Nat := []
  nextStream : Nat := 0
  interactiveOwner : Option InteractiveOwner := none
  nextOwnerGeneration : Nat := 0
  pendingUiRequest : Option RpcExtensionUIRequest := none
  rpcProcess : Option Nat := none
  bound : Option Nat := none
  radiusPiId : Option String := none
  turnLease : Option Nat := none
  nextTurnGeneration : Int := 0
  identitySync : List IdentitySync := []
  terminalCompletion : Option MaestroLifecycleCompletion := none
deriving DecidableEq, Repr

/-- What follows the cleanup of an instance. -/
inductive AfterCleanup where
  | stop
  | failSpawn (error : NamedError)
deriving DecidableEq, Repr

/-- A call that waits, and what for. -/
inductive Task where
  | spawnState (live process : Nat)
  | spawnPresence (live : Nat)
  | dispose (live process : Nat) (next : AfterCleanup)
  | disconnect (live : Nat) (termination : Option TerminationOutcome) (diagnostics : List String)
      (next : AfterCleanup)
  | exitPresence (live : Nat)
  | acquire (live process token : Nat)
  | prompt (live process token : Nat)
  | command (live process : Nat) (command : RpcCommand)
  | refresh (live process : Nat)
  | finished
deriving DecidableEq, Repr

/-- The two files of the supervisor. -/
structure Files where
  instances : List InstanceRecord
  completions : QueueRun

/-- The state of a supervisor. The files after every write are kept in order. -/
structure Supervisor where
  liveInstances : InsertionMap String Nat
  lives : ObjectStore LiveInstance
  processes : ObjectStore RpcProcess
  tasks : ObjectStore Task
  turnLeases : TurnLeases
  files : Files
  persisted : List Files

/-- What a supervisor is built with. -/
structure SupervisorOptions where
  maxLiveInstances : Nat
  maxSubscribersPerInstance : Nat
  turnLeases : SessionTurnLeaseRegistry
  turnLeaseTimeoutMs : ℚ
  completionQueue : MaestroCompletionQueue
  terminalRetentionMs : Int
  parseDate : String → Option Int
  toISOString : Int → String
  hashResult : HashedResult → String
  comparablePath : String → String

/-- The statuses of instances that have ended. -/
def isTerminalStatus (status : InstanceStatus) : Bool :=
  status = .stopped || status = .succeeded || status = .failed || status = .cancelled

section Storage

variable (options : SupervisorOptions)

/-- An ended instance has been kept long enough. -/
def expired (now : Int) (record : InstanceRecord) : Bool :=
  isTerminalStatus record.status &&
    record.completedAt.any fun completedAt => completedAt < now - options.terminalRetentionMs

/-- The instances of a file that are still kept. -/
def loadInstances (now : Int) (instances : List InstanceRecord) : List InstanceRecord :=
  instances.filter fun record => !expired options now record

def upsert (instances : List InstanceRecord) (record : InstanceRecord) : List InstanceRecord :=
  if instances.any fun existing => existing.id = record.id then
    instances.map fun existing => if existing.id = record.id then record else existing
  else instances ++ [record]

end Storage

namespace Supervisor

def persist (state : Supervisor) (files : Files) : Supervisor :=
  { state with files := files, persisted := state.persisted ++ [files] }

def modifyLive (state : Supervisor) (live : Nat) (change : LiveInstance → LiveInstance) :
    Supervisor :=
  { state with lives := state.lives.modify live change }

/-- Let a call wait. -/
def await (state : Supervisor) (task : Task) : Supervisor :=
  { state with tasks := state.tasks.alloc task }

/-- Let a call go on waiting for something else. -/
def awaitNext (state : Supervisor) (ref : Nat) (task : Task) : Supervisor :=
  { state with tasks := state.tasks.modify ref fun _ => task }

def record (state : Supervisor) (live : Nat) : InstanceRecord := (state.lives.read live).record

def isRegistered (state : Supervisor) (live : Nat) : Bool :=
  state.liveInstances.get? (state.record live).id = some live

/-- A process can be sent commands. -/
def isRunning (state : Supervisor) (process : Nat) : Bool :=
  !(state.processes.read process).exited && !(state.processes.read process).disposing

section Records

variable (options : SupervisorOptions) (now : Int)

def upsertInstance (state : Supervisor) (record : InstanceRecord) : Supervisor :=
  state.persist { state.files with
    instances := upsert (loadInstances options now state.files.instances) record }

def updateRecord (state : Supervisor) (live : Nat) (updates : InstanceRecord → InstanceRecord) :
    Supervisor :=
  let changed := state.modifyLive live fun entry =>
    { entry with record := updates entry.record }
  changed.upsertInstance options now (changed.record live)

def setStatus (state : Supervisor) (live : Nat) (status : InstanceStatus) : Supervisor :=
  state.updateRecord options now live fun record => { record with status := status }

/-- What the parent of an instance is told of its end. -/
def completionInput (record : InstanceRecord) : Option EnqueueCompletionInput :=
  match record.terminalState, truthy record.terminalResultHash, record.completedAt with
  | some terminalState, some resultHash, some completedAt =>
    if record.completionQueuedAt.isSome || ((truthy record.parentInstanceId).isNone &&
        (truthy record.parentSessionId).isNone) then none
    else some {
      parentInstanceId := record.parentInstanceId
      parentSessionId := record.parentSessionId
      childInstanceId := record.id
      childSessionId := record.sessionId
      terminalState := terminalState
      summary := record.terminalSummary
      resultHash := resultHash
      completedAt := options.toISOString completedAt }
  | _, _, _ => none

/-- The completions file after each write of a call, in order. Before the last write the call
has only dropped acknowledged completions. -/
def completionWrites (before after : QueueRun) : List QueueRun :=
  ((after.storage.saves.drop before.storage.saves.length).dropLast.map fun stored =>
    { before with storage := { before.storage with stored := stored } }) ++ [after]

def persistCompletions (state : Supervisor) (after : QueueRun) : Supervisor :=
  (completionWrites state.files.completions after).foldl
    (fun state completions => state.persist { state.files with completions := completions }) state

/-- Tell the parent of an instance that it ended, unless it has been told. The identifier is
the random one of the new completion. -/
def enqueuePersistedCompletion (state : Supervisor) (record : InstanceRecord) (uuid : String) :
    Except String InstanceRecord × Supervisor :=
  match completionInput options record with
  | none => (.ok record, state)
  | some input =>
    let queue := options.completionQueue
    let outcome := (queue.enqueue options.parseDate input uuid now now).perform
      state.files.completions.storage
    let state := state.persistCompletions (queue.runCall options.parseDate
      state.files.completions (.enqueue input uuid now now))
    match outcome.1 with
    | .error message => (.error message, state)
    | .ok _ => (.ok { record with completionQueuedAt := some now }, state)

/-- The text that describes how an instance ended. -/
def completionSummary (record : InstanceRecord) (completion : MaestroLifecycleCompletion) :
    Option String :=
  (completion.summary.or (completion.errorMessage.or record.latestOutput)).map fun text =>
    sliceFront (trim text) 4000

/-- Tell the parent of a live instance that it ended, and write what came of it. -/
def handOff (state : Supervisor) (live : Nat) (uuid : String) :
    Supervisor × HandoffState × Option String :=
  let record := state.record live
  if (truthy record.parentInstanceId).isNone &&
      (truthy record.parentSessionId).isNone then
    (state, .notRequired, none)
  else
    match state.enqueuePersistedCompletion options now record uuid with
    | (.ok record, state) => (state.updateRecord options now live fun _ => record, .queued, none)
    | (.error message, state) =>
      let diagnostic := sliceFront s!"COMPLETION_ENQUEUE_FAILED: {message}" 4096
      (state.updateRecord options now live fun record =>
        { record with terminalDiagnostic := some diagnostic }, .failed, some diagnostic)

/-- Settle how a live instance ended. -/
def completeManagedInstance (state : Supervisor) (live : Nat)
    (completion : MaestroLifecycleCompletion) (uuid : String) : Supervisor :=
  if (state.lives.read live).terminalCompletion.isSome then state
  else
    let record := state.record live
    let completedAt := record.completedAt.getD now
    let summary := completionSummary record completion
    let resultHash := options.hashResult
      ⟨record.id, record.sessionId, completion.state, summary, options.toISOString completedAt⟩
    let decided := state.updateRecord options now live fun record => { record with
      completedAt := some completedAt
      terminalState := some completion.state
      terminalSummary := truthy summary
      terminalResultHash := some resultHash }
    let (told, handoffState, handoffDiagnostic) := decided.handOff options now live uuid
    told.modifyLive live fun entry => { entry with
      terminalCompletion := some { completion with
        summary := summary
        resultHash := some resultHash
        handoffState := some handoffState
        handoffDiagnostic := handoffDiagnostic } }

end Records

def releaseTurnLease (state : Supervisor) (live : Nat) (token : Option Nat) (now : Int) :
    Supervisor :=
  match token with
  | none => state
  | some token =>
    let released := { state with
      turnLeases := (SessionTurnLeaseRegistry.release state.turnLeases (some token) now now).2 }
    released.modifyLive live fun entry =>
      if entry.turnLease = some token then { entry with turnLease := none } else entry

/-- Give the turn back that a live instance holds. -/
def releaseOwnTurn (state : Supervisor) (live : Nat) (now : Int) : Supervisor :=
  state.releaseTurnLease live (state.lives.read live).turnLease now

def queueSessionIdentitySync (state : Supervisor) (live : Nat) (releaseAfterSync : Bool) :
    Supervisor :=
  match (state.lives.read live).turnLease with
  | none => state
  | some token =>
    state.modifyLive live fun entry => { entry with
      identitySync := entry.identitySync ++ [⟨token, releaseAfterSync, none⟩] }

def deleteLive (state : Supervisor) (live : Nat) : Supervisor :=
  { state with liveInstances := state.liveInstances.erase (state.record live).id }

end Supervisor
end Recode.Orchestrator

import Recode.Orchestrator.SupervisorCalls

/-! # Runs of the supervisor

Calls, answers of child processes and of the presence service, and exits, in
any order. An answer from a child process comes only while the process runs. -/

namespace Recode.Orchestrator

open MaestroCompletionQueue

/-- What happens to a supervisor. -/
inductive SupervisorEvent where
  | spawn (request : SpawnOptions) (inspected : Except NamedError WorkspaceOwnershipReceipt)
      (created : Except NamedError (Option ProcessIdentityRecord)) (uuid : String)
  | spawnAnswered (task : Nat) (reply : StateReply) (uuid : String)
  | spawnRegistered (task : Nat) (registered : Except NamedError (Option String)) (uuid : String)
  | stop (instanceId uuid : String)
  | disposed (task : Nat) (result : Except String TerminationOutcome) (uuid : String)
  | disconnected (task : Nat) (result : Outcome) (uuid : String)
  | exit (process : Nat) (error : Option NamedError) (uuid : String)
  | exitDisconnected (task : Nat) (result : Outcome)
  | uiRequest (process : Nat) (request : RpcExtensionUIRequest)
  | openStream (instanceId ownerId : String) (mode : RpcStreamMode)
      (attachment : Except String (Option Nat))
  | uiResponse (live stream : Nat) (requestId : String)
  | closeStream (live stream : Nat)
  | command (live : Nat) (command : RpcCommand) (ownerId : String)
  | turnGranted (task : Nat)
  | turnTimedOut (task : Nat)
  | promptAnswered (task : Nat) (reply : RpcReply)
  | commandAnswered (task : Nat) (reply : RpcReply)
  | refreshAnswered (task : Nat) (reply : StateReply)
  | compactionEnd (process : Nat)
  | agentSettled (process : Nat)
  | syncStarted (live : Nat)
  | syncAnswered (live : Nat) (reply : StateReply)
  | queue (call : QueueCall)

namespace StateReply

/-- The child process has answered. -/
def answered : StateReply → Bool
  | error _ => false
  | _ => true

end StateReply

namespace RpcReply

def answered : RpcReply → Bool
  | error _ => false
  | _ => true

end RpcReply

namespace Supervisor

def initial : Supervisor where
  liveInstances := .empty
  lives := .empty { record := { id := "", status := .stopped, cwd := "" } }
  processes := .empty ⟨0, true, true⟩
  tasks := .empty .finished
  turnLeases := .initial
  files := ⟨[], startRun []⟩
  persisted := [⟨[], startRun []⟩]

def listener (state : Supervisor) (process : Nat) : Option Nat :=
  let live := (state.processes.read process).live
  if process < state.processes.fresh ∧ (state.processes.read process).exited = false ∧
      (state.lives.read live).bound = some process then some live
  else none

def isDelivery : QueueCall → Bool
  | .enqueue .. => false
  | _ => true

/-- The lifecycle service asks for an instance under a new random identifier, and has refused
empty identifiers of parents. -/
def isNewRequest (state : Supervisor) (request : SpawnOptions) : Bool :=
  request.instanceId ≠ "" && request.parentInstanceId ≠ some "" &&
    request.parentSessionId ≠ some "" &&
      (List.range state.lives.fresh).all fun live => (state.record live).id ≠ request.instanceId

variable (options : SupervisorOptions)

/-- The supervisor after an event at a time. An event that cannot happen changes nothing. -/
def step (state : Supervisor) (now : Int) : SupervisorEvent → Supervisor
  | .spawn request inspected created uuid =>
    if state.isNewRequest request then
      (state.spawnManagedInstance options now request inspected created uuid).toOption.getD state
    else state
  | .spawnAnswered ref reply uuid =>
    match state.tasks.read ref with
    | .spawnState live process =>
      if reply.answered && !state.isRunning process then state
      else state.spawnAnswered options now ref live reply uuid
    | _ => state
  | .spawnRegistered ref registered uuid =>
    match state.tasks.read ref with
    | .spawnPresence live => state.spawnRegistered options now ref live registered uuid
    | _ => state
  | .stop instanceId uuid => state.stopManagedInstance options now instanceId uuid
  | .disposed ref result uuid =>
    match state.tasks.read ref with
    | .dispose live _ next => state.disposed options now ref live next result uuid
    | _ => state
  | .disconnected ref result uuid =>
    match state.tasks.read ref with
    | .disconnect live termination diagnostics next =>
      state.disconnected options now ref live termination diagnostics next result uuid
    | _ => state
  | .exit process error uuid => state.processExited options now process error uuid
  | .exitDisconnected ref result =>
    match state.tasks.read ref with
    | .exitPresence live => state.exitDisconnected options now ref live result
    | _ => state
  | .uiRequest process request =>
    match state.listener process with
    | some live => state.handleUiRequest options now live request
    | none => state
  | .openStream instanceId ownerId mode attachment =>
    (state.openRpcStream options now instanceId ownerId mode attachment).toOption.getD state
  | .uiResponse live stream requestId =>
    (state.handleUiResponse options now live stream requestId).toOption.getD state
  | .closeStream live stream => state.closeRpcStream options now live stream
  | .command live command ownerId =>
    (state.handleRpcForLive options now live command ownerId).toOption.getD state
  | .turnGranted ref =>
    match state.tasks.read ref with
    | .acquire live process token =>
      if .granted token ∈ state.turnLeases.settlements then
        state.turnGranted ref live process token
      else state
    | _ => state
  | .turnTimedOut ref =>
    match state.tasks.read ref with
    | .acquire _ _ token =>
      if .granted token ∈ state.turnLeases.settlements then state
      else { state with
        turnLeases := SessionTurnLeaseRegistry.expire state.turnLeases token }.awaitNext ref
          .finished
    | _ => state
  | .promptAnswered ref reply =>
    match state.tasks.read ref with
    | .prompt live process token =>
      if reply.answered && !state.isRunning process then state
      else state.promptAnswered now ref live token reply
    | _ => state
  | .commandAnswered ref reply =>
    match state.tasks.read ref with
    | .command live process command =>
      if reply.answered && !state.isRunning process then state
      else state.commandAnswered options now ref live command reply
    | _ => state
  | .refreshAnswered ref reply =>
    match state.tasks.read ref with
    | .refresh live process =>
      if reply.answered && !state.isRunning process then state
      else state.refreshAnswered options now ref live reply
    | _ => state
  | .compactionEnd process =>
    match state.listener process with
    | some live => state.queueSessionIdentitySync live false
    | none => state
  | .agentSettled process =>
    match state.listener process with
    | some live => state.queueSessionIdentitySync live true
    | none => state
  | .syncStarted live => state.startSync options now live
  | .syncAnswered live reply =>
    match (state.lives.read live).identitySync with
    | [] => state
    | sync :: _ =>
      match sync.asked with
      | none => state
      | some process =>
        if reply.answered && !state.isRunning process then state
        else state.syncAnswered options now live sync reply
  | .queue call =>
    if isDelivery call then
      state.persistCompletions
        (options.completionQueue.runCall options.parseDate state.files.completions call)
    else state

def run (state : Supervisor) (events : List (Int × SupervisorEvent)) : Supervisor :=
  events.foldl (fun state event => state.step options event.1 event.2) state

theorem run_append (state : Supervisor) (events later : List (Int × SupervisorEvent)) :
    state.run options (events ++ later) = (state.run options events).run options later :=
  List.foldl_append

end Supervisor
end Recode.Orchestrator

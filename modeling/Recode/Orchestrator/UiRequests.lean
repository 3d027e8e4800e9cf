import Recode.Orchestrator.SupervisorCalls

/-! # The requests of a child process to its user

What a live instance and its child process say to each other about user input:
the requests of the child, the answers of the owner, and the streams that come
and go in between. The lifecycle service is told of both and may refuse. -/

namespace Recode.Orchestrator

/-- What the user answers. -/
inductive UiAnswer where
  | value (text : String)
  | confirmed (confirmed : Bool)
  | cancelled
deriving DecidableEq, Repr

/-- An answer to a request. -/
structure RpcExtensionUIResponse where
  id : String
  answer : UiAnswer
deriving DecidableEq, Repr

/-- What passes between a child process and the supervisor, in its order. -/
inductive UiMessage where
  | delivered (request : RpcExtensionUIRequest)
  | responded (response : RpcExtensionUIResponse)
deriving DecidableEq, Repr

/-- The blocking requests that are delivered and not answered. -/
def outstanding (messages : List UiMessage) : List RpcExtensionUIRequest :=
  messages.foldl
    (fun waiting message => match message with
      | .delivered request => if isBlockingUiRequest request then waiting ++ [request] else waiting
      | .responded response => waiting.filter fun request => request.id ≠ response.id) []

/-- A live instance of a supervisor, what was said with its child process, and the requests its
streams were shown. -/
structure UiSession where
  supervisor : Supervisor
  live : Nat
  messages : List UiMessage
  shown : List (Nat × RpcExtensionUIRequest) := []

/-- What happens to a live instance, with what the lifecycle service answers. -/
inductive UiEvent where
  | request (request : RpcExtensionUIRequest) (lifecycle : Except String Unit)
  | attach (ownerId : String) (mode : RpcStreamMode) (attachment : Except String (Option Nat))
  | respond (stream : Nat) (response : RpcExtensionUIResponse) (lifecycle : Except String Unit)
  | close (stream : Nat)

namespace UiSession

/-- The live instance. -/
def instance_ (session : UiSession) : LiveInstance :=
  session.supervisor.lives.read session.live

/-- Nothing was said yet but the request that the instance is known to wait for. -/
def start (supervisor : Supervisor) (live : Nat) : UiSession where
  supervisor := supervisor
  live := live
  messages := (supervisor.lives.read live).pendingUiRequest.toList.map .delivered

section Calls

variable (options : SupervisorOptions) (now : Int)

/-- `handleUiRequest`. A request that is too large to be kept is cancelled. When the lifecycle
service throws, only the live instance has the request. -/
def handleUiRequest (session : UiSession) (request : RpcExtensionUIRequest)
    (lifecycle : Except String Unit) : UiSession :=
  let delivered : UiSession :=
    { session with messages := session.messages ++ [.delivered request] }
  let shown := session.shown ++
    session.instance_.interactiveOwner.toList.map fun owner => (owner.stream, request)
  if isBlockingUiRequest request then
    if Supervisor.maxReplayEventBytes < request.bytes then
      { delivered with messages := delivered.messages ++ [.responded ⟨request.id, .cancelled⟩] }
    else
      match lifecycle with
      | .error _ => { delivered with
          supervisor := session.supervisor.modifyLive session.live fun entry =>
            { entry with pendingUiRequest := some request } }
      | .ok _ => { delivered with
          supervisor := session.supervisor.handleUiRequest options now session.live request
          shown := shown }
  else { delivered with shown := shown }

/-- `openRpcStream`, with the pending request of the replay. No stream is opened when the child
process is gone or the instance has too many streams. -/
def openRpcStream (session : UiSession) (ownerId : String) (mode : RpcStreamMode)
    (attachment : Except String (Option Nat)) :
    Except String (Option (Option RpcExtensionUIRequest)) × UiSession :=
  match session.supervisor.openRpcStream options now session.instance_.record.id ownerId mode
      attachment with
  | .error error => (.error error, session)
  | .ok after =>
    if session.instance_.rpcProcess.isNone ||
        options.maxSubscribersPerInstance ≤ session.instance_.subscribers.length then
      (.ok none, { session with supervisor := after })
    else
      let pending := (after.lives.read session.live).pendingUiRequest
      (.ok (some (pending.filter fun request => request.bytes ≤ Supervisor.maxReplayEventBytes)),
        { session with supervisor := after })

/-- `handleUiResponse` of a stream. The answer is forwarded when the lifecycle service was told. -/
def handleUiResponse (session : UiSession) (stream : Nat) (response : RpcExtensionUIResponse)
    (lifecycle : Except String Unit) : Except String Unit × UiSession :=
  match session.supervisor.handleUiResponse options now session.live stream response.id with
  | .error error => (.error error, session)
  | .ok after =>
    match lifecycle with
    | .error error => (.error error, { session with supervisor := after })
    | .ok _ => (.ok (), { session with
        supervisor := after
        messages := session.messages ++ [.responded response] })

def step (session : UiSession) : UiEvent → UiSession
  | .request request lifecycle => session.handleUiRequest options now request lifecycle
  | .attach ownerId mode attachment =>
    (session.openRpcStream options now ownerId mode attachment).2
  | .respond stream response lifecycle =>
    (session.handleUiResponse options now stream response lifecycle).2
  | .close stream => { session with
      supervisor := session.supervisor.closeRpcStream options now session.live stream }

end Calls

/-- Steps at their times, one after the other. -/
def steps (options : SupervisorOptions) (session : UiSession) (events : List (Int × UiEvent)) :
    UiSession :=
  events.foldl (fun session event => session.step options event.1 event.2) session

end UiSession

end Recode.Orchestrator

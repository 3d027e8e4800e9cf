import Recode.Lib.InsertionMap
import Recode.Lib.ObjectStore
import Recode.Lib.Procedure
import Recode.Text
import Mathlib.Data.Rat.Defs

/-! # The requests of a child process

A supervisor sends requests to a child process and keeps those that wait for an
answer in a table by their identifiers. Answers, timers, abort signals, failed
writes, and the end of the process each take requests out of the table. A
request is the promise that `send` returned; what it was settled with is kept
in order, so a second settlement would show. -/

namespace Recode.Orchestrator

open Procedure

/-- A number given as an option. -/
inductive NumberOption where
  | finite (value : ℚ)
  | notFinite
deriving DecidableEq

/-- The error of a request or of a call. -/
structure RpcError where
  name : String
  message : String
deriving DecidableEq, Repr

/-- An error without a class of its own. -/
def plainError (message : String) : RpcError := ⟨"Error", message⟩

/-- A child's answer. Its identifier is absent when it is missing or no string. -/
structure RpcResponse where
  id : Option String
  command : String
  success : Bool
  body : String
deriving DecidableEq, Repr

/-- What a request was settled with. -/
inductive RpcOutcome where
  | resolved (response : RpcResponse)
  | rejected (error : RpcError)
deriving DecidableEq, Repr

/-- A request that `send` accepted. -/
structure RpcRequest where
  id : String
  command : String
  settlements : List RpcOutcome := []
deriving DecidableEq, Repr

/-- What is kept of a request that waits: its command, and the request that is settled. -/
structure PendingRequest where
  command : String
  request : Nat
deriving DecidableEq, Repr

/-- A line written to the child: a command under an identifier. -/
structure WrittenCommand where
  id : String
  type : String
deriving DecidableEq, Repr

/-- A child process and its requests. -/
structure RpcProcessInstance where
  exited : Bool := false
  disposing : Bool := false
  nextRequestId : Nat := 0
  stderrDiagnostic : String := ""
  pendingRequests : InsertionMap String PendingRequest := .empty
  usedRequestIds : List String := []
  requests : ObjectStore RpcRequest := .empty ⟨"", "", []⟩
  written : List WrittenCommand := []
  exitNotices : List (Option RpcError) := []

/-- The options of a process, as its constructor checks them. -/
structure RpcProcessOptions where
  requestTimeoutMs : ℚ
  maxPendingRequests : Nat
  timeout_nonneg : 0 ≤ requestTimeoutMs
  maxPendingRequests_pos : 1 ≤ maxPendingRequests

/-- A command to send. -/
structure SentCommand where
  type : String
  id : Option String := none
deriving DecidableEq, Repr

/-- The options of `send`: a timeout, and whether the signal is aborted already. -/
structure RpcSendOptions where
  timeoutMs : Option NumberOption := none
  aborted : Bool := false
deriving DecidableEq

/-- The most identifiers a process may use. -/
def maxRequestIdsPerProcess : Nat := 100000

/-- The most prompts that may wait. -/
def maxConcurrentPrompts : Nat := 1

/-- The commands that are aborted in the child when their request is given up. -/
def isCancellable (command : String) : Bool := command = "prompt"

def boundedPositive (value : Option NumberOption) (fallback : ℚ) (name : String) :
    Except RpcError ℚ :=
  match value with
  | none => .ok fallback
  | some .notFinite => .error (plainError s!"{name} must be a non-negative finite number")
  | some (.finite value) =>
    if value < 0 then .error (plainError s!"{name} must be a non-negative finite number")
    else .ok value

def timeoutError (id : String) (timeoutMs : String) : RpcError :=
  ⟨"RpcRequestTimeoutError", s!"RPC request {id} timed out after {timeoutMs}ms"⟩

def cancelledError (id : String) : RpcError :=
  ⟨"RpcRequestCancelledError", s!"RPC request {id} was cancelled"⟩

namespace RpcProcessInstance

def settle (state : RpcProcessInstance) (request : Nat) (settlement : RpcOutcome) :
    RpcProcessInstance :=
  { state with requests := state.requests.modify request fun request =>
      { request with settlements := request.settlements ++ [settlement] } }

/-- Take an identifier out of the table. -/
def forget (state : RpcProcessInstance) (id : String) : RpcProcessInstance :=
  { state with pendingRequests := state.pendingRequests.erase id }

def rejectAllPending (state : RpcProcessInstance) (error : RpcError) : RpcProcessInstance :=
  state.pendingRequests.entries.foldl
    (fun state entry => (state.forget entry.1).settle entry.2.request (.rejected error)) state

/-- The protocol was broken. The process is killed, which its exit will tell. -/
def failProtocol (state : RpcProcessInstance) (error : RpcError) : RpcProcessInstance :=
  state.rejectAllPending error

def markExited (state : RpcProcessInstance) (error : RpcError) : RpcProcessInstance :=
  if state.exited then state
  else
    let rejected := { state with exited := true }.rejectAllPending error
    { rejected with
      exitNotices := rejected.exitNotices ++ [if rejected.disposing then none else some error] }

def handleResponse (state : RpcProcessInstance) (response : RpcResponse) : RpcProcessInstance :=
  match Text.truthy response.id with
  | none => state
  | some id =>
    match state.pendingRequests.get? id with
    | none => state
    | some pending => (state.forget id).settle pending.request (.resolved response)

def writeBestEffort (state : RpcProcessInstance) (line : WrittenCommand) : RpcProcessInstance :=
  if state.exited || state.disposing then state
  else { state with written := state.written ++ [line] }

/-- Ask the child to abort what a request had asked for. -/
def requestBestEffortAbort (state : RpcProcessInstance) (command commandId uuid : String) :
    RpcProcessInstance :=
  if !isCancellable command || state.exited || state.disposing then state
  else state.writeBestEffort ⟨s!"orchestrator_abort_{commandId}_{uuid}", "abort"⟩

def onAbort (state : RpcProcessInstance) (request : Nat) (uuid : String) : RpcProcessInstance :=
  let id := (state.requests.read request).id
  match state.pendingRequests.get? id with
  | none => state
  | some pending =>
    ((state.forget id).requestBestEffortAbort pending.command id uuid).settle request
      (.rejected (cancelledError id))

def onTimeout (state : RpcProcessInstance) (request : Nat) (timeoutMs uuid : String) :
    RpcProcessInstance :=
  let id := (state.requests.read request).id
  match state.pendingRequests.get? id with
  | none => state
  | some pending =>
    ((state.forget id).requestBestEffortAbort pending.command id uuid).settle request
      (.rejected (timeoutError id timeoutMs))

def onWriteError (state : RpcProcessInstance) (request : Nat) (error : RpcError) :
    RpcProcessInstance :=
  let id := (state.requests.read request).id
  match state.pendingRequests.get? id with
  | none => state
  | some _ => (state.forget id).settle request (.rejected error)

/-- A call that may throw. -/
abbrev Action := Procedure RpcProcessInstance RpcError

/-- The first checks of `send`. -/
def admitsCommand (options : RpcProcessOptions) (state : RpcProcessInstance) (type : String) :
    Except RpcError Unit := do
  if state.exited || state.disposing then
    throw (plainError s!"RPC process is not running.{state.stderrDiagnostic}")
  if options.maxPendingRequests ≤ state.pendingRequests.entries.length then
    throw (plainError "RPC pending request limit reached")
  if type = "prompt" ∧ maxConcurrentPrompts ≤ (state.pendingRequests.entries.filter fun entry =>
      entry.2.command = "prompt").length then
    throw (plainError "RPC concurrent prompt limit reached")
  if maxRequestIdsPerProcess ≤ state.usedRequestIds.length then
    throw (plainError "RPC request identity limit reached")

/-- The identifier of a new request, by the caller or a random one, and the count of random
ones. -/
def requestId (state : RpcProcessInstance) (command : SentCommand) (uuid : String) : String × Nat :=
  match command.id with
  | some id => (id, state.nextRequestId)
  | none => (s!"orchestrator_{state.nextRequestId + 1}_{uuid}", state.nextRequestId + 1)

def admitsId (state : RpcProcessInstance) (id : String) : Except RpcError Unit := do
  if id = "" ∨ 512 < Text.utf16Length id then
    throw (plainError "RPC request id must contain 1 to 512 characters")
  if id ∈ state.usedRequestIds then
    throw (plainError s!"Duplicate or stale RPC request id: {id}")

def startRequest (state : RpcProcessInstance) (id type : String) (aborted : Bool)
    (uuid : String) : RpcProcessInstance :=
  let request := state.requests.fresh
  let entered := { state with
    requests := state.requests.alloc ⟨id, type, []⟩
    pendingRequests := state.pendingRequests.insert id ⟨type, request⟩ }
  if aborted then entered.onAbort request uuid
  else { entered with written := entered.written ++ [⟨id, type⟩] }

def send (options : RpcProcessOptions) (command : SentCommand) (sendOptions : RpcSendOptions)
    (uuid : String) : Action Nat := do
  let state ← get
  check (admitsCommand options state command.type)
  let (id, nextRequestId) := state.requestId command uuid
  set { state with nextRequestId := nextRequestId }
  check (state.admitsId id)
  set { state with nextRequestId := nextRequestId, usedRequestIds := id :: state.usedRequestIds }
  let _ ← check
    (boundedPositive sendOptions.timeoutMs options.requestTimeoutMs "timeoutMs")
  modify fun state => state.startRequest id command.type sendOptions.aborted uuid
  return state.requests.fresh

/-- Ask the child to abort a prompt that waits. Nothing is sent for another command. -/
def cancel (options : RpcProcessOptions) (commandId uuid : String) : Action (Option Nat) := do
  if commandId = "" ∨ 512 < Text.utf16Length commandId then
    throw (plainError "commandId must contain 1 to 512 characters")
  let state ← get
  match state.pendingRequests.get? commandId with
  | none => return none
  | some pending =>
    if !isCancellable pending.command then return none
    return some (← send options ⟨"abort", none⟩ {} uuid)

/-- Dispose of the process: it is told to end, which its exit will tell. -/
def dispose (state : RpcProcessInstance) : RpcProcessInstance :=
  { state with disposing := true }.rejectAllPending (plainError "RPC process disposed")

end RpcProcessInstance

/-- A line of the child's output. -/
inductive RpcLine where
  | response (response : RpcResponse)
  | uiRequest
  | event
  | invalid (message : String)
deriving DecidableEq, Repr

/-- What happens to a process. A timer, an abort handler or the callback of a write may come at
any time, also when the request was settled long ago. -/
inductive RpcEvent where
  | send (command : SentCommand) (options : RpcSendOptions) (uuid : String)
  | cancel (commandId uuid : String)
  | line (line : RpcLine)
  | overflow
  | stderr (diagnostic : String)
  | timeout (request : Nat) (timeoutMs uuid : String)
  | abort (request : Nat) (uuid : String)
  | writeError (request : Nat) (error : RpcError)
  | processError (message : String)
  | processExit (code signal : String)
  | dispose
deriving DecidableEq

namespace RpcProcessInstance

variable (options : RpcProcessOptions)

/-- A line of the child's output is handled. -/
def handleLine (state : RpcProcessInstance) : RpcLine → RpcProcessInstance
  | .response response => state.handleResponse response
  | .uiRequest => state
  | .event => state
  | .invalid message => state.failProtocol (plainError s!"Invalid RPC output: {message}")

/-- The process after an event. Handlers belong to requests that were sent. -/
def step (state : RpcProcessInstance) : RpcEvent → RpcProcessInstance
  | .send command sendOptions uuid => ((send options command sendOptions uuid).perform state).2
  | .cancel commandId uuid => ((cancel options commandId uuid).perform state).2
  | .line line => state.handleLine line
  | .overflow => state.failProtocol
      (plainError "RPC stdout line exceeded the 1 MiB protocol bound")
  | .stderr diagnostic => { state with stderrDiagnostic := diagnostic }
  | .timeout request timeoutMs uuid =>
    if request < state.requests.fresh then state.onTimeout request timeoutMs uuid else state
  | .abort request uuid =>
    if request < state.requests.fresh then state.onAbort request uuid else state
  | .writeError request error =>
    if request < state.requests.fresh then state.onWriteError request error else state
  | .processError message => state.markExited
      (plainError s!"RPC process error: {message}.{state.stderrDiagnostic}")
  | .processExit code signal => state.markExited
      (plainError s!"RPC process exited (code={code} signal={signal}).{state.stderrDiagnostic}")
  | .dispose => state.dispose

def run (state : RpcProcessInstance) (events : List RpcEvent) : RpcProcessInstance :=
  events.foldl (step options) state

theorem run_append (state : RpcProcessInstance) (events later : List RpcEvent) :
    state.run options (events ++ later) = (state.run options events).run options later :=
  List.foldl_append

theorem run_snoc (state : RpcProcessInstance) (events : List RpcEvent) (event : RpcEvent) :
    state.run options (events ++ [event]) = (state.run options events).step options event :=
  state.run_append options events [event]

end RpcProcessInstance
end Recode.Orchestrator

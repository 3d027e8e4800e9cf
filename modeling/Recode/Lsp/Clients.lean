import Mathlib.Logic.Function.Basic

/-! # Clients of language servers

The clients of a process by key, and what asynchronous handlers do to them: creations wait
for their process, their initialisation and their first writes, while clients are shut
down and processes of older clients end. -/

namespace Recode.Lsp

open Function

inductive ClientState
  | starting
  | ready
  | error
  | stopped
deriving DecidableEq

/-- A client of a process. One that has failed is not reported again. -/
structure LspClient where
  state : ClientState := .starting
  failed : Bool := false
deriving DecidableEq

/-- Where `createClient` is: it waits for its command, for the answer to its first request,
or for its two notifications, each of which waits for its turn and is then written. -/
inductive Stage
  | wrapping
  | initializing
  | answered
  | queued (second : Bool)
  | writing (second : Bool)
  | written (second : Bool)
  | rejected
  | returned
  | threw
  | settled
deriving DecidableEq

/-- Pending requests are rejected. -/
def Stage.reject : Stage → Stage
  | .initializing => .rejected
  | stage => stage

/-- A call of `createClient`, with its client once its process was spawned. -/
structure Creation where
  key : String
  cwd : String
  stage : Stage := .wrapping
  client : Option LspClient := none
deriving DecidableEq

structure Clients where
  clients : String → Option Nat := fun _ => none
  initializing : String → Option Nat := fun _ => none
  locks : String → Option Nat := fun _ => none
  failures : String → Bool := fun _ => false
  creations : Nat → Option Creation := fun _ => none
  next : Nat := 0

/-- What `getOrCreateClient` answers. -/
inductive Answer
  | existing (id : Nat)
  | pending (id : Nat)
  | failedRecently
  | created (id : Nat)
deriving DecidableEq

namespace Clients

def setCreation (state : Clients) (id : Nat) (creation : Creation) : Clients :=
  { state with creations := update state.creations id (some creation) }

/-- An entry is taken out of a map. -/
def remove (map : String → Option Nat) (key : String) : String → Option Nat :=
  update map key none

def spawn (state : Clients) (id : Nat) (creation : Creation) : Clients :=
  { state.setCreation id { creation with stage := .initializing, client := some {} } with
    initializing := update state.initializing creation.key (some id) }

/-- `getOrCreateClient`. A failure counts as recent until it has expired, and a command that is
not wrapped is spawned at once. -/
def getOrCreate (state : Clients) (key cwd : String) (bypass expired direct : Bool) :
    Clients × Answer :=
  match state.clients key, state.locks key with
  | some id, _ => (state, .existing id)
  | none, some id => (state, .pending id)
  | none, none =>
    if !bypass && state.failures key && !expired then (state, .failedRecently)
    else
      let creation := { key := key, cwd := cwd }
      let called := { state.setCreation state.next creation with next := state.next + 1 }
      let called := if direct then called.spawn state.next creation else called
      ({ called with locks := update called.locks key (some state.next) },
        .created state.next)

def fail (state : Clients) (id : Nat) (creation : Creation) (client : LspClient) : Clients :=
  if client.state = .stopped ∨ client.failed then state
  else
    { state.setCreation id
        { creation with
          stage := Stage.reject creation.stage
          client := some { state := .error, failed := true } } with
      clients := remove state.clients creation.key
      initializing := remove state.initializing creation.key }

def close (state : Clients) (id : Nat) (creation : Creation) (client : LspClient) : Clients :=
  if client.state = .stopped then
    { state with
      clients := remove state.clients creation.key
      initializing := remove state.initializing creation.key }
  else state.fail id creation client

def ready (state : Clients) (id : Nat) (creation : Creation) (client : LspClient) : Clients :=
  { state.setCreation id
      { creation with stage := .returned, client := some { client with state := .ready } } with
    initializing := remove state.initializing creation.key
    clients := update state.clients creation.key (some id) }

/-- A creation goes on: a notification is only written by a client that takes messages, and
after the second one the client is ready. -/
def proceed (state : Clients) (id : Nat) (creation : Creation) (client : LspClient) : Clients :=
  match creation.stage with
  | .answered => state.setCreation id { creation with stage := .queued false }
  | .queued second =>
    if client.state = .error ∨ client.state = .stopped then
      state.setCreation id { creation with stage := .rejected }
    else state.setCreation id { creation with stage := .writing second }
  | .writing second => state.setCreation id { creation with stage := .written second }
  | .written false => state.setCreation id { creation with stage := .queued true }
  | .written true => state.ready id creation client
  | _ => state

def cleanUp (state : Clients) (id : Nat) (creation : Creation) (client : LspClient) : Clients :=
  let state := { state with initializing := remove state.initializing creation.key }
  (state.fail id creation client).setCreation id
    { creation with
      stage := .threw
      client := some (if client.state = .stopped ∨ client.failed then client
        else { state := .error, failed := true }) }

/-- The promise of a creation is settled: it gives back its own lock. A failure other than a
stop is remembered. -/
def settle (state : Clients) (id : Nat) (creation : Creation) (cacheFailure : Bool) : Clients :=
  let stopped := creation.client.any fun client => client.state = .stopped
  { state.setCreation id { creation with stage := .settled } with
    failures := update state.failures creation.key
      (if creation.stage = .returned then false
        else state.failures creation.key || cacheFailure && !stopped)
    locks := if state.locks creation.key = some id then remove state.locks creation.key
      else state.locks }

def stop (creation : Creation) : Creation :=
  match creation.client with
  | none => creation
  | some client =>
    { creation with
      stage := if client.state = .starting then Stage.reject creation.stage else creation.stage
      client := some { client with state := .stopped } }

def shutdown (state : Clients) (key : String) : Clients :=
  match (state.clients key).or (state.initializing key) with
  | none => state
  | some id =>
    { state with
      clients := remove state.clients key
      initializing := remove state.initializing key
      locks := remove state.locks key
      creations := update state.creations id ((state.creations id).map stop) }

def active (state : Clients) (id : Nat) (creation : Creation) : Bool :=
  state.clients creation.key = some id || state.initializing creation.key = some id

def shutdownAll (state : Clients) : Clients :=
  { state with
    clients := fun _ => none
    initializing := fun _ => none
    locks := fun _ => none
    creations := fun id => (state.creations id).map fun creation =>
      if state.active id creation then stop creation else creation }

def inWorkspace (state : Clients) (cwd : String) (id : Nat) : Bool :=
  (state.creations id).any fun creation => creation.cwd = cwd

def keyInWorkspace (state : Clients) (cwd key : String) : Bool :=
  (state.clients key).any (state.inWorkspace cwd) ||
    (state.initializing key).any (state.inWorkspace cwd)

def shutdownForCwd (state : Clients) (cwd : String) : Clients :=
  { state with
    clients := fun key => if state.keyInWorkspace cwd key then none else state.clients key
    initializing := fun key =>
      if state.keyInWorkspace cwd key then none else state.initializing key
    locks := fun key => if state.keyInWorkspace cwd key then none else state.locks key
    creations := fun id => (state.creations id).map fun creation =>
      if state.active id creation && creation.cwd = cwd then stop creation else creation }

end Clients

/-- What happens to the clients. -/
inductive Event
  | getOrCreate (key cwd : String) (bypass expired direct : Bool)
  | spawn (id : Nat) (creation : Creation)
  | wrapFails (id : Nat) (creation : Creation)
  | answer (id : Nat) (creation : Creation) (client : LspClient)
  | refuse (id : Nat) (creation : Creation) (client : LspClient)
  | proceed (id : Nat) (creation : Creation) (client : LspClient)
  | writeFails (id : Nat) (creation : Creation) (client : LspClient)
  | cleanUp (id : Nat) (creation : Creation) (client : LspClient)
  | settle (id : Nat) (creation : Creation) (cacheFailure : Bool)
  | close (id : Nat) (creation : Creation) (client : LspClient)
  | error (id : Nat) (creation : Creation) (client : LspClient)
  | shutdown (key : String)
  | shutdownAll
  | shutdownForCwd (cwd : String)

/-- A creation has a client. -/
def Clients.Has (state : Clients) (id : Nat) (creation : Creation) (client : LspClient) : Prop :=
  state.creations id = some creation ∧ creation.client = some client

def Event.Possible (state : Clients) : Event → Prop
  | .getOrCreate .. => True
  | .spawn id creation => state.creations id = some creation ∧ creation.stage = .wrapping
  | .wrapFails id creation => state.creations id = some creation ∧ creation.stage = .wrapping
  | .answer id creation client => state.Has id creation client ∧ creation.stage = .initializing
  | .refuse id creation client => state.Has id creation client ∧ creation.stage = .initializing
  | .proceed id creation client => state.Has id creation client
  | .writeFails id creation client => state.Has id creation client ∧
      ∃ second, creation.stage = .queued second ∨ creation.stage = .writing second
  | .cleanUp id creation client => state.Has id creation client ∧ creation.stage = .rejected
  | .settle id creation _ => state.creations id = some creation ∧
      (creation.stage = .returned ∨ creation.stage = .threw)
  | .close id creation client => state.Has id creation client
  | .error id creation client => state.Has id creation client
  | .shutdown _ => True
  | .shutdownAll => True
  | .shutdownForCwd _ => True

def Clients.step (state : Clients) : Event → Clients
  | .getOrCreate key cwd bypass expired direct =>
    (state.getOrCreate key cwd bypass expired direct).1
  | .spawn id creation => state.spawn id creation
  | .wrapFails id creation => state.setCreation id { creation with stage := .threw }
  | .answer id creation _ => state.setCreation id { creation with stage := .answered }
  | .refuse id creation _ => state.setCreation id { creation with stage := .rejected }
  | .proceed id creation client => state.proceed id creation client
  | .writeFails id creation _ => state.setCreation id { creation with stage := .rejected }
  | .cleanUp id creation client => state.cleanUp id creation client
  | .settle id creation cacheFailure => state.settle id creation cacheFailure
  | .close id creation client => state.close id creation client
  | .error id creation client => state.fail id creation client
  | .shutdown key => state.shutdown key
  | .shutdownAll => state.shutdownAll
  | .shutdownForCwd cwd => state.shutdownForCwd cwd

/-- The states that the clients of a process come to, each event under a condition. -/
inductive Reached (condition : Clients → Event → Prop) : Clients → Prop
  | start : Reached condition {}
  | step {state : Clients} (event : Event) (reached : Reached condition state)
      (possible : event.Possible state) (keeps : condition state event) :
      Reached condition (state.step event)

end Recode.Lsp

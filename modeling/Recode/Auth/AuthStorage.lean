import Mathlib.Data.Rat.Defs

/-! # Credential storage

Objects that share one backend keep credentials by provider. A synchronous operation
takes the lock, reads, writes and releases in one go; an asynchronous one reads, waits
for its callback and writes later. The file backend holds a lock meanwhile, the one in
memory does not. What the file system answers is given to the operations. -/

namespace Recode.Auth

structure OAuthCredentials where
  refresh : String
  access : String
  expires : Rat
deriving DecidableEq

inductive AuthCredential
  | apiKey (key : Option String) (env : List (String × String))
  | oauth (credentials : OAuthCredentials)
deriving DecidableEq

abbrev AuthStorageData := String → Option AuthCredential

/-- What a backend stores: nothing, the text of some credentials, or a text that does not
parse. -/
inductive Content
  | missing
  | data (data : AuthStorageData)
  | broken (error : String)

def parseStorageData : Content → Except String AuthStorageData
  | .missing => .ok fun _ => none
  | .data data => .ok data
  | .broken error => .error error

/-- An operation on the stored credentials, with what its callback answers. -/
inductive Operation
  | set (provider : String) (credential : AuthCredential)
  | remove (provider : String)
  | modify (provider : String)
      (fn : Option AuthCredential → Except String (Option AuthCredential))
  | delete (provider : String)
  | refreshOAuthToken (provider : String) (known : Bool) (now : Rat)
      (getOAuthApiKey : AuthStorageData → Except String (Option OAuthCredentials))

/-- The credentials of OAuth providers. -/
def oauthCredentials (data : AuthStorageData) : AuthStorageData := fun provider =>
  match data provider with
  | some (.oauth credentials) => some (.oauth credentials)
  | _ => none

def refreshed (data : AuthStorageData) (provider : String) (now : Rat)
    (getOAuthApiKey : AuthStorageData → Except String (Option OAuthCredentials)) :
    Except String (Option AuthStorageData) :=
  match data provider with
  | some (.oauth credentials) =>
    if now < credentials.expires then .ok none
    else
      match getOAuthApiKey (oauthCredentials data) with
      | .error error => .error error
      | .ok none => .ok none
      | .ok (some newCredentials) =>
        .ok (some (Function.update data provider (some (.oauth newCredentials))))
  | _ => .ok none

/-- What an operation stores for the credentials it reads: an error when its callback
rejects, and nothing when there is nothing to store. -/
def Operation.update (data : AuthStorageData) :
    Operation → Except String (Option AuthStorageData)
  | .set provider credential => .ok (some (Function.update data provider (some credential)))
  | .remove provider => .ok (some (Function.update data provider none))
  | .modify provider fn =>
    match fn (data provider) with
    | .error error => .error error
    | .ok none => .ok none
    | .ok (some next) => .ok (some (Function.update data provider (some next)))
  | .delete provider => .ok (some (Function.update data provider none))
  | .refreshOAuthToken provider known now getOAuthApiKey =>
    if known then refreshed data provider now getOAuthApiKey else .ok none

def Operation.isAsync : Operation → Bool
  | .set .. | .remove .. => false
  | .modify .. | .delete .. | .refreshOAuthToken .. => true

/-- An `AuthStorage` object: its view of the credentials, and which asynchronous operation
assigned it last, if one did. -/
structure AuthObject where
  data : AuthStorageData := fun _ => none
  loadError : Option String := none
  assignedBy : Option Nat := none

/-- Where an asynchronous operation is: before it has read, while its callback runs, and
when its callback has answered. -/
inductive Phase
  | waiting
  | called (saw : AuthStorageData)
  | settled (saw : AuthStorageData) (next : Option AuthStorageData)

/-- An asynchronous operation of an object. -/
structure Flight where
  object : Nat
  operation : Operation
  compromised : Bool := false
  phase : Phase := .waiting

/-- An operation that returned, with the times of its call and its return. -/
structure Finished where
  operation : Operation
  invoked : Nat
  returned : Nat

structure State where
  file : Bool
  content : Content
  lock : Option Nat := none
  objects : Nat → AuthObject := fun _ => {}
  flights : Nat → Option Flight := fun _ => none
  finished : List Finished := []
  clock : Nat := 0

/-- What becomes of getting at the store: an error, with what an attempt to create the
file left, or access. -/
inductive Access
  | fails (left : Content) (error : String)
  | granted

/-- What becomes of a write: done, an error with what it left, or done and an error
after it. -/
inductive Written
  | done
  | fails (left : Content) (error : String)
  | throwsAfter (error : String)

/-- What an operation answers: its result with what it saw and wrote, or its error with
what it had seen. -/
inductive Reply
  | returned (object : Nat) (saw wrote : Option AuthStorageData)
  | rejected (object : Nat) (saw : Option AuthStorageData) (error : String)
  | pending

namespace State

/-- What an operation finds stored: a missing file is created first. -/
def entered (state : State) : Content :=
  match state.file, state.content with
  | true, .missing => .data fun _ => none
  | _, content => content

def assign (state : State) (object : Nat) (data : AuthStorageData) (assignedBy : Option Nat) :
    State :=
  { state with
    objects := Function.update state.objects object
      { data := data, loadError := none, assignedBy := assignedBy } }

def failLoad (state : State) (object : Nat) (error : String) : State :=
  { state with
    objects := Function.update state.objects object
      { state.objects object with loadError := some error } }

/-- An operation that was called at some time returns now. -/
def finish (state : State) (operation : Operation) (invoked : Nat) : State :=
  { state with
    finished := state.finished ++
      [{ operation := operation, invoked := invoked, returned := state.clock }] }

/-- An asynchronous operation ends and gives its lock back. -/
def drop (state : State) (id : Nat) : State :=
  { state with
    flights := Function.update state.flights id none
    lock := if state.lock = some id then none else state.lock }

def setFlight (state : State) (id : Nat) (flight : Flight) : State :=
  { state with flights := Function.update state.flights id (some flight) }

def write (state : State) (next : AuthStorageData) : Written → State × Option String
  | .done => ({ state with content := .data next }, none)
  | .fails left error => ({ state with content := left }, some error)
  | .throwsAfter error => ({ state with content := .data next }, some error)

def reload (state : State) (object : Nat) : Access → State
  | .fails left error => { state with content := left }.failLoad object error
  | .granted =>
    match parseStorageData state.entered with
    | .error error => { state with content := state.entered }.failLoad object error
    | .ok data => { state with content := state.entered }.assign object data none

def changeOf (provider : String) : Option AuthCredential → Operation
  | some credential => .set provider credential
  | none => .remove provider

def storeChange (state : State) (object : Nat) (provider : String)
    (credential : Option AuthCredential) (written : Written) : Access → State × Reply
  | .fails left error => ({ state with content := left }, .rejected object none error)
  | .granted =>
    match parseStorageData state.entered with
    | .error error => ({ state with content := state.entered }, .rejected object none error)
    | .ok current =>
      let merged := Function.update current provider credential
      match { state with content := state.entered }.write merged written with
      | (state, none) =>
        ((state.assign object merged none).finish (changeOf provider credential) state.clock,
          .returned object (some current) (some merged))
      | (state, some error) => (state, .rejected object (some current) error)

/-- A view that could not be loaded is loaded again before a change. -/
def persistProviderChange (state : State) (object : Nat) (provider : String)
    (credential : Option AuthCredential) (reloadAccess access : Access) (written : Written) :
    State × Reply :=
  match (state.objects object).loadError with
  | none => state.storeChange object provider credential written access
  | some _ =>
    let reloaded := state.reload object reloadAccess
    match (reloaded.objects object).loadError with
    | none => reloaded.storeChange object provider credential written access
    | some error =>
      (reloaded, .rejected object none
        ("Cannot update auth storage because it could not be loaded: " ++ error))

def set (state : State) (object : Nat) (provider : String) (credential : AuthCredential)
    (reloadAccess access : Access) (written : Written) : State × Reply :=
  state.persistProviderChange object provider (some credential) reloadAccess access written

def remove (state : State) (object : Nat) (provider : String)
    (reloadAccess access : Access) (written : Written) : State × Reply :=
  state.persistProviderChange object provider none reloadAccess access written

/-- The callback of an asynchronous operation answers, and the view is assigned. -/
def settle (state : State) (id : Nat) (flight : Flight) (saw : AuthStorageData) : State × Reply :=
  match flight.operation.update saw with
  | .error error => (state.drop id, .rejected flight.object (some saw) error)
  | .ok next =>
    let settled := state.setFlight id { flight with phase := .settled saw next }
    match flight.operation, next with
    | .refreshOAuthToken .., none => (settled, .pending)
    | .modify .., none =>
      ({ settled with
          objects := Function.update settled.objects flight.object
            { settled.objects flight.object with data := saw, assignedBy := some id } },
        .pending)
    | _, _ => (settled.assign flight.object (next.getD saw) (some id), .pending)

/-- An asynchronous operation reads the store, and its callback is called. A refresh
assigns the view at once, and the callback of a deletion answers at once. -/
def enter (state : State) (id : Nat) (flight : Flight) : State × Reply :=
  match parseStorageData state.content with
  | .error error => (state.drop id, .rejected flight.object none error)
  | .ok saw =>
    let called := state.setFlight id { flight with phase := .called saw }
    match flight.operation with
    | .refreshOAuthToken .. => (called.assign flight.object saw (some id), .pending)
    | .delete _ => state.settle id flight saw
    | _ => (called, .pending)

/-- An asynchronous operation is called: it waits for the lock of the file backend, and
starts at once on the one in memory. -/
def call (state : State) (object : Nat) (operation : Operation) (access : Access) : State × Reply :=
  match operation, access with
  | .refreshOAuthToken _ false _ _, _ =>
    (state.finish operation state.clock, .returned object none none)
  | _, .fails left error => ({ state with content := left }, .rejected object none error)
  | _, .granted =>
    let flight := { object := object, operation := operation }
    if state.file then
      ({ state with content := state.entered }.setFlight state.clock flight, .pending)
    else state.enter state.clock flight

/-- An asynchronous operation writes what its callback answered, unless its lock was
compromised. -/
def complete (state : State) (id : Nat) (flight : Flight) (saw : AuthStorageData)
    (next : Option AuthStorageData) (written : Written) : State × Reply :=
  if flight.compromised then
    (state.drop id, .rejected flight.object (some saw) "Auth storage lock was compromised")
  else
    match next with
    | none =>
      ((state.drop id).finish flight.operation id, .returned flight.object (some saw) none)
    | some merged =>
      match (state.drop id).write merged written with
      | (state, none) =>
        (state.finish flight.operation id, .returned flight.object (some saw) (some merged))
      | (state, some error) => (state, .rejected flight.object (some saw) error)

end State

/-- What happens to the objects of a backend. Events of asynchronous operations carry what
these have come to. -/
inductive Event
  | reload (object : Nat) (access : Access)
  | set (object : Nat) (provider : String) (credential : AuthCredential)
      (reloadAccess access : Access) (written : Written)
  | remove (object : Nat) (provider : String) (reloadAccess access : Access) (written : Written)
  | call (object : Nat) (operation : Operation) (access : Access)
  | acquire (id : Nat) (flight : Flight)
  | giveUp (id : Nat) (flight : Flight) (error : String)
  | compromise (id : Nat) (flight : Flight)
  | settle (id : Nat) (flight : Flight) (saw : AuthStorageData)
  | complete (id : Nat) (flight : Flight) (saw : AuthStorageData)
      (next : Option AuthStorageData) (written : Written)

/-- The file may fail to be created or locked; memory never fails. -/
def Access.Possible (state : State) : Access → Prop
  | .fails left _ => state.file = true ∧ (state.content = .missing ∨ left = state.content)
  | .granted => True

def Access.Locks (state : State) : Access → Prop
  | .fails left error => Access.Possible state (.fails left error)
  | .granted => state.lock = none

def Written.Possible (state : State) (written : Written) : Prop :=
  state.file = true ∨ written = .done

def Event.Possible (state : State) : Event → Prop
  | .reload _ access => access.Locks state
  | .set _ _ _ reloadAccess access written =>
    reloadAccess.Locks state ∧ access.Locks state ∧ written.Possible state
  | .remove _ _ reloadAccess access written =>
    reloadAccess.Locks state ∧ access.Locks state ∧ written.Possible state
  | .call _ operation access => operation.isAsync = true ∧ access.Possible state
  | .acquire id flight =>
    state.flights id = some flight ∧ flight.phase = .waiting ∧ state.lock = none
  | .giveUp id flight _ => state.flights id = some flight ∧ flight.phase = .waiting
  | .compromise id flight =>
    state.flights id = some flight ∧ flight.phase ≠ .waiting ∧ state.lock = some id
  | .settle id flight saw => state.flights id = some flight ∧ flight.phase = .called saw
  | .complete id flight saw next written =>
    state.flights id = some flight ∧ flight.phase = .settled saw next ∧ written.Possible state

def State.act (state : State) : Event → State × Reply
  | .reload object access => (state.reload object access, .pending)
  | .set object provider credential reloadAccess access written =>
    state.set object provider credential reloadAccess access written
  | .remove object provider reloadAccess access written =>
    state.remove object provider reloadAccess access written
  | .call object operation access => state.call object operation access
  | .acquire id flight => { state with lock := some id }.enter id flight
  | .giveUp id flight error => (state.drop id, .rejected flight.object none error)
  | .compromise id flight =>
    ({ state with lock := none }.setFlight id { flight with compromised := true }, .pending)
  | .settle id flight saw => state.settle id flight saw
  | .complete id flight saw next written => state.complete id flight saw next written

def State.step (state : State) (event : Event) : State × Reply :=
  let (after, reply) := state.act event
  ({ after with clock := after.clock + 1 }, reply)

end Recode.Auth

import Recode.Lib.InsertionMap

/-! # The queues of file mutations

Mutations of one file are to run one after the other. A call first takes its turn
to register, finds the key of its file, and then waits for the calls registered
before it under the same key. -/

namespace Recode.Tools
namespace FileMutations

/-- What the operating system makes of a path: its absolute form, and the place it
leads to when every link on the way is followed, whether a file is there or not. -/
structure PathNames where
  resolve : String → String
  locate : String → String

/-- The file that a call mutates. -/
def PathNames.file (names : PathNames) (filePath : String) : String :=
  names.locate (names.resolve filePath)

/-- How far the mutation function of a call has come. -/
inductive Progress
  | waiting
  | running
  | returned
  | thrown
deriving DecidableEq

def Progress.ended : Progress → Bool
  | .waiting | .running => false
  | .returned | .thrown => true

/-- A registered call. It waits for the queue of an earlier call, or for nothing. -/
structure Registration where
  key : String
  currentQueue : Option Nat
  progress : Progress
deriving DecidableEq

inductive Stage
  | queued
  | keyed (key : String)
  | rejected
  | registered (registration : Registration)
deriving DecidableEq

structure Call where
  filePath : String
  stage : Stage

/-- The calls, numbered in the order they are made, the chained queue kept under each key, named
by the call that
chained it, and the places where a file is. -/
structure State where
  calls : List Call := []
  fileMutationQueues : InsertionMap String Nat := .empty
  present : String → Bool

inductive Event
  | call (filePath : String)
  | realpath (id : Nat) (answer : Except String String)
  | register (id : Nat)
  | start (id : Nat)
  | finish (id : Nat) (throws : Bool)
  | change (place : String) (present : Bool)

/-- Whether an error code says that nothing is at a path. -/
def isMissingPathError (code : String) : Bool :=
  code == "ENOENT" || code == "ENOTDIR"

/-- What `realpath` may answer for a path: the place it leads to when a file is there,
that nothing is there otherwise, and any other error at any time. -/
def mayAnswer (names : PathNames) (present : String → Bool) (path : String) :
    Except String String → Bool
  | .ok found => present (names.locate path) && found == names.locate path
  | .error code => !(isMissingPathError code && present (names.locate path))

def getMutationQueueKey (names : PathNames) (filePath : String) :
    Except String String → Except String String
  | .ok found => .ok found
  | .error code =>
    if isMissingPathError code then .ok (names.resolve filePath) else .error code

namespace State

def stageOf (state : State) (id : Nat) : Option Stage :=
  state.calls[id]?.map Call.stage

def pathOf (state : State) (id : Nat) : Option String :=
  state.calls[id]?.map Call.filePath

def setStage (state : State) (id : Nat) (stage : Stage) : State :=
  { state with calls := state.calls.modify id fun call => { call with stage := stage } }

def registrationEnded (state : State) (id : Nat) : Bool :=
  match state.stageOf id with
  | some .rejected | some (.registered _) => true
  | _ => false

def mayRegister (state : State) : Nat → Bool
  | 0 => true
  | id + 1 => state.registrationEnded id

/-- A chained queue resolves once its call has ended and the queue before it has
resolved. The chain is followed for a number of calls. -/
def queueResolved (state : State) : Nat → Option Nat → Bool
  | _, none => true
  | 0, some _ => false
  | count + 1, some id =>
    match state.stageOf id with
    | some (.registered registration) =>
      registration.progress.ended && state.queueResolved count registration.currentQueue
    | _ => false

/-- One step of a call, or a change of the files. -/
def step (names : PathNames) (state : State) : Event → Option State
  | .call filePath => some { state with calls := state.calls ++ [⟨filePath, .queued⟩] }
  | .realpath id answer =>
    match state.stageOf id, state.pathOf id with
    | some .queued, some filePath =>
      if state.mayRegister id &&
          mayAnswer names state.present (names.resolve filePath) answer then
        match getMutationQueueKey names filePath answer with
        | .ok key => some (state.setStage id (.keyed key))
        | .error _ => some (state.setStage id .rejected)
      else none
    | _, _ => none
  | .register id =>
    match state.stageOf id with
    | some (.keyed key) =>
      let registration : Registration :=
        { key := key
          currentQueue := state.fileMutationQueues.get? key
          progress := .waiting }
      some
        { state.setStage id (.registered registration) with
          fileMutationQueues := state.fileMutationQueues.insert key id }
    | _ => none
  | .start id =>
    match state.stageOf id with
    | some (.registered registration) =>
      if registration.progress = .waiting ∧
          state.queueResolved state.calls.length registration.currentQueue = true then
        some (state.setStage id (.registered { registration with progress := .running }))
      else none
    | _ => none
  | .finish id throws =>
    match state.stageOf id with
    | some (.registered registration) =>
      if registration.progress = .running then
        let released := state.setStage id
          (.registered
            { registration with progress := if throws then .thrown else .returned })
        if state.fileMutationQueues.get? registration.key = some id then
          some
            { released with
              fileMutationQueues := state.fileMutationQueues.erase registration.key }
        else some released
      else none
    | _ => none
  | .change place present =>
    some { state with present := Function.update state.present place present }

/-- The states reached by steps that are all admitted. -/
inductive Reached (names : PathNames) (admits : State → Event → Prop) : State → Prop
  | start (present : String → Bool) : Reached names admits { present := present }
  | step {state after : State} {event : Event} :
      Reached names admits state → admits state event → state.step names event = some after →
        Reached names admits after

/-- A call has ended: it was rejected, or its mutation function has returned or thrown. -/
def Settled (state : State) (id : Nat) : Prop :=
  state.stageOf id = some .rejected ∨
    ∃ registration, state.stageOf id = some (.registered registration) ∧
      registration.progress.ended = true

def Running (state : State) (id : Nat) : Prop :=
  ∃ registration, state.stageOf id = some (.registered registration) ∧
    registration.progress = .running

def Started (state : State) (id : Nat) : Prop :=
  ∃ registration, state.stageOf id = some (.registered registration) ∧
    registration.progress ≠ .waiting

def SameFile (names : PathNames) (state : State) (one other : Nat) : Prop :=
  ∃ path path', state.pathOf one = some path ∧ state.pathOf other = some path' ∧
    names.file path = names.file path'

/-- The next step of a call is possible, whatever the outside answers. -/
def CanMove (names : PathNames) (state : State) (id : Nat) : Prop :=
  match state.stageOf id with
  | some .queued =>
    ∀ path answer, state.pathOf id = some path →
      mayAnswer names state.present (names.resolve path) answer = true →
        (state.step names (.realpath id answer)).isSome
  | some (.keyed _) => (state.step names (.register id)).isSome
  | some (.registered registration) =>
    match registration.progress with
    | .waiting => (state.step names (.start id)).isSome
    | .running => ∀ throws, (state.step names (.finish id throws)).isSome
    | .returned | .thrown => True
  | some .rejected | none => True

/-- The mutations of each file run one at a time and in the order of the calls, only
calls that have not ended hold others up, and nothing is kept once all have ended. -/
structure Serialized (names : PathNames) (state : State) : Prop where
  exclusive : ∀ one other, state.Running one → state.Running other →
    state.SameFile names one other → one = other
  ordered : ∀ earlier later, earlier < later → state.SameFile names earlier later →
    state.Started later → state.Settled earlier
  unblocked : ∀ id, (∀ earlier < id, state.registrationEnded earlier = true) →
    (∀ earlier < id, state.SameFile names earlier id → state.Settled earlier) →
      state.CanMove names id
  emptied : (∀ id < state.calls.length, state.Settled id) → state.fileMutationQueues.entries = []

end State

end FileMutations
end Recode.Tools

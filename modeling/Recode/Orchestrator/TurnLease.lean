import Recode.Lib.InsertionMap
import Recode.Lib.ObjectStore
import Recode.Orchestrator.CompletionQueue

/-! # Session turn leases

A registry hands out tokens for turns on sessions. Tokens and leases are
mutable objects, referred to by identity: a lease may be registered under
several session identifiers, and the timer of a waiter holds on to the lease
that the waiter was queued on. -/

namespace Recode.Orchestrator

/-- A token for a turn on a session. -/
structure SessionTurnLeaseToken where
  sessionId : String
  ownerId : String
  generation : Int
  released : Bool
deriving DecidableEq, Repr

/-- The error that a waiter's timer ends its call with. -/
structure TurnLeaseTimeoutError where
  sessionId : String
  ownerId : String
  timeoutMs : ℚ
deriving DecidableEq, Repr

/-- A call that waits for a lease. The lease is the one its timer removes it from. -/
structure LeaseWaiter where
  settled : Bool
  lease : Nat
  timeout : TurnLeaseTimeoutError
deriving DecidableEq, Repr

/-- What one call of `acquire` makes: a token, and a waiter if the lease has a holder. -/
structure Acquisition where
  token : SessionTurnLeaseToken
  waiter : Option LeaseWaiter
deriving DecidableEq, Repr

/-- A lease. The holder and the waiters are named by their tokens. -/
structure SessionLease where
  holder : Option Nat
  waiters : List Nat
  lastUsed : Int
deriving DecidableEq, Repr

/-- How a call of `acquire` ends. -/
inductive Settlement where
  | granted (token : Nat)
  | timedOut (token : Nat) (error : TurnLeaseTimeoutError)
deriving DecidableEq, Repr

namespace Settlement

/-- The token of the call. -/
def token : Settlement → Nat
  | granted token => token
  | timedOut token _ => token

end Settlement

/-- The state of a registry: its objects, its map from session identifiers to leases, and the
calls of `acquire` that have ended, in order. -/
structure TurnLeases where
  acquisitions : ObjectStore Acquisition
  objects : ObjectStore SessionLease
  leases : InsertionMap String Nat
  settlements : List Settlement

namespace TurnLeases

/-- A registry without leases. -/
def initial : TurnLeases where
  acquisitions := .empty ⟨⟨"", "", 0, false⟩, none⟩
  objects := .empty ⟨none, [], 0⟩
  leases := .empty
  settlements := []

section Reads

variable (state : TurnLeases)

def sessionOf (token : Nat) : String := (state.acquisitions.read token).token.sessionId

def releasedToken (token : Nat) : Bool := (state.acquisitions.read token).token.released

def queuedOn (token : Nat) : Option Nat :=
  (state.acquisitions.read token).waiter.map LeaseWaiter.lease

def waitsFor (token : Nat) : Option Nat :=
  (state.acquisitions.read token).waiter.bind fun waiter =>
    if waiter.settled then none else some waiter.lease

def holderOf (lease : Nat) : Option Nat := (state.objects.read lease).holder

def queueOf (lease : Nat) : List Nat := (state.objects.read lease).waiters

def idle (lease : Nat) : Bool :=
  (state.holderOf lease).isNone && !(state.queueOf lease).any fun token =>
    (state.waitsFor token).isSome

end Reads

/-- Make a token, and its waiter. -/
def addAcquisition (state : TurnLeases) (acquisition : Acquisition) : TurnLeases :=
  { state with acquisitions := state.acquisitions.alloc acquisition }

def addLease (state : TurnLeases) (lease : SessionLease) : TurnLeases :=
  { state with objects := state.objects.alloc lease }

def modifyToken (state : TurnLeases) (token : Nat)
    (change : SessionTurnLeaseToken → SessionTurnLeaseToken) : TurnLeases :=
  { state with
    acquisitions := state.acquisitions.modify token fun acquisition =>
      { acquisition with token := change acquisition.token } }

def markSettled (state : TurnLeases) (token : Nat) : TurnLeases :=
  { state with
    acquisitions := state.acquisitions.modify token fun acquisition =>
      { acquisition with
        waiter := acquisition.waiter.map fun waiter => { waiter with settled := true } } }

def modifyLease (state : TurnLeases) (lease : Nat) (change : SessionLease → SessionLease) :
    TurnLeases :=
  { state with objects := state.objects.modify lease change }

/-- End a call of `acquire`. -/
def finish (state : TurnLeases) (settlement : Settlement) : TurnLeases :=
  { state with settlements := state.settlements ++ [settlement] }

end TurnLeases

def boundedIdentity (value name : String) : Except String Unit :=
  if value = "" ∨ 512 < Text.utf16Length value then
    .error s!"{name} must contain 1 to 512 characters"
  else .ok ()

/-- The options of a registry, as its constructor checks them. -/
structure SessionTurnLeaseRegistry where
  maxEntries : Nat
  defaultTimeoutMs : ℚ
  maxEntries_bounds : 1 ≤ maxEntries ∧ maxEntries ≤ maxSafeInteger
  timeout_nonneg : 0 ≤ defaultTimeoutMs

namespace SessionTurnLeaseRegistry

open TurnLeases

/-- Drop the idle leases that were not used for longest, if there are too many. -/
def evictIdle (registry : SessionTurnLeaseRegistry) (state : TurnLeases) : TurnLeases :=
  let overflow := state.leases.entries.length + 1 - registry.maxEntries
  let idle := (state.leases.entries.filter fun entry => state.idle entry.2).mergeSort
    fun left right => decide ((state.objects.read left.2).lastUsed ≤
      (state.objects.read right.2).lastUsed)
  { state with
    leases := (idle.take overflow).foldl (fun leases entry => leases.erase entry.1) state.leases }

def getOrCreate (registry : SessionTurnLeaseRegistry) (state : TurnLeases) (sessionId : String)
    (now : Int) : TurnLeases × Nat :=
  match state.leases.get? sessionId with
  | some existing =>
    (state.modifyLease existing fun lease => { lease with lastUsed := now }, existing)
  | none =>
    let evicted := registry.evictIdle state
    let lease := evicted.objects.fresh
    let opened := evicted.addLease ⟨none, [], now⟩
    ({ opened with leases := opened.leases.insert sessionId lease }, lease)

def validateAcquire (sessionId ownerId : String) (generation : Int) (timeoutMs : ℚ) :
    Except String Unit := do
  boundedIdentity sessionId "sessionId"
  boundedIdentity ownerId "ownerId"
  if generation < 1 ∨ maxSafeInteger < generation then
    throw "generation must be a positive safe integer"
  if timeoutMs < 0 then
    throw "timeoutMs must be a non-negative finite number"

def takeLease (state : TurnLeases) (lease : Nat) (token : SessionTurnLeaseToken) (now : Int) :
    TurnLeases :=
  let held := state.acquisitions.fresh
  let made := (state.addAcquisition ⟨token, none⟩).modifyLease lease fun lease =>
    { lease with holder := some held, lastUsed := now }
  made.finish (.granted held)

def pushWaiter (state : TurnLeases) (lease : Nat) (token : SessionTurnLeaseToken)
    (timeoutMs : ℚ) : TurnLeases :=
  let queued := state.acquisitions.fresh
  let waiter : LeaseWaiter := ⟨false, lease, ⟨token.sessionId, token.ownerId, timeoutMs⟩⟩
  (state.addAcquisition ⟨token, some waiter⟩).modifyLease lease fun lease =>
    { lease with waiters := lease.waiters ++ [queued] }

/-- Ask for a turn on a session. The two times are readings of the clock. -/
def acquire (registry : SessionTurnLeaseRegistry) (state : TurnLeases)
    (sessionId ownerId : String) (generation : Int) (timeoutMs : Option ℚ)
    (openedAt grantedAt : Int) : Except String TurnLeases := do
  let timeoutMs := timeoutMs.getD registry.defaultTimeoutMs
  validateAcquire sessionId ownerId generation timeoutMs
  let opened := registry.getOrCreate state sessionId openedAt
  let token : SessionTurnLeaseToken := ⟨sessionId, ownerId, generation, false⟩
  if (opened.1.holderOf opened.2).isNone then
    return takeLease opened.1 opened.2 token grantedAt
  else
    return pushWaiter opened.1 opened.2 token timeoutMs

def expire (state : TurnLeases) (token : Nat) : TurnLeases :=
  match (state.acquisitions.read token).waiter with
  | none => state
  | some waiter =>
    if waiter.settled then state
    else
      let removed := (state.markSettled token).modifyLease waiter.lease fun lease =>
        { lease with waiters := lease.waiters.erase token }
      removed.finish (.timedOut token waiter.timeout)

def grantFirst (state : TurnLeases) (lease : Nat) (now : Int) : List Nat → TurnLeases
  | [] => state.modifyLease lease fun lease => { lease with waiters := [] }
  | token :: rest =>
    if (state.waitsFor token).isSome then
      let held := (state.markSettled token).modifyLease lease fun _ =>
        { holder := some token, waiters := rest, lastUsed := now }
      held.finish (.granted token)
    else grantFirst state lease now rest

def grantNext (state : TurnLeases) (lease : Nat) (now : Int) : TurnLeases :=
  grantFirst state lease now (state.queueOf lease)

/-- Give a token back. The two times are readings of the clock. -/
def release (state : TurnLeases) (token : Option Nat) (releasedAt grantedAt : Int) :
    Bool × TurnLeases :=
  match token with
  | none => (false, state)
  | some token =>
    if state.releasedToken token then (false, state)
    else
      let marked := state.modifyToken token fun token => { token with released := true }
      match marked.leases.get? (marked.sessionOf token) with
      | none => (false, marked)
      | some lease =>
        if marked.holderOf lease ≠ some token then (false, marked)
        else
          let freed := marked.modifyLease lease fun lease =>
            { lease with holder := none, lastUsed := releasedAt }
          (true, grantNext freed lease grantedAt)

/-- Register a lease under another session and move its token there. -/
def bindLease (state : TurnLeases) (token lease : Nat) (newSessionId : String) (now : Int) :
    TurnLeases :=
  let bound := { state with leases := state.leases.insert newSessionId lease }
  let used := bound.modifyLease lease fun lease => { lease with lastUsed := now }
  used.modifyToken token fun token => { token with sessionId := newSessionId }

/-- Move a held lease to another session. -/
def rebind (state : TurnLeases) (token : Option Nat) (newSessionId : String) (now : Int) :
    Except String (Bool × TurnLeases) :=
  match token with
  | none => return (false, state)
  | some token => do
    if state.releasedToken token = true ∨ newSessionId = "" ∨
        newSessionId = state.sessionOf token then
      return (false, state)
    boundedIdentity newSessionId "newSessionId"
    match state.leases.get? (state.sessionOf token) with
    | none => return (false, state)
    | some lease =>
      if state.holderOf lease ≠ some token then return (false, state)
      if (state.leases.get? newSessionId).any fun target =>
          target ≠ lease && !state.idle target then
        return (false, state)
      return (true, bindLease state token lease newSessionId now)

end SessionTurnLeaseRegistry
end Recode.Orchestrator

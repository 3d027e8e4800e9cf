import Recode.Lib.Double
import Recode.Lib.Procedure
import Recode.Text
import Mathlib.Data.Rat.Cast.Order

/-! # The completion queue

Completions of child instances wait in a stored array until their parent
acknowledges them. A parent claims completions for a limited time; a claim is
named by its owner and the generation it gave the record. Stored times are the
instants their ISO text denotes, in milliseconds. -/

namespace Recode.Orchestrator

open Text

/-- How a child instance ended. -/
inductive CompletionTerminalState where
  | succeeded | failed | interrupted | cancelled
deriving DecidableEq, Repr

/-- How far a completion has come. -/
inductive CompletionDeliveryState where
  | pending | claimed | acknowledged
deriving DecidableEq, Repr

/-- A stored completion. -/
structure CompletionRecord where
  id : String
  parentInstanceId : Option String
  parentSessionId : Option String
  childInstanceId : String
  childSessionId : Option String
  terminalState : CompletionTerminalState
  summary : Option String
  resultHash : String
  completedAt : String
  createdAt : Int
  deliveryState : CompletionDeliveryState
  claimOwner : Option String
  claimGeneration : Nat
  claimedAt : Option Int
  acknowledgedAt : Option Int
deriving DecidableEq, Repr

/-- What a supervisor enqueues. -/
structure EnqueueCompletionInput where
  parentInstanceId : Option String
  parentSessionId : Option String
  childInstanceId : String
  childSessionId : Option String
  terminalState : CompletionTerminalState
  summary : Option String
  resultHash : String
  completedAt : String

/-- Who asks for completions. -/
structure CompletionParentIdentity where
  instanceId : Option String
  sessionId : Option String

/-- A claim of a completion. -/
structure CompletionClaim where
  record : CompletionRecord
  owner : String
  generation : Nat
deriving DecidableEq, Repr

/-- The most completions a file may hold. -/
def maxCompletions : Nat := 1024

def maxSafeInteger : Nat := 9007199254740991

def isBoundedString (value : String) (max : Nat) : Bool :=
  value ≠ "" && utf16Length value ≤ max

/-- A lowercase SHA-256 digest in hexadecimal digits. -/
def isSha256 (text : String) : Bool :=
  text.toList.length = 64 &&
    text.toList.all fun char => ('a' ≤ char && char ≤ 'f') || ('0' ≤ char && char ≤ '9')

section Validation

variable (parseDate : String → Option Int)

/-- A record passes the storage's checks. -/
def isCompletionRecord (record : CompletionRecord) : Bool :=
  isBoundedString record.id 512 &&
    record.parentInstanceId.all (isBoundedString · 512) &&
    record.parentSessionId.all (isBoundedString · 512) &&
    !(record.parentInstanceId.isNone && record.parentSessionId.isNone) &&
    isBoundedString record.childInstanceId 512 &&
    record.childSessionId.all (isBoundedString · 512) &&
    record.summary.all (isBoundedString · 4000) &&
    isSha256 record.resultHash &&
    (parseDate record.completedAt).isSome &&
    record.claimGeneration ≤ maxSafeInteger &&
    record.claimOwner.all (isBoundedString · 512) &&
    match record.deliveryState with
    | .pending =>
      record.claimOwner.isNone && record.claimedAt.isNone && record.acknowledgedAt.isNone
    | .claimed =>
      record.claimOwner.isSome && record.claimedAt.isSome && record.acknowledgedAt.isNone
    | .acknowledged =>
      record.claimOwner.isSome && record.claimedAt.isSome && record.acknowledgedAt.isSome

/-- An array passes the storage's checks. -/
def isCompletionArray (records : List CompletionRecord) : Bool :=
  records.length ≤ maxCompletions && records.all (isCompletionRecord parseDate) &&
    (records.map CompletionRecord.id).Nodup &&
    (records.map CompletionRecord.childInstanceId).Nodup

end Validation

/-- What a storage holds, and every array that was handed to it. -/
structure CompletionQueueStorage where
  stored : List CompletionRecord
  saves : List (List CompletionRecord)

/-- A procedure of the queue on its storage. -/
abbrev QueueAction := Procedure CompletionQueueStorage String

namespace CompletionQueueStorage

def load : QueueAction (List CompletionRecord) := do
  let storage ← get
  return storage.stored

def save (records : List CompletionRecord) : QueueAction Unit :=
  modify fun storage => { stored := records, saves := storage.saves ++ [records] }

end CompletionQueueStorage

open CompletionQueueStorage

/-- The options of a queue, as its constructor checks them. -/
structure MaestroCompletionQueue where
  claimLeaseMs : ℚ
  acknowledgedRetentionMs : ℚ
  maxEntries : Nat
  lease_nonneg : 0 ≤ claimLeaseMs
  retention_nonneg : 0 ≤ acknowledgedRetentionMs
  maxEntries_bounds : 1 ≤ maxEntries ∧ maxEntries ≤ 1024

/-- An identity must be absent or of 1 to 512 characters. -/
def requireBoundedIdentity (name : String) (value : Option String) (required : Bool) :
    Except String Unit :=
  if (required && value.isNone) ||
      value.any (fun value => value = "" || 512 < utf16Length value) then
    .error s!"{name} must contain 1 to 512 characters"
  else .ok ()

def matchesParent (record : CompletionRecord) (parent : CompletionParentIdentity) : Bool :=
  if record.parentInstanceId.isSome then record.parentInstanceId = parent.instanceId
  else record.parentSessionId = parent.sessionId

def validateInput (parseDate : String → Option Int) (input : EnqueueCompletionInput) :
    Except String Unit := do
  requireBoundedIdentity "parentInstanceId" input.parentInstanceId false
  requireBoundedIdentity "parentSessionId" input.parentSessionId false
  if (truthy input.parentInstanceId).isNone && (truthy input.parentSessionId).isNone then
    throw "A parent instance or session identity is required"
  requireBoundedIdentity "childInstanceId" (some input.childInstanceId) true
  requireBoundedIdentity "childSessionId" input.childSessionId false
  if !isSha256 input.resultHash then
    throw "resultHash must be a lowercase SHA-256 hex digest"
  if (parseDate input.completedAt).isNone then
    throw "completedAt must be a valid timestamp"

namespace MaestroCompletionQueue

/-- An acknowledged completion has been kept long enough. -/
def outlived (queue : MaestroCompletionQueue) (now : Int) (record : CompletionRecord) : Bool :=
  record.deliveryState = .acknowledged &&
    record.acknowledgedAt.any fun acknowledgedAt =>
      (acknowledgedAt : ℚ) < now - queue.acknowledgedRetentionMs

/-- Drop the acknowledged completions that were kept long enough. -/
def cleanupAcknowledged (queue : MaestroCompletionQueue) (records : List CompletionRecord)
    (now : Int) : QueueAction (List CompletionRecord) := do
  let retained := records.filter fun record => !queue.outlived now record
  if retained.length ≠ records.length then
    save retained
  return retained

def newRecord (input : EnqueueCompletionInput) (id : String) (createdAt : Int) :
    CompletionRecord where
  id := id
  parentInstanceId := input.parentInstanceId
  parentSessionId := input.parentSessionId
  childInstanceId := input.childInstanceId
  childSessionId := input.childSessionId
  terminalState := input.terminalState
  summary := truthy (input.summary.map fun summary =>
    sliceFront (trim summary) 4000)
  resultHash := input.resultHash
  completedAt := input.completedAt
  createdAt := createdAt
  deliveryState := .pending
  claimOwner := none
  claimGeneration := 0
  claimedAt := none
  acknowledgedAt := none

def makeRoom (queue : MaestroCompletionQueue) (records : List CompletionRecord) :
    QueueAction (List CompletionRecord) := do
  if queue.maxEntries ≤ records.length then
    let unacknowledged := records.filter fun record => record.deliveryState ≠ .acknowledged
    if unacknowledged.length ≠ records.length then
      save unacknowledged
      return unacknowledged
  return records

/-- Enqueue a completion once for each child. The identifier is the random one the queue
draws, and the two times are its clock's readings. -/
def enqueue (queue : MaestroCompletionQueue) (parseDate : String → Option Int)
    (input : EnqueueCompletionInput) (id : String) (cleanedAt createdAt : Int) :
    QueueAction CompletionRecord := do
  Procedure.check (validateInput parseDate input)
  let records ← queue.cleanupAcknowledged (← load) cleanedAt
  match records.find? fun record => record.childInstanceId = input.childInstanceId with
  | some existing =>
    if existing.resultHash ≠ input.resultHash ∨
        existing.parentInstanceId ≠ input.parentInstanceId ∨
        existing.parentSessionId ≠ input.parentSessionId then
      throw s!"Conflicting completion already exists for child {input.childInstanceId}"
    return existing
  | none =>
    let records ← queue.makeRoom records
    if queue.maxEntries ≤ records.length then
      throw ("Maestro completion queue capacity reached; " ++
        "refusing to drop an unacknowledged completion")
    let record := newRecord input id createdAt
    save (records ++ [record])
    return record

/-- Another owner holds a claim on a completion whose time has not run out. -/
def heldByOther (queue : MaestroCompletionQueue) (owner : String) (now : Int)
    (record : CompletionRecord) : Bool :=
  record.deliveryState = .claimed && record.claimOwner ≠ some owner &&
    record.claimedAt.any fun claimedAt => (claimedAt : ℚ) + queue.claimLeaseMs > now

/-- A record in a claim. Its generation is a double and stays where adding one is lost. -/
def taken (owner : String) (now : Int) (record : CompletionRecord) : CompletionRecord :=
  { record with
    deliveryState := .claimed
    claimOwner := some owner
    claimGeneration := Double.round (record.claimGeneration + 1)
    claimedAt := some now
    acknowledgedAt := none }

def claimLoop (queue : MaestroCompletionQueue) (parent : CompletionParentIdentity)
    (owner : String) (limit : Nat) (now : Int) :
    List CompletionClaim → List CompletionRecord → List CompletionRecord × List CompletionClaim
  | claims, [] => ([], claims)
  | claims, record :: records =>
    if limit ≤ claims.length || !matchesParent record parent ||
        record.deliveryState = .acknowledged || queue.heldByOther owner now record then
      let rest := claimLoop queue parent owner limit now claims records
      (record :: rest.1, rest.2)
    else
      let record := taken owner now record
      let claim : CompletionClaim := ⟨record, owner, record.claimGeneration⟩
      let rest := claimLoop queue parent owner limit now (claims ++ [claim]) records
      (record :: rest.1, rest.2)

def validateClaim (parent : CompletionParentIdentity) (owner : String) (limit : Int) :
    Except String Unit := do
  requireBoundedIdentity "parent.instanceId" parent.instanceId false
  requireBoundedIdentity "parent.sessionId" parent.sessionId false
  if (truthy parent.instanceId).isNone && (truthy parent.sessionId).isNone then
    throw "A parent instance or session identity is required"
  requireBoundedIdentity "owner" (some owner) true
  if limit < 1 ∨ 64 < limit then
    throw "limit must be a safe integer between 1 and 64"

def claim (queue : MaestroCompletionQueue) (parent : CompletionParentIdentity) (owner : String)
    (limit : Int) (now : Int) : QueueAction (List CompletionClaim) := do
  Procedure.check (validateClaim parent owner limit)
  let records ← queue.cleanupAcknowledged (← load) now
  let claimed := queue.claimLoop parent owner limit.toNat now [] records
  if 0 < claimed.2.length then
    save claimed.1
  return claimed.2

def replaceRecord (records : List CompletionRecord) (changed : CompletionRecord) :
    List CompletionRecord :=
  records.map fun record => if record.id = changed.id then changed else record

def acknowledge (claim : CompletionClaim) (now : Int) : QueueAction Bool := do
  let records ← load
  match records.find? fun record => record.id = claim.record.id with
  | none => return false
  | some record =>
    if record.claimOwner ≠ some claim.owner ∨ record.claimGeneration ≠ claim.generation then
      return false
    if record.deliveryState = .acknowledged then return true
    if record.deliveryState ≠ .claimed then return false
    save (replaceRecord records
      { record with deliveryState := .acknowledged, acknowledgedAt := some now })
    return true

def release (claim : CompletionClaim) : QueueAction Bool := do
  let records ← load
  match records.find? fun record => record.id = claim.record.id with
  | none => return false
  | some record =>
    if record.deliveryState ≠ .claimed ∨ record.claimOwner ≠ some claim.owner ∨
        record.claimGeneration ≠ claim.generation then
      return false
    save (replaceRecord records
      { record with deliveryState := .pending, claimOwner := none, claimedAt := none })
    return true

def list (queue : MaestroCompletionQueue) (parent : Option CompletionParentIdentity)
    (now : Int) : QueueAction (List CompletionRecord) := do
  let records ← queue.cleanupAcknowledged (← load) now
  return records.filter fun record => parent.all (matchesParent record)

end MaestroCompletionQueue
end Recode.Orchestrator

import Recode.Orchestrator.Instances
import Recode.Text

/-! # Ownership of the service

A process owns the service when it has created the owner file exclusively and written its receipt
to it. It takes the place of an owner that it finds dead by renaming the owner file away. Every
call of the file system is a step of its own, and processes take their steps in any order. -/

namespace Recode.Orchestrator

open Function

inductive MaestroSupervisionMode where
  | manual | systemd | windowsTask
deriving DecidableEq

structure MaestroServiceOwnerReceipt where
  serviceId : String
  processIdentity : ProcessIdentityRecord
  startedAt : String
  supervisionMode : MaestroSupervisionMode
  endpoint : String
deriving DecidableEq

def isProcessIdentity (identity : ProcessIdentityRecord) : Bool :=
  identity.pid ≤ maxSafeInteger && identity.pid > 0 && Text.utf16Length identity.startReceipt = 64

def isOwnerReceipt (receipt : MaestroServiceOwnerReceipt) : Bool :=
  receipt.serviceId ≠ "" && isProcessIdentity receipt.processIdentity && receipt.endpoint ≠ ""

/-- The PID alone is not sufficient: the process has to have started when the record says. -/
def verifyProcessIdentity (expected : ProcessIdentityRecord)
    (observed : Option ProcessIdentityRecord) : Bool :=
  observed.any fun observed =>
    expected.pid ≤ maxSafeInteger && expected.pid > 0 && observed.pid ≤ maxSafeInteger &&
      observed.pid > 0 && expected.pid = observed.pid && expected.startReceipt ≠ "" &&
      observed.startReceipt ≠ "" && expected.startReceipt = observed.startReceipt

/-- A file, apart from the path it can be found at. -/
abbrev Inode := Nat

/-- The text of an owner file. Before a write is complete it does not parse. -/
inductive OwnerText where
  | unreadable
  | json (receipt : MaestroServiceOwnerReceipt)
deriving DecidableEq

inductive OwnershipError where
  | malformed
  | owned (pid : Nat)
  | boundedRetries
  | fileSystem
deriving DecidableEq

/-- Where a process stands in a call, before its next step. -/
inductive OwnershipPhase where
  /-- The process has not started yet. -/
  | absent
  | idle
  | opening (attempt : Nat)
  | writing (attempt : Nat) (inode : Inode) (receipt : MaestroServiceOwnerReceipt)
  | closing (inode : Inode) (receipt : MaestroServiceOwnerReceipt)
  | acquired (inode : Inode) (receipt : MaestroServiceOwnerReceipt)
  | reading (attempt : Nat)
  | inspecting (attempt : Nat) (inode : Inode) (existing : MaestroServiceOwnerReceipt)
  | moving (attempt : Nat) (inode : Inode) (existing : MaestroServiceOwnerReceipt)
  | recording (attempt : Nat) (existing : MaestroServiceOwnerReceipt)
  | removing (attempt : Nat) (existing : MaestroServiceOwnerReceipt)
  | rereading (inode : Inode) (receipt : MaestroServiceOwnerReceipt)
  | unlinking (inode : Inode) (receipt : MaestroServiceOwnerReceipt)
  | failed (error : OwnershipError)
  | gone
deriving DecidableEq

/-- The paths of the owner file, the files, and the processes. -/
structure ServiceWorld where
  ownerFile : Option Inode
  staleFiles : String → Option Inode
  texts : Inode → OwnerText
  nextInode : Inode
  phases : ProcessIdentityRecord → OwnershipPhase

/-- What a process does next, with what it is told. -/
inductive OwnershipMove where
  | start
  | call
  /-- Try to create the owner file, for a receipt with a new service id and the time. -/
  | openExclusive (receipt : MaestroServiceOwnerReceipt)
  | write
  | close
  | read
  | inspect (observed : Option ProcessIdentityRecord)
  | renameStale
  | record
  | unlinkStale
  | release
  | reread
  | unlink
  /-- A call of the file system fails. -/
  | fault
  | die
deriving DecidableEq

/-- The number of attempts. -/
def ownershipAttempts : Nat := 4

/-- The next attempt of the loop, or the error behind it. -/
def nextAttempt (attempt : Nat) : OwnershipPhase :=
  if attempt + 1 < ownershipAttempts then .opening (attempt + 1) else .failed .boundedRetries

namespace OwnershipPhase

def isLive : OwnershipPhase → Bool
  | .absent => false
  | .gone => false
  | _ => true

/-- Where a process goes on when its call of the file system fails: a failed removal is ignored, a
release gives up, and an acquisition ends with the error. -/
def afterFault : OwnershipPhase → Option OwnershipPhase
  | .absent | .idle | .acquired _ _ | .failed _ | .gone => none
  | .removing attempt _ => some (nextAttempt attempt)
  | .rereading _ _ => some .idle
  | .unlinking _ _ => some .idle
  | _ => some (.failed .fileSystem)

/-- The process is told that it owns the service, and has not released it. -/
def holds : OwnershipPhase → Bool
  | .acquired _ _ => true
  | _ => false

end OwnershipPhase

namespace ServiceWorld

def setPhase (world : ServiceWorld) (process : ProcessIdentityRecord) (phase : OwnershipPhase) :
    ServiceWorld :=
  { world with phases := update world.phases process phase }

def openOwner (world : ServiceWorld) (process : ProcessIdentityRecord) (attempt : Nat)
    (receipt : MaestroServiceOwnerReceipt) : ServiceWorld :=
  match world.ownerFile with
  | some _ => world.setPhase process (.reading attempt)
  | none =>
    { world with
      ownerFile := some world.nextInode
      texts := update world.texts world.nextInode .unreadable
      nextInode := world.nextInode + 1 }.setPhase process
        (.writing attempt world.nextInode receipt)

def readOwner (world : ServiceWorld) (attempt : Nat) : OwnershipPhase :=
  match world.ownerFile with
  | none => nextAttempt attempt
  | some inode =>
    match world.texts inode with
    | .unreadable => .failed .malformed
    | .json receipt =>
      if isOwnerReceipt receipt then .inspecting attempt inode receipt else .failed .malformed

/-- Move the owner file to the stale path of what the process has read. -/
def renameOwner (world : ServiceWorld) (process : ProcessIdentityRecord) (attempt : Nat)
    (existing : MaestroServiceOwnerReceipt) : ServiceWorld :=
  match world.ownerFile with
  | none => world.setPhase process (nextAttempt attempt)
  | some inode =>
    { world with
      ownerFile := none
      staleFiles := update world.staleFiles existing.serviceId (some inode)
    }.setPhase process (.recording attempt existing)

/-- Whether the owner file still proves that this process owns it. -/
def provesOwner (world : ServiceWorld) (receipt : MaestroServiceOwnerReceipt) : Bool :=
  match world.ownerFile.map world.texts with
  | some (.json current) => isOwnerReceipt current && current.serviceId = receipt.serviceId
  | _ => false

/-- What inspection says of a process that runs is true. -/
def truthful (world : ServiceWorld) (identity : ProcessIdentityRecord)
    (observed : Option ProcessIdentityRecord) : Bool :=
  !(world.phases identity).isLive || observed = some identity

def step (world : ServiceWorld) (process : ProcessIdentityRecord) (move : OwnershipMove) :
    Option ServiceWorld :=
  match world.phases process, move with
  | .absent, .start =>
    if isProcessIdentity process then some (world.setPhase process .idle) else none
  | .idle, .call => some (world.setPhase process (.opening 0))
  | .failed _, .call => some (world.setPhase process (.opening 0))
  | .opening attempt, .openExclusive receipt =>
    if receipt.processIdentity = process then some (world.openOwner process attempt receipt)
    else none
  | .writing _ inode receipt, .write =>
    some ({ world with texts := update world.texts inode (.json receipt) }.setPhase
      process (.closing inode receipt))
  | .closing inode receipt, .close => some (world.setPhase process (.acquired inode receipt))
  | .reading attempt, .read => some (world.setPhase process (world.readOwner attempt))
  | .inspecting attempt inode existing, .inspect observed =>
    if world.truthful existing.processIdentity observed then
      some (world.setPhase process
        (if verifyProcessIdentity existing.processIdentity observed then
          .failed (.owned existing.processIdentity.pid)
        else .moving attempt inode existing))
    else none
  | .moving attempt _ existing, .renameStale => some (world.renameOwner process attempt existing)
  | .recording attempt existing, .record =>
    some (world.setPhase process (.removing attempt existing))
  | .removing attempt existing, .unlinkStale =>
    some ({ world with
      staleFiles := update world.staleFiles existing.serviceId none }.setPhase process
        (nextAttempt attempt))
  | .acquired inode receipt, .release => some (world.setPhase process (.rereading inode receipt))
  | .rereading inode receipt, .reread =>
    some (world.setPhase process
      (if world.provesOwner receipt then .unlinking inode receipt else .idle))
  | .unlinking _ _, .unlink => some ({ world with ownerFile := none }.setPhase process .idle)
  | phase, .fault => phase.afterFault.map (world.setPhase process)
  | phase, .die => if phase.isLive then some (world.setPhase process .gone) else none
  | _, _ => none

end ServiceWorld

end Recode.Orchestrator

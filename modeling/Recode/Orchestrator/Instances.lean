import Recode.Orchestrator.CompletionQueue

/-! # Supervised instances

What the supervisor records of an instance, and the check that admits a new
one to a workspace. Stored times are the instants their ISO text denotes, in
milliseconds. -/

namespace Recode.Orchestrator

/-- The status of an instance. -/
inductive InstanceStatus where
  | starting | online | waitingInput | stopping | stopped | error | succeeded | failed | cancelled
deriving DecidableEq, Repr

/-- Whether a session may write to its workspace. -/
inductive WorkspaceAccessMode where
  | readOnly | write
deriving DecidableEq, Repr

/-- What was found out about the workspace of an instance. -/
structure WorkspaceOwnershipReceipt where
  ownerInstanceId : String
  access : WorkspaceAccessMode
  selectedPath : String
  gitCommonDir : Option String
  worktreeIdentity : String
deriving DecidableEq, Repr

/-- What identifies a child process. -/
structure ProcessIdentityRecord where
  pid : Nat
  startReceipt : String
deriving DecidableEq, Repr

/-- How the termination of a child process went. -/
structure TerminationOutcome where
  graceful : Bool
  forced : Bool
  exited : Bool
deriving DecidableEq, Repr

/-- What a child process asks its user. Only the size of its JSON text is kept of the rest. -/
structure RpcExtensionUIRequest where
  id : String
  method : String
  bytes : Nat
deriving DecidableEq, Repr

/-- A request that waits for an answer. -/
def isBlockingUiRequest (request : RpcExtensionUIRequest) : Bool :=
  request.method = "select" || request.method = "confirm" || request.method = "input" ||
    request.method = "editor"

/-- The record of an instance. -/
structure InstanceRecord where
  id : String
  status : InstanceStatus
  cwd : String
  completedAt : Option Int := none
  parentInstanceId : Option String := none
  parentSessionId : Option String := none
  workspaceReceipt : Option WorkspaceOwnershipReceipt := none
  sessionId : Option String := none
  sessionFile : Option String := none
  radiusPiId : Option String := none
  processIdentity : Option ProcessIdentityRecord := none
  terminationOutcome : Option TerminationOutcome := none
  terminalDiagnostic : Option String := none
  terminalState : Option CompletionTerminalState := none
  terminalSummary : Option String := none
  terminalResultHash : Option String := none
  completionQueuedAt : Option Int := none
  latestOutput : Option String := none
  pendingUiRequest : Option RpcExtensionUIRequest := none
deriving DecidableEq, Repr

/-- Why a workspace was not admitted. -/
inductive WorkspaceSafetyCode where
  | ambiguousExistingOwner | parentNotFound | sharedWriteWorkspace
  | writeChildRequiresSiblingWorktree
deriving DecidableEq, Repr

/-- The error of the workspace check. -/
structure WorkspaceSafetyError where
  code : WorkspaceSafetyCode
  message : String
deriving DecidableEq, Repr

/-- An instance counts as an owner of its workspace. -/
def isActive (record : InstanceRecord) : Bool :=
  record.status = .starting || record.status = .online || record.status = .waitingInput

section Admission

variable (comparablePath : String → String)

/-- A write-capable child of a write-capable parent must use another worktree of the parent's
repository. -/
def isSiblingWorktree (candidate parent : WorkspaceOwnershipReceipt) : Bool :=
  match candidate.gitCommonDir, parent.gitCommonDir with
  | some candidateDir, some parentDir =>
    candidateDir ≠ "" && parentDir ≠ "" &&
      comparablePath candidateDir = comparablePath parentDir &&
      candidate.worktreeIdentity ≠ parent.worktreeIdentity
  | _, _ => false

def checkOwner (candidate : WorkspaceOwnershipReceipt) (parentInstanceId : Option String)
    (record : InstanceRecord) : Except WorkspaceSafetyError Unit :=
  if some record.id = parentInstanceId then .ok ()
  else
    match record.workspaceReceipt with
    | none => .error ⟨.ambiguousExistingOwner,
        "Cannot admit a write-capable session while active instance " ++
          s!"{record.id} lacks a workspace receipt"⟩
    | some existing =>
      if existing.access ≠ .write then .ok ()
      else if existing.worktreeIdentity = candidate.worktreeIdentity then
        .error ⟨.sharedWriteWorkspace,
          s!"Write-capable instance {record.id} already owns the selected worktree"⟩
      else .ok ()

def checkParent (candidate : WorkspaceOwnershipReceipt) :
    Option InstanceRecord → Except WorkspaceSafetyError Unit
  | none => .ok ()
  | some parent =>
    match parent.workspaceReceipt with
    | none => .error ⟨.ambiguousExistingOwner,
        s!"Parent instance {parent.id} lacks a workspace receipt"⟩
    | some receipt =>
      if receipt.access = .write ∧ isSiblingWorktree comparablePath candidate receipt = false then
        .error ⟨.writeChildRequiresSiblingWorktree,
          "A concurrent write-capable child requires an explicitly selected sibling worktree " ++
            "from the parent's Git repository"⟩
      else .ok ()

def assertWorkspaceAdmission (candidate : WorkspaceOwnershipReceipt)
    (existingInstances : List InstanceRecord) (parentInstanceId : Option String) :
    Except WorkspaceSafetyError Unit := do
  let active := existingInstances.filter isActive
  let named := Text.truthy parentInstanceId
  let parent := active.find? fun record => some record.id = named
  if named.isSome && parent.isNone then
    throw ⟨.parentNotFound, "Active parent instance not found: " ++ named.getD ""⟩
  if candidate.access = .readOnly then return ()
  checkParent comparablePath candidate parent
  active.forM (checkOwner candidate parentInstanceId)

end Admission

end Recode.Orchestrator

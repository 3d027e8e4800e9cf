import Recode.Lib.Brackets
import Recode.Lib.InsertionMap
import Recode.Lib.Procedure
import Recode.Message

/-! # The journal of a harness

A harness records in its session when an operation, a turn or a tool starts and
how it ends. The journal keeps the work that is open in memory; after a restart
it closes what the records leave open before it records anything else. -/

namespace Recode.Harness

/-- The operations of a harness. -/
inductive RecodeHarnessOperation where
  | prompt | message | retry | skill | promptTemplate | compaction | branchSummary
deriving DecidableEq

/-- How an operation or a turn ends. -/
inductive RecodeHarnessOperationOutcome where
  | success | error | aborted | cancelled
deriving DecidableEq

/-- An error as it is recorded. -/
structure RecodeHarnessJournalError where
  name : String
  message : String
  code : Option String
deriving DecidableEq

/-- Why work was interrupted. -/
inductive InterruptReason where
  | processRestart | operationFailed
deriving DecidableEq

/-- A tool that is running. Generated identifiers are numbers. -/
structure ActiveTool where
  turnId : Nat
  toolCallId : String
  toolName : String
deriving DecidableEq

/-- A record of the journal. -/
inductive JournalRecord where
  | operationStarted (operationId : Nat) (operation : RecodeHarnessOperation)
  | operationFinished (operationId : Nat) (operation : RecodeHarnessOperation)
      (outcome : RecodeHarnessOperationOutcome) (error : Option RecodeHarnessJournalError)
  | operationInterrupted (operationId : Nat) (operation : RecodeHarnessOperation)
      (reason : InterruptReason) (error : Option RecodeHarnessJournalError)
  | turnStarted (operationId turnId : Nat)
  | turnFinished (operationId turnId : Nat) (outcome : RecodeHarnessOperationOutcome)
  | turnInterrupted (operationId turnId : Nat) (reason : InterruptReason)
  | toolStarted (operationId : Nat) (tool : ActiveTool)
  | toolFinished (operationId : Nat) (tool : ActiveTool) (isError : Bool)
  | toolInterrupted (operationId : Nat) (tool : ActiveTool) (reason : InterruptReason)
deriving DecidableEq

/-- The operation that is running. -/
structure ActiveOperation where
  id : Nat
  operation : RecodeHarnessOperation
deriving DecidableEq

/-- How much work a recovery interrupted. -/
structure RecodeHarnessRecoveryResult where
  operationsInterrupted : Nat
  turnsInterrupted : Nat
  toolsInterrupted : Nat
deriving DecidableEq

/-- What a call ends with when it does not return: an error, or a crash of the process. -/
inductive Stop where
  | thrown (error : RecodeHarnessJournalError)
  | crashed
deriving DecidableEq

/-- What happens to an append: it is written, it fails with nothing written, or the process crashes
before it. -/
inductive AppendOutcome where
  | written
  | failed (error : RecodeHarnessJournalError)
  | crashed
deriving DecidableEq

/-- What a journal keeps in memory. -/
structure RecodeHarnessJournal where
  recoveryPromise : Option (Except Stop RecodeHarnessRecoveryResult) := none
  activeOperation : Option ActiveOperation := none
  activeTurnId : Option Nat := none
  activeTools : InsertionMap String ActiveTool := .empty

/-- A journal, the records in its session, how many identifiers were generated, and what happens to
the next appends. Appends after those are written. -/
structure JournalState where
  journal : RecodeHarnessJournal := {}
  entries : List JournalRecord := []
  uuids : Nat := 0
  outcomes : List AppendOutcome := []

/-- A procedure of the journal. -/
abbrev JournalM (Result : Type) := Procedure JournalState Stop Result

/-- The agent events that the journal records, and those it does not. A turn ends with the stop
reason of its message when that is an assistant's. -/
inductive JournaledEvent where
  | turnStart
  | turnEnd (stopReason : Option StopReason)
  | toolExecutionStart (toolCallId toolName : String)
  | toolExecutionEnd (toolCallId : String) (isError : Bool)
  | other

/-- How a turn with a message ends. -/
def outcomeFromMessage : StopReason → RecodeHarnessOperationOutcome
  | .error => .error
  | .aborted => .aborted
  | _ => .success

/-- The work that the records leave open. -/
structure UnfinishedWork where
  operations : InsertionMap Nat RecodeHarnessOperation := .empty
  turns : InsertionMap Nat Nat := .empty
  tools : InsertionMap String (Nat × ActiveTool) := .empty

/-- Take a record into the work left open. Turns are kept with their operations. -/
def UnfinishedWork.read (work : UnfinishedWork) : JournalRecord → UnfinishedWork
  | .operationStarted operationId operation =>
    { work with operations := work.operations.insert operationId operation }
  | .operationFinished operationId _ _ _ =>
    { work with operations := work.operations.erase operationId }
  | .operationInterrupted operationId _ _ _ =>
    { work with operations := work.operations.erase operationId }
  | .turnStarted operationId turnId => { work with turns := work.turns.insert turnId operationId }
  | .turnFinished _ turnId _ => { work with turns := work.turns.erase turnId }
  | .turnInterrupted _ turnId _ => { work with turns := work.turns.erase turnId }
  | .toolStarted operationId tool =>
    { work with tools := work.tools.insert tool.toolCallId (operationId, tool) }
  | .toolFinished _ tool _ => { work with tools := work.tools.erase tool.toolCallId }
  | .toolInterrupted _ tool _ => { work with tools := work.tools.erase tool.toolCallId }

def unfinishedWork (entries : List JournalRecord) : UnfinishedWork :=
  entries.foldl UnfinishedWork.read {}

namespace RecodeHarnessJournal

def invalidState (message : String) : Stop :=
  .thrown ⟨"AgentHarnessError", message, some "invalid_state"⟩

def append (record : JournalRecord) : JournalM Unit := do
  let state ← get
  match state.outcomes with
  | [] => set { state with entries := state.entries ++ [record] }
  | .written :: outcomes =>
    set { state with entries := state.entries ++ [record], outcomes := outcomes }
  | .failed error :: outcomes =>
    set { state with outcomes := outcomes }
    throw (.thrown error)
  | .crashed :: _ => throw .crashed

def setJournal (change : RecodeHarnessJournal → RecodeHarnessJournal) : JournalM Unit :=
  modify fun state => { state with journal := change state.journal }

def uuid : JournalM Nat := do
  let state ← get
  set { state with uuids := state.uuids + 1 }
  return state.uuids

def recoverUnfinishedWork : JournalM RecodeHarnessRecoveryResult := do
  let state ← get
  let work := unfinishedWork state.entries
  work.tools.entries.forM fun (_, operationId, tool) =>
    append (.toolInterrupted operationId tool .processRestart)
  work.turns.entries.forM fun (turnId, operationId) =>
    append (.turnInterrupted operationId turnId .processRestart)
  work.operations.entries.forM fun (operationId, operation) =>
    append (.operationInterrupted operationId operation .processRestart none)
  return ⟨work.operations.entries.length, work.turns.entries.length, work.tools.entries.length⟩

/-- Recover once. The promise of the recovery is kept, also when it is rejected. -/
def recover : JournalM RecodeHarnessRecoveryResult := do
  let state ← get
  match state.journal.recoveryPromise with
  | some result => Procedure.check result
  | none =>
    match recoverUnfinishedWork.perform state with
    | (result, recovered) =>
      set { recovered with
        journal := { recovered.journal with recoveryPromise := some result } }
      Procedure.check result

def beginOperation (operation : RecodeHarnessOperation) : JournalM Unit := do
  let _ ← recover
  let state ← get
  match state.journal.activeOperation with
  | some active => throw (invalidState s!"Operation {active.id} is already active")
  | none =>
    let id ← uuid
    setJournal fun journal => { journal with activeOperation := some ⟨id, operation⟩ }
    append (.operationStarted id operation)

def requireActiveOperation : JournalM ActiveOperation := do
  let state ← get
  match state.journal.activeOperation with
  | some operation => return operation
  | none => throw (invalidState "No journal operation is active")

def finishOpenChildren (reason : InterruptReason) : JournalM Unit := do
  let operation ← requireActiveOperation
  let state ← get
  state.journal.activeTools.entries.forM fun (_, tool) =>
    append (.toolInterrupted operation.id tool reason)
  setJournal fun journal => { journal with activeTools := .empty }
  let state ← get
  match state.journal.activeTurnId with
  | none => return
  | some turnId =>
    append (.turnInterrupted operation.id turnId reason)
    setJournal fun journal => { journal with activeTurnId := none }

def finishOperation (outcome : RecodeHarnessOperationOutcome)
    (error : Option RecodeHarnessJournalError) : JournalM Unit := do
  let operation ← requireActiveOperation
  finishOpenChildren .operationFailed
  append (.operationFinished operation.id operation.operation outcome error)
  setJournal fun journal => { journal with activeOperation := none }

def interruptOperation (error : RecodeHarnessJournalError) : JournalM Unit := do
  let operation ← requireActiveOperation
  finishOpenChildren .operationFailed
  append (.operationInterrupted operation.id operation.operation .operationFailed (some error))
  setJournal fun journal => { journal with activeOperation := none }

def recordAgentEvent (event : JournaledEvent) : JournalM Unit := do
  let state ← get
  match state.journal.activeOperation with
  | none => return
  | some operation =>
    match event, state.journal.activeTurnId with
    | .turnStart, _ =>
      let turnId ← uuid
      setJournal fun journal => { journal with activeTurnId := some turnId }
      append (.turnStarted operation.id turnId)
    | .turnEnd stopReason, some turnId =>
      append (.turnFinished operation.id turnId
        ((stopReason.map outcomeFromMessage).getD .success))
      setJournal fun journal => { journal with activeTurnId := none }
    | .toolExecutionStart toolCallId toolName, some turnId =>
      let tool : ActiveTool := ⟨turnId, toolCallId, toolName⟩
      setJournal fun journal =>
        { journal with activeTools := journal.activeTools.insert toolCallId tool }
      append (.toolStarted operation.id tool)
    | .toolExecutionEnd toolCallId isError, _ =>
      match state.journal.activeTools.get? toolCallId with
      | none => return
      | some tool =>
        append (.toolFinished operation.id tool isError)
        setJournal fun journal =>
          { journal with activeTools := journal.activeTools.erase toolCallId }
    | _, _ => return

end RecodeHarnessJournal

/-- The calls of a journal. -/
inductive JournalCall where
  | recover
  | beginOperation (operation : RecodeHarnessOperation)
  | recordAgentEvent (event : JournaledEvent)
  | finishOperation (outcome : RecodeHarnessOperationOutcome)
      (error : Option RecodeHarnessJournalError)
  | interruptOperation (error : RecodeHarnessJournalError)

/-- What a call does. -/
def JournalCall.procedure : JournalCall → JournalM Unit
  | .recover => do let _ ← RecodeHarnessJournal.recover
  | .beginOperation operation => RecodeHarnessJournal.beginOperation operation
  | .recordAgentEvent event => RecodeHarnessJournal.recordAgentEvent event
  | .finishOperation outcome error => RecodeHarnessJournal.finishOperation outcome error
  | .interruptOperation error => RecodeHarnessJournal.interruptOperation error

/-- A harness at work: its journal, and whether an operation was begun that is not over. An
operation is over when it finished, and when interrupting it was tried. -/
structure JournalRun where
  state : JournalState := {}
  running : Bool := false

/-- What happens to a harness: a call with what happens to its appends, or a restart. -/
inductive JournalStep where
  | call (call : JournalCall) (outcomes : List AppendOutcome)
  | restart

namespace JournalRun

/-- Whether an operation is under way after a call. -/
def runningAfter (running : Bool) : JournalCall → Except Stop Unit → Bool
  | .beginOperation _, .ok _ => true
  | .finishOperation _ _, .ok _ => false
  | .interruptOperation _, _ => false
  | _, _ => running

/-- The harness of a new process over the same records. -/
def restarted (state : JournalState) : JournalRun := ⟨{ state with journal := {} }, false⟩

/-- One step. A crash leaves the records to a new process. -/
def step (run : JournalRun) : JournalStep → JournalRun
  | .restart => restarted run.state
  | .call call outcomes =>
    match call.procedure.perform { run.state with outcomes := outcomes } with
    | (.error .crashed, after) => restarted after
    | (result, after) => ⟨after, runningAfter run.running call result⟩

def steps (run : JournalRun) (events : List JournalStep) : JournalRun := events.foldl step run

end JournalRun

end Recode.Harness

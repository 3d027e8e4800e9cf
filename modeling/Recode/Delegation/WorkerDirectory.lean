import Mathlib.Data.List.Sort
import Recode.Lib.InsertionMap
import Recode.Text

/-! # The worker directory

Workers run one-shot tasks and the turns of conversations. The directory keeps the
records of its conversations and counts the one-shot tasks under way; from these it
decides whether more runs may start. The runs themselves go on elsewhere: a call of
`runNamedWorker` returns at its own time, also after it was aborted. -/

namespace Recode.Delegation

open Function InsertionMap Text

structure NamedWorkerDefinition where
  id : String
  displayName : String
  aliases : Option (List String) := none
deriving DecidableEq, Inhabited

inductive NamedWorkerRunStatus
  | completed | failed | cancelled | timeout
deriving DecidableEq

inductive WorkerConversationStatus
  | running | closed
  | result (status : NamedWorkerRunStatus)
deriving DecidableEq, Inhabited

/-- The record of a conversation. Its abort controller is that of its turn under way. -/
structure WorkerConversationRecord where
  conversationId : String
  worker : NamedWorkerDefinition
  speakerId : String
  status : WorkerConversationStatus
  updatedAt : Rat
  turnCount : Rat
  abortController : Option Nat
deriving DecidableEq, Inhabited

structure WorkerDirectory where
  workers : List NamedWorkerDefinition
  byReference : InsertionMap String NamedWorkerDefinition
  toLowerCase : String → String
  maxConversations : Nat
  maxActiveConversations : Nat
  maxActiveConversationsPerWorker : Nat

/-- A call of `executeConversationTurn` that has not recorded its result. It is active
until its call of `runNamedWorker` has returned. -/
structure Turn where
  controller : Nat
  record : Nat
  conversationId : String
  workerId : String
  active : Bool
deriving DecidableEq

/-- A call of `runOneShot` that has not ended. -/
structure OneShot where
  controller : Nat
  workerId : String
  active : Bool
deriving DecidableEq

/-- A call of `startConversations` that has not returned: its records, and the turns it
waits for. -/
structure StartCall where
  records : List Nat
  turns : List Nat
deriving DecidableEq

/-- The directory with its calls under way. Records are objects: a turn goes on with its
record after the directory has dropped it. -/
structure State where
  made : Nat := 0
  records : Nat → WorkerConversationRecord := fun _ => default
  conversations : InsertionMap String Nat := empty
  oneShotControllers : List Nat := []
  activeOneShotsByWorker : InsertionMap String Nat := empty
  controllers : Nat := 0
  aborted : List Nat := []
  turns : List Turn := []
  oneShots : List OneShot := []
  starts : List StartCall := []

/-- What a call answers at once. -/
inductive Reply
  | threw (error : String)
  | pending
  | snapshot (record : WorkerConversationRecord)
  | snapshots (records : List WorkerConversationRecord)
  | cancelled (answer : Bool)
  | done
deriving DecidableEq

namespace WorkerDirectory

variable (directory : WorkerDirectory)

def normalizeWorkerReference (value : String) : String :=
  directory.toLowerCase (trim value)

def formatNamedWorkerIdentity (worker : NamedWorkerDefinition) : String :=
  match worker.aliases with
  | some (first :: _) =>
    if first = "" then worker.displayName else worker.displayName ++ " (" ++ first ++ ")"
  | _ => worker.displayName

def resolveWorker (reference : String) : Except String NamedWorkerDefinition :=
  match directory.byReference.get? (directory.normalizeWorkerReference reference) with
  | some worker => .ok worker
  | none =>
    let available := ", ".intercalate <| directory.workers.map fun candidate =>
      candidate.id ++ " (" ++ formatNamedWorkerIdentity candidate ++ ")"
    .error ("Unknown named worker: " ++ reference ++ ". Available: " ++ available)

end WorkerDirectory

namespace State

/-- The records of the directory, in the order of its map. -/
def held (state : State) : List Nat :=
  state.conversations.entries.map Prod.snd

def isRunning (state : State) (record : Nat) : Bool :=
  (state.records record).status = .running

def running (state : State) : List Nat :=
  state.held.filter state.isRunning

def removable (state : State) : List Nat :=
  (state.held.filter fun record => !state.isRunning record).insertionSort
    fun left right => (state.records left).updatedAt ≤ (state.records right).updatedAt

def activeOneShots (state : State) : Nat :=
  state.activeOneShotsByWorker.total

def activeOneShotsOf (state : State) (workerId : String) : Nat :=
  (state.activeOneShotsByWorker.get? workerId).getD 0

def modify (state : State) (record : Nat)
    (change : WorkerConversationRecord → WorkerConversationRecord) : State :=
  { state with records := update state.records record (change (state.records record)) }

theorem records_modify_self (state : State) (record : Nat)
    (change : WorkerConversationRecord → WorkerConversationRecord) :
    (state.modify record change).records record = change (state.records record) :=
  update_self record _ state.records

theorem records_modify_of_ne (state : State) {record other : Nat}
    (change : WorkerConversationRecord → WorkerConversationRecord) (different : other ≠ record) :
    (state.modify record change).records other = state.records other :=
  update_of_ne different _ state.records

end State

namespace WorkerDirectory

variable (directory : WorkerDirectory)

def limitReached : String :=
  "Worker conversation limit reached; close an existing conversation first"

/-- A worker has too many runs with the requested ones. -/
def exceedsWorkerLimit (state : State) (requestedWorkerIds : List String) (workerId : String) :
    Bool :=
  (state.running.filter fun record => (state.records record).worker.id = workerId).length +
      state.activeOneShotsOf workerId +
        (requestedWorkerIds.filter fun candidate => candidate = workerId).length >
    directory.maxActiveConversationsPerWorker

def assertCanStartWorkerIds (state : State) (requestedWorkerIds : List String) :
    Except String Unit :=
  if state.running.length + state.activeOneShots + requestedWorkerIds.length >
      directory.maxActiveConversations then
    .error ("Worker conversation concurrency limit reached (" ++
      toString directory.maxActiveConversations ++ ")")
  else
    match requestedWorkerIds.eraseDups.find?
        (directory.exceedsWorkerLimit state requestedWorkerIds) with
    | some workerId =>
      .error ("Worker concurrency limit reached for " ++ workerId ++ " (" ++
        toString directory.maxActiveConversationsPerWorker ++ ")")
    | none => .ok ()

/-- Drops records from the front of a list until so many more fit. -/
def dropUntilFit (records : Nat → WorkerConversationRecord) (requiredSlots : Nat) :
    List Nat → InsertionMap String Nat → InsertionMap String Nat
  | [], conversations => conversations
  | record :: removable, conversations =>
    if conversations.entries.length + requiredSlots > directory.maxConversations then
      dropUntilFit records requiredSlots removable
        (conversations.erase (records record).conversationId)
    else conversations

/-- Makes room for some conversations. What was dropped stays dropped when that is not
enough. -/
def makeRoom (state : State) (requiredSlots : Nat) : State × Option String :=
  let conversations := directory.dropUntilFit state.records requiredSlots state.removable
    state.conversations
  ({ state with conversations := conversations },
    if conversations.entries.length + requiredSlots > directory.maxConversations then
      some limitReached
    else none)

def ensureConversationSlots (state : State) (requiredSlots : Nat) : State × Option String :=
  if requiredSlots > directory.maxConversations then (state, some limitReached)
  else directory.makeRoom state requiredSlots

/-- The bound of pruning is `size >= maxConversations`: room for one more. -/
def pruneConversations (state : State) : State × Option String :=
  if state.conversations.entries.length < directory.maxConversations then (state, none)
  else directory.makeRoom state 1

def newTurn (state : State) (record : Nat) (runs : Bool) : Turn where
  controller := state.controllers
  record := record
  conversationId := (state.records record).conversationId
  workerId := (state.records record).worker.id
  active := runs

/-- A turn begins on a record that is not running. Its run is started, unless `run` throws
first. -/
def beginTurn (state : State) (record : Nat) (startedAt : Rat) (runs : Bool) : State :=
  { state.modify record fun old =>
      { old with
        status := .running
        updatedAt := startedAt
        abortController := some state.controllers } with
    controllers := state.controllers + 1
    turns := state.turns ++ [newTurn state record runs] }

/-- The part of `executeConversationTurn` up to its first wait. -/
def executeConversationTurn (state : State) (record : Nat) (message : String) (startedAt : Rat)
    (runs : Bool) : State × Reply :=
  if trim message = "" then (state, .threw "Worker message is required")
  else if state.isRunning record then
    (state, .threw ("Worker conversation is already running: " ++
      (state.records record).conversationId))
  else (beginTurn state record startedAt runs, .pending)

/-- A request with what its call meets: what resolving its workspace answers, the id and
the times its conversation gets, and whether its run is started. -/
structure StartRequest where
  workerReference : String
  message : String
  speakerId : String := "aizen"
  workspace : Except String String
  conversationId : String
  now : Rat
  startedAt : Rat
  runs : Bool

def prepareRequest (request : StartRequest) :
    Except String (StartRequest × NamedWorkerDefinition) :=
  if trim request.message = "" then .error "Worker message is required"
  else
    match directory.resolveWorker request.workerReference with
    | .error error => .error error
    | .ok worker =>
      match request.workspace with
      | .error error => .error error
      | .ok _ => .ok (request, worker)

def prepareRequests :
    List StartRequest → Except String (List (StartRequest × NamedWorkerDefinition))
  | [] => .ok []
  | request :: requests =>
    match directory.prepareRequest request with
    | .error error => .error error
    | .ok first =>
      match prepareRequests requests with
      | .error error => .error error
      | .ok rest => .ok (first :: rest)

/-- The record of a new conversation. -/
def newRecord (request : StartRequest) (worker : NamedWorkerDefinition) :
    WorkerConversationRecord where
  conversationId := request.conversationId
  worker := worker
  speakerId := request.speakerId
  status := .result .completed
  updatedAt := request.now
  turnCount := 0
  abortController := none

def addRecord (state : State) (record : WorkerConversationRecord) : State :=
  { state with
    made := state.made + 1
    records := update state.records state.made record
    conversations := state.conversations.insert record.conversationId state.made }

def addRecords : List WorkerConversationRecord → State → State
  | [], state => state
  | record :: records, state => addRecords records (addRecord state record)

/-- Starts the first turns of records that were just made. -/
def beginTurns : List (StartRequest × NamedWorkerDefinition) → Nat → State → State
  | [], _, state => state
  | (request, _) :: prepared, record, state =>
    beginTurns prepared (record + 1)
      (executeConversationTurn state record request.message request.startedAt request.runs).1

def startConversations (state : State) (requests : List StartRequest) : State × Reply :=
  if requests = [] then (state, .threw "At least one worker conversation is required")
  else
    match directory.prepareRequests requests with
    | .error error => (state, .threw error)
    | .ok prepared =>
      match directory.assertCanStartWorkerIds state (prepared.map fun one => one.2.id) with
      | .error error => (state, .threw error)
      | .ok () =>
        match directory.ensureConversationSlots state prepared.length with
        | (state, some error) => (state, .threw error)
        | (state, none) =>
          let added := addRecords (prepared.map fun one => newRecord one.1 one.2) state
          let begun := beginTurns prepared state.made added
          ({ begun with
              starts := begun.starts ++
                [{ records := List.range' state.made prepared.length
                   turns := List.range' state.controllers prepared.length }] }, .pending)

def unknownConversation (conversationId : String) : Reply :=
  .threw ("Unknown worker conversation: " ++ conversationId)

def messageConversation (state : State) (conversationId message : String) (startedAt : Rat)
    (runs : Bool) : State × Reply :=
  match state.conversations.get? conversationId with
  | none => (state, unknownConversation conversationId)
  | some record =>
    if (state.records record).status = .closed then
      (state, .threw ("Worker conversation is closed: " ++ conversationId))
    else
      match directory.assertCanStartWorkerIds state [(state.records record).worker.id] with
      | .error error => (state, .threw error)
      | .ok () => executeConversationTurn state record message startedAt runs

/-- A turn to restore, with the status of its result. -/
structure RestoreTurn where
  conversationId : String
  workerId : String
  speakerId : String
  message : String
  status : NamedWorkerRunStatus
  updatedAt : Rat
  turnCount : Rat

/-- Writes a restored turn to its record. -/
def writeTurn (state : State) (record : Nat) (turn : RestoreTurn) : State :=
  state.modify record fun old =>
    { old with
      status := .result turn.status
      updatedAt := turn.updatedAt
      turnCount := turn.turnCount }

def restoredRecord (turn : RestoreTurn) (worker : NamedWorkerDefinition) :
    WorkerConversationRecord where
  conversationId := turn.conversationId
  worker := worker
  speakerId := turn.speakerId
  status := .result turn.status
  updatedAt := turn.updatedAt
  turnCount := 0
  abortController := none

def findOrAddRecord (state : State) (turn : RestoreTurn) (worker : NamedWorkerDefinition)
    (workspace : Except String String) : Except String (State × Nat) :=
  match state.conversations.get? turn.conversationId with
  | some record =>
    if (state.records record).worker.id ≠ worker.id ∨
        (state.records record).speakerId ≠ turn.speakerId then
      .error ("Restored worker conversation identity mismatch: " ++ turn.conversationId)
    else .ok (state, record)
  | none =>
    match workspace with
    | .error error => .error error
    | .ok _ => .ok (addRecord state (restoredRecord turn worker), state.made)

def restoreConversationTurn (state : State) (turn : RestoreTurn)
    (workspace : Except String String) : State × Reply :=
  if trim turn.conversationId = "" then
    (state, .threw "Restored worker conversation id is required")
  else if trim turn.message = "" then
    (state, .threw "Restored worker conversation message is required")
  else if ¬ turn.turnCount.isInt ∨ turn.turnCount ≤ 0 then
    (state, .threw "Restored worker conversation turn count must be a positive integer")
  else
    match directory.resolveWorker turn.workerId with
    | .error error => (state, .threw error)
    | .ok worker =>
      match findOrAddRecord state turn worker workspace with
      | .error error => (state, .threw error)
      | .ok (state, record) =>
        if turn.turnCount ≤ (state.records record).turnCount then
          (state, .snapshot (state.records record))
        else
          match directory.pruneConversations (writeTurn state record turn) with
          | (state, some error) => (state, .threw error)
          | (state, none) => (state, .snapshot (state.records record))

def abort (state : State) (controller : Option Nat) : State :=
  { state with aborted := controller.toList ++ state.aborted }

def cancelConversation (state : State) (conversationId : String) : State × Reply :=
  match state.conversations.get? conversationId with
  | none => (state, unknownConversation conversationId)
  | some record =>
    match (state.records record).status, (state.records record).abortController with
    | .running, some controller => (abort state (some controller), .cancelled true)
    | _, _ => (state, .cancelled false)

def closeConversation (state : State) (conversationId : String) (now : Rat) : State × Reply :=
  match state.conversations.get? conversationId with
  | none => (state, unknownConversation conversationId)
  | some record =>
    let state := (abort state (state.records record).abortController).modify record fun old =>
      { old with status := .closed, updatedAt := now }
    ({ state with conversations := state.conversations.erase conversationId },
      .snapshot (state.records record))

def closeAll (state : State) : State :=
  { state with
    aborted := state.oneShotControllers ++
      state.held.filterMap (fun record => (state.records record).abortController) ++ state.aborted
    conversations := empty }

def runOneShot (state : State) (workerReference task : String)
    (workspace : Except String String) (runs : Bool) : State × Reply :=
  if trim task = "" then (state, .threw "Worker task is required")
  else
    match directory.resolveWorker workerReference with
    | .error error => (state, .threw error)
    | .ok worker =>
      match workspace with
      | .error error => (state, .threw error)
      | .ok _ =>
        match directory.assertCanStartWorkerIds state [worker.id] with
        | .error error => (state, .threw error)
        | .ok () =>
          ({ state with
              controllers := state.controllers + 1
              oneShotControllers := state.oneShotControllers ++ [state.controllers]
              activeOneShotsByWorker := state.activeOneShotsByWorker.insert worker.id
                (state.activeOneShotsOf worker.id + 1)
              oneShots := state.oneShots ++
                [{ controller := state.controllers, workerId := worker.id, active := runs }] },
            .pending)

/-- The end of `runOneShot`, once its run has returned. -/
def endOneShot (state : State) (oneShot : OneShot) : State :=
  let remaining := (state.activeOneShotsByWorker.get? oneShot.workerId).getD 1 - 1
  { state with
    oneShotControllers := state.oneShotControllers.erase oneShot.controller
    activeOneShotsByWorker :=
      if remaining > 0 then state.activeOneShotsByWorker.insert oneShot.workerId remaining
      else state.activeOneShotsByWorker.erase oneShot.workerId
    oneShots := state.oneShots.erase oneShot }

def recordResult (state : State) (turn : Turn) (status : NamedWorkerRunStatus) (now : Rat) :
    State :=
  { state.modify turn.record fun old =>
      { old with
        status := .result status
        updatedAt := now
        turnCount := old.turnCount + 1
        abortController := none } with
    turns := state.turns.erase turn }

end WorkerDirectory

/-- What happens to a directory: calls, and the progress and the ends of what they
started. -/
inductive Event
  | runOneShot (workerReference task : String) (workspace : Except String String) (runs : Bool)
  | startConversations (requests : List WorkerDirectory.StartRequest)
  | messageConversation (conversationId message : String) (startedAt : Rat) (runs : Bool)
  | restoreConversationTurn (turn : WorkerDirectory.RestoreTurn)
      (workspace : Except String String)
  | cancelConversation (conversationId : String)
  | closeConversation (conversationId : String) (now : Rat)
  | closeAll
  | progress (turn : Turn) (now : Rat)
  | turnReturns (turn : Turn)
  | turnRecorded (turn : Turn) (status : NamedWorkerRunStatus) (now : Rat)
  | oneShotReturns (oneShot : OneShot)
  | oneShotEnds (oneShot : OneShot) (outcome : Except String Unit)
  | startReturns (call : StartCall)

open WorkerDirectory

/-- What an event does, when it can happen. -/
def step (directory : WorkerDirectory) (state : State) : Event → Option (State × Reply)
  | .runOneShot workerReference task workspace runs =>
    some (directory.runOneShot state workerReference task workspace runs)
  | .startConversations requests => some (directory.startConversations state requests)
  | .messageConversation conversationId message startedAt runs =>
    some (directory.messageConversation state conversationId message startedAt runs)
  | .restoreConversationTurn turn workspace =>
    some (directory.restoreConversationTurn state turn workspace)
  | .cancelConversation conversationId => some (cancelConversation state conversationId)
  | .closeConversation conversationId now => some (closeConversation state conversationId now)
  | .closeAll => some (closeAll state, .done)
  | .progress turn now =>
    if turn ∈ state.turns then
      some (state.modify turn.record fun old => { old with updatedAt := now }, .done)
    else none
  | .turnReturns turn =>
    if turn ∈ state.turns then
      some
        ({ state with
            turns := state.turns.map fun other =>
              if other = turn then { turn with active := false } else other }, .done)
    else none
  | .turnRecorded turn status now =>
    if turn ∈ state.turns ∧ turn.active = false then
      some (recordResult state turn status now, .done)
    else none
  | .oneShotReturns oneShot =>
    if oneShot ∈ state.oneShots then
      some
        ({ state with
            oneShots := state.oneShots.map fun other =>
              if other = oneShot then { oneShot with active := false } else other }, .done)
    else none
  | .oneShotEnds oneShot outcome =>
    if oneShot ∈ state.oneShots ∧ oneShot.active = false then
      some
        (endOneShot state oneShot,
          match outcome with
          | .error error => .threw error
          | .ok () => .done)
    else none
  | .startReturns call =>
    if call ∈ state.starts ∧ ∀ turn ∈ state.turns, turn.controller ∉ call.turns then
      some
        ({ state with starts := state.starts.erase call },
          .snapshots (call.records.map state.records))
    else none

end Recode.Delegation

import Recode.Agent.Agent
import Recode.Ai.ProviderErrors
import Recode.CodingAgent.Compaction

/-! # Sessions of an agent

A prompt runs the agent and, after each run, decides whether to go on: it retries an answer that
failed, compacts a context that is too long, or delivers messages that wait. The session waits
while the agent answers, between retries, and while a compaction is made. -/

namespace Recode.CodingAgent

open Recode

/-- The model of a session. -/
structure SessionModel where
  provider : String
  id : String
  contextWindow : Nat
deriving DecidableEq

structure RetrySettings where
  enabled : Bool
  maxRetries : Nat
  baseDelayMs : Nat
deriving DecidableEq

/-- What a session reads where it decides how to go on: its model, its settings, whether the
user compacts it at this moment, and whether the model of a compaction may be asked. -/
structure Surroundings where
  model : Option SessionModel
  retry : RetrySettings
  compaction : CompactionSettings
  compacting : Bool
  authorized : Bool
deriving DecidableEq

/-- The messages that are given to an agent: those of the user and those of extensions. -/
inductive PromptMessage where
  | user (content : InputContent) (timestamp : Nat)
  | custom (customType : String) (content : InputContent) (display : Bool)
      (details : Option Json) (timestamp : Nat)

def PromptMessage.toMessage : PromptMessage → AgentMessage
  | .user content timestamp => .user content timestamp
  | .custom customType content display details timestamp =>
    .custom customType content display details timestamp

/-- The result of a tool. -/
structure ToolResult where
  toolCallId : String
  toolName : String
  content : List InputBlock
  details : Option Json
  isError : Bool
  timestamp : Nat

def ToolResult.toMessage (result : ToolResult) : AgentMessage :=
  .toolResult result.toolCallId result.toolName result.content result.details result.isError
    result.timestamp

inductive CompactionReason where
  | overflow | threshold
deriving DecidableEq

/-- What a compaction reports. -/
structure CompactionReport where
  summary : String
  firstKeptEntryId : Option EntryId
  tokensBefore : Nat
  estimatedTokensAfter : Nat
  details : Option Json

/-- The events of a session that are about messages, retries and compactions. -/
inductive SessionEvent where
  | messageStart (message : AgentMessage)
  | messageEnd (message : AgentMessage)
  | autoRetryStart (attempt maxAttempts delayMs : Nat) (errorMessage : String)
  | autoRetryEnd (success : Bool) (attempt : Nat) (finalError : Option String)
  | compactionStart (reason : CompactionReason)
  | compactionEnd (reason : CompactionReason) (result : Option CompactionReport)
      (aborted willRetry : Bool) (errorMessage : Option String)
  | agentSettled

/-- What waits for a compaction check: the end of a run, or a prompt that is not yet given to the
agent. -/
inductive AfterCompaction where
  | postRun
  | prompt (first : PromptMessage) (rest : List PromptMessage)

/-- What a session is doing. -/
inductive SessionPhase where
  | idle
  /-- The agent runs. -/
  | running
  /-- A run has ended. -/
  | ended
  /-- A retry waits for its time to come. -/
  | backoff (message : AssistantMessage)
  | compacting (reason : CompactionReason) (willRetry : Bool)
      (preparation : CompactionPreparation) (next : AfterCompaction)
  /-- It was decided that the agent continues. -/
  | continuing

/-- A session: the transcript and the queues of its agent, its branch of entries, and what it
remembers of its runs. The events are those it has emitted, and `thrown` is the error of its last
prompt. -/
structure AgentSession where
  messages : List AgentMessage
  steering : List PromptMessage := []
  followUp : List PromptMessage := []
  steeringMode : Agent.QueueMode
  followUpMode : Agent.QueueMode
  branch : List SessionTreeEntry
  lastAssistantMessage : Option AssistantMessage := none
  retryAttempt : Nat := 0
  overflowRecoveryAttempted : Bool := false
  phase : SessionPhase := .idle
  thrown : Option String := none
  events : List SessionEvent := []

/-- Whether a transcript ends with an answer. -/
def endsInAnswer (messages : List AgentMessage) : Bool :=
  messages.getLast?.any AgentMessage.isAssistant

def dropAnswer (messages : List AgentMessage) : List AgentMessage :=
  if endsInAnswer messages then messages.dropLast else messages

def isFailedAnswer : AgentMessage → Bool
  | .assistant message => message.stopReason = .error
  | _ => false

def dropFailedAnswer (messages : List AgentMessage) : List AgentMessage :=
  if messages.getLast?.any isFailedAnswer then messages.dropLast else messages

def branchMessages (branch : List SessionTreeEntry) : List AgentMessage :=
  (contextEntriesOfPath branch).flatMap sessionEntryToContextMessages

def taken (mode : Agent.QueueMode) (queue : List PromptMessage) : List PromptMessage :=
  match mode with
  | .all => queue
  | .oneAtATime => queue.take 1

/-- What is left of a queue behind them. -/
def remaining (mode : Agent.QueueMode) (queue : List PromptMessage) : List PromptMessage :=
  match mode with
  | .all => []
  | .oneAtATime => queue.drop 1

/-- The entry that records a message. Other messages are recorded where they are made. -/
def recordedBody : AgentMessage → Option EntryBody
  | .custom customType content display details _ =>
    some (.customMessage customType content display details)
  | .user content timestamp => some (.message (.user content timestamp))
  | .assistant message => some (.message (.assistant message))
  | .toolResult toolCallId toolName content details isError timestamp =>
    some (.message (.toolResult toolCallId toolName content details isError timestamp))
  | _ => none

def continueError (messages : List AgentMessage) (queued : Bool) : Option String :=
  if messages.isEmpty then some "No messages to continue from"
  else if endsInAnswer messages && !queued then
    some "Cannot continue from message role: assistant"
  else none

def isRetryableError (model : Option SessionModel) (message : AssistantMessage) : Bool :=
  !Ai.isContextOverflow message ((model.map SessionModel.contextWindow).getD 0) &&
    Ai.isRetryableAssistantError message

def shouldCompact (contextTokens contextWindow : Nat) (settings : CompactionSettings) : Bool :=
  settings.enabled && contextWindow < contextTokens + settings.reserveTokens

/-- The tokens of a context, unless all that is known of them is older than a compaction. -/
def contextTokens (messages : List AgentMessage) (message : AssistantMessage)
    (compactedAt : Option Nat) : Option Nat :=
  let direct := calculateContextTokens message.usage
  if message.stopReason = .error ∨ direct = 0 then
    let estimate := estimateContextTokens messages
    estimate.lastUsageIndex.bind fun index =>
      match compactedAt, messages[index]? with
      | some time, some (.assistant usage) =>
        if usage.timestamp ≤ time then none else some estimate.tokens
      | _, _ => some estimate.tokens
  else some direct

/-- A context was still too long after it was compacted. -/
def recoveryFailed : String :=
  "Context overflow recovery failed after one compact-and-retry attempt. " ++
    "Try reducing context or switching to a larger-context model."

/-- What becomes of a compaction that has started. -/
inductive CompactionOutcome where
  /-- An extension cancels it. -/
  | cancelled
  /-- It is aborted when its summary is there. -/
  | aborted
  | failed (message : String) (aborted : Bool)
  /-- An extension provides it. -/
  | provided (summary : String) (firstKeptEntryId : Option EntryId) (tokensBefore : Nat)
      (details : Option Json)
  | generated (summary : String) (details : Option Json)

def compactionFailure (reason : CompactionReason) (message : String) : String :=
  match reason with
  | .overflow => "Context overflow recovery failed: " ++ message
  | .threshold => "Auto-compaction failed: " ++ message

namespace AgentSession

/-- A session whose agent has not run. -/
def create (messages : List AgentMessage) (branch : List SessionTreeEntry)
    (steeringMode followUpMode : Agent.QueueMode) : AgentSession where
  messages := messages
  steeringMode := steeringMode
  followUpMode := followUpMode
  branch := branch

def emit (session : AgentSession) (event : SessionEvent) : AgentSession :=
  { session with events := session.events ++ [event] }

def hasQueuedMessages (session : AgentSession) : Bool :=
  !session.steering.isEmpty || !session.followUp.isEmpty

def compactedAt (session : AgentSession) : Option Nat :=
  (newestCompaction session.branch).map fun found => found.1.timestamp

section Events

variable (generateId : List SessionTreeEntry → EntryId)

def appendEntry (session : AgentSession) (now : Nat) (body : EntryBody) : AgentSession :=
  { session with
    branch := session.branch ++
      [{ id := generateId session.branch
         parentId := session.branch.getLast?.map SessionTreeEntry.id
         timestamp := now
         body := body }] }

/-- A message starts. The user's let the session recover from an overflow again. -/
def messageStarted (session : AgentSession) (message : AgentMessage) : AgentSession :=
  { session.emit (.messageStart message) with
    overflowRecoveryAttempted := session.overflowRecoveryAttempted && !message.isUser }

/-- An answer has ended. Unless it failed, a retry was successful. -/
def answerEnded (session : AgentSession) (answer : AssistantMessage) : AgentSession :=
  let session := { session with
    lastAssistantMessage := some answer
    overflowRecoveryAttempted :=
      session.overflowRecoveryAttempted && answer.stopReason = .error }
  if answer.stopReason ≠ .error ∧ 0 < session.retryAttempt then
    { session.emit (.autoRetryEnd true session.retryAttempt none) with retryAttempt := 0 }
  else session

/-- A message has ended. The agent adds it to its transcript and the session to its branch. -/
def messageEnded (session : AgentSession) (now : Nat) (message : AgentMessage) : AgentSession :=
  let session := { session.emit (.messageEnd message) with
    messages := session.messages ++ [message] }
  let session :=
    match recordedBody message with
    | some body => session.appendEntry generateId now body
    | none => session
  match message with
  | .assistant answer => session.answerEnded answer
  | _ => session

def receive (now : Nat) (session : AgentSession) (message : AgentMessage) : AgentSession :=
  (session.messageStarted message).messageEnded generateId now message

def receiveAll (session : AgentSession) (now : Nat) (messages : List AgentMessage) : AgentSession :=
  messages.foldl (receive generateId now) session

/-! ## Runs -/

/-- Messages that were queued while the agent worked come before its next answer. -/
def injectSteering (session : AgentSession) (now : Nat) : AgentSession :=
  { session with steering := remaining session.steeringMode session.steering }.receiveAll
    generateId now ((taken session.steeringMode session.steering).map PromptMessage.toMessage)

/-- Messages that were queued for the end of the run start it again. -/
def injectFollowUp (session : AgentSession) (now : Nat) : AgentSession :=
  { session with followUp := remaining session.followUpMode session.followUp }.receiveAll
    generateId now ((taken session.followUpMode session.followUp).map PromptMessage.toMessage)

def runPromptMessages (session : AgentSession) (now : Nat) (messages : List PromptMessage)
    (skipInitialSteeringPoll : Bool) : AgentSession :=
  let session := session.receiveAll generateId now (messages.map PromptMessage.toMessage)
  let session :=
    if skipInitialSteeringPoll then session else session.injectSteering generateId now
  { session with phase := .running }

def runContinuation (session : AgentSession) (now : Nat) : AgentSession :=
  { session.injectSteering generateId now with phase := .running }

/-- A turn of the agent: its answer, the results of its tools, whether the run stops after the
turn, and whether the tools let the agent go on. -/
structure Turn where
  answer : AssistantMessage
  results : List ToolResult
  stops : Bool
  hasMoreToolCalls : Bool

def isToolCall : AssistantBlock → Bool
  | .toolCall _ _ _ => true
  | _ => false

/-- Tools have results when they were called, and only a turn with results may go on by itself. An
answer that failed or was aborted has none. -/
def Turn.isPossible (turn : Turn) : Bool :=
  if turn.answer.stopReason = .error ∨ turn.answer.stopReason = .aborted then
    turn.results.isEmpty && !turn.hasMoreToolCalls
  else
    (turn.results.isEmpty = !turn.answer.content.any isToolCall) &&
      (turn.hasMoreToolCalls → !turn.results.isEmpty)

/-- The end of a turn, which decides whether the run goes on. -/
def endTurn (session : AgentSession) (now : Nat) (turn : Turn) : AgentSession :=
  if turn.stops then { session with phase := .ended }
  else
    let steered := session.injectSteering generateId now
    if turn.hasMoreToolCalls ∨ taken session.steeringMode session.steering ≠ [] then
      { steered with phase := .running }
    else if taken steered.followUpMode steered.followUp ≠ [] then
      { steered.injectFollowUp generateId now with phase := .running }
    else { steered with phase := .ended }

/-- One iteration of the loop of a run. -/
def takeTurn (session : AgentSession) (now : Nat) (turn : Turn) : AgentSession :=
  let session := session.receive generateId now (.assistant turn.answer)
  if turn.answer.stopReason = .error ∨ turn.answer.stopReason = .aborted then
    { session with phase := .ended }
  else
    (session.receiveAll generateId now (turn.results.map ToolResult.toMessage)).endTurn generateId
      now turn

/-! ## After a run -/

def settle (session : AgentSession) (thrown : Option String) : AgentSession :=
  { session.emit .agentSettled with phase := .idle, thrown := thrown }

def proceed (session : AgentSession) (continues : Bool) : AgentSession :=
  if continues then { session with phase := .continuing } else session.settle none

def resume (session : AgentSession) (now : Nat) (next : AfterCompaction) (result : Bool) :
    AgentSession :=
  match next with
  | .postRun => session.proceed (result || session.hasQueuedMessages)
  | .prompt first rest => session.runPromptMessages generateId now (first :: rest) false

/-- `_runAutoCompaction` until it waits for the compaction. -/
def runAutoCompaction (session : AgentSession) (now : Nat) (surroundings : Surroundings)
    (reason : CompactionReason) (willRetry : Bool) (next : AfterCompaction) : AgentSession :=
  if surroundings.model.isNone ∨ !surroundings.authorized then
    session.resume generateId now next false
  else
    match prepareCompaction session.branch surroundings.compaction with
    | none => session.resume generateId now next false
    | some preparation =>
      { session.emit (.compactionStart reason) with
        phase := .compacting reason willRetry preparation next }

/-- `_checkCompaction`. Messages of another model, or older than the newest compaction, do not
tell that the context is too long now. -/
def checkCompaction (session : AgentSession) (now : Nat) (surroundings : Surroundings)
    (message : AssistantMessage) (skipAbortedCheck : Bool) (next : AfterCompaction) :
    AgentSession :=
  let contextWindow := (surroundings.model.map SessionModel.contextWindow).getD 0
  let sameModel := surroundings.model.any fun model =>
    message.provider = model.provider && message.model = model.id
  if surroundings.compacting ∨ !surroundings.compaction.enabled ∨
      (skipAbortedCheck ∧ message.stopReason = .aborted) ∨
      session.compactedAt.any fun time => message.timestamp ≤ time then
    session.resume generateId now next false
  else if sameModel && Ai.isContextOverflow message contextWindow then
    if message.stopReason = .stop then
      session.runAutoCompaction generateId now surroundings .overflow false next
    else if session.overflowRecoveryAttempted then
      (session.emit (.compactionEnd .overflow none false false (some recoveryFailed))).resume
        generateId now next false
    else
      { session with
        overflowRecoveryAttempted := true
        messages := dropAnswer session.messages }.runAutoCompaction generateId now surroundings
          .overflow true next
  else
    match contextTokens session.messages message session.compactedAt with
    | none => session.resume generateId now next false
    | some tokens =>
      if shouldCompact tokens contextWindow surroundings.compaction then
        session.runAutoCompaction generateId now surroundings .threshold false next
      else session.resume generateId now next false

/-- `_prepareRetry` until it sleeps, unless there is no retry. -/
def prepareRetry (session : AgentSession) (settings : RetrySettings)
    (message : AssistantMessage) : Option AgentSession :=
  if settings.enabled ∧ session.retryAttempt + 1 ≤ settings.maxRetries then
    some
      { session.emit (.autoRetryStart (session.retryAttempt + 1) settings.maxRetries
          (settings.baseDelayMs * 2 ^ session.retryAttempt)
          ((Text.truthy message.errorMessage).getD "Unknown error")) with
        retryAttempt := session.retryAttempt + 1
        messages := dropAnswer session.messages
        phase := .backoff message }
  else none

def giveUpRetrying (session : AgentSession) (message : AssistantMessage) : AgentSession :=
  if message.stopReason = .error ∧ 0 < session.retryAttempt then
    { session.emit (.autoRetryEnd false session.retryAttempt message.errorMessage) with
      retryAttempt := 0 }
  else session

def withoutRetry (session : AgentSession) (now : Nat) (surroundings : Surroundings)
    (message : AssistantMessage) : AgentSession :=
  (session.giveUpRetrying message).checkCompaction generateId now surroundings message true
    .postRun

/-- `_handlePostAgentRun` until it waits or returns. -/
def handlePostAgentRun (session : AgentSession) (now : Nat) (surroundings : Surroundings) :
    AgentSession :=
  match session.lastAssistantMessage with
  | none => session.proceed false
  | some message =>
    let session := { session with lastAssistantMessage := none }
    if isRetryableError surroundings.model message then
      (session.prepareRetry surroundings.retry message).getD
        (session.withoutRetry generateId now surroundings message)
    else session.withoutRetry generateId now surroundings message

/-- The end of the wait before a retry, which the user may abort. -/
def slept (session : AgentSession) (now : Nat) (surroundings : Surroundings)
    (message : AssistantMessage) (aborted : Bool) : AgentSession :=
  if aborted then
    { session.emit (.autoRetryEnd false session.retryAttempt (some "Retry cancelled")) with
      retryAttempt := 0 }.withoutRetry generateId now surroundings message
  else session.proceed true

/-- A compaction is recorded and the transcript is built again from the branch. -/
def recordCompaction (session : AgentSession) (now : Nat) (reason : CompactionReason)
    (willRetry : Bool) (next : AfterCompaction) (data : CompactionData) : AgentSession :=
  let session := session.appendEntry generateId now (.compaction data)
  let messages := branchMessages session.branch
  let session := { session with messages := messages }.emit (.compactionEnd reason
    (some ⟨data.summary, data.firstKeptEntryId, data.tokensBefore,
      (messages.map estimateTokens).sum, data.details⟩) false willRetry none)
  if willRetry then
    { session with messages := dropFailedAnswer messages }.resume generateId now next true
  else session.resume generateId now next session.hasQueuedMessages

/-- `_runAutoCompaction` when its compaction was made, or was not. -/
def compacted (session : AgentSession) (now : Nat) (reason : CompactionReason)
    (willRetry : Bool) (preparation : CompactionPreparation) (next : AfterCompaction)
    (outcome : CompactionOutcome) : AgentSession :=
  match outcome with
  | .cancelled =>
    (session.emit (.compactionEnd reason none true false none)).resume generateId now next false
  | .aborted =>
    (session.emit (.compactionEnd reason none true false none)).resume generateId now next false
  | .failed message aborted =>
    (session.emit (.compactionEnd reason none aborted false
      (if aborted then none else some (compactionFailure reason message)))).resume generateId
        now next false
  | .provided summary firstKeptEntryId tokensBefore details =>
    session.recordCompaction generateId now reason willRetry next
      ⟨summary, firstKeptEntryId, tokensBefore, none, details, none, some true⟩
  | .generated summary details =>
    session.recordCompaction generateId now reason willRetry next
      ⟨summary, some preparation.firstKeptEntryId, preparation.tokensBefore, none, details,
        none, some false⟩

def continueRun (session : AgentSession) (now : Nat) : AgentSession :=
  match continueError session.messages session.hasQueuedMessages with
  | some error => session.settle (some error)
  | none =>
    if endsInAnswer session.messages then
      if session.steering ≠ [] then
        { session with
          steering := remaining session.steeringMode session.steering }.runPromptMessages
            generateId now (taken session.steeringMode session.steering) true
      else
        { session with
          followUp := remaining session.followUpMode session.followUp }.runPromptMessages
            generateId now (taken session.followUpMode session.followUp) false
    else session.runContinuation generateId now

/-! ## Steps -/

/-- What happens to a session. -/
inductive Input where
  | steer (message : PromptMessage)
  | followUp (message : PromptMessage)
  | clearQueue
  /-- The user's prompt, with the messages that extensions add to it. -/
  | prompt (now : Nat) (content : InputContent) (others : List PromptMessage)
      (surroundings : Surroundings)
  /-- A message of an extension that triggers a turn. -/
  | triggerTurn (now : Nat) (message : PromptMessage)
  | turn (now : Nat) (turn : Turn)
  | postRun (now : Nat) (surroundings : Surroundings)
  | slept (now : Nat) (surroundings : Surroundings) (aborted : Bool)
  | compacted (now : Nat) (outcome : CompactionOutcome)
  | continueRun (now : Nat)

/-- The newest answer of a transcript. -/
def findLastAssistantMessage (messages : List AgentMessage) : Option AssistantMessage :=
  messages.reverse.findSome? fun
    | .assistant message => some message
    | _ => none

/-- A prompt checks first whether the context is too long. -/
def startPrompt (session : AgentSession) (now : Nat) (content : InputContent)
    (others : List PromptMessage) (surroundings : Surroundings) : AgentSession :=
  match findLastAssistantMessage session.messages with
  | none => session.runPromptMessages generateId now (.user content now :: others) false
  | some message =>
    session.checkCompaction generateId now surroundings message false
      (.prompt (.user content now) others)

/-- One step of a session. Queues are not cleared between the decision to continue and the
continuation, which nothing separates. -/
def step (session : AgentSession) (input : Input) : Option AgentSession :=
  match input, session.phase with
  | .steer message, _ => some { session with steering := session.steering ++ [message] }
  | .followUp message, _ => some { session with followUp := session.followUp ++ [message] }
  | .clearQueue, .continuing => none
  | .clearQueue, _ => some { session with steering := [], followUp := [] }
  | .prompt now content others surroundings, .idle =>
    if surroundings.compacting ∨ surroundings.model.isNone then none
    else some (session.startPrompt generateId now content others surroundings)
  | .triggerTurn now message, .idle =>
    some (session.runPromptMessages generateId now [message] false)
  | .turn now turn, .running =>
    if turn.isPossible then some (session.takeTurn generateId now turn) else none
  | .postRun now surroundings, .ended =>
    some (session.handlePostAgentRun generateId now surroundings)
  | .slept now surroundings aborted, .backoff message =>
    some (session.slept generateId now surroundings message aborted)
  | .compacted now outcome, .compacting reason willRetry preparation next =>
    some (session.compacted generateId now reason willRetry preparation next outcome)
  | .continueRun now, .continuing => some (session.continueRun generateId now)
  | _, _ => none

/-- A session after inputs, if all of them can happen. -/
def run (session : AgentSession) (inputs : List Input) : Option AgentSession :=
  inputs.foldlM (step generateId) session

end Events

end AgentSession

end Recode.CodingAgent

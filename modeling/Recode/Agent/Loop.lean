import Recode.Lib.Procedure
import Recode.Message

/-! # The agent loop

A run of the loop injects messages, asks the provider, executes tools and polls
the queues of its host until nothing is left to do. Everything it waits for is a
procedure of the host; a host that is given no more answers suspends the run. -/

namespace Recode.Agent

/-- How a procedure ends that does not return: an error, or it still waits. -/
inductive Stop where
  | thrown (error : String)
  | suspended
deriving DecidableEq

/-- The queues of an agent. -/
inductive QueueName where
  | steering | followUp | nextTurn
deriving DecidableEq

/-- A message object. One that was queued is known by its queue and its place in all that was ever
queued there. -/
structure MessageObject where
  message : AgentMessage
  origin : Option (QueueName × Nat) := none

/-- A call of a tool. -/
structure AgentToolCall where
  id : String
  name : String
  arguments : List (String × Json)

/-- Whether tools run one after the other. -/
inductive ToolExecutionMode where
  | sequential | parallel
deriving DecidableEq

/-- A tool, as far as the loop looks at it. -/
structure AgentTool where
  name : String
  executionMode : Option ToolExecutionMode

/-- What a tool returns. -/
structure AgentToolResult where
  content : Option (List InputBlock)
  details : Option Json
  terminate : Bool
  usage : Option Usage := none

/-- The events of a run. -/
inductive AgentEvent where
  | agentStart
  | agentEnd (messages : List MessageObject)
  | followUpStart
  | turnStart
  | turnEnd (message : MessageObject) (toolResults : List MessageObject)
  | messageStart (message : MessageObject)
  | messageUpdate (message : MessageObject)
  | messageEnd (message : MessageObject)
  | toolExecutionStart (toolCall : AgentToolCall)
  | toolExecutionUpdate (toolCall : AgentToolCall) (partialResult : AgentToolResult)
  | toolExecutionEnd (toolCall : AgentToolCall) (result : Option AgentToolResult) (isError : Bool)

/-- The model that is asked. -/
structure LoopModel where
  api : String
  provider : String
  id : String
deriving DecidableEq

/-- The context of a run. -/
structure AgentContext where
  messages : List MessageObject
  tools : List AgentTool

/-- What replaces the context and the model before the next turn. -/
structure AgentLoopTurnUpdate where
  context : Option AgentContext
  model : Option LoopModel

/-- What the hooks after a turn are shown. -/
structure TurnContext where
  message : MessageObject
  toolResults : List MessageObject
  context : AgentContext
  newMessages : List MessageObject

/-- The events of a provider's stream. -/
inductive AssistantMessageEvent where
  | start (partialMessage : AssistantMessage)
  | update (partialMessage : AssistantMessage)
  | terminal

def AssistantMessageEvent.isStart : AssistantMessageEvent → Bool
  | .start _ => true
  | _ => false

/-- The answer of the hook before a tool is executed. -/
structure BeforeToolCallResult where
  block : Bool
  reason : Option String
  terminate : Bool

/-- The answer of the hook after a tool was executed. -/
structure AfterToolCallResult where
  content : Option (List InputBlock)
  details : Option Json
  isError : Option Bool
  terminate : Option Bool
  usage : Option Usage

/-- What one of the running tools does: it reports, or it returns something or throws. -/
inductive ToolStep where
  | update (index : Nat) (partialResult : AgentToolResult)
  | ended (index : Nat) (execution : Except String (Option AgentToolResult))

/-- What the loop needs of its host. A hook that is not set returns at once. -/
structure AgentLoopConfig (Host : Type) where
  emit : AgentEvent → Procedure Host Stop Unit
  getSteeringMessages : Procedure Host Stop (List MessageObject)
  getFollowUpMessages : Procedure Host Stop (List MessageObject)
  prepareNextTurn : TurnContext → Procedure Host Stop (Option AgentLoopTurnUpdate)
  shouldStopAfterTurn : TurnContext → Procedure Host Stop Bool
  transformContext : List MessageObject → Procedure Host Stop (List MessageObject)
  convertToLlm : List MessageObject → Procedure Host Stop (List MessageObject)
  getApiKey : LoopModel → Procedure Host Stop Unit
  streamFunction : LoopModel → List MessageObject → Procedure Host Stop Unit
  nextStreamEvent : Procedure Host Stop (Option AssistantMessageEvent)
  streamResult : Procedure Host Stop AssistantMessage
  validateToolArguments : AgentTool → AgentToolCall → Except String Unit
  beforeToolCall : AgentToolCall → Procedure Host Stop (Except String (Option BeforeToolCallResult))
  nextToolStep : List (Nat × AgentToolCall) → Procedure Host Stop ToolStep
  afterToolCall : AgentToolCall → Option AgentToolResult → Bool →
    Procedure Host Stop (Except String (Option AfterToolCallResult))
  aborted : Procedure Host Stop Bool
  now : Procedure Host Stop Nat
  maxIterations : Option Int
  toolExecution : ToolExecutionMode

/-- The provider calls a run may make when its host says nothing. -/
def defaultAgentMaxIterations : Int := 500

def maxSafeInteger : Int := 9007199254740991

/-- A run: its host, its context, the messages it added, its model and the provider calls it has
made. The messages added to the contexts are kept apart from what the contexts held before. -/
structure Loop (Host : Type) where
  host : Host
  context : AgentContext
  newMessages : List MessageObject
  model : LoopModel
  usedTotal : Nat := 0
  appended : List MessageObject := []

/-- A procedure of the loop. -/
abbrev LoopM (Host Result : Type) := Procedure (Loop Host) Stop Result

namespace Loop

variable {Host Result : Type}

def onHost (procedure : Procedure Host Stop Result) : LoopM Host Result := do
  let loop ← get
  match procedure.perform loop.host with
  | (result, host) =>
    set { loop with host := host }
    Procedure.check result

def pushContext (message : MessageObject) : LoopM Host Unit :=
  modify fun loop => { loop with
    context := { loop.context with messages := loop.context.messages ++ [message] }
    appended := loop.appended ++ [message] }

def replaceLast (message : MessageObject) : LoopM Host Unit :=
  modify fun loop => { loop with
    context := { loop.context with messages := loop.context.messages.dropLast ++ [message] }
    appended := loop.appended.dropLast ++ [message] }

/-- Add a message to those the run returns. -/
def pushNew (message : MessageObject) : LoopM Host Unit :=
  modify fun loop => { loop with newMessages := loop.newMessages ++ [message] }

section Loop

variable (config : AgentLoopConfig Host)

def emit (event : AgentEvent) : LoopM Host Unit := onHost (config.emit event)

/-- Take one provider call from the budget. -/
def consume (maxTotal : Nat) : LoopM Host Bool := do
  let loop ← get
  if maxTotal ≤ loop.usedTotal then return false
  else
    set { loop with usedTotal := loop.usedTotal + 1 }
    return true

def emitMessage (message : MessageObject) : LoopM Host Unit := do
  emit config (.messageStart message)
  emit config (.messageEnd message)

/-- The final message takes the place of the partial one. If there was none it starts now. -/
def placeFinal (started : Bool) (final : MessageObject) : LoopM Host Unit :=
  if started then replaceLast final
  else do
    pushContext final
    emit config (.messageStart final)

def finishStream (started : Bool) : LoopM Host AssistantMessage := do
  let final ← onHost config.streamResult
  placeFinal config started ⟨.assistant final, none⟩
  emit config (.messageEnd ⟨.assistant final, none⟩)
  return final

/-- The first partial message is added to the context, later ones and the final one replace it. -/
def readStream : Nat → Option AssistantMessage → LoopM Host AssistantMessage
  | 0, _ => throw .suspended
  | fuel + 1, partialMessage => do
    match ← onHost config.nextStreamEvent with
    | some (.start message) =>
      pushContext ⟨.assistant message, none⟩
      emit config (.messageStart ⟨.assistant message, none⟩)
      readStream fuel (some message)
    | some (.update message) =>
      if partialMessage.isSome then
        replaceLast ⟨.assistant message, none⟩
        emit config (.messageUpdate ⟨.assistant message, none⟩)
        readStream fuel (some message)
      else readStream fuel none
    | _ => finishStream config partialMessage.isSome

/-- Ask the provider and stream its answer. -/
def streamAssistantResponse (fuel : Nat) : LoopM Host AssistantMessage := do
  let loop ← get
  let messages ← onHost (config.transformContext loop.context.messages)
  let llmMessages ← onHost (config.convertToLlm messages)
  onHost (config.getApiKey loop.model)
  onHost (config.streamFunction loop.model llmMessages)
  readStream config fuel none

/-! ## Tools -/

def createErrorToolResult (message : String) : AgentToolResult where
  content := some [.text message none]
  details := some (.obj [])
  terminate := false

/-- A tool call with its result. A tool that is not typed may return nothing. -/
structure FinalizedToolCallOutcome where
  toolCall : AgentToolCall
  result : Option AgentToolResult
  isError : Bool

/-- A tool call that may be executed, or whose result is known already. -/
inductive PreparedToolCall where
  | immediate (result : AgentToolResult) (isError : Bool)
  | prepared

def shouldTerminateToolBatch (finalizedCalls : List FinalizedToolCallOutcome) : Bool :=
  !finalizedCalls.isEmpty &&
    finalizedCalls.all fun finalized => finalized.result.any fun result => result.terminate

def prepareToolCall (toolCall : AgentToolCall) : LoopM Host PreparedToolCall := do
  let loop ← get
  match loop.context.tools.find? fun tool => tool.name = toolCall.name with
  | none => return .immediate (createErrorToolResult s!"Tool {toolCall.name} not found") true
  | some tool =>
    match config.validateToolArguments tool toolCall with
    | .error message => return .immediate (createErrorToolResult message) true
    | .ok _ =>
      match ← onHost (config.beforeToolCall toolCall) with
      | .error message => return .immediate (createErrorToolResult message) true
      | .ok beforeResult =>
        if ← onHost config.aborted then
          return .immediate (createErrorToolResult "Operation aborted") true
        else
          match beforeResult with
          | some ⟨true, reason, terminate⟩ =>
            return .immediate { createErrorToolResult
              ((Text.truthy reason).getD "Tool execution was blocked") with
              terminate := terminate } true
          | _ => return .prepared

/-- The field that an override reads of a result, when the result is missing. -/
def missingField (after : AfterToolCallResult) : Option String :=
  if after.content.isNone then some "content"
  else if after.details.isNone then some "details"
  else if after.terminate.isNone then some "terminate"
  else if after.usage.isNone then some "usage"
  else none

def readOfUndefined (field : String) : String :=
  s!"Cannot read properties of undefined (reading '{field}')"

def finalizeExecutedToolCall (toolCall : AgentToolCall) (result : Option AgentToolResult)
    (isError : Bool) : LoopM Host FinalizedToolCallOutcome := do
  match ← onHost (config.afterToolCall toolCall result isError) with
  | .error message => return ⟨toolCall, some (createErrorToolResult message), true⟩
  | .ok none => return ⟨toolCall, result, isError⟩
  | .ok (some after) =>
    match result, missingField after with
    | none, some field =>
      return ⟨toolCall, some (createErrorToolResult (readOfUndefined field)), true⟩
    | _, _ =>
      return ⟨toolCall, some
        { content := after.content.or (result.bind AgentToolResult.content)
          details := after.details.or (result.bind AgentToolResult.details)
          terminate := after.terminate.getD (result.any AgentToolResult.terminate)
          usage := after.usage.or (result.bind AgentToolResult.usage) },
        after.isError.getD isError⟩

def executedResult : Except String (Option AgentToolResult) → Option AgentToolResult × Bool
  | .ok result => (result, false)
  | .error message => (some (createErrorToolResult message), true)

/-- Let the tools that are running go on until all have ended. Each is told of the hook after it
and its end is emitted when it comes. -/
def runTools : Nat → List (Nat × AgentToolCall) → List (Nat × FinalizedToolCallOutcome) →
    LoopM Host (List (Nat × FinalizedToolCallOutcome))
  | _, [], finalized => return finalized
  | 0, _ :: _, _ => throw .suspended
  | fuel + 1, first :: others, finalized => do
    match ← onHost (config.nextToolStep (first :: others)) with
    | .update index partialResult =>
      match (first :: others).find? fun entry => entry.1 = index with
      | none => throw .suspended
      | some (_, toolCall) =>
        emit config (.toolExecutionUpdate toolCall partialResult)
        runTools fuel (first :: others) finalized
    | .ended index execution =>
      match (first :: others).find? fun entry => entry.1 = index with
      | none => throw .suspended
      | some (_, toolCall) =>
        let (result, isError) := executedResult execution
        let outcome ← finalizeExecutedToolCall config toolCall result isError
        emit config (.toolExecutionEnd toolCall outcome.result outcome.isError)
        runTools fuel ((first :: others).filter fun entry => entry.1 ≠ index)
          (finalized ++ [(index, outcome)])

def createToolResultMessage (finalized : FinalizedToolCallOutcome) : LoopM Host MessageObject := do
  match finalized.result with
  | none => throw (.thrown (readOfUndefined "content"))
  | some result =>
    let timestamp ← onHost config.now
    return ⟨.toolResult finalized.toolCall.id finalized.toolCall.name (result.content.getD [])
      result.details finalized.isError timestamp, none⟩

def emitToolResults : List FinalizedToolCallOutcome → LoopM Host (List MessageObject)
  | [] => return []
  | finalized :: rest => do
    let message ← createToolResultMessage config finalized
    emitMessage config message
    return message :: (← emitToolResults rest)

def failToolCallsFromTruncatedMessage : List AgentToolCall → LoopM Host (List MessageObject)
  | [] => return []
  | toolCall :: rest => do
    emit config (.toolExecutionStart toolCall)
    let result := createErrorToolResult (s!"Tool call \"{toolCall.name}\" was not executed: " ++
      "the response hit the output token limit, so its arguments may be truncated. " ++
      "Re-issue the tool call with complete arguments.")
    emit config (.toolExecutionEnd toolCall (some result) true)
    let message ← createToolResultMessage config ⟨toolCall, some result, true⟩
    emitMessage config message
    return message :: (← failToolCallsFromTruncatedMessage rest)

def executeToolCall (fuel : Nat) (toolCall : AgentToolCall) :
    LoopM Host FinalizedToolCallOutcome := do
  emit config (.toolExecutionStart toolCall)
  match ← prepareToolCall config toolCall with
  | .immediate result isError =>
    emit config (.toolExecutionEnd toolCall (some result) isError)
    return ⟨toolCall, some result, isError⟩
  | .prepared =>
    match ← runTools config fuel [(0, toolCall)] [] with
    | (_, outcome) :: _ => return outcome
    | [] => throw .suspended

def executeToolCallsSequential (fuel : Nat) : List AgentToolCall →
    LoopM Host (List FinalizedToolCallOutcome × List MessageObject)
  | [] => return ([], [])
  | toolCall :: rest => do
    let outcome ← executeToolCall config fuel toolCall
    let message ← createToolResultMessage config outcome
    emitMessage config message
    if ← onHost config.aborted then return ([outcome], [message])
    else
      let (outcomes, messages) ← executeToolCallsSequential fuel rest
      return (outcome :: outcomes, message :: messages)

/-- The calls of a batch are prepared one after the other. Those whose results are known end at
once, the others are left running. -/
def prepareToolCalls : Nat → List AgentToolCall →
    LoopM Host (List (Nat × AgentToolCall) × List (Nat × FinalizedToolCallOutcome))
  | _, [] => return ([], [])
  | index, toolCall :: rest => do
    emit config (.toolExecutionStart toolCall)
    match ← prepareToolCall config toolCall with
    | .immediate result isError =>
      emit config (.toolExecutionEnd toolCall (some result) isError)
      let outcome := (index, ⟨toolCall, some result, isError⟩)
      if ← onHost config.aborted then return ([], [outcome])
      else
        let (running, finalized) ← prepareToolCalls (index + 1) rest
        return (running, outcome :: finalized)
    | .prepared =>
      if ← onHost config.aborted then return ([(index, toolCall)], [])
      else
        let (running, finalized) ← prepareToolCalls (index + 1) rest
        return ((index, toolCall) :: running, finalized)

def ordered (finalized : List (Nat × FinalizedToolCallOutcome)) : List FinalizedToolCallOutcome :=
  (finalized.mergeSort fun first second => first.1 ≤ second.1).map Prod.snd

def executeToolCallsParallel (fuel : Nat) (toolCalls : List AgentToolCall) :
    LoopM Host (List FinalizedToolCallOutcome × List MessageObject) := do
  let (running, known) ← prepareToolCalls config 0 toolCalls
  let finalized ← runTools config fuel running known
  let outcomes := ordered finalized
  return (outcomes, ← emitToolResults config outcomes)

/-- Some tool of a batch must run by itself. -/
def hasSequentialToolCall (tools : List AgentTool) (toolCalls : List AgentToolCall) : Bool :=
  toolCalls.any fun toolCall =>
    (tools.find? fun tool => tool.name = toolCall.name).any fun tool =>
      tool.executionMode = some .sequential

def executeToolCalls (fuel : Nat) (toolCalls : List AgentToolCall) :
    LoopM Host (List FinalizedToolCallOutcome × List MessageObject) := do
  let loop ← get
  if config.toolExecution = .sequential ∨
      hasSequentialToolCall loop.context.tools toolCalls = true then
    executeToolCallsSequential config fuel toolCalls
  else executeToolCallsParallel config fuel toolCalls

/-! ## Turns -/

def toolCallsOf (message : AssistantMessage) : List AgentToolCall :=
  message.content.filterMap fun
    | .toolCall id name arguments => some ⟨id, name, arguments⟩
    | _ => none

/-- The message of a run that may not ask the provider again. -/
def budgetMessage (model : LoopModel) (maxTotal timestamp : Nat) : AssistantMessage where
  content := [.text "" none]
  api := model.api
  provider := model.provider
  model := model.id
  usage := ⟨0, 0, 0, 0, none, none, 0, ⟨0, 0, 0, 0, 0⟩⟩
  stopReason := .error
  errorMessage := some s!"Agent iteration budget exhausted after {maxTotal} provider calls"
  timestamp := timestamp

/-- Messages that are injected enter the transcript of the host and the context of the run. -/
def inject : List MessageObject → LoopM Host Unit
  | [] => return
  | message :: rest => do
    emitMessage config message
    pushContext message
    pushNew message
    inject rest

/-- The last event of a run. -/
def emitAgentEnd : LoopM Host Unit := do
  let loop ← get
  emit config (.agentEnd loop.newMessages)

/-- The results of a batch, and whether all of them ask to stop. -/
def executeBatch (fuel : Nat) (stopReason : StopReason) (toolCalls : List AgentToolCall) :
    LoopM Host (List MessageObject × Bool) := do
  if stopReason = .length then
    return (← failToolCallsFromTruncatedMessage config toolCalls, false)
  else
    let (outcomes, messages) ← executeToolCalls config fuel toolCalls
    return (messages, shouldTerminateToolBatch outcomes)

def pushResults : List MessageObject → LoopM Host Unit
  | [] => return
  | result :: rest => do
    pushContext result
    pushNew result
    pushResults rest

/-- The tools of a turn, and whether the provider has to be shown their results. -/
def executeTurnTools (fuel : Nat) (message : AssistantMessage) :
    LoopM Host (List MessageObject × Bool) := do
  if (toolCallsOf message).isEmpty then return ([], false)
  else
    let (results, terminate) ← executeBatch config fuel message.stopReason (toolCallsOf message)
    pushResults results
    return (results, !terminate)

def applyUpdate (update : Option AgentLoopTurnUpdate) : LoopM Host Unit :=
  modify fun loop => { loop with
    context := (update.bind AgentLoopTurnUpdate.context).getD loop.context
    model := (update.bind AgentLoopTurnUpdate.model).getD loop.model }

def turnContext (message : MessageObject) (toolResults : List MessageObject) :
    LoopM Host TurnContext := do
  let loop ← get
  return ⟨message, toolResults, loop.context, loop.newMessages⟩

/-- A turn of a run that may not ask the provider again. -/
def exhaustBudget (maxTotal : Nat) : LoopM Host Unit := do
  let loop ← get
  let timestamp ← onHost config.now
  let message : MessageObject := ⟨.assistant (budgetMessage loop.model maxTotal timestamp), none⟩
  pushContext message
  pushNew message
  emitMessage config message
  emit config (.turnEnd message [])
  emitAgentEnd config

/-- The end of a turn, and the hooks after it. They say whether the run goes on. -/
def finishTurn (message : MessageObject) (toolResults : List MessageObject) : LoopM Host Bool := do
  emit config (.turnEnd message toolResults)
  let shown ← turnContext message toolResults
  let update ← onHost (config.prepareNextTurn shown)
  applyUpdate update
  let shown ← turnContext message toolResults
  if ← onHost (config.shouldStopAfterTurn shown) then
    emitAgentEnd config
    return false
  else return true

/-- One turn after its messages were injected. It says whether the run goes on, and if so whether
the provider has to be shown results of tools. -/
def runTurn (fuel maxTotal : Nat) : LoopM Host (Option Bool) := do
  if ← consume maxTotal then
    let answer ← streamAssistantResponse config fuel
    pushNew ⟨.assistant answer, none⟩
    if answer.stopReason = .error ∨ answer.stopReason = .aborted then
      emit config (.turnEnd ⟨.assistant answer, none⟩ [])
      emitAgentEnd config
      return none
    else
      let (toolResults, hasMoreToolCalls) ← executeTurnTools config fuel answer
      if ← finishTurn config ⟨.assistant answer, none⟩ toolResults then
        return some hasMoreToolCalls
      else return none
  else
    exhaustBudget config maxTotal
    return none

/-- A run begins with its first turn open. -/
def startTurn (firstTurn : Bool) : LoopM Host Unit :=
  if firstTurn then pure () else emit config .turnStart

/-- The turns of a run, until neither tools nor queued messages are left. -/
def runTurns (maxTotal : Nat) : Nat → Bool → Bool → List MessageObject → LoopM Host Unit
  | 0, _, _, _ => throw .suspended
  | fuel + 1, firstTurn, hasMoreToolCalls, pendingMessages => do
    if hasMoreToolCalls || !pendingMessages.isEmpty then
      startTurn config firstTurn
      inject config pendingMessages
      match ← runTurn config fuel maxTotal with
      | none => return
      | some hasMoreToolCalls =>
        let pendingMessages ← onHost config.getSteeringMessages
        runTurns maxTotal fuel false hasMoreToolCalls pendingMessages
    else
      let followUpMessages ← onHost config.getFollowUpMessages
      if followUpMessages.isEmpty then emitAgentEnd config
      else
        emit config .followUpStart
        runTurns maxTotal fuel firstTurn true followUpMessages

/-- `runLoop`. The budget is a positive integer that a number can hold exactly. -/
def runLoop (fuel : Nat) : LoopM Host Unit := do
  let maxTotal := config.maxIterations.getD defaultAgentMaxIterations
  if maxTotal < 1 ∨ maxSafeInteger < maxTotal then
    throw (.thrown "maxTotal must be a positive safe integer")
  else
    let pendingMessages ← onHost config.getSteeringMessages
    runTurns config maxTotal.toNat fuel true true pendingMessages

def emitPrompts : List MessageObject → LoopM Host Unit
  | [] => return
  | prompt :: rest => do
    emitMessage config prompt
    emitPrompts rest

def runAgentLoop (fuel : Nat) (prompts : List MessageObject) : LoopM Host Unit := do
  emit config .agentStart
  emit config .turnStart
  emitPrompts config prompts
  runLoop config fuel

def runAgentLoopContinue (fuel : Nat) : LoopM Host Unit := do
  let loop ← get
  match loop.context.messages.getLast? with
  | none => throw (.thrown "Cannot continue: no messages in context")
  | some last =>
    if last.message.isAssistant then
      throw (.thrown "Cannot continue from message role: assistant")
    else
      emit config .agentStart
      emit config .turnStart
      runLoop config fuel

end Loop

def withPrompts (host : Host) (context : AgentContext) (model : LoopModel)
    (prompts : List MessageObject) : Loop Host where
  host := host
  context := { context with messages := context.messages ++ prompts }
  newMessages := prompts
  model := model
  appended := prompts

def continuing (host : Host) (context : AgentContext) (model : LoopModel) : Loop Host where
  host := host
  context := context
  newMessages := []
  model := model

end Loop

end Recode.Agent

import Recode.Agent.Loop

/-! # Agents

An agent keeps a transcript and two queues, and hosts runs of the loop. Wherever
a run waits the rest of the program may call the agent, and the run goes on when
what it waits for is answered. A ledger tells what became of every message that
was queued; the agent does not read it. -/

namespace Recode
namespace Agent

/-- How much of a queue is taken at once. -/
inductive QueueMode where
  | all | oneAtATime
deriving DecidableEq

/-- Messages that wait for a run to take them. -/
structure PendingMessageQueue where
  messages : List MessageObject := []
  mode : QueueMode

namespace PendingMessageQueue

def enqueue (queue : PendingMessageQueue) (message : MessageObject) : PendingMessageQueue :=
  { queue with messages := queue.messages ++ [message] }

/-- The messages that are taken from a queue. -/
def drained (queue : PendingMessageQueue) : List MessageObject :=
  match queue.mode with
  | .all => queue.messages
  | .oneAtATime => queue.messages.take 1

/-- What is left of a queue when messages were taken from it. -/
def drain (queue : PendingMessageQueue) : PendingMessageQueue :=
  match queue.mode with
  | .all => { queue with messages := [] }
  | .oneAtATime => { queue with messages := queue.messages.drop 1 }

def clear (queue : PendingMessageQueue) : PendingMessageQueue := { queue with messages := [] }

end PendingMessageQueue

/-- The calls of an agent. -/
inductive AgentCall where
  | steer (message : AgentMessage)
  | followUp (message : AgentMessage)
  | clearSteeringQueue
  | clearFollowUpQueue
  | clearAllQueues
  | setSteeringMode (mode : QueueMode)
  | setFollowUpMode (mode : QueueMode)
  | abort
  | reset
  | prompt (messages : List AgentMessage)
  | continueRun

/-- What a run is answered when it waits. -/
inductive Answer where
  | pending
  | done
  | thrown (error : String)
  | updated (update : Option AgentLoopTurnUpdate)
  | stops (stops : Bool)
  | messages (messages : List MessageObject)
  | streaming
  | event (event : Option AssistantMessageEvent)
  | result (message : AssistantMessage)
  | before (result : Except String (Option BeforeToolCallResult))
  | toolStep (step : ToolStep)
  | after (result : Except String (Option AfterToolCallResult))

/-- What happens while a run waits: the time passes, the agent is called, and an answer comes. -/
structure Input where
  time : Nat
  calls : List AgentCall
  answer : Answer

/-- The run that is active. -/
structure ActiveRun where
  aborted : Bool := false
deriving DecidableEq

/-- What became of the messages of an agent: how many were queued, which were removed, which the
active run holds, and which entered the transcript. It also tells what a run held whenever a
listener threw, what its provider was asked, and what it emitted. -/
structure Ledger where
  enqueued : QueueName → Nat := fun _ => 0
  removed : List MessageObject := []
  held : List MessageObject := []
  appended : List MessageObject
  interrupted : List (List MessageObject) := []
  providerCalls : Nat := 0
  events : List AgentEvent := []

end Agent

open Agent

/-- An agent, the inputs its run will be given, and its ledger. -/
structure Agent where
  messages : List MessageObject
  tools : List AgentTool
  model : LoopModel
  isStreaming : Bool := false
  streamingMessage : Option MessageObject := none
  pendingToolCalls : List String := []
  errorMessage : Option String := none
  steeringQueue : PendingMessageQueue
  followUpQueue : PendingMessageQueue
  maxIterations : Option Int
  toolExecution : ToolExecutionMode
  activeRun : Option ActiveRun := none
  skipInitialSteeringPoll : Bool := false
  inputs : List Input := []
  time : Nat := 0
  ledger : Ledger

namespace Agent

/-- What an agent is made of. -/
structure Options where
  messages : List AgentMessage
  tools : List AgentTool
  model : LoopModel
  steeringMode : QueueMode := .oneAtATime
  followUpMode : QueueMode := .oneAtATime
  maxIterations : Option Int := none
  toolExecution : ToolExecutionMode := .parallel

/-- Message objects that were not queued. -/
def unqueued (messages : List AgentMessage) : List MessageObject :=
  messages.map fun message => ⟨message, none⟩

def create (options : Options) : Agent where
  messages := unqueued options.messages
  tools := options.tools
  model := options.model
  steeringQueue := ⟨[], options.steeringMode⟩
  followUpQueue := ⟨[], options.followUpMode⟩
  maxIterations := options.maxIterations
  toolExecution := options.toolExecution
  ledger := { appended := unqueued options.messages }

/-! ## Calls -/

def ticket (agent : Agent) (queue : QueueName) (message : AgentMessage) : MessageObject :=
  ⟨message, some (queue, agent.ledger.enqueued queue)⟩

def Ledger.enqueue (ledger : Ledger) (queue : QueueName) : Ledger :=
  { ledger with enqueued := Function.update ledger.enqueued queue (ledger.enqueued queue + 1) }

def steer (agent : Agent) (message : AgentMessage) : Agent :=
  { agent with
    steeringQueue := agent.steeringQueue.enqueue (agent.ticket .steering message)
    ledger := agent.ledger.enqueue .steering }

def followUp (agent : Agent) (message : AgentMessage) : Agent :=
  { agent with
    followUpQueue := agent.followUpQueue.enqueue (agent.ticket .followUp message)
    ledger := agent.ledger.enqueue .followUp }

def Ledger.remove (ledger : Ledger) (messages : List MessageObject) : Ledger :=
  { ledger with removed := ledger.removed ++ messages }

def clearSteeringQueue (agent : Agent) : Agent :=
  { agent with
    steeringQueue := agent.steeringQueue.clear
    ledger := agent.ledger.remove agent.steeringQueue.messages }

def clearFollowUpQueue (agent : Agent) : Agent :=
  { agent with
    followUpQueue := agent.followUpQueue.clear
    ledger := agent.ledger.remove agent.followUpQueue.messages }

def clearAllQueues (agent : Agent) : Agent := agent.clearSteeringQueue.clearFollowUpQueue

def setSteeringMode (agent : Agent) (mode : QueueMode) : Agent :=
  { agent with steeringQueue := { agent.steeringQueue with mode := mode } }

def setFollowUpMode (agent : Agent) (mode : QueueMode) : Agent :=
  { agent with followUpQueue := { agent.followUpQueue with mode := mode } }

def abort (agent : Agent) : Agent :=
  { agent with activeRun := agent.activeRun.map fun _ => ⟨true⟩ }

def reset (agent : Agent) : Agent :=
  if agent.activeRun.isSome then agent
  else
    { agent with
      messages := []
      isStreaming := false
      streamingMessage := none
      pendingToolCalls := []
      errorMessage := none }.clearFollowUpQueue.clearSteeringQueue

/-- The effect of a call that does not start a run. Those that would are refused wherever a run
waits, before they change anything. -/
def call (agent : Agent) : AgentCall → Agent
  | .steer message => agent.steer message
  | .followUp message => agent.followUp message
  | .clearSteeringQueue => agent.clearSteeringQueue
  | .clearFollowUpQueue => agent.clearFollowUpQueue
  | .clearAllQueues => agent.clearAllQueues
  | .setSteeringMode mode => agent.setSteeringMode mode
  | .setFollowUpMode mode => agent.setFollowUpMode mode
  | .abort => agent.abort
  | .reset => agent.reset
  | .prompt _ => agent
  | .continueRun => agent

abbrev AgentM (Result : Type) := Procedure Agent Stop Result

open Procedure

/-! ## Waiting -/

def receive (agent : Agent) (input : Input) (rest : List Input) : Agent :=
  input.calls.foldl call { agent with inputs := rest, time := input.time }

def await : AgentM Answer := do
  let agent ← get
  match agent.inputs with
  | [] => throw .suspended
  | input :: rest =>
    set (agent.receive input rest)
    return input.answer

/-- Wait for an answer that can be read. A run that gets another one waits for ever. -/
def answered {Result : Type} (read : Answer → Option Result) : AgentM Result := do
  match ← await with
  | .thrown error => throw (.thrown error)
  | answer =>
    match read answer with
    | some result => return result
    | none => throw .suspended

def Answer.done? : Answer → Option Unit
  | .done => some ()
  | _ => none

def Answer.updated? : Answer → Option (Option AgentLoopTurnUpdate)
  | .updated answer => some answer
  | _ => none

def Answer.stops? : Answer → Option Bool
  | .stops answer => some answer
  | _ => none

def Answer.messages? : Answer → Option (List MessageObject)
  | .messages answer => some answer
  | _ => none

def Answer.streaming? : Answer → Option Unit
  | .streaming => some ()
  | _ => none

def Answer.event? : Answer → Option (Option AssistantMessageEvent)
  | .event answer => some answer
  | _ => none

def Answer.result? : Answer → Option AssistantMessage
  | .result answer => some answer
  | _ => none

def Answer.before? : Answer → Option (Except String (Option BeforeToolCallResult))
  | .before answer => some answer
  | _ => none

def Answer.toolStep? : Answer → Option ToolStep
  | .toolStep answer => some answer
  | _ => none

def Answer.after? : Answer → Option (Except String (Option AfterToolCallResult))
  | .after answer => some answer
  | _ => none

/-! ## Events -/

def reduce (agent : Agent) : AgentEvent → Agent
  | .messageStart message => { agent with streamingMessage := some message }
  | .messageUpdate message => { agent with streamingMessage := some message }
  | .messageEnd message =>
    { agent with streamingMessage := none, messages := agent.messages ++ [message] }
  | .toolExecutionStart toolCall =>
    { agent with pendingToolCalls := agent.pendingToolCalls.insert toolCall.id }
  | .toolExecutionEnd toolCall _ _ =>
    { agent with pendingToolCalls := agent.pendingToolCalls.erase toolCall.id }
  | .turnEnd ⟨.assistant message, _⟩ _ =>
    { agent with errorMessage := (Text.truthy message.errorMessage).or agent.errorMessage }
  | .agentEnd _ => { agent with streamingMessage := none }
  | _ => agent

/-- A message that entered the transcript is not held any longer. -/
def Ledger.record (ledger : Ledger) (event : AgentEvent) : Ledger :=
  match event with
  | .messageEnd message => { ledger with
      events := ledger.events ++ [event]
      appended := ledger.appended ++ [message]
      held := ledger.held.filter fun other => other.origin ≠ message.origin }
  | event => { ledger with events := ledger.events ++ [event] }

def Ledger.interrupt (ledger : Ledger) : Ledger :=
  { ledger with interrupted := ledger.interrupted ++ [ledger.held] }

/-- The listeners are told of an event one after the other. The first that throws is the last. -/
def notify : AgentM Unit := do
  match ← await with
  | .done => return
  | .thrown error =>
    modify fun agent => { agent with ledger := agent.ledger.interrupt }
    throw (.thrown error)
  | _ => throw .suspended

def processEvents (event : AgentEvent) : AgentM Unit := do
  modify fun agent => { agent.reduce event with ledger := agent.ledger.record event }
  let agent ← get
  if agent.activeRun.isNone then throw (.thrown "Agent listener invoked outside active run")
  else notify

/-! ## Runs -/

/-- Wait for what cannot fail. -/
def settle : AgentM Unit := do
  match ← await with
  | .done => return
  | _ => throw .suspended

/-- A run takes messages from a queue. -/
def Ledger.hold (ledger : Ledger) (messages : List MessageObject) : Ledger :=
  { ledger with held := messages }

def getSteeringMessages : AgentM (List MessageObject) := do
  let agent ← get
  if agent.skipInitialSteeringPoll then
    set { agent with skipInitialSteeringPoll := false }
    settle
    return []
  else
    set { agent with
      steeringQueue := agent.steeringQueue.drain
      ledger := agent.ledger.hold agent.steeringQueue.drained }
    settle
    return agent.steeringQueue.drained

def getFollowUpMessages : AgentM (List MessageObject) := do
  let agent ← get
  set { agent with
    followUpQueue := agent.followUpQueue.drain
    ledger := agent.ledger.hold agent.followUpQueue.drained }
  settle
  return agent.followUpQueue.drained

def stream : AgentM Unit := do
  modify fun agent => { agent with
    ledger := { agent.ledger with providerCalls := agent.ledger.providerCalls + 1 } }
  answered Answer.streaming?

def aborted : AgentM Bool := do
  let agent ← get
  return agent.activeRun.any ActiveRun.aborted

def now : AgentM Nat := do
  let agent ← get
  return agent.time

section Runs

variable (validateToolArguments : AgentTool → AgentToolCall → Except String Unit)

def createLoopConfig (agent : Agent) : AgentLoopConfig Agent where
  emit := processEvents
  getSteeringMessages := getSteeringMessages
  getFollowUpMessages := getFollowUpMessages
  prepareNextTurn _ := answered Answer.updated?
  shouldStopAfterTurn _ := answered Answer.stops?
  transformContext _ := answered Answer.messages?
  convertToLlm _ := answered Answer.messages?
  getApiKey _ := answered Answer.done?
  streamFunction _ _ := stream
  nextStreamEvent := answered Answer.event?
  streamResult := answered Answer.result?
  validateToolArguments := validateToolArguments
  beforeToolCall _ := answered Answer.before?
  nextToolStep _ := answered Answer.toolStep?
  afterToolCall _ _ _ := answered Answer.after?
  aborted := aborted
  now := now
  maxIterations := agent.maxIterations
  toolExecution := agent.toolExecution

def createContextSnapshot (agent : Agent) : AgentContext := ⟨agent.messages, agent.tools⟩

/-- A run of the loop on an agent. What it waits for comes with the inputs, so it needs no more
fuel than these. -/
def onLoop (start : Agent → Loop Agent) (loop : AgentLoopConfig Agent → Nat → LoopM Agent Unit) :
    AgentM Unit := do
  let agent ← get
  match (loop (agent.createLoopConfig validateToolArguments) (agent.inputs.length + 1)).perform
      (start agent) with
  | (result, loop) =>
    set loop.host
    Procedure.check result

def beginRun (agent : Agent) (inputs : List Input) (skipInitialSteeringPoll : Bool)
    (held : List MessageObject) : Agent :=
  { agent with
    activeRun := some ⟨false⟩
    isStreaming := true
    streamingMessage := none
    errorMessage := none
    skipInitialSteeringPoll := skipInitialSteeringPoll
    inputs := inputs
    ledger := { agent.ledger with held := held, providerCalls := 0, events := [] } }

/-- What a run held is gone when it fails. -/
def dropHeld (agent : Agent) : Agent := { agent with ledger := agent.ledger.hold [] }

def failureMessage (agent : Agent) (error : String) : MessageObject where
  message := .assistant
    { content := [.text "" none]
      api := agent.model.api
      provider := agent.model.provider
      model := agent.model.id
      usage := ⟨0, 0, 0, 0, none, none, 0, ⟨0, 0, 0, 0, 0⟩⟩
      stopReason := if agent.activeRun.any ActiveRun.aborted then .aborted else .error
      errorMessage := some error
      timestamp := agent.time }

def handleRunFailure (error : String) : AgentM Unit := do
  let agent ← get
  processEvents (.messageStart (agent.failureMessage error))
  processEvents (.messageEnd (agent.failureMessage error))
  processEvents (.turnEnd (agent.failureMessage error) [])
  processEvents (.agentEnd [agent.failureMessage error])

def finishRun (agent : Agent) : Agent :=
  { agent with
    isStreaming := false
    streamingMessage := none
    pendingToolCalls := []
    activeRun := none }

/-- `runWithLifecycle`, on an agent whose run begins. A run that waits for ever does not finish. -/
def runWithLifecycle (executor : AgentM Unit) (agent : Agent) : Agent :=
  match executor.perform agent with
  | (.ok _, agent) => agent.finishRun
  | (.error .suspended, agent) => agent
  | (.error (.thrown error), agent) =>
    match (handleRunFailure error).perform agent.dropHeld with
    | (.error .suspended, agent) => agent
    | (_, agent) => agent.finishRun

/-- `runPromptMessages`. The messages it holds were taken from a queue. -/
def runPromptMessages (agent : Agent) (inputs : List Input) (messages held : List MessageObject)
    (skipInitialSteeringPoll : Bool) : Agent :=
  runWithLifecycle
    (onLoop validateToolArguments
      (fun agent => Loop.withPrompts agent agent.createContextSnapshot agent.model messages)
      fun config fuel => Loop.runAgentLoop config fuel messages)
    (agent.beginRun inputs skipInitialSteeringPoll held)

def runContinuation (agent : Agent) (inputs : List Input) : Agent :=
  runWithLifecycle
    (onLoop validateToolArguments
      (fun agent => Loop.continuing agent agent.createContextSnapshot agent.model)
      fun config fuel => Loop.runAgentLoopContinue config fuel)
    (agent.beginRun inputs false [])

def prompt (agent : Agent) (messages : List AgentMessage) (inputs : List Input) : Agent :=
  if agent.activeRun.isSome then agent
  else agent.runPromptMessages validateToolArguments inputs (unqueued messages) [] false

/-- `continue`. After an answer of the model it starts with queued messages, if there are any. -/
def continueRun (agent : Agent) (inputs : List Input) : Agent :=
  if agent.activeRun.isSome then agent
  else
    match agent.messages.getLast? with
    | none => agent
    | some last =>
      if last.message.isAssistant then
        if !agent.steeringQueue.drained.isEmpty then
          { agent with steeringQueue := agent.steeringQueue.drain }.runPromptMessages
            validateToolArguments inputs agent.steeringQueue.drained
            agent.steeringQueue.drained true
        else if !agent.followUpQueue.drained.isEmpty then
          { agent with
            steeringQueue := agent.steeringQueue.drain
            followUpQueue := agent.followUpQueue.drain }.runPromptMessages
            validateToolArguments inputs agent.followUpQueue.drained
            agent.followUpQueue.drained false
        else agent
      else agent.runContinuation validateToolArguments inputs

/-- A call of an agent, with the inputs of the run it may start. -/
structure Request where
  call : AgentCall
  inputs : List Input

/-- An agent after a call. -/
def request (agent : Agent) (request : Request) : Agent :=
  match request.call with
  | .prompt messages => agent.prompt validateToolArguments messages request.inputs
  | .continueRun => agent.continueRun validateToolArguments request.inputs
  | call => agent.call call

def requests (agent : Agent) (requests : List Request) : Agent :=
  requests.foldl (request validateToolArguments) agent

end Runs

end Agent
end Recode

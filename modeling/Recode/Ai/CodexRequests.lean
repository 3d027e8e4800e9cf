import Recode.Ai.ResponsesMessages

/-! # Requests that continue a response

A cached connection remembers the last response that ended on it. A request whose input starts
with that response's request and items is sent as what comes behind them, with the response's
identifier; every other request is sent in full. -/

namespace Recode.Ai

/-- The body of a request. The other fields stay in their order. -/
structure RequestBody where
  input : Option (List Json)
  previousResponseId : Option String := none
  others : List (String × Json)

def responseInputsEqual (a b : List Json) : Bool :=
  (Json.arr a).stringify = (Json.arr b).stringify

def requestBodiesMatchExceptInput (a b : RequestBody) : Bool :=
  (Json.obj a.others).stringify = (Json.obj b.others).stringify

structure CachedWebSocketContinuationState where
  lastRequestBody : RequestBody
  lastResponseId : String
  lastResponseItems : List Json

def CachedWebSocketContinuationState.baseline (continuation : CachedWebSocketContinuationState) :
    List Json :=
  continuation.lastRequestBody.input.getD [] ++ continuation.lastResponseItems

def getCachedWebSocketInputDelta (body : RequestBody)
    (continuation : CachedWebSocketContinuationState) : Option (List Json) :=
  if !requestBodiesMatchExceptInput body continuation.lastRequestBody then none
  else
    let currentInput := body.input.getD []
    let baseline := continuation.baseline
    if currentInput.length < baseline.length then none
    else if !responseInputsEqual (currentInput.take baseline.length) baseline then none
    else some (currentInput.drop baseline.length)

/-- The request that is sent, and the continuation that the connection keeps. -/
def buildCachedWebSocketRequestBody (continuation : Option CachedWebSocketContinuationState)
    (body : RequestBody) : RequestBody × Option CachedWebSocketContinuationState :=
  match continuation with
  | none => (body, none)
  | some known =>
    match getCachedWebSocketInputDelta body known, Text.truthy (some known.lastResponseId) with
    | some delta, some lastResponseId =>
      ({ body with previousResponseId := some lastResponseId, input := some delta }, some known)
    | _, _ => (body, none)

/-! ## Responses -/

inductive ResponseStatus
  | completed | incomplete | failed | cancelled | inProgress | queued
deriving DecidableEq

structure MappedStop where
  stopReason : StopReason
  errorMessage : Option String := none

def mapStopReason (status : Option ResponseStatus) (incompleteReason : Option String) :
    MappedStop :=
  match status with
  | none => { stopReason := .stop }
  | some .completed => { stopReason := .stop }
  | some .incomplete =>
    if incompleteReason = some "max_output_tokens" then { stopReason := .length }
    else
      { stopReason := .error
        errorMessage := some
          (match Text.truthy incompleteReason with
          | some reason => "Response incomplete: " ++ reason
          | none => "Response incomplete without a provider reason") }
  | some .failed | some .cancelled => { stopReason := .error }
  | some .inProgress | some .queued => { stopReason := .stop }

/-- A model of this provider's interface. -/
structure CodexModel extends ResponsesModel where
  codex : api = "openai-codex-responses"

def codexToolCallProviders : List String := ["openai", "openai-codex", "opencode"]

/-- What a stream of events has left in the output when it ends without an error. -/
structure StreamEnd where
  content : List AssistantContent
  responseId : Option String
  status : Option ResponseStatus
  incompleteReason : Option String := none

def AssistantContent.isToolCall : AssistantContent → Bool
  | .toolCall _ => true
  | _ => false

namespace StreamEnd

def stopReason (ended : StreamEnd) : StopReason :=
  let mapped := (mapStopReason ended.status ended.incompleteReason).stopReason
  if mapped = .stop ∧ ended.content.any AssistantContent.isToolCall = true then .toolUse else mapped

def output (ended : StreamEnd) (model : CodexModel) (timestamp : Int) : AssistantMessage where
  content := some ended.content
  api := "openai-codex-responses"
  provider := model.provider
  model := model.id
  stopReason := ended.stopReason
  timestamp := timestamp

end StreamEnd

/-- An item that answers a tool call. -/
def isToolOutput (item : Json) : Bool :=
  match (item.get? "type").bind Json.asStr? with
  | some kind => kind = "function_call_output" || kind = "custom_tool_call_output"
  | none => false

section Session

variable (parse : JsonParser)

def responseItems (model : CodexModel) (grammarToolInputProperties : GrammarToolInputProperties)
    (output : AssistantMessage) (now : Int) : Except String (List Json) := do
  let items ← convertResponsesMessages parse grammarToolInputProperties model.toResponsesModel
    [.assistant output] none codexToolCallProviders false now
  return items.filter fun item => !isToolOutput item

def recordedItems (model : CodexModel) (grammarToolInputProperties : GrammarToolInputProperties)
    (output : AssistantMessage) : Except String (List Json) := do
  let items ← convertAssistant parse grammarToolInputProperties model.toResponsesModel 0 output
  return items.filter fun item => !isToolOutput item

/-- A request whose response has not ended. -/
structure InFlight where
  useCachedContext : Bool
  full : RequestBody
  request : RequestBody

structure CachedWebSocketConnection where
  continuation : Option CachedWebSocketContinuationState := none
  inFlight : Option InFlight := none

/-- The continuation after a response that ended without an error. -/
def recordContinuation (flight : InFlight) (old : Option CachedWebSocketContinuationState)
    (model : CodexModel) (grammarToolInputProperties : GrammarToolInputProperties)
    (ended : StreamEnd) (now : Int) : Except String (Option CachedWebSocketContinuationState) :=
  if flight.useCachedContext then
    match Text.truthy ended.responseId with
    | some responseId => do
      let items ← responseItems parse model grammarToolInputProperties (ended.output model now)
        now
      return some ⟨flight.full, responseId, items⟩
    | none => .ok old
  else .ok old

abbrev Contexts := String → Option (List Json)

/-- What a request asks the server to answer. -/
def effectiveInput (contexts : Contexts) (request : RequestBody) : Option (List Json) :=
  match request.previousResponseId with
  | none => some (request.input.getD [])
  | some responseId => (contexts responseId).map (· ++ request.input.getD [])

/-- A request that was sent, the body it stands for, and what it asked for. -/
structure Sent where
  full : RequestBody
  request : RequestBody
  effective : Option (List Json)

/-- A session: its cached connection, the server's contexts, and the requests sent so far. -/
structure CodexSession where
  connection : Option CachedWebSocketConnection := none
  contexts : Contexts := fun _ => none
  sent : List Sent := []

def CodexSession.send (session : CodexSession) (full request : RequestBody) : CodexSession :=
  { session with
    sent := session.sent ++ [⟨full, request, effectiveInput session.contexts request⟩] }

/-- The connection's request, and the continuation left while it is answered. -/
def CachedWebSocketConnection.request (connection : CachedWebSocketConnection)
    (useCachedContext : Bool) (full : RequestBody) :
    RequestBody × Option CachedWebSocketContinuationState :=
  if useCachedContext then buildCachedWebSocketRequestBody connection.continuation full
  else (full, connection.continuation)

def respond (contexts : Contexts) (responseId : Option String) (context : List Json) : Contexts :=
  match responseId with
  | some responseId => Function.update contexts responseId (some context)
  | none => contexts

/-- What a step of a session is about. -/
inductive CodexEvent
  | quiet
  | send (full : RequestBody)
  | finish (model : CodexModel) (grammarToolInputProperties : GrammarToolInputProperties)
      (ended : StreamEnd)

/-- The steps of a session. A connection is dropped when it expires or breaks and when a request
throws or is aborted; a request that finds it busy has a connection of its own. The server gives
a new identifier to every response, also to those that fail or end elsewhere. -/
inductive CodexStep (session : CodexSession) : CodexEvent → CodexSession → Prop
  | connect (absent : session.connection = none) :
      CodexStep session .quiet { session with connection := some {} }
  | drop : CodexStep session .quiet { session with connection := none }
  | serve (responseId : String) (context : List Json)
      (new : session.contexts responseId = none) :
      CodexStep session .quiet
        { session with contexts := respond session.contexts (some responseId) context }
  | sendApart (full : RequestBody) : CodexStep session (.send full) (session.send full full)
  | send (connection : CachedWebSocketConnection) (useCachedContext : Bool) (full : RequestBody)
      (found : session.connection = some connection) (free : connection.inFlight = none) :
      CodexStep session (.send full)
        { session.send full (connection.request useCachedContext full).1 with
          connection := some
            { continuation := (connection.request useCachedContext full).2
              inFlight := some
                ⟨useCachedContext, full, (connection.request useCachedContext full).1⟩ } }
  | finish (connection : CachedWebSocketConnection) (flight : InFlight) (model : CodexModel)
      (grammarToolInputProperties : GrammarToolInputProperties) (ended : StreamEnd) (now : Int)
      (input items : List Json) (next : Option CachedWebSocketContinuationState)
      (found : session.connection = some connection) (busy : connection.inFlight = some flight)
      (asked : effectiveInput session.contexts flight.request = some input)
      (produced : ∀ recorded, recordedItems parse model grammarToolInputProperties
        (ended.output model now) = .ok recorded → items = recorded)
      (new : ∀ responseId, ended.responseId = some responseId → session.contexts responseId = none)
      (recorded : recordContinuation parse flight connection.continuation model
        grammarToolInputProperties ended now = .ok next) :
      CodexStep session (.finish model grammarToolInputProperties ended)
        { session with
          connection := some { continuation := next }
          contexts := respond session.contexts ended.responseId (input ++ items) }

/-- What a session can become by steps of some kind. -/
inductive CodexReachable (allowed : CodexEvent → Prop) : CodexSession → Prop
  | initial : CodexReachable allowed {}
  | step {session after : CodexSession} {event : CodexEvent}
      (reachable : CodexReachable allowed session) (step : CodexStep parse session event after)
      (allows : allowed event) : CodexReachable allowed after

end Session

end Recode.Ai

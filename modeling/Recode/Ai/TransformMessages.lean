import Recode.Lib.InsertionMap
import Recode.Message

/-! # Messages for another model

A conversation is prepared for a provider before every request: images that the
model cannot see are described, what another model wrote is made plain, its tool
calls get identifiers the provider accepts, and tool calls without a result get
one. -/

namespace Recode.Ai

/-- A call of a tool. -/
structure ToolCall where
  id : String
  name : String
  arguments : List (String × Json)
  thoughtSignature : Option String := none
  toolNamespace : Option String := none

/-- A block of assistant content. -/
inductive AssistantContent where
  | text (text : String) (textSignature : Option String)
  | thinking (thinking : String) (thinkingSignature : Option String) (redacted : Option Bool)
  | toolCall (call : ToolCall)

/-- A model's answer. Untyped callers may leave the content out. -/
structure AssistantMessage where
  content : Option (List AssistantContent)
  api : String
  provider : String
  model : String
  stopReason : StopReason
  timestamp : Int

/-- A tool's result. -/
structure ToolResultMessage where
  toolCallId : String
  toolName : String
  content : Option (List InputBlock)
  isError : Bool
  timestamp : Int

/-- A message of a conversation. -/
inductive Message where
  | user (content : Option InputContent) (timestamp : Int)
  | assistant (message : AssistantMessage)
  | toolResult (result : ToolResultMessage)

/-- A model, and what it can be sent. -/
structure Model where
  id : String
  api : String
  provider : String
  input : List String

/-- Gives a tool call of another model an identifier that the provider accepts. -/
abbrev IdNormalizer := String → Model → AssistantMessage → String

def nonVisionUserImagePlaceholder : String := "(image omitted: model does not support images)"

def nonVisionToolImagePlaceholder : String :=
  "(tool image omitted: model does not support images)"

def replaceImagesWithPlaceholder (placeholder : String) :
    Bool → List InputBlock → List InputBlock
  | _, [] => []
  | previousWasPlaceholder, .image _ _ :: content =>
    if previousWasPlaceholder then replaceImagesWithPlaceholder placeholder true content
    else .text placeholder none :: replaceImagesWithPlaceholder placeholder true content
  | _, .text text signature :: content =>
    .text text signature :: replaceImagesWithPlaceholder placeholder (text = placeholder) content

namespace Message

def normalizeContent : Message → Message
  | .user none timestamp => .user (some (.blocks [])) timestamp
  | .assistant message => .assistant { message with content := some (message.content.getD []) }
  | .toolResult result => .toolResult { result with content := some (result.content.getD []) }
  | message => message

def downgradeUnsupportedImages (model : Model) (message : Message) : Message :=
  if model.input.contains "image" then message
  else
    match message with
    | .user (some (.blocks content)) timestamp => .user (some (.blocks
        (replaceImagesWithPlaceholder nonVisionUserImagePlaceholder false content))) timestamp
    | .toolResult result => .toolResult { result with
        content := result.content.map
          (replaceImagesWithPlaceholder nonVisionToolImagePlaceholder false) }
    | message => message

end Message

namespace AssistantMessage

/-- An answer was written by the target model. -/
def isSameModel (model : Model) (message : AssistantMessage) : Bool :=
  message.provider = model.provider && message.api = model.api && message.model = model.id

def toolCalls (message : AssistantMessage) : List ToolCall :=
  (message.content.getD []).filterMap fun
    | .toolCall call => some call
    | _ => none

/-- The identifiers of an answer's tool calls. -/
def toolCallIds (message : AssistantMessage) : List String := message.toolCalls.map ToolCall.id

/-- An answer that failed or was aborted is not sent again. -/
def isKept (message : AssistantMessage) : Bool :=
  message.stopReason ≠ .error && message.stopReason ≠ .aborted

end AssistantMessage

section FirstPass

variable (model : Model) (normalizeToolCallId : Option IdNormalizer)

def callId (source : AssistantMessage) (id : String) : String :=
  if source.isSameModel model then id
  else
    match normalizeToolCallId with
    | none => id
    | some normalize => normalize id model source

def transformToolCall (source : AssistantMessage) (call : ToolCall) : ToolCall :=
  { call with
    id := callId model normalizeToolCallId source call.id
    thoughtSignature := if source.isSameModel model then call.thoughtSignature
      else if (Text.truthy call.thoughtSignature).isSome then none else call.thoughtSignature }

/-- A block of an answer as the target model is sent it, or nothing. -/
def transformBlock (source : AssistantMessage) : AssistantContent → List AssistantContent
  | .thinking thinking thinkingSignature redacted =>
    let block : AssistantContent := .thinking thinking thinkingSignature redacted
    if redacted = some true then if source.isSameModel model then [block] else []
    else if source.isSameModel model && (Text.truthy thinkingSignature).isSome then [block]
    else if Text.trim thinking = "" then []
    else if source.isSameModel model then [block]
    else [.text thinking none]
  | .text text textSignature =>
    if source.isSameModel model then [.text text textSignature] else [.text text none]
  | .toolCall call => [.toolCall (transformToolCall model normalizeToolCallId source call)]

/-- An answer as the target model is sent it. -/
def transformAssistant (message : AssistantMessage) : AssistantMessage :=
  { message with
    content := some
      ((message.content.getD []).flatMap (transformBlock model normalizeToolCallId message)) }

/-- The renamed identifiers after an answer: only identifiers that changed are recorded. -/
def recordIds (toolCallIdMap : InsertionMap String String) (message : AssistantMessage) :
    InsertionMap String String :=
  message.toolCallIds.foldl (fun toolCallIdMap id =>
    if callId model normalizeToolCallId message id = id then toolCallIdMap
    else toolCallIdMap.insert id (callId model normalizeToolCallId message id)) toolCallIdMap

def resultId (toolCallIdMap : InsertionMap String String) (id : String) : String :=
  (Text.truthy (toolCallIdMap.get? id)).getD id

def firstPass (toolCallIdMap : InsertionMap String String) : List Message → List Message
  | [] => []
  | .user content timestamp :: messages =>
    .user content timestamp :: firstPass toolCallIdMap messages
  | .toolResult result :: messages =>
    .toolResult { result with toolCallId := resultId toolCallIdMap result.toolCallId } ::
      firstPass toolCallIdMap messages
  | .assistant message :: messages =>
    .assistant (transformAssistant model normalizeToolCallId message) ::
      firstPass (recordIds model normalizeToolCallId toolCallIdMap message) messages

end FirstPass

def noResult (now : Int) (call : ToolCall) : Message :=
  .toolResult {
    toolCallId := call.id
    toolName := call.name
    content := some [.text "No result provided" none]
    isError := true
    timestamp := now }

def insertSyntheticToolResults (now : Int) (pendingToolCalls : List ToolCall)
    (existingToolResultIds : List String) : List Message :=
  (pendingToolCalls.filter fun call => call.id ∉ existingToolResultIds).map (noResult now)

/-- The known results are forgotten with the tool calls they are for. -/
def resetIds (pendingToolCalls : List ToolCall) (existingToolResultIds : List String) :
    List String :=
  if pendingToolCalls.isEmpty then existingToolResultIds else []

def secondPass (now : Int) : List ToolCall → List String → List Message → List Message
  | pending, existing, [] => insertSyntheticToolResults now pending existing
  | pending, existing, .assistant message :: messages =>
    insertSyntheticToolResults now pending existing ++
      if !message.isKept then secondPass now [] (resetIds pending existing) messages
      else .assistant message ::
        if message.toolCalls.isEmpty then secondPass now [] (resetIds pending existing) messages
        else secondPass now message.toolCalls [] messages
  | pending, existing, .toolResult result :: messages =>
    .toolResult result :: secondPass now pending (result.toolCallId :: existing) messages
  | pending, existing, .user content timestamp :: messages =>
    insertSyntheticToolResults now pending existing ++
      .user content timestamp :: secondPass now [] (resetIds pending existing) messages

/-- The messages with their content present and their images fit for a model. -/
def imageAwareMessages (model : Model) (messages : List Message) : List Message :=
  messages.map fun message => message.normalizeContent.downgradeUnsupportedImages model

def transformMessages (messages : List Message) (model : Model)
    (normalizeToolCallId : Option IdNormalizer) (now : Int) : List Message :=
  secondPass now [] []
    (firstPass model normalizeToolCallId .empty (imageAwareMessages model messages))

end Recode.Ai

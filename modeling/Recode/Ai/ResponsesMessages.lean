import Recode.Ai.TransformMessages

/-! # Conversations as response items

The Responses API is sent a conversation as a list of items. Items are JSON values; an
`undefined` field of an item is a field that its text does not have. Tools that are loaded later
are left out: the conversion of a single answer is not given any. -/

namespace Recode.Ai

open Text

/-- A model, with what its system prompt depends on. -/
structure ResponsesModel extends Model where
  reasoning : Bool
  supportsDeveloperRole : Option Bool := none

/-- The standard library's parser, which throws on other texts than JSON. -/
abbrev JsonParser := String → Option Json

def imul (left right : UInt32) : UInt32 := left * right

def mixUnit (factor hash : UInt32) (unit : Nat) : UInt32 := imul (hash ^^^ unit.toUInt32) factor

def base36Digit (digit : Nat) : Char :=
  if digit < 10 then Char.ofNat ('0'.toNat + digit) else Char.ofNat ('a'.toNat + (digit - 10))

def base36 : Nat → Nat → List Char
  | 0, _ => []
  | width + 1, number =>
    if number < 36 then [base36Digit number]
    else base36 width (number / 36) ++ [base36Digit (number % 36)]

def shortHash (text : String) : String :=
  let units := text.toList.flatMap utf16Units
  let h1 : UInt32 := units.foldl (mixUnit 2654435761) 0xdeadbeef
  let h2 : UInt32 := units.foldl (mixUnit 1597334677) 0x41c6ce57
  let h1 := imul (h1 ^^^ (h1 >>> 16)) 2246822507 ^^^ imul (h2 ^^^ (h2 >>> 13)) 3266489909
  let h2 := imul (h2 ^^^ (h2 >>> 16)) 2246822507 ^^^ imul (h1 ^^^ (h1 >>> 13)) 3266489909
  String.ofList (base36 7 h2.toNat ++ base36 7 h1.toNat)

/-- The strings of the model have no unpaired surrogates. -/
def sanitizeSurrogates (text : String) : String := text

def isIdChar (char : Char) : Bool :=
  ('a' ≤ char && char ≤ 'z') || ('A' ≤ char && char ≤ 'Z') || char.isDigit || char = '_' ||
    char = '-'

/-- A part of an identifier in the provider's alphabet: each other code unit becomes `_`. -/
def normalizeIdPart (part : String) : String :=
  let sanitized := String.ofList (part.toList.flatMap fun char =>
    if isIdChar char then [char] else (utf16Units char).map fun _ => '_')
  let normalized :=
    if utf16Length sanitized > 64 then sliceFront sanitized 64 else sanitized
  String.ofList ((normalized.toList.reverse.dropWhile (· = '_')).reverse)

def buildForeignResponsesItemId (itemId : String) : String :=
  let normalized := "fc_" ++ shortHash itemId
  if utf16Length normalized > 64 then sliceFront normalized 64 else normalized

/-- The parts of a tool call's identifier: the call and, behind a bar, the item. -/
def splitCallId (id : String) : String × Option String :=
  match id.toList.splitOn '|' with
  | callId :: itemId :: _ => (String.ofList callId, some (String.ofList itemId))
  | _ => (id, none)

def normalizeToolCallId (allowedToolCallProviders : List String) : IdNormalizer :=
  fun id model source =>
    if !allowedToolCallProviders.contains model.provider then normalizeIdPart id
    else
      match splitCallId id with
      | (_, none) => normalizeIdPart id
      | (callId, some itemId) =>
        let isForeignToolCall :=
          source.provider ≠ model.provider || source.api ≠ model.api
        let normalizedItemId :=
          if isForeignToolCall then buildForeignResponsesItemId itemId
          else normalizeIdPart itemId
        normalizeIdPart callId ++ "|" ++
          if normalizedItemId.startsWith "fc_" then normalizedItemId
          else normalizeIdPart ("fc_" ++ normalizedItemId)

/-- The message that a text's signature names, and its phase. -/
structure TextSignature where
  id : String
  phase : Option String := none

def parseTextSignature (parse : JsonParser) (signature : Option String) : Option TextSignature :=
  match truthy signature with
  | none => none
  | some signature =>
    let legacy : TextSignature := { id := signature }
    if !signature.startsWith "\x7b" then some legacy
    else
      match parse signature with
      | none => some legacy
      | some parsed =>
        match (parsed.get? "v").bind Json.asNat?, (parsed.get? "id").bind Json.asStr? with
        | some 1, some id =>
          match (parsed.get? "phase").bind Json.asStr? with
          | some "commentary" => some ⟨id, some "commentary"⟩
          | some "final_answer" => some ⟨id, some "final_answer"⟩
          | _ => some ⟨id, none⟩
        | _, _ => some legacy

def inputText (text : String) : Json :=
  .obj [("type", .str "input_text"), ("text", .str (sanitizeSurrogates text))]

def inputImage (data mimeType : String) : Json :=
  .obj [("type", .str "input_image"), ("detail", .str "auto"),
    ("image_url", .str ("data:" ++ mimeType ++ ";base64," ++ data))]

def convertInputBlock : InputBlock → Json
  | .text text _ => inputText text
  | .image data mimeType => inputImage data mimeType

def InputBlock.text? : InputBlock → Option String
  | .text text _ => some text
  | .image _ _ => none

def convertToolResultOutput (model : Model) (content : List InputBlock) : Json :=
  let textResult := "\n".intercalate (content.filterMap InputBlock.text?)
  let images := content.filter fun block => (InputBlock.text? block).isNone
  let hasText := textResult ≠ ""
  if images.isEmpty || !model.input.contains "image" then
    .str (sanitizeSurrogates
      (if hasText then textResult
      else if images.isEmpty then "(no tool output)" else "(see attached image)"))
  else .arr ((if hasText then [inputText textResult] else []) ++ images.map convertInputBlock)

/-- The input property of each grammar tool. -/
abbrev GrammarToolInputProperties := String → Option String

def getGrammarToolInput (toolName : String) (arguments : List (String × Json))
    (inputProperty : String) : Except String String :=
  match ((Json.obj arguments).get? inputProperty).bind Json.asStr? with
  | some input => .ok input
  | none => .error ("Grammar tool call \"" ++ toolName ++ "\" requires argument \"" ++
      inputProperty ++ "\" to be a string.")

section Conversion

variable (parse : JsonParser) (grammarToolInputProperties : GrammarToolInputProperties)
variable (model : ResponsesModel)

def convertToolCall (source : AssistantMessage) (call : ToolCall) : Except String Json :=
  let isSameProviderAndApi := source.provider = model.provider && source.api = model.api
  let isDifferentModel := isSameProviderAndApi && source.model ≠ model.id
  let canReplayNamespace := isSameProviderAndApi && source.model = model.id
  let customInputProperty := grammarToolInputProperties call.name
  let (callId, itemIdRaw) := splitCallId call.id
  let namesFunctionCall := itemIdRaw.any fun itemId => itemId.startsWith "fc_"
  let itemId :=
    if (isDifferentModel && namesFunctionCall) ||
        (customInputProperty.isNone && !namesFunctionCall) then none
    else itemIdRaw
  let toolNamespace := if canReplayNamespace then call.toolNamespace else none
  match customInputProperty with
  | some inputProperty => do
    let input ← getGrammarToolInput call.name call.arguments inputProperty
    return Json.ofFields
      [("type", some (.str "custom_tool_call")), ("id", itemId.map .str),
        ("call_id", some (.str callId)), ("name", some (.str call.name)),
        ("input", some (.str (sanitizeSurrogates input))), ("namespace", toolNamespace.map .str)]
  | none =>
    .ok (Json.ofFields
      [("type", some (.str "function_call")), ("id", itemId.map .str),
        ("call_id", some (.str callId)), ("name", some (.str call.name)),
        ("arguments", some (.str (String.ofList (Json.obj call.arguments).stringify))),
        ("namespace", toolNamespace.map .str)])

/-- The identifier of a text's message: the signature's, if it has one. -/
def messageId (msgIndex textBlockIndex : Nat) (signature : Option TextSignature) : String :=
  match truthy (signature.map (·.id)) with
  | some id => if utf16Length id > 64 then "msg_" ++ shortHash id else id
  | none =>
    if textBlockIndex = 0 then "msg_pi_" ++ toString msgIndex
    else "msg_pi_" ++ toString msgIndex ++ "_" ++ toString textBlockIndex

def convertText (msgIndex textBlockIndex : Nat) (text : String) (textSignature : Option String) :
    Json :=
  let parsedSignature := parseTextSignature parse textSignature
  Json.ofFields
    [("type", some (.str "message")), ("role", some (.str "assistant")),
      ("content", some (.arr [.obj [("type", .str "output_text"),
        ("text", .str (sanitizeSurrogates text)), ("annotations", .arr [])]])),
      ("status", some (.str "completed")),
      ("id", some (.str (messageId msgIndex textBlockIndex parsedSignature))),
      ("phase", (parsedSignature.bind (·.phase)).map .str)]

/-- The items of an answer's blocks, from a text block on. -/
def convertBlocks (source : AssistantMessage) (msgIndex : Nat) :
    Nat → List AssistantContent → Except String (List Json)
  | _, [] => .ok []
  | textBlockIndex, .thinking _ thinkingSignature _ :: blocks =>
    match truthy thinkingSignature with
    | none => convertBlocks source msgIndex textBlockIndex blocks
    | some signature =>
      match parse signature with
      | none => .error "Unexpected token in JSON"
      | some reasoningItem => do
        let items ← convertBlocks source msgIndex textBlockIndex blocks
        return reasoningItem :: items
  | textBlockIndex, .text text textSignature :: blocks => do
    let items ← convertBlocks source msgIndex (textBlockIndex + 1) blocks
    return convertText parse msgIndex textBlockIndex text textSignature :: items
  | textBlockIndex, .toolCall call :: blocks => do
    let item ← convertToolCall grammarToolInputProperties model source call
    let items ← convertBlocks source msgIndex textBlockIndex blocks
    return item :: items

def convertAssistant (msgIndex : Nat) (message : AssistantMessage) : Except String (List Json) :=
  convertBlocks parse grammarToolInputProperties model message msgIndex 0
    (message.content.getD [])

def convertToolResult (result : ToolResultMessage) : Json :=
  let kind := if (grammarToolInputProperties result.toolName).isSome then "custom_tool_call_output"
    else "function_call_output"
  .obj [("type", .str kind), ("call_id", .str (splitCallId result.toolCallId).1),
    ("output", convertToolResultOutput model.toModel (result.content.getD []))]

def userItem (content : List Json) : Json :=
  .obj [("role", .str "user"), ("content", .arr content)]

def convertMessage (msgIndex : Nat) : Message → Except String (List Json)
  | .user (some (.text text)) _ => .ok [userItem [inputText text]]
  | .user (some (.blocks [])) _ => .ok []
  | .user (some (.blocks content)) _ => .ok [userItem (content.map convertInputBlock)]
  | .user none _ => .ok []
  | .assistant message => convertAssistant parse grammarToolInputProperties model msgIndex message
  | .toolResult result => .ok [convertToolResult grammarToolInputProperties model result]

def convertMessages : Nat → List Message → Except String (List Json)
  | _, [] => .ok []
  | msgIndex, message :: messages => do
    let items ← convertMessage parse grammarToolInputProperties model msgIndex message
    let others ← convertMessages (if items.isEmpty then msgIndex else msgIndex + 1) messages
    return items ++ others

def systemItem (systemPrompt : String) : Json :=
  let role :=
    if model.reasoning && model.supportsDeveloperRole ≠ some false then "developer" else "system"
  .obj [("role", .str role), ("content", .str (sanitizeSurrogates systemPrompt))]

def convertResponsesMessages (messages : List Message) (systemPrompt : Option String)
    (allowedToolCallProviders : List String) (includeSystemPrompt : Bool) (now : Int) :
    Except String (List Json) := do
  let transformedMessages := transformMessages messages model.toModel
    (some (normalizeToolCallId allowedToolCallProviders)) now
  let system := if includeSystemPrompt then (truthy systemPrompt).toList else []
  let items ← convertMessages parse grammarToolInputProperties model 0 transformedMessages
  return system.map (systemItem model) ++ items

end Conversion

end Recode.Ai

import Recode.Ai.CodexRequests
import Recode.Lib.Json.Text

/-! # Continuing requests mean what full ones do

As long as every response that a connection remembers was kept in the conversation or left
nothing there, a request that continues a response asks the server for what the full request
asks. -/

namespace Recode.Ai

open List Option StreamEnd Message

/-- A request that continues a response asks for what its full body asks. -/
def Sent.MeansFull (sent : Sent) : Prop :=
  sent.request.previousResponseId ≠ none →
    sent.effective = some (sent.full.input.getD []) ∧ sent.request.others = sent.full.others

section Conversion

variable {parse : JsonParser} {grammarToolInputProperties : GrammarToolInputProperties}
variable {model : ResponsesModel} {source : AssistantMessage}

/-! ## The items of an answer -/

variable {normalize : Option IdNormalizer}

theorem convertToolCall_transform (call : ToolCall)
    (same : source.isSameModel model.toModel = true) :
    transformToolCall model.toModel normalize source call = call := by
  simp only [transformToolCall, callId, same, if_true]

theorem convertBlocks_transform (same : source.isSameModel model.toModel = true)
    (msgIndex textBlockIndex : Nat) (blocks : List AssistantContent) :
    convertBlocks parse grammarToolInputProperties model source msgIndex textBlockIndex
        (blocks.flatMap (transformBlock model.toModel normalize source)) =
      convertBlocks parse grammarToolInputProperties model source msgIndex textBlockIndex
        blocks := by
  induction blocks generalizing textBlockIndex with
  | nil => rfl
  | cons block blocks ih =>
    rw [flatMap_cons]
    cases block with
    | text text textSignature =>
      rw [transformBlock, if_pos same, singleton_append, convertBlocks, convertBlocks, ih]
    | toolCall call =>
      rw [transformBlock, convertToolCall_transform call same, singleton_append,
        convertBlocks, convertBlocks, ih]
    | thinking thinking thinkingSignature redacted =>
      rw [transformBlock, same]
      cases signed : Text.truthy thinkingSignature with
      | none =>
        have skipped : convertBlocks parse grammarToolInputProperties model source msgIndex
            textBlockIndex (.thinking thinking thinkingSignature redacted :: blocks) =
              convertBlocks parse grammarToolInputProperties model source msgIndex
                textBlockIndex blocks := by
          rw [convertBlocks, signed]
        simp only [isSome_none, Bool.and_false, Bool.false_eq_true, if_true, if_false]
        split
        · rw [singleton_append, convertBlocks, signed, skipped]
          exact ih textBlockIndex
        split
        · rw [nil_append, skipped, ih]
        · rw [singleton_append, convertBlocks, signed, skipped]
          exact ih textBlockIndex
      | some signature =>
        simp only [isSome_some, Bool.and_self, if_true, ite_self]
        rw [singleton_append, convertBlocks, convertBlocks, signed, ih]

theorem convertBlocks_source {message other : AssistantMessage}
    (provider : message.provider = other.provider) (api : message.api = other.api)
    (name : message.model = other.model) (msgIndex textBlockIndex : Nat)
    (blocks : List AssistantContent) :
    convertBlocks parse grammarToolInputProperties model message msgIndex textBlockIndex blocks =
      convertBlocks parse grammarToolInputProperties model other msgIndex textBlockIndex
        blocks := by
  induction blocks generalizing textBlockIndex with
  | nil => rfl
  | cons block blocks ih =>
    cases block with
    | text text textSignature => rw [convertBlocks, convertBlocks, ih]
    | thinking thinking thinkingSignature redacted => rw [convertBlocks, convertBlocks, ih]
    | toolCall call =>
      rw [convertBlocks, convertBlocks, ih, convertToolCall, convertToolCall, provider, api,
        name]

theorem convertAssistant_transform
    (same : source.isSameModel model.toModel = true) (msgIndex : Nat) :
    convertAssistant parse grammarToolInputProperties model msgIndex
        (transformAssistant model.toModel normalize source) =
      convertAssistant parse grammarToolInputProperties model msgIndex source := by
  have blocks := @convertBlocks_transform parse grammarToolInputProperties model source normalize
    same msgIndex 0 (source.content.getD [])
  rw [convertAssistant, convertAssistant, ← blocks]
  exact @convertBlocks_source parse grammarToolInputProperties model
    (transformAssistant model.toModel normalize source) source rfl rfl rfl msgIndex 0 _

theorem isToolOutput_convertToolResult (result : ToolResultMessage) :
    isToolOutput (convertToolResult grammarToolInputProperties model result) = true := by
  rw [convertToolResult]
  split <;> rfl

theorem convertMessages_results (msgIndex : Nat) (now : Int) (calls : List ToolCall) :
    ∃ items, convertMessages parse grammarToolInputProperties model msgIndex
        (calls.map (noResult now)) = .ok items ∧ ∀ item ∈ items, isToolOutput item = true := by
  induction calls generalizing msgIndex with
  | nil => exact ⟨[], rfl, nofun⟩
  | cons call calls ih =>
    obtain ⟨items, converted, outputs⟩ := ih (msgIndex + 1)
    let result : ToolResultMessage :=
      { toolCallId := call.id, toolName := call.name, isError := true, timestamp := now,
        content := some [.text "No result provided" none] }
    refine ⟨convertToolResult grammarToolInputProperties model result :: items, ?_, ?_⟩
    · have shape : noResult now call = .toolResult result := rfl
      rw [map_cons, shape, convertMessages, convertMessage]
      change (convertMessages parse grammarToolInputProperties model (msgIndex + 1)
        (calls.map (noResult now))).bind (fun others => .ok ([_] ++ others)) = _
      rw [converted]
      rfl
    · intro item member
      rcases mem_cons.mp member with first | later
      · rw [first]
        exact isToolOutput_convertToolResult _
      · exact outputs item later

/-! ## What a continuation records -/

theorem transformMessages_single {model : Model} {normalize : Option IdNormalizer}
    (message : AssistantMessage) (now : Int) :
    transformMessages [.assistant message] model normalize now =
      if message.isKept then
        .assistant (transformAssistant model normalize
          { message with content := some (message.content.getD []) }) ::
          (transformAssistant model normalize
            { message with content := some (message.content.getD []) }).toolCalls.map
              (noResult now)
      else [] := by
  have aware : (assistant message).normalizeContent.downgradeUnsupportedImages model =
      .assistant { message with content := some (message.content.getD []) } := by
    rw [normalizeContent]
    unfold downgradeUnsupportedImages
    split <;> rfl
  have nothing (existing : List String) : secondPass now [] existing [] = [] := rfl
  have synthetic (calls : List ToolCall) :
      secondPass now calls [] [] = calls.map (noResult now) := by
    have missing : calls.filter (fun call => call.id ∉ ([] : List String)) = calls :=
      filter_eq_self.mpr fun call _ => decide_eq_true not_mem_nil
    rw [secondPass, insertSyntheticToolResults, missing]
  have keeps (content : Option (List AssistantContent)) :
      (transformAssistant model normalize { message with content := content }).isKept =
        message.isKept := rfl
  rw [transformMessages, imageAwareMessages, map_cons, map_nil, aware, firstPass,
    firstPass, secondPass, nothing, synthetic, keeps]
  cases message.isKept with
  | false => rfl
  | true =>
    simp only [Bool.not_true, Bool.false_eq_true, if_false, if_true]
    split
    · rename_i none_
      rw [isEmpty_iff.mp none_]
      rfl
    · rfl

variable {codex : CodexModel} {ended : StreamEnd} {now : Int}

theorem isKept_output : (ended.output codex now).isKept = true ↔ ended.stopReason ≠ .error := by
  have mapped : (mapStopReason ended.status ended.incompleteReason).stopReason ≠ .aborted := by
    unfold mapStopReason
    split <;> try split
    all_goals exact nofun
  have stopped : ended.stopReason ≠ .aborted := by
    rw [stopReason]
    split
    · exact nofun
    · exact mapped
  rw [AssistantMessage.isKept, output]
  simp only [Bool.and_eq_true, decide_eq_true_eq]
  exact ⟨fun kept => kept.1, fun kept => ⟨kept, stopped⟩⟩

theorem responseItems_dropped (failed : ended.stopReason = .error) :
    responseItems parse codex grammarToolInputProperties (ended.output codex now) now = .ok [] := by
  have dropped : (ended.output codex now).isKept = false := by
    rw [← Bool.not_eq_true, isKept_output]
    exact fun other => other failed
  rw [responseItems, convertResponsesMessages, transformMessages_single, dropped]
  rfl

theorem responseItems_kept (kept : ended.stopReason ≠ .error) :
    responseItems parse codex grammarToolInputProperties (ended.output codex now) now =
      recordedItems parse codex grammarToolInputProperties (ended.output codex now) := by
  have same : (ended.output codex now).isSameModel codex.toModel = true := by
    rw [AssistantMessage.isSameModel, output, codex.codex]
    simp only [decide_true, Bool.and_self]
  have content : ({ ended.output codex now with
      content := some ((ended.output codex now).content.getD []) } : AssistantMessage) =
        ended.output codex now := rfl
  rw [responseItems, convertResponsesMessages, transformMessages_single, isKept_output.mpr kept,
    content, recordedItems]
  simp only [if_true]
  rw [convertMessages, convertMessage, convertAssistant_transform same]
  cases convertAssistant parse grammarToolInputProperties codex.toResponsesModel 0
      (ended.output codex now) with
  | error message => rfl
  | ok items =>
    obtain ⟨results, converted, outputs⟩ := @convertMessages_results parse
      grammarToolInputProperties codex.toResponsesModel (if items.isEmpty then 0 else 0 + 1) now
      (transformAssistant codex.toModel (some (normalizeToolCallId codexToolCallProviders))
        (ended.output codex now)).toolCalls
    have none_ : results.filter (fun item => !isToolOutput item) = [] := by
      refine filter_eq_nil_iff.mpr ?_
      intro item member
      rw [outputs item member]
      exact Bool.false_ne_true
    dsimp only [bind, Except.bind]
    rw [converted]
    change Except.ok ((items ++ results).filter fun item => !isToolOutput item) = _
    rw [filter_append, none_, append_nil]
    rfl

end Conversion

/-! ## Continued requests -/

/-- What follows the remembered response is what the input has behind its baseline. -/
theorem delta_continues {body : RequestBody} {continuation : CachedWebSocketContinuationState}
    {delta : List Json} (found : getCachedWebSocketInputDelta body continuation = some delta) :
    body.input.getD [] = continuation.baseline ++ delta := by
  rw [getCachedWebSocketInputDelta] at found
  split at found
  · cases found
  dsimp only at found
  split at found
  · cases found
  split at found
  · cases found
  rename_i equal
  cases found
  rw [Bool.not_eq_true, Bool.not_eq_false'] at equal
  have texts : (Json.arr ((body.input.getD []).take continuation.baseline.length)).stringify =
      (Json.arr continuation.baseline).stringify := of_decide_eq_true equal
  have items := Json.arr.inj (Json.stringify_injective texts)
  calc body.input.getD [] = (body.input.getD []).take continuation.baseline.length ++
        (body.input.getD []).drop continuation.baseline.length :=
      (take_append_drop ..).symm
    _ = continuation.baseline ++ (body.input.getD []).drop continuation.baseline.length := by
      rw [items]

/-- The server knows the response that a connection remembers, and it knows the connection's
request as the full body that the request stands for. -/
structure Remembers (contexts : Contexts) (connection : CachedWebSocketConnection) : Prop where
  continuation : ∀ known, connection.continuation = some known →
    contexts known.lastResponseId = some known.baseline
  flight : ∀ flight, connection.inFlight = some flight →
    effectiveInput contexts flight.request = some (flight.full.input.getD [])

section Requests

variable {contexts after : Contexts} {connection : CachedWebSocketConnection}

theorem Remembers.build (remembers : Remembers contexts connection) {full : RequestBody}
    (own : full.previousResponseId = none) :
    effectiveInput contexts
        (buildCachedWebSocketRequestBody connection.continuation full).1 =
      some (full.input.getD []) ∧
    (buildCachedWebSocketRequestBody connection.continuation full).1.others = full.others ∧
    ∀ known, (buildCachedWebSocketRequestBody connection.continuation full).2 = some known →
      connection.continuation = some known := by
  have inFull : effectiveInput contexts full = some (full.input.getD []) := by
    rw [effectiveInput, own]
  cases continuation : connection.continuation with
  | none => exact ⟨inFull, rfl, fun _ same => same⟩
  | some known =>
    rw [buildCachedWebSocketRequestBody]
    split
    · rename_i delta responseId found named
      refine ⟨?_, rfl, fun _ same => same⟩
      obtain rfl : known.lastResponseId = responseId := by
        rw [Text.truthy, filter_some] at named
        split at named
        · exact some.inj named
        · cases named
      rw [effectiveInput]
      dsimp only
      rw [remembers.continuation known continuation, map_some, getD_some, delta_continues found]
    · exact ⟨inFull, rfl, fun _ same => by cases same⟩

theorem Remembers.request (remembers : Remembers contexts connection) (useCachedContext : Bool)
    {full : RequestBody} (own : full.previousResponseId = none) :
    effectiveInput contexts (connection.request useCachedContext full).1 =
      some (full.input.getD []) ∧
    (connection.request useCachedContext full).1.others = full.others ∧
    ∀ known, (connection.request useCachedContext full).2 = some known →
      connection.continuation = some known := by
  rw [CachedWebSocketConnection.request]
  split
  · exact remembers.build own
  · exact ⟨by rw [effectiveInput, own], rfl, fun _ same => same⟩

/-- The server forgets nothing. -/
def Extends (contexts after : Contexts) : Prop :=
  ∀ responseId context, contexts responseId = some context → after responseId = some context

theorem respond_extends {responseId : Option String} {context : List Json}
    (new : ∀ id, responseId = some id → contexts id = none) :
    Extends contexts (respond contexts responseId context) := by
  intro other known found
  cases responseId with
  | none => exact found
  | some id =>
    rw [respond, Function.update_of_ne]
    · exact found
    · rintro rfl
      rw [new other rfl] at found
      cases found

theorem Extends.effectiveInput (extends_ : Extends contexts after) {request : RequestBody}
    {input : List Json} (asked : effectiveInput contexts request = some input) :
    Ai.effectiveInput after request = some input := by
  rw [Ai.effectiveInput] at asked ⊢
  cases named : request.previousResponseId with
  | none =>
    rw [named] at asked
    exact asked
  | some responseId =>
    rw [named] at asked
    obtain ⟨context, found, whole⟩ := map_eq_some_iff.mp asked
    rw [map_eq_some_iff]
    exact ⟨context, extends_ responseId context found, whole⟩

theorem Remembers.extends (remembers : Remembers contexts connection)
    (extends_ : Extends contexts after) : Remembers after connection where
  continuation known found := extends_ _ _ (remembers.continuation known found)
  flight flight found := extends_.effectiveInput (remembers.flight flight found)

end Requests

/-! ## Whole sessions -/

section Sessions

variable (parse : JsonParser)

/-- A request's own body continues no response, and a response that ends without an error is
kept in the conversation or has left nothing in it. -/
def CodexEvent.KeepsRecord : CodexEvent → Prop
  | .quiet => True
  | .send full => full.previousResponseId = none
  | .finish model grammarToolInputProperties ended =>
    (mapStopReason ended.status ended.incompleteReason).stopReason ≠ .error ∨
      ∀ timestamp, recordedItems parse model grammarToolInputProperties
        (ended.output model timestamp) = .ok []

variable {parse} {session after : CodexSession}

structure Faithful (session : CodexSession) : Prop where
  connection : ∀ connection, session.connection = some connection →
    Remembers session.contexts connection
  sent : ∀ sent ∈ session.sent, sent.MeansFull

theorem Faithful.send (faithful : Faithful session) {full request : RequestBody}
    (means : (⟨full, request, effectiveInput session.contexts request⟩ : Sent).MeansFull) :
    ∀ sent ∈ (session.send full request).sent, sent.MeansFull := by
  intro sent member
  rcases mem_append.mp member with earlier | last
  · exact faithful.sent sent earlier
  · rw [mem_singleton.mp last]
    exact means

/-- What a continuation records is what the server's context has behind the full input. -/
theorem recorded_items {model : CodexModel}
    {grammarToolInputProperties : GrammarToolInputProperties} {ended : StreamEnd} {now : Int}
    (keeps : (CodexEvent.finish model grammarToolInputProperties ended).KeepsRecord parse)
    {items : List Json} (recorded : responseItems parse model grammarToolInputProperties
      (ended.output model now) now = .ok items) :
    recordedItems parse model grammarToolInputProperties (ended.output model now) = .ok items := by
  by_cases failed : ended.stopReason = .error
  · rw [responseItems_dropped failed] at recorded
    cases recorded
    have mapped : (mapStopReason ended.status ended.incompleteReason).stopReason = .error := by
      rw [stopReason] at failed
      split at failed
      · cases failed
      · exact failed
    exact (keeps.resolve_left fun kept => kept mapped) now
  · rwa [← responseItems_kept failed]

theorem Remembers.record {contexts : Contexts} {connection : CachedWebSocketConnection}
    (remembers : Remembers contexts connection) {flight : InFlight}
    (busy : connection.inFlight = some flight) {input items : List Json}
    (asked : effectiveInput contexts flight.request = some input) {model : CodexModel}
    {grammarToolInputProperties : GrammarToolInputProperties} {ended : StreamEnd} {now : Int}
    (new : ∀ responseId, ended.responseId = some responseId → contexts responseId = none)
    (keeps : (CodexEvent.finish model grammarToolInputProperties ended).KeepsRecord parse)
    (produced : ∀ recorded, recordedItems parse model grammarToolInputProperties
      (ended.output model now) = .ok recorded → items = recorded)
    {next : Option CachedWebSocketContinuationState}
    (recorded : recordContinuation parse flight connection.continuation model
      grammarToolInputProperties ended now = .ok next) :
    ∀ known, next = some known → respond contexts ended.responseId (input ++ items)
      known.lastResponseId = some known.baseline := by
  intro known remembered
  have old (same : next = connection.continuation) :
      respond contexts ended.responseId (input ++ items) known.lastResponseId =
        some known.baseline :=
    respond_extends new _ _ (remembers.continuation known (same ▸ remembered))
  rw [recordContinuation] at recorded
  split at recorded
  · split at recorded
    · rename_i responseId named
      cases converted : responseItems parse model grammarToolInputProperties
          (ended.output model now) now with
      | error message =>
        rw [converted] at recorded
        cases recorded
      | ok lastItems =>
        rw [converted] at recorded
        cases recorded
        cases remembered
        have given : ended.responseId = some responseId := (filter_eq_some_iff.mp named).1
        have sameItems := produced _ (recorded_items keeps converted)
        have sameInput := some.inj (asked.symm.trans (remembers.flight flight busy))
        rw [given, respond, Function.update_self, sameItems, sameInput]
        rfl
    · exact old (Except.ok.inj recorded).symm
  · exact old (Except.ok.inj recorded).symm

theorem CodexStep.kept {event : CodexEvent} (step : CodexStep parse session event after)
    (keeps : event.KeepsRecord parse) (faithful : Faithful session) : Faithful after := by
  cases step with
  | connect absent =>
    refine ⟨?_, faithful.sent⟩
    intro connection found
    cases found
    exact ⟨fun _ known => (by cases known), fun _ flight => (by cases flight)⟩
  | drop => exact ⟨fun _ found => (by cases found), faithful.sent⟩
  | serve responseId context new =>
    refine ⟨?_, faithful.sent⟩
    intro connection found
    have extended : Extends session.contexts
        (respond session.contexts (some responseId) context) := by
      refine respond_extends ?_
      intro id same
      rw [← some.inj same]
      exact new
    exact (faithful.connection connection found).extends extended
  | sendApart full =>
    refine ⟨faithful.connection, faithful.send ?_⟩
    intro named
    exact absurd keeps named
  | send connection useCachedContext full found free =>
    have remembers := faithful.connection connection found
    obtain ⟨effective, others, kept⟩ := remembers.request useCachedContext keeps
    refine ⟨?_, faithful.send fun _ => ⟨effective, others⟩⟩
    intro changed same
    cases same
    refine ⟨fun known named => remembers.continuation known (kept known named), ?_⟩
    intro flight underWay
    cases underWay
    exact effective
  | finish connection flight model grammarToolInputProperties ended now input items next found
      busy asked produced new recorded =>
      refine ⟨?_, faithful.sent⟩
      intro changed same
      cases same
      refine ⟨?_, fun _ flight => (by cases flight)⟩
      exact (faithful.connection connection found).record busy asked new keeps produced recorded

/-- As long as every response that ends without an error is kept or has left nothing, every
request that continues a response asks for what its full body asks. -/
theorem requests_meanFull (reachable : CodexReachable parse (·.KeepsRecord parse) session) :
    ∀ sent ∈ session.sent, sent.MeansFull := by
  have faithful : Faithful session := by
    induction reachable with
    | initial => exact ⟨fun _ found => (by cases found), fun _ member => (by cases member)⟩
    | step _ step allows ih => exact step.kept allows ih
  exact faithful.sent

end Sessions

/-! ## A filtered answer -/

section Example

def noJson : JsonParser := fun _ => none

def codexModel : CodexModel where
  id := "gpt-5"
  api := "openai-codex-responses"
  provider := "openai-codex"
  input := ["text"]
  reasoning := true
  codex := rfl

def question : Json := userItem [inputText "Read the file."]

def followUp : Json := userItem [inputText "Go on."]

def bodyOf (items : List Json) : RequestBody where
  input := some items
  others := [("model", .str "gpt-5"), ("store", .bool false)]

def answer (status : ResponseStatus) (incompleteReason : Option String) : StreamEnd where
  content := [.text "The file says" (some "msg_1")]
  responseId := some "resp_1"
  status := some status
  incompleteReason := incompleteReason

def answerItem : Json := convertText noJson 0 0 "The file says" (some "msg_1")

def asked : CodexSession where
  connection := some { inFlight := some ⟨true, bodyOf [question], bodyOf [question]⟩ }
  sent := [⟨bodyOf [question], bodyOf [question], some [question]⟩]

def answered (items : List Json) : CodexSession :=
  { asked with
    connection := some { continuation := some ⟨bodyOf [question], "resp_1", items⟩ }
    contexts := respond (fun _ => none) (some "resp_1") ([question] ++ [answerItem]) }

def continued (items : List Json) : CodexSession :=
  { (answered items).send (bodyOf ([question] ++ items ++ [followUp]))
      { bodyOf [followUp] with previousResponseId := some "resp_1" } with
    connection := some
      { continuation := some ⟨bodyOf [question], "resp_1", items⟩
        inFlight := some ⟨true, bodyOf ([question] ++ items ++ [followUp]),
          { bodyOf [followUp] with previousResponseId := some "resp_1" }⟩ } }

variable {allowed : CodexEvent → Prop}

theorem reachable_asked (quiet : allowed .quiet)
    (sends : allowed (.send (bodyOf [question]))) : CodexReachable noJson allowed asked :=
  .step (.step .initial (.connect rfl) quiet) (.send {} true (bodyOf [question]) rfl rfl) sends

theorem reachable_answered {status : ResponseStatus}
    {reason : Option String} {items : List Json} (reachable : CodexReachable noJson allowed asked)
    (recorded : responseItems noJson codexModel (fun _ => none)
      ((answer status reason).output codexModel 0) 0 = .ok items)
    (finishes : allowed (.finish codexModel (fun _ => none) (answer status reason))) :
    CodexReachable noJson allowed (answered items) := by
  refine .step reachable (.finish _ ⟨true, bodyOf [question], bodyOf [question]⟩ codexModel
    (fun _ => none) (answer status reason) 0 [question] [answerItem] _ rfl rfl rfl ?_
    (fun _ _ => rfl) ?_) finishes
  · intro produced same
    exact Except.ok.inj same
  · have named : Text.truthy (answer status reason).responseId = some "resp_1" := rfl
    rw [recordContinuation, if_pos rfl, named]
    dsimp only
    rw [recorded]
    rfl

theorem reachable_continued {items : List Json}
    (reachable : CodexReachable noJson allowed (answered items))
    (continues : buildCachedWebSocketRequestBody
      (some ⟨bodyOf [question], "resp_1", items⟩) (bodyOf ([question] ++ items ++ [followUp])) =
        ({ bodyOf [followUp] with previousResponseId := some "resp_1" },
          some ⟨bodyOf [question], "resp_1", items⟩))
    (sends : allowed (.send (bodyOf ([question] ++ items ++ [followUp])))) :
    CodexReachable noJson allowed (continued items) := by
  have step := @CodexStep.send noJson (answered items)
    { continuation := some ⟨bodyOf [question], "resp_1", items⟩ } true
    (bodyOf ([question] ++ items ++ [followUp])) rfl rfl
  rw [CachedWebSocketConnection.request, if_pos rfl] at step
  dsimp only at step
  rw [continues] at step
  exact .step reachable step sends

/-- A request that goes on behind the remembered response is sent as what is new in it. -/
theorem delta_of_baseline {body : RequestBody} {known : CachedWebSocketContinuationState}
    {rest : List Json} (others : body.others = known.lastRequestBody.others)
    (input : body.input = some (known.baseline ++ rest)) :
    getCachedWebSocketInputDelta body known = some rest := by
  have equal : responseInputsEqual known.baseline known.baseline = true := decide_eq_true rfl
  have match_ : requestBodiesMatchExceptInput body known.lastRequestBody = true := by
    rw [requestBodiesMatchExceptInput, others]
    exact decide_eq_true rfl
  rw [getCachedWebSocketInputDelta, match_, input]
  simp only [Bool.not_true, Bool.false_eq_true, if_false, getD_some, take_left, drop_left, equal]
  rw [if_neg]
  rw [length_append]
  omega

theorem continues_answer (items : List Json) :
    buildCachedWebSocketRequestBody (some ⟨bodyOf [question], "resp_1", items⟩)
        (bodyOf ([question] ++ items ++ [followUp])) =
      ({ bodyOf [followUp] with previousResponseId := some "resp_1" },
        some ⟨bodyOf [question], "resp_1", items⟩) := by
  have found := @delta_of_baseline (bodyOf ([question] ++ items ++ [followUp]))
    ⟨bodyOf [question], "resp_1", items⟩ [followUp] rfl rfl
  rw [buildCachedWebSocketRequestBody]
  dsimp only
  rw [found]
  rfl

/-- A completed answer is continued. -/
theorem requests_meanFull_completed :
    (continued [answerItem]).sent.map (·.request.previousResponseId) = [none, some "resp_1"] ∧
      ∀ sent ∈ (continued [answerItem]).sent, sent.MeansFull := by
  have recorded : responseItems noJson codexModel (fun _ => none)
      ((answer .completed none).output codexModel 0) 0 = .ok [answerItem] :=
    responseItems_kept nofun
  have kept : (CodexEvent.finish codexModel (fun _ => none)
      (answer .completed none)).KeepsRecord noJson := .inl nofun
  exact ⟨rfl, requests_meanFull (reachable_continued
    (reachable_answered (reachable_asked trivial rfl) recorded kept) (continues_answer _) rfl)⟩

/-- No request's own body continues a response. -/
def CodexEvent.OwnBody : CodexEvent → Prop
  | .send full => full.previousResponseId = none
  | _ => True

/-- A conversation without a filtered answer is continued as if the answer were in it. -/
theorem not_requests_meanFull :
    ¬ ∀ session, CodexReachable noJson CodexEvent.OwnBody session →
      ∀ sent ∈ session.sent, sent.MeansFull := by
  intro means
  have dropped : responseItems noJson codexModel (fun _ => none)
      ((answer .incomplete (some "content_filter")).output codexModel 0) 0 = .ok [] :=
    responseItems_dropped rfl
  have reachable : CodexReachable noJson CodexEvent.OwnBody (continued []) :=
    reachable_continued (reachable_answered (reachable_asked trivial rfl) dropped trivial)
      (continues_answer []) rfl
  have wrong := (means _ reachable _ (mem_append_right _ (mem_singleton_self _))
    nofun).1
  have lengths := congrArg (fun input => (input.getD []).length) wrong
  cases lengths

end Example

end Recode.Ai

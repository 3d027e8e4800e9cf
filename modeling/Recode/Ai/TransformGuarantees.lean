import Recode.Ai.ToolPairing

/-! # What a provider is sent

What is sent is well paired wherever the results of a conversation follow their calls, and it is
stable: preparing it again for the same model changes nothing, as long as the identifiers that
were given are left alone. -/

namespace Recode.Ai

open List Message

variable {model : Model} {normalizeToolCallId : Option IdNormalizer}

/-! ## What each step leaves alone -/

def noImages (content : List InputBlock) : Prop :=
  ∀ block ∈ content, ∃ text signature, block = .text text signature

theorem noImages_replaceImagesWithPlaceholder (placeholder : String) (previous : Bool)
    (content : List InputBlock) :
    noImages (replaceImagesWithPlaceholder placeholder previous content) := by
  induction content generalizing previous with
  | nil => exact fun _ never => nomatch never
  | cons block content ih =>
    cases block with
    | text text signature =>
      intro block member
      rcases mem_cons.mp member with rfl | member
      · exact ⟨text, signature, rfl⟩
      · exact ih _ block member
    | image data mimeType =>
      rw [replaceImagesWithPlaceholder]
      split
      · exact ih true
      · intro block member
        rcases mem_cons.mp member with rfl | member
        · exact ⟨placeholder, none, rfl⟩
        · exact ih true block member

theorem replaceImagesWithPlaceholder_eq {placeholder : String} {previous : Bool}
    {content : List InputBlock} (plain : noImages content) :
    replaceImagesWithPlaceholder placeholder previous content = content := by
  induction content generalizing previous with
  | nil => rfl
  | cons block content ih =>
    obtain ⟨text, signature, rfl⟩ := plain block mem_cons_self
    rw [replaceImagesWithPlaceholder, ih fun block member =>
      plain block (mem_cons_of_mem _ member)]

def Message.IsImageAware (model : Model) (message : Message) : Prop :=
  message.normalizeContent.downgradeUnsupportedImages model = message

theorem isImageAware_downgrade (message : Message) :
    (message.normalizeContent.downgradeUnsupportedImages model).IsImageAware model := by
  by_cases images : "image" ∈ model.input
  · cases message with
    | user content timestamp =>
      cases content <;>
        simp [Message.IsImageAware, normalizeContent,
          downgradeUnsupportedImages, images]
    | assistant message =>
      simp [Message.IsImageAware, normalizeContent,
        downgradeUnsupportedImages, images]
    | toolResult result =>
      simp [Message.IsImageAware, normalizeContent,
        downgradeUnsupportedImages, images]
  · have plain : ∀ placeholder content, replaceImagesWithPlaceholder placeholder false
        (replaceImagesWithPlaceholder placeholder false content) =
          replaceImagesWithPlaceholder placeholder false content :=
      fun placeholder content => replaceImagesWithPlaceholder_eq
        (noImages_replaceImagesWithPlaceholder placeholder false content)
    cases message with
    | user content timestamp =>
      rcases content with _ | content
      · simp [Message.IsImageAware, normalizeContent,
          downgradeUnsupportedImages, images, replaceImagesWithPlaceholder]
      · cases content <;>
          simp [Message.IsImageAware, normalizeContent,
            downgradeUnsupportedImages, images, plain]
    | assistant message =>
      simp [Message.IsImageAware, normalizeContent,
        downgradeUnsupportedImages, images]
    | toolResult result =>
      simp [Message.IsImageAware, normalizeContent,
        downgradeUnsupportedImages, images, plain]

theorem transformBlock_stable {source : AssistantMessage} {block given : AssistantContent}
    (member : given ∈ transformBlock model normalizeToolCallId source block)
    (fixed : ∀ call, block = .toolCall call →
      callId model normalizeToolCallId (transformAssistant model normalizeToolCallId source)
        (callId model normalizeToolCallId source call.id) =
          callId model normalizeToolCallId source call.id) :
    transformBlock model normalizeToolCallId
      (transformAssistant model normalizeToolCallId source) given = [given] := by
  have same : (transformAssistant model normalizeToolCallId source).isSameModel model =
      source.isSameModel model := rfl
  cases block with
  | text text textSignature =>
    by_cases own : source.isSameModel model = true
    · rw [transformBlock, if_pos own, mem_singleton] at member
      rw [member, transformBlock, same, if_pos own]
    · rw [transformBlock, if_neg own, mem_singleton] at member
      rw [member, transformBlock, same, if_neg own]
  | toolCall call =>
    rw [transformBlock, mem_singleton] at member
    rw [member, transformBlock, cons.injEq, AssistantContent.toolCall.injEq]
    refine ⟨?_, rfl⟩
    rw [transformToolCall, ToolCall.mk.injEq]
    refine ⟨fixed call rfl, rfl, rfl, ?_, rfl⟩
    rw [same]
    by_cases own : source.isSameModel model = true
    · rw [if_pos own]
    rw [if_neg own, transformToolCall, if_neg own]
    by_cases signed : (Text.truthy call.thoughtSignature).isSome = true
    · rw [if_pos signed]
      rfl
    · rw [if_neg signed, if_neg signed]
  | thinking thinking thinkingSignature redacted =>
    rw [transformBlock] at member
    split at member
    · next hidden =>
        split at member
        · next own =>
            rw [mem_singleton] at member
            rw [member, transformBlock, if_pos hidden, same, if_pos own]
        · cases member
    split at member
    · next visible signed =>
        rw [mem_singleton] at member
        rw [member, transformBlock, if_neg visible, same, if_pos signed]
    split at member
    · cases member
    next visible unsigned thought =>
    split at member
    · next own =>
        rw [mem_singleton] at member
        rw [member, transformBlock, if_neg visible, same, if_neg unsigned, if_neg thought,
          if_pos own]
    · next other =>
        rw [mem_singleton] at member
        rw [member, transformBlock, same, if_neg other]

theorem transformAssistant_stable {source : AssistantMessage} (fixed : ∀ id ∈ source.toolCallIds,
      callId model normalizeToolCallId (transformAssistant model normalizeToolCallId source)
        (callId model normalizeToolCallId source id) = callId model normalizeToolCallId source id) :
    transformAssistant model normalizeToolCallId
      (transformAssistant model normalizeToolCallId source) =
        transformAssistant model normalizeToolCallId source := by
  have blocks : ∀ content : List AssistantContent,
      (∀ given ∈ content, transformBlock model normalizeToolCallId
        (transformAssistant model normalizeToolCallId source) given = [given]) →
      content.flatMap (transformBlock model normalizeToolCallId
        (transformAssistant model normalizeToolCallId source)) = content := by
    intro content stable
    induction content with
    | nil => rfl
    | cons given content ih =>
      rw [flatMap_cons, stable given mem_cons_self,
        ih fun later member => stable later (mem_cons_of_mem _ member)]
      rfl
  have content : ((source.content.getD []).flatMap
      (transformBlock model normalizeToolCallId source)).flatMap
        (transformBlock model normalizeToolCallId
          (transformAssistant model normalizeToolCallId source)) =
      (source.content.getD []).flatMap (transformBlock model normalizeToolCallId source) := by
    apply blocks
    intro given member
    obtain ⟨block, listed, member⟩ := mem_flatMap.mp member
    apply transformBlock_stable member
    rintro call rfl
    exact fixed call.id (mem_map_of_mem (mem_filterMap.mpr ⟨_, listed, rfl⟩))
  conv_lhs => rw [transformAssistant]
  change AssistantMessage.mk (some (flatMap _ ((some _).getD []))) _ _ _ _ _ = _
  rw [Option.getD_some, content]
  rfl

/-- No identifier is renamed by an answer whose identifiers are left alone. -/
theorem recordIds_stable {message : AssistantMessage}
    (fixed : ∀ id ∈ message.toolCallIds, callId model normalizeToolCallId message id = id)
    (toolCallIdMap : InsertionMap String String) :
    recordIds model normalizeToolCallId toolCallIdMap message = toolCallIdMap := by
  rw [recordIds]
  generalize message.toolCallIds = ids at fixed
  induction ids generalizing toolCallIdMap with
  | nil => rfl
  | cons id ids ih =>
    rw [foldl_cons, if_pos (fixed id mem_cons_self)]
    exact ih toolCallIdMap fun other member => fixed other (mem_cons_of_mem _ member)

variable {messages : List Message} {now : Int}

/-- The first pass leaves a conversation alone when it leaves each answer alone. -/
theorem firstPass_stable (stable : ∀ message, .assistant message ∈ messages →
      transformAssistant model normalizeToolCallId message = message ∧
        ∀ id ∈ message.toolCallIds, callId model normalizeToolCallId message id = id) :
    firstPass model normalizeToolCallId .empty messages = messages := by
  induction messages with
  | nil => rfl
  | cons first messages ih =>
    have rest := ih fun message member => stable message (mem_cons_of_mem _ member)
    cases first with
    | user content timestamp => rw [firstPass, rest]
    | toolResult result => rw [firstPass, rest]; rfl
    | assistant message =>
      obtain ⟨same, ids⟩ := stable message mem_cons_self
      rw [firstPass, same, recordIds_stable ids, rest]

variable {pending : List ToolCall} {message : Message}

/-- Every call of the answer that is read, with the calls `ids`, and of every later one has a
result before the next message that is no result. -/
def Answered : List String → List String → List Message → Prop
  | ids, answered, [] => ∀ id ∈ ids, id ∈ answered
  | ids, answered, .toolResult result :: messages =>
    Answered ids (result.toolCallId :: answered) messages
  | ids, answered, .assistant message :: messages =>
    (∀ id ∈ ids, id ∈ answered) ∧ Answered message.toolCallIds [] messages
  | ids, answered, .user _ _ :: messages => (∀ id ∈ ids, id ∈ answered) ∧ Answered [] [] messages

variable {ids answered : List String}

theorem Answered.of_all (all : ∀ id ∈ ids, id ∈ answered) (rest : Answered [] [] messages) :
    Answered ids answered messages := by
  have wider : ∀ before, Answered [] before messages → (∀ id ∈ ids, id ∈ answered) →
      Answered ids answered messages := by
    clear all rest
    induction messages generalizing answered with
    | nil => exact fun _ _ all => all
    | cons first messages ih =>
      intro before rest all
      cases first with
      | toolResult result => exact ih _ rest fun id called => mem_cons_of_mem _ (all id called)
      | assistant message => exact ⟨all, rest.2⟩
      | user content timestamp => exact ⟨all, rest.2⟩
  exact wider [] rest all

theorem answered_synthetic (calls : List ToolCall)
    (rest : Answered ids ((calls.map ToolCall.id).reverse ++ answered) messages) :
    Answered ids answered (calls.map (noResult now) ++ messages) := by
  induction calls generalizing answered with
  | nil => exact rest
  | cons call calls ih =>
    apply ih
    rwa [map_cons, reverse_cons, append_assoc] at rest

/-- The second pass leaves no call without a result. -/
theorem answered_secondPass (pending : List ToolCall) (existing : List String)
    (messages : List Message) :
    Answered (pending.map ToolCall.id) existing (secondPass now pending existing messages) := by
  have all : ∀ (pending : List ToolCall) existing, ∀ id ∈ pending.map ToolCall.id, id ∈
      ((pending.filter fun call => call.id ∉ existing).map ToolCall.id).reverse ++ existing := by
    intro pending existing id waits
    obtain ⟨call, listed, rfl⟩ := mem_map.mp waits
    by_cases known : call.id ∈ existing
    · exact mem_append_right _ known
    · exact mem_append_left _ (mem_reverse.mpr (mem_map_of_mem
        (mem_filter.mpr ⟨listed, decide_eq_true known⟩)))
  induction messages generalizing pending existing with
  | nil =>
    rw [secondPass, ← append_nil (insertSyntheticToolResults ..)]
    exact answered_synthetic _ (all pending existing)
  | cons first messages ih =>
    cases first with
    | toolResult result => exact ih pending _
    | user content timestamp =>
      rw [secondPass_user]
      exact answered_synthetic _ ⟨all pending existing, ih [] []⟩
    | assistant message =>
      cases sends : message.isKept with
      | false =>
        rw [secondPass_dropped sends]
        exact answered_synthetic _ (.of_all (all pending existing) (ih [] []))
      | true =>
        rw [secondPass_kept sends]
        exact answered_synthetic _ ⟨all pending existing, ih message.toolCalls []⟩

theorem secondPass_stable {existing : List String}
    (answered : Answered (pending.map ToolCall.id) existing messages)
    (kept : ∀ message, .assistant message ∈ messages → message.isKept = true) :
    secondPass now pending existing messages = messages := by
  have none_ : ∀ {pending : List ToolCall} {existing : List String},
      (∀ id ∈ pending.map ToolCall.id, id ∈ existing) →
        insertSyntheticToolResults now pending existing = [] := by
    intro pending existing all
    rw [insertSyntheticToolResults, map_eq_nil_iff, filter_eq_nil_iff]
    intro call member
    rw [decide_eq_true_eq, not_not]
    exact all call.id (mem_map_of_mem member)
  induction messages generalizing existing pending with
  | nil => exact none_ answered
  | cons first messages ih =>
    have kept' : ∀ message, .assistant message ∈ messages → message.isKept = true :=
      fun message member => kept message (mem_cons_of_mem _ member)
    cases first with
    | user content timestamp =>
      rw [secondPass_user, none_ answered.1, @ih [] [] answered.2 kept', nil_append]
    | toolResult result => rw [secondPass, ih answered kept']
    | assistant message =>
      rw [secondPass_kept (kept message mem_cons_self), none_ answered.1, ih answered.2 kept',
        nil_append]

/-! ## What is sent -/

theorem mem_secondPass {messages : List Message} {existing : List String}
    (member : message ∈ secondPass now pending existing messages) :
    (∃ call, message = noResult now call) ∨
      message ∈ messages ∧ ∀ source, message = .assistant source → source.isKept = true := by
  have synthetic : ∀ {pending existing}, message ∈ insertSyntheticToolResults now pending existing →
        ∃ call, message = noResult now call := by
    intro pending existing member
    obtain ⟨call, -, rfl⟩ := mem_map.mp member
    exact ⟨call, rfl⟩
  induction messages generalizing existing pending with
  | nil => exact Or.inl (synthetic member)
  | cons first messages ih =>
    have later : ∀ {pending existing}, message ∈ secondPass now pending existing messages →
        (∃ call, message = noResult now call) ∨ message ∈ first :: messages ∧
            ∀ source, message = .assistant source → source.isKept = true := by
      intro pending existing member
      rcases ih member with made | ⟨listed, kept⟩
      · exact Or.inl made
      · exact Or.inr ⟨mem_cons_of_mem _ listed, kept⟩
    cases first with
    | user content timestamp =>
      rw [secondPass, mem_append, mem_cons] at member
      rcases member with made | rfl | member
      · exact Or.inl (synthetic made)
      · exact Or.inr ⟨mem_cons_self, by simp⟩
      · exact later member
    | toolResult result =>
      rw [secondPass, mem_cons] at member
      rcases member with rfl | member
      · exact Or.inr ⟨mem_cons_self, by simp⟩
      · exact later member
    | assistant source =>
      rw [secondPass, mem_append] at member
      rcases member with made | member
      · exact Or.inl (synthetic made)
      split at member
      · exact later member
      next kept =>
        rw [Bool.not_eq_true', Bool.not_eq_false] at kept
        rcases mem_cons.mp member with rfl | member
        · refine Or.inr ⟨mem_cons_self, ?_⟩
          rintro _ ⟨⟩
          exact kept
        split at member
        · exact later member
        · exact later member

theorem mem_firstPass {toolCallIdMap : InsertionMap String String} {messages : List Message}
    (member : message ∈ firstPass model normalizeToolCallId toolCallIdMap messages) :
    (∃ content timestamp, message = .user content timestamp ∧ message ∈ messages) ∨
      (∃ result id, message = .toolResult { result with toolCallId := id } ∧
        .toolResult result ∈ messages) ∨
      ∃ source, message = .assistant (transformAssistant model normalizeToolCallId source) ∧
        .assistant source ∈ messages := by
  induction messages generalizing toolCallIdMap with
  | nil => cases member
  | cons first messages ih =>
    have later : ∀ {toolCallIdMap},
        message ∈ firstPass model normalizeToolCallId toolCallIdMap messages →
          (∃ content timestamp, message = .user content timestamp ∧ message ∈ first :: messages) ∨
          (∃ result id, message = .toolResult { result with toolCallId := id } ∧
            .toolResult result ∈ first :: messages) ∨
          ∃ source, message = .assistant (transformAssistant model normalizeToolCallId source) ∧
            .assistant source ∈ first :: messages := by
      intro toolCallIdMap member
      rcases ih member with ⟨content, timestamp, same, listed⟩ | ⟨result, id, same, listed⟩ |
        ⟨source, same, listed⟩
      · exact Or.inl ⟨content, timestamp, same, mem_cons_of_mem _ listed⟩
      · exact Or.inr (Or.inl ⟨result, id, same, mem_cons_of_mem _ listed⟩)
      · exact Or.inr (Or.inr ⟨source, same, mem_cons_of_mem _ listed⟩)
    cases first with
    | user content timestamp =>
      rcases mem_cons.mp member with rfl | member
      · exact Or.inl ⟨content, timestamp, rfl, mem_cons_self⟩
      · exact later member
    | toolResult result =>
      rcases mem_cons.mp member with rfl | member
      · exact Or.inr (Or.inl ⟨result, _, rfl, mem_cons_self⟩)
      · exact later member
    | assistant source =>
      rcases mem_cons.mp member with rfl | member
      · exact Or.inr (Or.inr ⟨source, rfl, mem_cons_self⟩)
      · exact later member

theorem isImageAware_toolResult {result : ToolResultMessage}
    (aware : (toolResult result).IsImageAware model) (id : String) :
    (toolResult { result with toolCallId := id }).IsImageAware model := by
  obtain ⟨toolCallId, toolName, content, isError, timestamp⟩ := result
  by_cases images : "image" ∈ model.input <;>
    simpa [Message.IsImageAware, normalizeContent,
      downgradeUnsupportedImages, images] using aware

theorem isImageAware_transformMessages
    (member : message ∈ transformMessages messages model normalizeToolCallId now) :
    message.IsImageAware model := by
  have aware : ∀ message ∈ imageAwareMessages model messages, message.IsImageAware model := by
    intro message listed
    obtain ⟨original, -, rfl⟩ := mem_map.mp listed
    exact isImageAware_downgrade original
  rcases mem_secondPass member with ⟨call, rfl⟩ | ⟨member, -⟩
  · by_cases images : "image" ∈ model.input <;>
      simp [Message.IsImageAware, noResult, normalizeContent,
        downgradeUnsupportedImages, images, replaceImagesWithPlaceholder]
  rcases mem_firstPass member with ⟨content, timestamp, -, listed⟩ | ⟨result, id, rfl, listed⟩ |
    ⟨source, rfl, listed⟩
  · exact aware message listed
  · exact isImageAware_toolResult (aware _ listed) id
  · by_cases images : "image" ∈ model.input <;>
      simp [Message.IsImageAware, transformAssistant, normalizeContent,
        downgradeUnsupportedImages, images]

theorem assistant_transformMessages
    (fixed : FixedIds model normalizeToolCallId (imageAwareMessages model messages))
    {message : AssistantMessage}
    (member : .assistant message ∈ transformMessages messages model normalizeToolCallId now) :
    message.isKept = true ∧ transformAssistant model normalizeToolCallId message = message ∧
      ∀ id ∈ message.toolCallIds, callId model normalizeToolCallId message id = id := by
  rcases mem_secondPass member with ⟨call, made⟩ | ⟨member, kept⟩
  · cases made
  have kept := kept message rfl
  rcases mem_firstPass member with ⟨content, timestamp, other, -⟩ | ⟨result, id, other, -⟩ |
    ⟨source, same, listed⟩
  · cases other
  · cases other
  · obtain rfl := assistant.inj same
    have fixed := fixed source listed kept
    refine ⟨kept, transformAssistant_stable fixed, ?_⟩
    rw [toolCallIds_transformAssistant]
    intro id called
    obtain ⟨own, called', rfl⟩ := mem_map.mp called
    exact fixed own called'

/-- What is sent is sent again as it was. -/
theorem transformMessages_stable
    (fixed : FixedIds model normalizeToolCallId (imageAwareMessages model messages))
    (later : Int) :
    transformMessages (transformMessages messages model normalizeToolCallId now) model
      normalizeToolCallId later = transformMessages messages model normalizeToolCallId now := by
  have aware : imageAwareMessages model
      (transformMessages messages model normalizeToolCallId now) =
        transformMessages messages model normalizeToolCallId now :=
    (map_congr_left fun _ member => isImageAware_transformMessages member).trans
      (map_id _)
  conv_lhs => rw [transformMessages, aware]
  rw [firstPass_stable fun message member => (assistant_transformMessages fixed member).2]
  exact secondPass_stable (answered_secondPass [] [] _)
    fun message member => (assistant_transformMessages fixed member).1

/-- **What a provider is sent is well paired but for results out of place.** A result that is sent
belongs to the answer before it, unless it is one of the conversation that follows no call under
the identifier it is given. A call of an answer that is sent has one result exactly if those that
follow are in order. Sending the same messages again changes nothing when the identifiers that
were given are left alone. -/
theorem transformMessages_wellPaired (messages : List Message) (model : Model)
    (normalizeToolCallId : Option IdNormalizer) (now : Int) :
    (∀ before result after, transformMessages messages model normalizeToolCallId now =
        before ++ .toolResult result :: after → Belongs before result.toolCallId ∨
      ∃ front source rest, imageAwareMessages model messages =
          front ++ .toolResult source :: rest ∧
        result = givenResult (knownIds model normalizeToolCallId .empty front) source ∧
        before.countP isAnswer = front.countP isAnswer ∧
        ¬ FollowsCall model normalizeToolCallId front result.toolCallId) ∧
    (∀ before message after, transformMessages messages model normalizeToolCallId now =
        before ++ .assistant message :: after → ∃ front source rest,
      imageAwareMessages model messages = front ++ .assistant source :: rest ∧
        source.isKept = true ∧ message = transformAssistant model normalizeToolCallId source ∧
        before.countP isAnswer = front.countP isAnswer ∧ ∀ id ∈ message.toolCallIds,
          (OneResult id after ↔ InOrder model normalizeToolCallId front source rest id)) ∧
    (FixedIds model normalizeToolCallId (imageAwareMessages model messages) → ∀ later,
      transformMessages (transformMessages messages model normalizeToolCallId now) model
          normalizeToolCallId later =
        transformMessages messages model normalizeToolCallId now) := by
  refine ⟨fun before result after whole => ?_, fun before message after whole => ?_,
    transformMessages_stable⟩
  · have open_ : ∀ call ∈ ([] : List ToolCall), call.id ∈ ([] : List String) := by simp
    rcases sent_result open_ whole with (belongs | ⟨-, never⟩) |
      ⟨front, source, rest, split, same, count, alone, -⟩
    · exact .inl belongs
    · cases never
    · exact .inr ⟨front, source, rest, split, same, count, alone⟩
  · obtain ⟨front, source, rest, split, kept, rfl, count, rfl⟩ := sent_answer whole
    exact ⟨front, source, rest, split, kept, rfl, count, fun id => oneResult_iff⟩

/-- An answer of another model with some calls. -/
def calling (ids : List String) (stopReason : StopReason) : Message :=
  .assistant ⟨some (ids.map fun id => .toolCall ⟨id, "read", [], none, none⟩), "x", "y", "z",
    stopReason, 1⟩

def resultOf (id : String) : Message := .toolResult ⟨id, "read", some [], false, 2⟩

def target : Model := ⟨"m", "p", "q", []⟩

/-- A result without a call, an answer with two calls of which one is renamed, and its result. -/
def conversation : List Message :=
  [resultOf "z", calling ["a", "b"] .toolUse, resultOf "a", .user (some (.text "go on")) 3]

def renames : IdNormalizer := fun id _ _ => if id = "a" then "call_a" else id

instance {id : String} {after : List Message} : Decidable (OneResult id after) :=
  inferInstanceAs (Decidable (_ = _))

theorem transformMessages_wellPaired_conversation :
    (∀ id ∈ ["call_a", "b"],
      OneResult id ((transformMessages conversation target (some renames) 4).drop 2)) ∧
    transformMessages (transformMessages conversation target (some renames) 4) target
      (some renames) 5 = transformMessages conversation target (some renames) 4 := by
  obtain ⟨-, calls, stable⟩ := transformMessages_wellPaired conversation target (some renames) 4
  refine ⟨?_, stable ?_ 5⟩
  · obtain ⟨front, source, rest, split, -, -, count, one⟩ := calls [_] _ _ rfl
    have first : front = [resultOf "z"] := by
      rcases front with _ | ⟨first, _ | ⟨second, front⟩⟩
      · cases split
      · cases split
        rfl
      · obtain ⟨rfl, -⟩ := cons.inj (cons.inj split).2
        exact absurd rfl (countP_eq_zero.mp count.symm _ (mem_cons_of_mem _ mem_cons_self))
    subst first
    cases split
    intro id called
    refine (one id called).mpr ?_
    rcases mem_cons.mp called with rfl | called
    · exact ⟨rfl, by decide⟩
    · obtain rfl := mem_singleton.mp called
      exact ⟨rfl, by decide⟩
  · rintro source - - id -
    have same : (transformAssistant target (some renames) source).isSameModel target =
        source.isSameModel target := rfl
    rw [callId, callId, same]
    split
    · rfl
    · by_cases renamed : id = "a" <;> simp [renames, renamed]

/-- A result without an answer is sent as it is, so is a second one for a call, a call that is
made twice has two, and an identifier that was given may be changed again. -/
theorem transformMessages_orphan_renamed :
    ¬ WellPaired (transformMessages [resultOf "a"] target none 0) ∧
    (∀ messages ∈ [[calling ["a"] .toolUse, resultOf "a", resultOf "a"],
        [calling ["a", "a"] .toolUse],
        [calling ["a"] .toolUse, calling ["a"] .error, resultOf "a"]],
      ¬ WellPaired (transformMessages messages target none 0)) ∧
    InjectiveIds target (some fun id _ _ => "call_" ++ id)
        (imageAwareMessages target [calling ["a"] .toolUse]) ∧ transformMessages
          (transformMessages [calling ["a"] .toolUse] target (some fun id _ _ => "call_" ++ id) 0)
          target (some fun id _ _ => "call_" ++ id) 0 ≠
        transformMessages [calling ["a"] .toolUse] target (some fun id _ _ => "call_" ++ id) 0 := by
  refine ⟨fun paired => ?_, ?_, ?_, fun same => ?_⟩
  · obtain ⟨earlier, message, between, whole, -⟩ := paired.results [] _ [] rfl
    cases earlier <;> cases whole
  · simp only [forall_mem_cons]
    refine ⟨fun paired => ?_, fun paired => ?_, fun paired => ?_, nofun⟩
    · exact absurd (paired.calls [] _ _ rfl "a" (by decide)) (by decide)
    · exact absurd (paired.calls [] _ _ rfl "a" (by decide)) (by decide)
    · exact absurd (paired.calls [] _ _ rfl "a" (by decide)) (by decide)
  · rintro _ ⟨⟩ source - first - second - same
    exact String.append_right_inj _ |>.mp same
  · exact absurd (congrArg occurringIds same) (by decide)

end Recode.Ai

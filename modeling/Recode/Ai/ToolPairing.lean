import Recode.Ai.TransformMessages
import Mathlib.Data.List.Count

/-! # Tool calls and their results

Where do the results that a provider is sent come from? The pass adds results that are missing,
and drops and moves none. So a call has the results that follow its answer under the identifier
it is given, or one that was added. -/

namespace Recode.Ai

open List Message

def Message.isToolResult : Message → Bool
  | .toolResult _ => true
  | _ => false

def Message.isResultOf (id : String) : Message → Bool
  | .toolResult result => result.toolCallId = id
  | _ => false

/-- An answer that is sent. -/
def Message.isAnswer : Message → Bool
  | .assistant message => message.isKept
  | _ => false

/-- A message that does not end the results of the answer before it: a result, or an answer that
is not sent. -/
def Message.isPassed : Message → Bool
  | .toolResult _ => true
  | .assistant message => !message.isKept
  | .user _ _ => false

/-- A result for `id` at the end of some messages would belong to the answer it follows. -/
def Belongs (before : List Message) (id : String) : Prop :=
  ∃ earlier message between, before = earlier ++ .assistant message :: between ∧
    (∀ other ∈ between, other.isToolResult = true) ∧ id ∈ message.toolCallIds

/-- The messages after an answer hold one result for `id` before another message. -/
def OneResult (id : String) (after : List Message) : Prop :=
  ((after.takeWhile isToolResult).filter (isResultOf id)).length = 1

/-- Every result belongs to a call of the answer it follows, and every call has one result. -/
structure WellPaired (messages : List Message) : Prop where
  results : ∀ before result after, messages = before ++ .toolResult result :: after →
    Belongs before result.toolCallId
  calls : ∀ before message after, messages = before ++ .assistant message :: after →
    ∀ id ∈ message.toolCallIds, OneResult id after

/-! ## What the pass can pair -/

section Conversation

variable (model : Model) (normalizeToolCallId : Option IdNormalizer)

/-- The renamed identifiers as they are known after some messages. -/
def knownIds : InsertionMap String String → List Message → InsertionMap String String :=
  foldl fun known message => match message with
    | .assistant message => recordIds model normalizeToolCallId known message
    | _ => known

/-- A result under the identifier that it is given. -/
def givenResult (known : InsertionMap String String) (result : ToolResultMessage) :
    ToolResultMessage :=
  { result with toolCallId := resultId known result.toolCallId }

/-- An answer that is sent has a call that is given `id`, and only results and answers that are
not sent come after it. -/
def FollowsCall (before : List Message) (id : String) : Prop :=
  ∃ earlier message between, before = earlier ++ .assistant message :: between ∧
    message.isKept = true ∧ (∀ other ∈ between, other.isPassed = true) ∧
      id ∈ message.toolCallIds.map (callId model normalizeToolCallId message)

/-- The identifiers that the next results are given, up to a message that `stops` them. -/
def nextResults (stops : Message → Bool) :
    InsertionMap String String → List Message → List String
  | _, [] => []
  | known, .toolResult result :: messages =>
    resultId known result.toolCallId :: nextResults stops known messages
  | known, .assistant message :: messages =>
    if stops (.assistant message) then []
    else nextResults stops (recordIds model normalizeToolCallId known message) messages
  | _, .user _ _ :: _ => []

/-- At most one of the results after an answer is given `id`, no answer that is not sent stands
before it, and there is one if the answer uses `id` for two calls. -/
def InOrder (before : List Message) (message : AssistantMessage) (after : List Message)
    (id : String) : Prop :=
  let known := knownIds model normalizeToolCallId .empty (before ++ [.assistant message])
  let direct := (nextResults model normalizeToolCallId (fun _ => true) known after).count id
  (nextResults model normalizeToolCallId isAnswer known after).count id = direct ∧
    (direct = 1 ∨ direct = 0 ∧
      (message.toolCallIds.map (callId model normalizeToolCallId message)).count id = 1)

def occurringIds (messages : List Message) : List String :=
  messages.flatMap fun
    | .assistant message => message.toolCallIds
    | .toolResult result => [result.toolCallId]
    | .user _ _ => []

/-- The identifiers that occur stay apart when they are normalized. -/
def InjectiveIds (messages : List Message) : Prop :=
  ∀ normalize, normalizeToolCallId = some normalize → ∀ source, .assistant source ∈ messages →
    ∀ first ∈ occurringIds messages, ∀ second ∈ occurringIds messages,
      normalize first model source = normalize second model source → first = second

/-- Normalizing leaves the identifiers alone that it gave to the answers that are kept. -/
def FixedIds (messages : List Message) : Prop :=
  ∀ source, .assistant source ∈ messages → source.isKept = true → ∀ id ∈ source.toolCallIds,
    callId model normalizeToolCallId (transformAssistant model normalizeToolCallId source)
      (callId model normalizeToolCallId source id) = callId model normalizeToolCallId source id

end Conversation

/-! ## The two passes -/

section Passes

variable {model : Model} {normalizeToolCallId : Option IdNormalizer}

theorem toolCalls_flatMap (source : AssistantMessage) (content : List AssistantContent) :
    (content.flatMap (transformBlock model normalizeToolCallId source)).filterMap
      (fun | .toolCall call => some call | _ => none) =
        (content.filterMap fun | .toolCall call => some call | _ => none).map
          (transformToolCall model normalizeToolCallId source) := by
  induction content with
  | nil => rfl
  | cons block content ih =>
    rw [flatMap_cons, filterMap_append, ih]
    cases block with
    | text text textSignature =>
      rw [transformBlock]
      split <;> rfl
    | toolCall call => rfl
    | thinking thinking thinkingSignature redacted =>
      have none_ : (transformBlock model normalizeToolCallId source
          (.thinking thinking thinkingSignature redacted)).filterMap
            (fun | .toolCall call => some call | _ => none) = [] := by
        rw [transformBlock]
        split
        · split <;> rfl
        split
        · rfl
        split
        · rfl
        split <;> rfl
      rw [none_]
      rfl

variable (message : AssistantMessage) {messages : List Message}

theorem toolCalls_transformAssistant :
    (transformAssistant model normalizeToolCallId message).toolCalls =
      message.toolCalls.map (transformToolCall model normalizeToolCallId message) :=
  toolCalls_flatMap message (message.content.getD [])

theorem toolCallIds_transformAssistant :
    (transformAssistant model normalizeToolCallId message).toolCallIds =
      message.toolCallIds.map (callId model normalizeToolCallId message) := by
  rw [AssistantMessage.toolCallIds, toolCalls_transformAssistant, AssistantMessage.toolCallIds,
    map_map, map_map]
  rfl

end Passes

section SecondPass

variable {now : Int} {pending : List ToolCall} {existing : List String} {id : String}

theorem isToolResult_synthetic {other : Message}
    (member : other ∈ insertSyntheticToolResults now pending existing) :
    ∃ call ∈ pending, other = noResult now call := by
  obtain ⟨call, kept, rfl⟩ := mem_map.mp member
  exact ⟨call, mem_of_mem_filter kept, rfl⟩

theorem countP_synthetic : (insertSyntheticToolResults now pending existing).countP isAnswer = 0 :=
  countP_eq_zero.mpr fun _ member => by
    obtain ⟨call, -, rfl⟩ := isToolResult_synthetic member
    exact Bool.false_ne_true

theorem count_synthetic : ((insertSyntheticToolResults now pending existing).filter
    (isResultOf id)).length =
      if id ∈ existing then 0 else (pending.map ToolCall.id).count id := by
  rw [insertSyntheticToolResults, filter_map, length_map, filter_filter, count, countP_map,
    countP_eq_length_filter]
  split
  · next known =>
    rw [length_eq_zero_iff, filter_eq_nil_iff]
    rintro call - both
    obtain ⟨same, new⟩ := Bool.and_eq_true_iff.mp both
    rw [decide_eq_true_eq] at new
    exact new ((show call.id = id from of_decide_eq_true same) ▸ known)
  · next new =>
    refine congrArg length (filter_congr fun call _ => ?_)
    by_cases same : call.id = id <;> simp [isResultOf, noResult, same, new]

/-- Which results are known does not matter while no call waits for one. -/
theorem secondPass_idle (existing : List String) (messages : List Message) :
    secondPass now [] existing messages = secondPass now [] [] messages := by
  induction messages generalizing existing with
  | nil => rfl
  | cons first messages ih =>
    cases first with
    | toolResult result => rw [secondPass, secondPass, ih, ih [_]]
    | user content timestamp => exact congrArg (_ :: ·) (ih _)
    | assistant message =>
      rw [secondPass, secondPass, resetIds, resetIds]
      exact congrArg (fun rest => if !message.isKept then rest else .assistant message ::
        if message.toolCalls.isEmpty then rest else secondPass now message.toolCalls [] messages)
        (ih existing)

theorem secondPass_kept {message : AssistantMessage} (kept : message.isKept = true)
    (messages : List Message) : secondPass now pending existing (.assistant message :: messages) =
      insertSyntheticToolResults now pending existing ++
        .assistant message :: secondPass now message.toolCalls [] messages := by
  rw [secondPass, kept, Bool.not_true, if_neg Bool.false_ne_true]
  by_cases none_ : message.toolCalls.isEmpty = true
  · rw [if_pos none_, secondPass_idle, isEmpty_iff.mp none_]
  · rw [if_neg none_]

theorem secondPass_dropped {message : AssistantMessage} (dropped : message.isKept = false)
    (messages : List Message) : secondPass now pending existing (.assistant message :: messages) =
      insertSyntheticToolResults now pending existing ++ secondPass now [] [] messages := by
  rw [secondPass, dropped, Bool.not_false, if_pos rfl, secondPass_idle]

theorem secondPass_user (content : Option InputContent) (timestamp : Int)
    (messages : List Message) :
    secondPass now pending existing (.user content timestamp :: messages) =
      insertSyntheticToolResults now pending existing ++
        .user content timestamp :: secondPass now [] [] messages := by
  rw [secondPass, secondPass_idle]

/-- Where something stands that is sent after added results: among them, or later. -/
theorem split_synthetic {before after rest : List Message} {message : Message}
    (whole : insertSyntheticToolResults now pending existing ++ rest = before ++ message :: after) :
    (∃ call ∈ pending, message = noResult now call ∧
        ∀ other ∈ before, other.isToolResult = true) ∨ ∃ later, rest = later ++ message :: after ∧
          before = insertSyntheticToolResults now pending existing ++ later := by
  rcases append_eq_append_iff.mp whole with ⟨later, rfl, same⟩ | ⟨front, made, same⟩
  · exact .inr ⟨later, same, rfl⟩
  cases front with
  | nil =>
    rw [append_nil] at made
    exact .inr ⟨[], same.symm, by rw [made, append_nil]⟩
  | cons first front =>
    obtain ⟨rfl, -⟩ := cons.inj same
    obtain ⟨call, waits, rfl⟩ := isToolResult_synthetic (made ▸ mem_append_right _ mem_cons_self)
    refine .inl ⟨call, waits, rfl, fun other member => ?_⟩
    obtain ⟨-, -, rfl⟩ := isToolResult_synthetic (made ▸ mem_append_left _ member)
    rfl

end SecondPass

/-! ## Where what is sent comes from -/

section Origins

variable {model : Model} {normalizeToolCallId : Option IdNormalizer} {now : Int}
  {known : InsertionMap String String} {pending : List ToolCall} {existing ids : List String}
  {messages before after : List Message} {id : String}

/-- An answer that is sent, and what is sent after it. -/
theorem sent_answer {message : AssistantMessage}
    (whole : secondPass now pending existing (firstPass model normalizeToolCallId known messages) =
      before ++ .assistant message :: after) :
    ∃ front source rest, messages = front ++ .assistant source :: rest ∧ source.isKept = true ∧
      message = transformAssistant model normalizeToolCallId source ∧
      before.countP isAnswer = front.countP isAnswer ∧
      after = secondPass now message.toolCalls [] (firstPass model normalizeToolCallId
        (knownIds model normalizeToolCallId known (front ++ [.assistant source])) rest) := by
  induction messages generalizing known pending existing before with
  | nil =>
    rw [firstPass, secondPass, ← append_nil (insertSyntheticToolResults ..)] at whole
    rcases split_synthetic whole with ⟨call, -, made, -⟩ | ⟨later, none_, -⟩
    · cases made
    · cases append_eq_nil_iff.mp none_.symm |>.2
  | cons first messages ih =>
    cases first with
    | toolResult result =>
      cases before with
      | nil => cases whole
      | cons other before =>
        obtain ⟨rfl, tail⟩ := cons.inj whole
        obtain ⟨front, source, rest, rfl, kept, same, count, sent⟩ := ih tail
        exact ⟨_ :: front, source, rest, rfl, kept, same, count, sent⟩
    | user content timestamp =>
      rw [firstPass, secondPass_user] at whole
      rcases split_synthetic whole with ⟨call, -, made, -⟩ | ⟨later, sent, rfl⟩
      · cases made
      cases later with
      | nil => cases sent
      | cons other later =>
        obtain ⟨rfl, tail⟩ := cons.inj sent
        obtain ⟨front, source, rest, rfl, kept, same, count, sent⟩ := ih tail
        refine ⟨_ :: front, source, rest, rfl, kept, same, ?_, sent⟩
        rw [countP_append, countP_synthetic, Nat.zero_add]
        exact count
    | assistant other =>
      rw [firstPass] at whole
      cases sends : (transformAssistant model normalizeToolCallId other).isKept with
      | false =>
        rw [secondPass_dropped sends] at whole
        rcases split_synthetic whole with ⟨call, -, made, -⟩ | ⟨later, sent, rfl⟩
        · cases made
        obtain ⟨front, source, rest, rfl, kept, same, count, sent⟩ := ih sent
        refine ⟨_ :: front, source, rest, rfl, kept, same, ?_, sent⟩
        have unsent : ¬ (assistant other).isAnswer = true := fun sent =>
          Bool.false_ne_true (sends.symm.trans sent)
        rw [countP_append, countP_synthetic, Nat.zero_add, count, countP_cons_of_neg unsent]
      | true =>
        rw [secondPass_kept sends] at whole
        rcases split_synthetic whole with ⟨call, -, made, -⟩ | ⟨later, sent, rfl⟩
        · cases made
        cases later with
        | nil =>
          obtain ⟨same, last⟩ := cons.inj sent
          obtain rfl := assistant.inj same
          refine ⟨[], other, messages, rfl, sends, rfl, ?_, last.symm⟩
          rw [append_nil, countP_synthetic]
          rfl
        | cons given later =>
          obtain ⟨rfl, tail⟩ := cons.inj sent
          obtain ⟨front, source, rest, rfl, kept, same, count, sent⟩ := ih tail
          refine ⟨_ :: front, source, rest, rfl, kept, same, ?_, sent⟩
          rw [countP_append, countP_synthetic, Nat.zero_add, countP_cons, countP_cons, count]
          rfl

theorem Belongs.append_left (front : List Message) (belongs : Belongs before id) :
    Belongs (front ++ before) id := by
  obtain ⟨earlier, message, between, rfl, rest⟩ := belongs
  exact ⟨front ++ earlier, message, between, (append_assoc ..).symm, rest⟩

theorem FollowsCall.of_cons {first : Message}
    (follows : FollowsCall model normalizeToolCallId (first :: before) id) :
    FollowsCall model normalizeToolCallId before id ∨
      ∃ message, first = .assistant message ∧ message.isKept = true ∧
        (∀ other ∈ before, other.isPassed = true) ∧
        id ∈ message.toolCallIds.map (callId model normalizeToolCallId message) := by
  obtain ⟨earlier, message, between, whole, rest⟩ := follows
  cases earlier with
  | nil =>
    obtain ⟨rfl, rfl⟩ := cons.inj whole
    exact .inr ⟨message, rfl, rest⟩
  | cons other earlier => exact .inl ⟨earlier, message, between, (cons.inj whole).2, rest⟩

/-- A result that is sent, after an answer with the calls `ids`: one of a call, or one that
follows no call under the identifier it is given. -/
theorem sent_result {result : ToolResultMessage} (open_ : ∀ call ∈ pending, call.id ∈ ids)
    (whole : secondPass now pending existing (firstPass model normalizeToolCallId known messages) =
      before ++ .toolResult result :: after) :
    (Belongs before result.toolCallId ∨
      (∀ other ∈ before, other.isToolResult = true) ∧ result.toolCallId ∈ ids) ∨
    ∃ front source rest, messages = front ++ .toolResult source :: rest ∧
      result = givenResult (knownIds model normalizeToolCallId known front) source ∧
      before.countP isAnswer = front.countP isAnswer ∧
      ¬ FollowsCall model normalizeToolCallId front result.toolCallId ∧
        ((∀ other ∈ front, other.isPassed = true) → result.toolCallId ∉ ids) := by
  induction messages generalizing known pending existing ids before with
  | nil =>
    rw [firstPass, secondPass, ← append_nil (insertSyntheticToolResults ..)] at whole
    rcases split_synthetic whole with ⟨call, waits, same, results⟩ | ⟨later, none_, -⟩
    · obtain rfl := toolResult.inj same
      exact .inl (.inr ⟨results, open_ call waits⟩)
    · cases append_eq_nil_iff.mp none_.symm |>.2
  | cons first messages ih =>
    cases first with
    | toolResult source =>
      cases before with
      | nil =>
        obtain ⟨same, -⟩ := cons.inj whole
        obtain rfl := toolResult.inj same
        by_cases called : resultId known source.toolCallId ∈ ids
        · exact .inl (.inr ⟨nofun, called⟩)
        · refine .inr ⟨[], source, messages, rfl, rfl, rfl, ?_, fun _ => called⟩
          rintro ⟨earlier, message, between, none_, -⟩
          cases append_eq_nil_iff.mp none_.symm |>.2
      | cons other before =>
        obtain ⟨rfl, tail⟩ := cons.inj whole
        rcases ih open_ tail with (belongs | ⟨results, called⟩) |
          ⟨front, source, rest, rfl, same, count, alone, apart⟩
        · exact .inl (.inl (belongs.append_left [_]))
        · exact .inl (.inr ⟨forall_mem_cons.mpr ⟨rfl, results⟩, called⟩)
        · refine .inr ⟨_ :: front, source, rest, rfl, same, count, fun follows => ?_, fun passed =>
            apart (forall_mem_cons.mp passed).2⟩
          rcases follows.of_cons with follows | ⟨message, other, -⟩
          · exact alone follows
          · cases other
    | user content timestamp =>
      rw [firstPass, secondPass_user] at whole
      rcases split_synthetic whole with ⟨call, waits, same, results⟩ | ⟨later, sent, rfl⟩
      · obtain rfl := toolResult.inj same
        exact .inl (.inr ⟨results, open_ call waits⟩)
      cases later with
      | nil => cases sent
      | cons other later =>
        obtain ⟨rfl, tail⟩ := cons.inj sent
        rcases @ih _ [] [] [] _ nofun tail with (belongs | ⟨-, never⟩) |
          ⟨front, source, rest, rfl, same, count, alone, -⟩
        · exact .inl (.inl ((belongs.append_left [_]).append_left _))
        · cases never
        · refine .inr ⟨_ :: front, source, rest, rfl, same, ?_, fun follows => ?_, fun passed =>
            absurd (passed _ mem_cons_self) Bool.false_ne_true⟩
          · rw [countP_append, countP_synthetic, Nat.zero_add]
            exact count
          · rcases follows.of_cons with follows | ⟨message, other, -⟩
            · exact alone follows
            · cases other
    | assistant message =>
      rw [firstPass] at whole
      cases sends : (transformAssistant model normalizeToolCallId message).isKept with
      | false =>
        rw [secondPass_dropped sends] at whole
        rcases split_synthetic whole with ⟨call, waits, same, results⟩ | ⟨later, sent, rfl⟩
        · obtain rfl := toolResult.inj same
          exact .inl (.inr ⟨results, open_ call waits⟩)
        rcases @ih _ [] [] ids _ nofun sent with (belongs | ⟨results, called⟩) |
          ⟨front, source, rest, rfl, same, count, alone, apart⟩
        · exact .inl (.inl (belongs.append_left _))
        · refine .inl (.inr ⟨forall_mem_append.mpr ⟨fun other member => ?_, results⟩, called⟩)
          obtain ⟨call, -, rfl⟩ := isToolResult_synthetic member
          rfl
        · refine .inr ⟨_ :: front, source, rest, rfl, same, ?_, fun follows => ?_, fun passed =>
            apart (forall_mem_cons.mp passed).2⟩
          · have unsent : ¬ (assistant message).isAnswer = true := fun sent =>
              Bool.false_ne_true (sends.symm.trans sent)
            rw [countP_append, countP_synthetic, Nat.zero_add, count, countP_cons_of_neg unsent]
          · rcases follows.of_cons with follows | ⟨other, same, kept, -⟩
            · exact alone follows
            · obtain rfl := assistant.inj same
              exact absurd (sends.symm.trans kept) Bool.false_ne_true
      | true =>
        rw [secondPass_kept sends] at whole
        rcases split_synthetic whole with ⟨call, waits, same, results⟩ | ⟨later, sent, rfl⟩
        · obtain rfl := toolResult.inj same
          exact .inl (.inr ⟨results, open_ call waits⟩)
        cases later with
        | nil => cases sent
        | cons other later =>
          obtain ⟨rfl, tail⟩ := cons.inj sent
          rcases ih (fun call => mem_map_of_mem) tail with (belongs | ⟨results, called⟩) |
            ⟨front, source, rest, rfl, same, count, alone, apart⟩
          · exact .inl (.inl ((belongs.append_left [_]).append_left _))
          · exact .inl (.inl ⟨_, _, later, rfl, results, called⟩)
          · refine .inr ⟨_ :: front, source, rest, rfl, same, ?_, fun follows => ?_, fun passed =>
              absurd sends (Bool.not_eq_true _ ▸ (Bool.not_eq_true' _ ▸ passed _ mem_cons_self))⟩
            · rw [countP_append, countP_synthetic, Nat.zero_add, countP_cons, countP_cons, count]
              rfl
            · rcases follows.of_cons with follows | ⟨other, first, -, passed, called⟩
              · exact alone follows
              · obtain rfl := assistant.inj first
                rw [← toolCallIds_transformAssistant] at called
                exact apart passed called

variable (model normalizeToolCallId now) in
/-- The results for `id` that are sent before another message: those that follow, and one for each
call with that identifier if none follows it directly. -/
theorem length_results (known : InsertionMap String String) (pending : List ToolCall)
    (existing : List String) (messages : List Message) (id : String) :
    (((secondPass now pending existing (firstPass model normalizeToolCallId known
        messages)).takeWhile isToolResult).filter (isResultOf id)).length =
      (nextResults model normalizeToolCallId isAnswer known messages).count id +
        if id ∈ existing ∨
            id ∈ nextResults model normalizeToolCallId (fun _ => true) known messages then 0
        else (pending.map ToolCall.id).count id := by
  have added : ∀ pending existing rest, (((insertSyntheticToolResults now pending existing ++
      rest).takeWhile isToolResult).filter (isResultOf id)).length =
        (if id ∈ existing then 0 else (pending.map ToolCall.id).count id) +
          ((rest.takeWhile isToolResult).filter (isResultOf id)).length := by
    intro pending existing rest
    rw [takeWhile_append_of_pos, filter_append, length_append, count_synthetic]
    intro other member
    obtain ⟨call, -, rfl⟩ := isToolResult_synthetic member
    rfl
  induction messages generalizing known pending existing with
  | nil => simpa [firstPass, secondPass, nextResults] using added pending existing []
  | cons first messages ih =>
    cases first with
    | user content timestamp =>
      rw [firstPass, secondPass_user, added]
      simp [nextResults, isToolResult]
    | toolResult result =>
      rw [firstPass, secondPass, takeWhile_cons_of_pos rfl, nextResults, nextResults, count_cons]
      by_cases same : resultId known result.toolCallId = id
      · rw [filter_cons_of_pos (by simpa [isResultOf] using same), length_cons, ih]
        simp [same]
      · rw [filter_cons_of_neg (by simpa [isResultOf] using same), ih]
        simp [same, Ne.symm same]
    | assistant message =>
      rw [firstPass]
      cases sends : (transformAssistant model normalizeToolCallId message).isKept with
      | false =>
        have unsent : ¬ (assistant message).isAnswer = true := fun sent =>
          Bool.false_ne_true (sends.symm.trans sent)
        rw [secondPass_dropped sends, added, ih, nextResults, nextResults, if_neg unsent,
          if_pos rfl]
        simp [Nat.add_comm]
      | true =>
        have sent : (assistant message).isAnswer = true := sends
        rw [secondPass_kept sends, added, nextResults, nextResults, if_pos sent, if_pos rfl]
        simp [isToolResult]

variable (model normalizeToolCallId) in
theorem count_direct_le (known : InsertionMap String String) (messages : List Message)
    (id : String) :
    (nextResults model normalizeToolCallId (fun _ => true) known messages).count id ≤
      (nextResults model normalizeToolCallId isAnswer known messages).count id := by
  induction messages generalizing known with
  | nil => exact Nat.le_refl _
  | cons first messages ih =>
    cases first with
    | user content timestamp => exact Nat.le_refl _
    | toolResult result =>
      rw [nextResults, nextResults, count_cons, count_cons]
      exact Nat.add_le_add_right (ih known) _
    | assistant message => exact (Nat.zero_le _ : ([] : List String).count id ≤ _)

theorem oneResult_iff {front rest : List Message} {source : AssistantMessage} {id : String}
    (called : id ∈ (transformAssistant model normalizeToolCallId source).toolCallIds) :
    OneResult id (secondPass now (transformAssistant model normalizeToolCallId source).toolCalls []
        (firstPass model normalizeToolCallId
          (knownIds model normalizeToolCallId .empty (front ++ [.assistant source])) rest)) ↔
      InOrder model normalizeToolCallId front source rest id := by
  have few := count_direct_le model normalizeToolCallId
    (knownIds model normalizeToolCallId .empty (front ++ [.assistant source])) rest id
  have some_ := count_pos_iff.mpr called
  rw [OneResult, length_results, InOrder, ← AssistantMessage.toolCallIds,
    ← toolCallIds_transformAssistant]
  simp only [not_mem_nil, false_or]
  split
  · next direct =>
    have some_direct := count_pos_iff.mpr direct
    omega
  · next none_ =>
    have no_direct := count_eq_zero.mpr none_
    omega

end Origins
end Recode.Ai

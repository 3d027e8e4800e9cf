import Recode.Lib.Matching
import Recode.SessionV4.QueueAccounting

/-! # Whose result a tool call has

After a restart, a call counts as answered when the result that its start promised exists, or
else when there is a result with its identifier. Providers may give several calls of an answer
one identifier. Every answered call then has a result of its own exactly when there are as many
results of the identifier as calls that take one. -/

namespace Recode.SessionV4
namespace Recovery

open Matching List

/-- Tool starts are told apart by the answer and the position of the call. -/
def invocation (record : ToolStartedRecord) : String × Nat :=
  (record.assistantEntryId, record.toolIndex)

theorem invocations_nodup {isDeepEqual : ProvisionedEntry → ProvisionedEntry → Bool}
    {entriesById : EntryIndex} {records : List LaneRecord}
    (passes : ∀ before record after, records = before ++ record :: after →
      LogScan.Passes isDeepEqual entriesById before record) :
    ((records.filterMap LaneRecord.toolStarted?).map invocation).Nodup := by
  induction records using reverseRecOn with
  | nil => exact nodup_nil
  | append_singleton records last ih =>
    have front := ih fun before record after split =>
      passes before record (after ++ [last]) (by rw [split]; simp)
    rw [filterMap_append, map_append]
    cases last with
    | toolStarted start =>
      have passed : validateToolStart entriesById start
          (LogScan.ofRecords records).toolInvocations = .ok () :=
        (passes records _ [] rfl).2
      rw [LogScan.toolInvocations_ofRecords] at passed
      refine nodup_append.mpr ⟨front, nodup_singleton _, ?_⟩
      intro earlier member only listed same
      obtain rfl : earlier = invocation start := same.trans (mem_singleton.mp listed)
      have known : (start.assistantEntryId, start.toolIndex) ∈
          (records.filterMap LaneRecord.toolStarted?).map fun record =>
            (record.assistantEntryId, record.toolIndex) := member
      rw [validateToolStart, if_pos known] at passed
      cases passed
    | _ => exact (append_nil _).symm ▸ front

namespace LaneReductionInput

variable (input : LaneReductionInput) (operationId : String) (answer : Entry)

def promisedResult (toolIndex : Nat) : Option Entry :=
  (startOf operationId answer.id (input.operationRecords operationId) toolIndex).bind
    fun started => input.allById.get? started.resultEntryId

def firstResult (toolCallId : String) : Option Entry :=
  input.orderedOwn.find? (holdsResult (input.deferredWriteIds operationId) answer toolCallId)

def laneResults : List Entry :=
  (input.allById.entries.map Prod.snd).filter fun entry =>
    entry.seq > answer.seq && entry.id ∉ input.deferredWriteIds operationId &&
      entry.toolResult?.isSome

def callState (toolCall : AgentToolCall) (toolIndex : Nat) : ToolCallState where
  toolIndex := toolIndex
  toolCall := toolCall
  started := startOf operationId answer.id (input.operationRecords operationId) toolIndex
  resultExists := ((input.promisedResult operationId answer toolIndex).or
    (input.firstResult operationId answer toolCall.id)).isSome
  terminate := ((input.promisedResult operationId answer toolIndex).or
    (input.firstResult operationId answer toolCall.id)).any Entry.terminates

def callStates (message : AssistantMessage) : List ToolCallState :=
  (toolCalls message.content).zipIdx.map fun (toolCall, toolIndex) =>
    input.callState operationId answer toolCall toolIndex

theorem deriveToolBatch_eq : deriveToolBatch input.orderedOwn input.allById
    (input.deferredWriteIds operationId) operationId (input.operationRecords operationId) =
      (newestToolAnswer input.orderedOwn).map fun (answer, message) =>
        { assistantEntryId := answer.id
          calls := input.callStates operationId answer message
          truncated := message.stopReason = .length
          unresolved := (input.callStates operationId answer message).any
            fun call => !call.resultExists } := by
  unfold deriveToolBatch callStates
  congr 1
  funext found
  obtain ⟨answer, message⟩ := found
  simp only [mapIdx_eq_zipIdx_map]
  rfl

end LaneReductionInput

/-- What a call and its result have in common: the identifier and whether the run ends. -/
def callClass (call : ToolCallState) : Option String × Bool :=
  (some call.toolCall.id, call.terminate)

def resultClass (entry : Entry) : Option String × Bool :=
  (entry.toolResult?.map Prod.fst, entry.terminates)

def ToolBatchState.resolved (batch : ToolBatchState) : List ToolCallState :=
  batch.calls.filter ToolCallState.resultExists

/-- Every call that counts as answered has a result of its own on the lane, which decides whether
the run ends; a call whose start promised a result that exists counts as answered; and the batch
is unresolved while some call does not. -/
structure ResolvesOwn (input : LaneReductionInput) (operationId : String) (answer : Entry)
    (batch : ToolBatchState) : Prop where
  assigned : ∃ assign, Assigns callClass resultClass batch.resolved
    (input.laneResults operationId answer) assign
  started : ∀ call ∈ batch.calls, ∀ start, .toolStarted start ∈ input.records →
    start.runId = operationId → start.assistantEntryId = batch.assistantEntryId →
      start.toolIndex = call.toolIndex → input.allById.contains start.resultEntryId →
        call.resultExists
  unresolved : batch.unresolved = true ↔ ∃ call ∈ batch.calls, call.resultExists = false
  counted : batch.resolved.length ≤ (input.laneResults operationId answer).length

namespace LaneReductionInput

variable (input : LaneReductionInput) (operationId : String) (answer : Entry)
  (message : AssistantMessage)

/-- How many calls of an identifier have the result that their start promised. -/
def promisedCount (toolCallId : String) (terminate : Bool) : Nat :=
  (toolCalls message.content).zipIdx.countP fun (toolCall, toolIndex) =>
    toolCall.id = toolCallId &&
      (input.promisedResult operationId answer toolIndex).any (·.terminates = terminate)

/-- How many calls of an identifier share its first result. -/
def sharingCount (toolCallId : String) (terminate : Bool) : Nat :=
  if (input.firstResult operationId answer toolCallId).any (·.terminates = terminate) then
    (toolCalls message.content).zipIdx.countP fun (toolCall, toolIndex) =>
      toolCall.id = toolCallId && (input.promisedResult operationId answer toolIndex).isNone
  else 0

/-- No identifier has more calls with a promised result, or sharing the first one, than results,
counted apart by whether they end the run. -/
def EnoughResults : Prop :=
  ∀ toolCallId terminate, input.promisedCount operationId answer message toolCallId terminate +
      input.sharingCount operationId answer message toolCallId terminate ≤
    (ofClass resultClass (input.laneResults operationId answer) (some toolCallId, terminate)).length

theorem callState_of_unpromised (toolCall : AgentToolCall) {toolIndex : Nat}
    (unpromised : input.promisedResult operationId answer toolIndex = none) (toolCallId : String)
    (terminate : Bool) :
    callClass (input.callState operationId answer toolCall toolIndex) =
        (some toolCallId, terminate) ∧
      (input.callState operationId answer toolCall toolIndex).resultExists = true ↔
    toolCall.id = toolCallId ∧
      (input.firstResult operationId answer toolCallId).any (·.terminates = terminate) = true := by
  by_cases same : toolCall.id = toolCallId
  · subst same
    cases first : input.firstResult operationId answer toolCall.id with
    | none => simp [unpromised, first, callState]
    | some result => simp [unpromised, first, callState, callClass]
  · simp [callState, callClass, same]

theorem length_resolved_ofClass (toolCallId : String) (terminate : Bool) :
    (ofClass callClass ((input.callStates operationId answer message).filter
        ToolCallState.resultExists) (some toolCallId, terminate)).length =
      input.promisedCount operationId answer message toolCallId terminate +
        input.sharingCount operationId answer message toolCallId terminate := by
  unfold ofClass callStates promisedCount sharingCount
  rw [filter_filter, ← countP_eq_length_filter, countP_map,
    countP_eq_countP_filter_add _ _ fun call : AgentToolCall × Nat =>
      (input.promisedResult operationId answer call.2).isSome,
    countP_filter, countP_filter]
  congr 1
  · apply countP_congr
    intro call _
    cases promised : input.promisedResult operationId answer call.2 with
    | none => simp [promised]
    | some result => simp [promised, callState, callClass]
  · by_cases shared : (input.firstResult operationId answer toolCallId).any
        (·.terminates = terminate) = true
    · rw [if_pos shared]
      apply countP_congr
      intro call _
      cases promised : input.promisedResult operationId answer call.2 with
      | none =>
        have answered := input.callState_of_unpromised operationId answer call.1 promised
          toolCallId terminate
        simpa [shared, promised] using answered
      | some result => simp [promised]
    · rw [if_neg shared, countP_eq_zero]
      intro call _
      cases promised : input.promisedResult operationId answer call.2 with
      | none =>
        have answered := input.callState_of_unpromised operationId answer call.1 promised
          toolCallId terminate
        simpa [shared] using answered
      | some result => simp

theorem laneResults_nodup : (input.laneResults operationId answer).Nodup :=
  ((InsertionMap.nodup_values_indexBy _ _).of_map _).filter _

theorem callStates_nodup : (input.callStates operationId answer message).Nodup := by
  have positions : (input.callStates operationId answer message).map ToolCallState.toolIndex =
      range' 0 (toolCalls message.content).length := by
    rw [callStates, map_map]
    exact zipIdx_map_snd 0 (toolCalls message.content)
  have distinct : (range' 0 (toolCalls message.content).length).Nodup := nodup_range'
  rw [← positions] at distinct
  exact distinct.of_map _

theorem startOf_of_accepted {isDeepEqual : ProvisionedEntry → ProvisionedEntry → Bool}
    (accepted : validateRecordLog isDeepEqual input.toRecordLogSlice = .ok ())
    {start : ToolStartedRecord} (listed : .toolStarted start ∈ input.records)
    (ofRun : start.runId = operationId) :
    startOf operationId start.assistantEntryId (input.operationRecords operationId)
      start.toolIndex = some start := by
  have distinct := invocations_nodup ((validateRecordLog_eq_ok isDeepEqual _).mp accepted).2.2
  have ordered : start ∈ input.ordered.filterMap LaneRecord.toolStarted? :=
    mem_filterMap.mpr
      ⟨_, (bySequence_perm LaneRecord.seq input.records).mem_iff.mpr listed, rfl⟩
  have kept : start ∈ (input.operationRecords operationId).filterMap LaneRecord.toolStarted? := by
    refine mem_filterMap.mpr ⟨.toolStarted start, mem_filter.mpr ⟨?_, ?_⟩, rfl⟩
    · exact (bySequence_perm LaneRecord.seq input.records).mem_iff.mpr listed
    · simpa [LaneRecord.runId] using ofRun
  cases found : startOf operationId start.assistantEntryId (input.operationRecords operationId)
      start.toolIndex with
  | none =>
    have missed := find?_eq_none.mp found start (mem_reverse.mpr kept)
    simp [ofRun] at missed
  | some other =>
    have matching := find?_some found
    have inside := mem_reverse.mp (mem_of_find?_eq_some found)
    rw [Bool.and_eq_true, Bool.and_eq_true] at matching
    obtain ⟨record, member, isStart⟩ := mem_filterMap.mp inside
    have otherOrdered : other ∈ input.ordered.filterMap LaneRecord.toolStarted? :=
      mem_filterMap.mpr ⟨record, (mem_filter.mp member).1, isStart⟩
    have same : invocation other = invocation start :=
      Prod.ext (of_decide_eq_true matching.1.2) (of_decide_eq_true matching.2)
    rw [inj_on_of_nodup_map distinct otherOrdered ordered same]

end LaneReductionInput

/-- V4 recovery gives every answered call a result of its own exactly when, for every identifier,
the calls that take a result are no more than the results. -/
theorem resolvesOwn_iff_enoughResults
    (isDeepEqual : ProvisionedEntry → ProvisionedEntry → Bool) (input : LaneReductionInput)
    (accepted : validateRecordLog isDeepEqual input.toRecordLogSlice = .ok ()) :
    ∃ result, reduceLaneState isDeepEqual input = .ok result ∧
      ∀ operation batch, result.laneState.operation = some operation →
        operation.toolBatch = some batch →
          ∃ answer message, newestToolAnswer input.orderedOwn = some (answer, message) ∧
            (ResolvesOwn input operation.id answer batch ↔
              input.EnoughResults operation.id answer message) := by
  refine ⟨_, reduceLaneState_of_accepted accepted, ?_⟩
  intro operation batch isOpen derived
  obtain ⟨started, -, rfl⟩ := Option.map_eq_some_iff.mp isOpen
  change deriveToolBatch input.orderedOwn input.allById (input.deferredWriteIds started.id)
    started.id (input.operationRecords started.id) = some batch at derived
  rw [input.deriveToolBatch_eq, Option.map_eq_some_iff] at derived
  obtain ⟨⟨answer, message⟩, newest, rfl⟩ := derived
  refine ⟨answer, message, newest, ?_⟩
  change ResolvesOwn input started.id answer _ ↔ input.EnoughResults started.id answer message
  have distinct := (input.callStates_nodup started.id answer message).filter
    ToolCallState.resultExists
  constructor
  · intro resolves toolCallId terminate
    rw [← input.length_resolved_ofClass]
    obtain ⟨assign, assigns⟩ := resolves.assigned
    exact (assigns.ofClass _).length_le (distinct.filter _)
  · intro enough
    have assigned : ∃ assign, Assigns callClass resultClass
        ((input.callStates started.id answer message).filter ToolCallState.resultExists)
        (input.laneResults started.id answer) assign := by
      classical
      have : Nonempty Entry := ⟨answer⟩
      rw [exists_assigns_iff distinct (input.laneResults_nodup started.id answer)]
      rintro ⟨_ | toolCallId, terminate⟩
      · rw [ofClass, filter_eq_nil_iff.mpr fun call _ => by simp [callClass]]
        exact Nat.zero_le _
      · rw [input.length_resolved_ofClass]
        exact enough toolCallId terminate
    refine ⟨assigned, ?_, ?_, ?_⟩
    · intro call listed start recorded ofRun ofAnswer ofCall stored
      obtain ⟨⟨toolCall, toolIndex⟩, -, rfl⟩ := mem_map.mp listed
      change start.assistantEntryId = answer.id at ofAnswer
      change start.toolIndex = toolIndex at ofCall
      have found := input.startOf_of_accepted started.id accepted recorded ofRun
      rw [ofAnswer, ofCall] at found
      have promised : input.promisedResult started.id answer toolIndex =
          input.allById.get? start.resultEntryId := by
        rw [LaneReductionInput.promisedResult, found, Option.bind_some]
      change ((input.promisedResult started.id answer toolIndex).or _).isSome = true
      rw [promised, Option.isSome_or, Bool.or_eq_true]
      exact .inl stored
    · rw [any_eq_true]
      simp only [Bool.not_eq_true']
    · obtain ⟨assign, assigns⟩ := assigned
      exact assigns.length_le distinct

section Example

def twoCalls (first second : String) : Entry :=
  let message : AssistantMessage :=
    { content := [.toolCall first "read" [], .toolCall second "read" []]
      api := "messages"
      provider := "provider"
      model := "model"
      usage := ⟨0, 0, 0, 0, none, none, 0, ⟨.ofInt 0, .ofInt 0, .ofInt 0, .ofInt 0, .ofInt 0⟩⟩
      stopReason := .toolUse
      errorMessage := none
      timestamp := 0 }
  ⟨⟨"answer", .message (.assistant message none) false⟩, none, 2, 0⟩

def oneResult (toolCallId : String) : Entry :=
  ⟨⟨"result", .message (.other (.toolResult toolCallId "read" [] none false 0) rfl) false⟩,
    some "answer", 3, 0⟩

def halfDone (first second : String) : LaneReductionInput :=
  laneOf [startedRun 1] [.operationStarted (startedRun 1)] [twoCalls first second, oneResult first]

/-- Two calls with one identifier both count as answered by its only result. -/
theorem sharedResult_not_resolvesOwn :
    ∃ result operation batch answer,
      reduceLaneState (fun _ _ => true) (halfDone "call" "call") = .ok result ∧
      result.laneState.operation = some operation ∧ operation.toolBatch = some batch ∧
      batch.assistantEntryId = answer.id ∧ answer ∈ (halfDone "call" "call").ownEntries ∧
      ¬ ResolvesOwn (halfDone "call" "call") operation.id answer batch := by
  refine ⟨_, _, _, twoCalls "call" "call", rfl, rfl, rfl, rfl, mem_cons_self, ?_⟩
  intro resolves
  have counted : 2 ≤ 1 := resolves.counted
  omega

/-- With two identifiers, the call that has a result has it of its own, and the other one is
unresolved. -/
theorem resolvesOwn_iff_enoughResults_distinct :
    ∃ result operation batch, reduceLaneState (fun _ _ => true) (halfDone "first" "second") =
        .ok result ∧
      result.laneState.operation = some operation ∧ operation.toolBatch = some batch ∧
      batch.resolved.map (·.toolCall.id) = ["first"] ∧ batch.unresolved = true ∧
      ResolvesOwn (halfDone "first" "second") operation.id (twoCalls "first" "second") batch := by
  refine ⟨_, _, _, rfl, rfl, rfl, rfl, rfl, ?_⟩
  obtain ⟨_, reduced, resolves⟩ :=
    resolvesOwn_iff_enoughResults (fun _ _ => true) (halfDone "first" "second") rfl
  cases reduced
  obtain ⟨_, _, newest, resolves⟩ := resolves _ _ rfl rfl
  cases newest
  refine resolves.mpr fun toolCallId terminate => ?_
  by_cases first : "first" = toolCallId
  · subst first
    cases terminate <;> decide
  by_cases second : "second" = toolCallId
  · subst second
    cases terminate <;> decide
  simp [LaneReductionInput.promisedCount, LaneReductionInput.sharingCount, twoCalls, toolCalls,
    first, second]

end Example

end Recovery
end Recode.SessionV4

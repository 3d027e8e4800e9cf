import Recode.Agent.LoopRules

/-! # The tools of a turn

Every call of a batch that starts also ends, and its result enters the transcript
in the order of the calls. Tools that run at the same time are known by their
places in the batch. -/

namespace Recode.Agent

open Procedure Progress List

namespace Follows

open Loop

variable {Host : Type} {config : AgentLoopConfig Host} {orderly : Prop}
  {holds : Progress → Host → Prop} {failed : Stop → Host → Prop} {progress : Progress}
  {pushed new : List MessageObject} {used : Nat}

theorem prepareToolCall_spec (follows : Follows config orderly holds failed)
    (toolCall : AgentToolCall) (held : progress.held = []) (open_ : progress.stage = .turn) :
    Triple (At orderly holds progress pushed new used) (prepareToolCall config toolCall)
      (fun _ => At orderly holds progress pushed new used) (Fails failed) := by
  apply triple_get
  rintro loop here
  refine Triple.here ?_ here
  split
  · exact triple_pure _ fun _ => id
  split
  · exact triple_pure _ fun _ => id
  apply triple_bind (hook_spec (follows.beforeToolCall progress _ (free_of_turn held open_)))
  intro before
  split
  · exact triple_pure _ fun _ => id
  apply triple_bind (hook_spec (follows.aborted progress (free_of_turn held open_)))
  intro aborted
  split
  · exact triple_pure _ fun _ => id
  split
  · exact triple_pure _ fun _ => id
  · exact triple_pure _ fun _ => id

theorem finalizeExecutedToolCall_spec (follows : Follows config orderly holds failed)
    (toolCall : AgentToolCall) (result : Option AgentToolResult) (isError : Bool)
    (held : progress.held = []) (open_ : progress.stage = .turn) :
    Triple (At orderly holds progress pushed new used)
      (finalizeExecutedToolCall config toolCall result isError)
      (fun _ => At orderly holds progress pushed new used) (Fails failed) := by
  apply triple_bind (hook_spec (follows.afterToolCall progress _ _ _ (free_of_turn held open_)))
  intro after
  split
  · exact triple_pure _ fun _ => id
  · exact triple_pure _ fun _ => id
  split
  · exact triple_pure _ fun _ => id
  · exact triple_pure _ fun _ => id

def openIds (running : List (Nat × AgentToolCall)) : Multiset String :=
  (running.map fun entry => entry.2.id : List String)

theorem openIds_nil_add (tools : Multiset String) : openIds [] + tools = tools :=
  Multiset.zero_add tools

theorem openIds_filter {running : List (Nat × AgentToolCall)} {index : Nat}
    {entry : Nat × AgentToolCall} (distinct : (running.map Prod.fst).Nodup)
    (found : running.find? (fun entry => entry.1 = index) = some entry) :
    openIds running = entry.2.id ::ₘ openIds (running.filter fun entry => entry.1 ≠ index) := by
  induction running with
  | nil => cases found
  | cons first others ih =>
    rw [map_cons, nodup_cons] at distinct
    by_cases same : first.1 = index
    · rw [find?_cons_of_pos (by simpa using same)] at found
      cases found
      have kept : (others.filter fun entry => entry.1 ≠ index) = others := by
        apply filter_eq_self.mpr
        intro other member
        have different : other.1 ≠ index := by
          rintro rfl
          exact distinct.1 (same ▸ mem_map_of_mem member)
        simpa using different
      rw [filter_cons_of_neg (by simpa using same), kept]
      rfl
    · rw [find?_cons_of_neg (by simpa using same)] at found
      rw [filter_cons_of_pos (by simpa using same)]
      change first.2.id ::ₘ openIds others = _
      rw [ih distinct.2 found, Multiset.cons_swap]
      rfl

section

variable (follows : Follows config orderly holds failed)
include follows

theorem runTools_spec (fuel : Nat)
    (running : List (Nat × AgentToolCall)) (finalized : List (Nat × FinalizedToolCallOutcome))
    (held : progress.held = []) (open_ : progress.stage = .turn)
    (tools : progress.tools = openIds running) (distinct : (running.map Prod.fst).Nodup) :
    Triple (At orderly holds progress pushed new used) (runTools config fuel running finalized)
      (fun _ => At orderly holds { progress with tools := 0 } pushed new used)
      (Fails failed) := by
  have idle : running = [] → { progress with tools := 0 } = progress := by
    rintro rfl
    rw [show (0 : Multiset String) = progress.tools from tools.symm]
  induction fuel generalizing progress running finalized with
  | zero =>
    cases running with
    | nil => exact triple_pure _ fun _ known => idle rfl ▸ known
    | cons first others => exact follows.suspended_spec
  | succ fuel ih =>
    cases running with
    | nil => exact triple_pure _ fun _ known => idle rfl ▸ known
    | cons first others =>
      apply triple_bind (hook_spec (follows.nextToolStep progress (first :: others)
        (free_of_turn held open_)))
      intro step
      cases step with
      | update index partialResult =>
        simp only
        split
        · exact follows.suspended_spec
        rename_i place toolCall found
        have member : toolCall.id ∈ progress.tools := by
          rw [tools, openIds_filter distinct found]
          exact Multiset.mem_cons_self _ _
        apply triple_bind (follows.emit_spec progress (.toolExecutionUpdate _ _) trivial
          fun _ => by simp [admits, open_, member])
        intro _
        exact ih (first :: others) finalized held open_ tools distinct idle
      | ended index execution =>
        simp only
        split
        · exact follows.suspended_spec
        rename_i place toolCall found
        have split := openIds_filter distinct found
        have member : toolCall.id ∈ progress.tools := by
          rw [tools, split]
          exact Multiset.mem_cons_self _ _
        apply triple_bind (follows.finalizeExecutedToolCall_spec toolCall _ _ held open_)
        intro outcome
        apply triple_bind (follows.emit_spec progress (.toolExecutionEnd _ _ _) trivial
          fun _ => by simp [admits, open_, member])
        intro _
        have left : (progress.next
            (.toolExecutionEnd toolCall outcome.result outcome.isError)).tools =
              openIds ((first :: others).filter fun entry => entry.1 ≠ index) := by
          change progress.tools.erase toolCall.id = _
          rw [tools, split, Multiset.erase_cons_head]
        refine ih _ _ held open_ left (distinct.sublist
          ((filter_sublist).map Prod.fst)) fun none_ => ?_
        rw [none_] at left
        rw [show (0 : Multiset String) = _ from left.symm]

/-- A result becomes a message that was not queued. One that is missing ends the run. -/
theorem createToolResultMessage_spec
    (finalized : FinalizedToolCallOutcome) (held : progress.held = [])
    (open_ : progress.stage = .turn) :
    Triple (At orderly holds progress pushed new used)
      (createToolResultMessage config finalized)
      (fun message loop => At orderly holds progress pushed new used loop ∧ message.origin = none)
      (Fails failed) := by
  unfold createToolResultMessage
  split
  · exact triple_throw _ fun loop known =>
      follows.thrown progress _ loop.host (free_of_turn held open_) known.1
  · apply triple_bind (hook_spec (follows.now progress (free_of_turn held open_)))
    intro timestamp
    exact triple_pure _ fun _ known => ⟨known, rfl⟩

theorem emitToolResult_spec {Result : Type}
    {finalized : FinalizedToolCallOutcome} {next : MessageObject → LoopM Host Result}
    {after : Result → Loop Host → Prop} (held : progress.held = [])
    (open_ : progress.stage = .turn) (closed : progress.message = false)
    (rest : ∀ message, Triple (At orderly holds
      { progress with since := progress.since ++ [message] } pushed new used)
      (next message) after (Fails failed)) :
    Triple (At orderly holds progress pushed new used)
      (do
        let message ← createToolResultMessage config finalized
        emitMessage config message
        next message)
      after (Fails failed) := by
  apply triple_bind (follows.createToolResultMessage_spec finalized held open_)
  intro message
  apply triple_each
  rintro loop ⟨here, fresh⟩
  refine Triple.here ?_ here
  apply triple_bind (follows.emitMessage_spec message (by simpa [carries, held]) open_ closed)
  intro _
  refine (rest message).weaken ?_ (fun _ _ => id) (fun _ _ => id)
  intro loop known
  simpa [held] using known

/-- The messages of results enter the transcript in their order. -/
theorem emitToolResults_spec (outcomes : List FinalizedToolCallOutcome) (held : progress.held = [])
    (open_ : progress.stage = .turn) (closed : progress.message = false) :
    Triple (At orderly holds progress pushed new used) (emitToolResults config outcomes)
      (fun messages => At orderly holds { progress with since := progress.since ++ messages }
        pushed new used) (Fails failed) := by
  induction outcomes generalizing progress with
  | nil =>
    apply triple_pure
    intro loop known
    simpa using known
  | cons finalized rest ih =>
    refine follows.emitToolResult_spec held open_ closed fun message => ?_
    apply triple_bind (ih (by exact held) (by exact open_) (by exact closed))
    intro messages
    apply triple_pure
    intro loop known
    simpa [append_assoc] using known

end

theorem progress_start_end (progress : Progress) (toolCall : AgentToolCall)
    (result : Option AgentToolResult) (isError : Bool) :
    (progress.next (.toolExecutionStart toolCall)).next
      (.toolExecutionEnd toolCall result isError) = progress := by
  simp [Progress.next]

section

variable (follows : Follows config orderly holds failed)
include follows

variable (fuel : Nat) (toolCalls : List AgentToolCall)

theorem failToolCallsFromTruncatedMessage_spec
    (held : progress.held = []) (open_ : progress.stage = .turn)
    (closed : progress.message = false) :
    Triple (At orderly holds progress pushed new used)
      (failToolCallsFromTruncatedMessage config toolCalls)
      (fun messages => At orderly holds { progress with since := progress.since ++ messages }
        pushed new used) (Fails failed) := by
  induction toolCalls generalizing progress with
  | nil =>
    apply triple_pure
    intro loop known
    simpa using known
  | cons toolCall rest ih =>
    apply triple_bind (follows.emit_spec progress (.toolExecutionStart toolCall) trivial
      fun _ => by simp [admits, open_, closed])
    intro _
    apply triple_bind (follows.emit_spec _ (.toolExecutionEnd toolCall _ true) trivial
      fun _ => by simp [admits, Progress.next, open_])
    intro _
    rw [progress_start_end]
    refine follows.emitToolResult_spec held open_ closed fun message => ?_
    apply triple_bind (ih (by exact held) (by exact open_) (by exact closed))
    intro messages
    apply triple_pure
    intro loop known
    simpa [append_assoc] using known

theorem executeToolCall_spec
    (toolCall : AgentToolCall) (held : progress.held = []) (open_ : progress.stage = .turn)
    (closed : progress.message = false) (none_ : progress.tools = 0) :
    Triple (At orderly holds progress pushed new used) (executeToolCall config fuel toolCall)
      (fun _ => At orderly holds progress pushed new used) (Fails failed) := by
  apply triple_bind (follows.emit_spec progress (.toolExecutionStart toolCall) trivial
    fun _ => by simp [admits, open_, closed])
  intro _
  apply triple_bind (follows.prepareToolCall_spec toolCall (by exact held) (by exact open_))
  intro preparation
  cases preparation with
  | immediate result isError =>
    apply triple_bind (follows.emit_spec _ (.toolExecutionEnd toolCall (some result) isError)
      trivial fun _ => by simp [admits, Progress.next, open_])
    intro _
    rw [progress_start_end]
    exact triple_pure _ fun _ => id
  | prepared =>
    have one : (progress.next (.toolExecutionStart toolCall)).tools =
        openIds [(0, toolCall)] := by
      change toolCall.id ::ₘ progress.tools = _
      rw [none_]
      rfl
    apply triple_bind (follows.runTools_spec fuel [(0, toolCall)] [] (by exact held)
      (by exact open_) one (by simp))
    intro ended
    have back : { progress.next (.toolExecutionStart toolCall) with tools := 0 } = progress := by
      rw [← none_]
      rfl
    rw [back]
    split
    · exact triple_pure _ fun _ => id
    · exact follows.suspended_spec

theorem executeToolCallsSequential_spec (held : progress.held = [])
    (open_ : progress.stage = .turn) (closed : progress.message = false)
    (none_ : progress.tools = 0) :
    Triple (At orderly holds progress pushed new used)
      (executeToolCallsSequential config fuel toolCalls)
      (fun results => At orderly holds { progress with since := progress.since ++ results.2 }
        pushed new used) (Fails failed) := by
  induction toolCalls generalizing progress with
  | nil =>
    apply triple_pure
    intro loop known
    simpa using known
  | cons toolCall rest ih =>
    apply triple_bind (follows.executeToolCall_spec fuel toolCall held open_ closed none_)
    intro outcome
    refine follows.emitToolResult_spec held open_ closed fun message => ?_
    apply triple_bind (hook_spec (follows.aborted
      { progress with since := progress.since ++ [message] } (free_of_turn held open_)))
    intro aborted
    split
    · exact triple_pure _ fun _ => id
    apply triple_bind (ih (by exact held) (by exact open_) (by exact closed)
      (by exact none_))
    intro results
    apply triple_pure
    intro loop known
    simpa [append_assoc] using known

/-- The calls that are left running are those that started and have not ended, each at a place of
its own. -/
theorem prepareToolCalls_spec (index : Nat) (held : progress.held = [])
    (open_ : progress.stage = .turn) (closed : progress.message = false) :
    Triple (At orderly holds progress pushed new used) (prepareToolCalls config index toolCalls)
      (fun calls loop => At orderly holds
        { progress with tools := openIds calls.1 + progress.tools } pushed new used loop ∧
        (calls.1.map Prod.fst).Nodup ∧ ∀ entry ∈ calls.1, index ≤ entry.1)
      (Fails failed) := by
  induction toolCalls generalizing progress index with
  | nil =>
    apply triple_pure
    intro loop known
    refine ⟨?_, nodup_nil, by simp⟩
    rw [openIds_nil_add]
    exact known
  | cons toolCall rest ih =>
    apply triple_bind (follows.emit_spec progress (.toolExecutionStart toolCall) trivial
      fun _ => by simp [admits, open_, closed])
    intro _
    apply triple_bind (follows.prepareToolCall_spec toolCall (by exact held) (by exact open_))
    intro preparation
    cases preparation with
    | immediate result isError =>
      apply triple_bind (follows.emit_spec _ (.toolExecutionEnd toolCall (some result) isError)
        trivial fun _ => by simp [admits, Progress.next, open_])
      intro _
      rw [progress_start_end]
      apply triple_bind (hook_spec (follows.aborted progress (free_of_turn held open_)))
      intro aborted
      split
      · apply triple_pure
        intro loop known
        refine ⟨?_, nodup_nil, by simp⟩
        rw [openIds_nil_add]
        exact known
      · apply triple_bind (ih (index + 1) held open_ closed)
        intro calls
        apply triple_pure
        rintro loop ⟨known, distinct, later⟩
        exact ⟨known, distinct, fun entry member => by have := later entry member; omega⟩
    | prepared =>
      apply triple_bind (hook_spec (follows.aborted
        (progress.next (.toolExecutionStart toolCall)) (free_of_turn held open_)))
      intro aborted
      split
      · apply triple_pure
        intro loop known
        exact ⟨known, by simp, by simp⟩
      apply triple_bind (ih (index + 1) (by exact held) (by exact open_) (by exact closed))
      intro calls
      apply triple_pure
      rintro loop ⟨known, distinct, later⟩
      refine ⟨?_, ?_, ?_⟩
      · have moved : openIds calls.1 + toolCall.id ::ₘ progress.tools =
            openIds ((index, toolCall) :: calls.1) + progress.tools := by
          rw [Multiset.add_cons, ← Multiset.cons_add]
          rfl
        rw [← moved]
        exact known
      · rw [map_cons, nodup_cons]
        refine ⟨?_, distinct⟩
        intro again
        obtain ⟨entry, member, same⟩ := mem_map.mp again
        have := later entry member
        simp only at same
        omega
      · rw [forall_mem_cons]
        refine ⟨Nat.le_refl index, fun entry member => ?_⟩
        have := later entry member
        omega

theorem executeToolCallsParallel_spec (held : progress.held = []) (open_ : progress.stage = .turn)
    (closed : progress.message = false) (none_ : progress.tools = 0) :
    Triple (At orderly holds progress pushed new used)
      (executeToolCallsParallel config fuel toolCalls)
      (fun results => At orderly holds { progress with since := progress.since ++ results.2 }
        pushed new used) (Fails failed) := by
  apply triple_bind (follows.prepareToolCalls_spec toolCalls 0 held open_ closed)
  rintro ⟨running, known⟩
  apply triple_each
  rintro loop ⟨here, distinct, -⟩
  refine Triple.here ?_ here
  apply triple_bind (follows.runTools_spec fuel running known (by exact held) (by exact open_)
    (by simp [none_]) distinct)
  intro finalized
  have back : { progress with tools := 0 } = progress := by
    rw [← none_]
  rw [back]
  apply triple_bind (follows.emitToolResults_spec (ordered finalized) held open_ closed)
  intro messages
  exact triple_pure _ fun _ => id

theorem executeToolCalls_spec (held : progress.held = []) (open_ : progress.stage = .turn)
    (closed : progress.message = false) (none_ : progress.tools = 0) :
    Triple (At orderly holds progress pushed new used) (executeToolCalls config fuel toolCalls)
      (fun results => At orderly holds { progress with since := progress.since ++ results.2 }
        pushed new used) (Fails failed) := by
  apply triple_get
  intro loop here
  refine Triple.here ?_ here
  split
  · exact follows.executeToolCallsSequential_spec fuel toolCalls held open_ closed none_
  · exact follows.executeToolCallsParallel_spec fuel toolCalls held open_ closed none_

end

end Follows

end Recode.Agent

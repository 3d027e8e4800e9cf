import Recode.Agent.ToolBatches

/-! # Every call of a batch is answered

A batch returns one result for each of its calls, in their order, or for those of a front
of it when it is aborted, and that front has all calls that started. Without an abort both
ways to execute a batch return the same. -/

namespace Recode.Agent

open Procedure Loop List

def ResultMessage (outcome : FinalizedToolCallOutcome) (message : MessageObject) : Prop :=
  ∃ result timestamp, outcome.result = some result ∧
    message = ⟨.toolResult outcome.toolCall.id outcome.toolCall.name (result.content.getD [])
      result.details outcome.isError timestamp, none⟩

/-- Each call has one of its outcomes, and each outcome its message. -/
structure Answered {Host : Type} (config : AgentLoopConfig Host) (behaviour : Behaviour)
    (tools : List AgentTool) (calls : List AgentToolCall)
    (results : List FinalizedToolCallOutcome × List MessageObject) : Prop where
  outcomes : List.Forall₂ (MayEnd config behaviour tools) calls results.1
  messages : List.Forall₂ ResultMessage results.1 results.2

namespace Settles

variable {Host Result : Type} {config : AgentLoopConfig Host} {behaviour : Behaviour}
  {observer : Observer Host} {tools : List AgentTool} {start : Host} {updates index : Nat}
  {calls : List AgentToolCall}

section

variable (settles : Settles config behaviour observer)
include settles

/-- A message is emitted. -/
theorem emitMessage_spec (message : MessageObject) :
    Triple (Watching observer tools start updates calls) (emitMessage config message)
      (fun _ => Watching observer tools start updates calls) Never := by
  apply triple_bind (settles.emit_quiet _ rfl)
  intro _
  exact settles.emit_quiet _ rfl

theorem emitToolResult_spec {outcome : FinalizedToolCallOutcome}
    {next : MessageObject → LoopM Host Result} {after : Result → Loop Host → Prop}
    (present : ∃ result, outcome.result = some result)
    (rest : ∀ message, ResultMessage outcome message →
      Triple (Watching observer tools start updates calls) (next message) after Never) :
    Triple (Watching observer tools start updates calls)
      (do
        let message ← createToolResultMessage config outcome
        emitMessage config message
        next message) after Never := by
  obtain ⟨result, present⟩ := present
  have made : Triple (Watching observer tools start updates calls)
      (createToolResultMessage config outcome)
      (fun message loop => ResultMessage outcome message ∧
        Watching observer tools start updates calls loop) Never := by
    unfold createToolResultMessage
    rw [present]
    have clock : ∀ host, ∃ answer after, perform config.now host = (.ok answer, after) ∧
        True ∧ observer.Quiet host after := by
      intro host
      obtain ⟨answer, after, done, quiet⟩ := settles.now host
      exact ⟨answer, after, done, trivial, quiet⟩
    apply triple_bind (hook_spec clock)
    intro timestamp
    exact triple_pure _ fun loop known => ⟨⟨result, timestamp, present, rfl⟩, known.2⟩
  apply triple_bind made
  intro message
  apply triple_each
  rintro loop ⟨named, watching⟩
  refine Triple.here ?_ watching
  apply triple_bind (settles.emitMessage_spec message)
  intro _
  exact rest message named

theorem emitToolResults_spec (outcomes : List FinalizedToolCallOutcome)
    (present : ∀ outcome ∈ outcomes, ∃ result, outcome.result = some result) :
    Triple (Watching observer tools start updates calls) (emitToolResults config outcomes)
      (fun messages loop => List.Forall₂ ResultMessage outcomes messages ∧
        Watching observer tools start updates calls loop) Never := by
  induction outcomes with
  | nil => exact triple_pure _ fun loop known => ⟨List.Forall₂.nil, known⟩
  | cons outcome rest step =>
    refine settles.emitToolResult_spec (present outcome mem_cons_self) ?_
    intro message named
    apply triple_bind (step fun other member => present other (mem_cons_of_mem _ member))
    intro messages
    exact triple_pure _ fun loop known => ⟨List.Forall₂.cons named known.1, known.2⟩

end

/-! ## One call after the other -/

variable {toolCall : AgentToolCall}

theorem placed_alone (prepared : MayPrepare config behaviour tools toolCall .prepared) :
    Placed config behaviour tools 0 [toolCall] [(0, toolCall)] [] where
  places := List.Perm.refl _
  running entry member := by
    obtain rfl := mem_singleton.mp member
    exact ⟨0, rfl, rfl, prepared⟩
  ended entry member := absurd member not_mem_nil

theorem Placed.ended_alone {ended : List (Nat × FinalizedToolCallOutcome)}
    (placed : Placed config behaviour tools 0 [toolCall] [] ended) :
    ∃ place outcome, ended = [(place, outcome)] ∧
      MayEnd config behaviour tools toolCall outcome := by
  have places : ended.map Prod.fst = [0] := perm_singleton.mp placed.places
  obtain ⟨entry, rfl, -⟩ := map_eq_singleton_iff.mp places
  obtain ⟨offset, other, -, found, ends⟩ := placed.ended entry mem_cons_self
  cases offset with
  | zero =>
    obtain rfl := Option.some.inj found
    exact ⟨entry.1, entry.2, rfl, ends⟩
  | succ offset => cases found

theorem executeToolCall_spec (settles : Settles config behaviour observer) {fuel : Nat}
    (toolCall : AgentToolCall) (enough : updates + 1 ≤ fuel) :
    Triple (Watching observer tools start updates calls) (executeToolCall config fuel toolCall)
      (fun outcome loop => MayEnd config behaviour tools toolCall outcome ∧
        Watching observer tools start updates (calls ++ [toolCall]) loop) Never := by
  apply triple_bind (settles.emit_spec _)
  intro _
  apply triple_bind (settles.prepareToolCall_spec toolCall)
  intro preparation
  apply triple_each
  rintro loop ⟨prepares, watching⟩
  refine Triple.here ?_ watching
  cases preparation with
  | immediate result isError =>
    apply triple_bind (settles.emit_quiet _ rfl)
    intro _
    exact triple_pure _ fun loop known => ⟨Or.inl ⟨result, isError, prepares, rfl⟩, known⟩
  | prepared =>
    have own : ∀ entry ∈ [(0, toolCall)],
        entry.2 ∈ calls ++ (AgentEvent.toolExecutionStart toolCall).startedCalls := by
      intro entry member
      obtain rfl := mem_singleton.mp member
      exact mem_append_right _ mem_cons_self
    apply triple_bind (settles.runTools_spec fuel enough (placed_alone prepares) own)
    intro ended
    apply triple_each
    rintro loop ⟨placed, watching⟩
    refine Triple.here ?_ watching
    obtain ⟨place, outcome, rfl, ends⟩ := placed.ended_alone
    exact triple_pure _ fun loop known => ⟨ends, known⟩

/-- What a batch returns: results of a front of its calls, of all of them unless it is
aborted, and no other call has started. -/
def Returns (config : AgentLoopConfig Host) (behaviour : Behaviour) (observer : Observer Host)
    (tools : List AgentTool) (start : Host) (updates : Nat) (calls toolCalls : List AgentToolCall)
    (results : List FinalizedToolCallOutcome × List MessageObject) (loop : Loop Host) : Prop :=
  ∃ answered rest, toolCalls = answered ++ rest ∧ (rest ≠ [] → behaviour.aborts true) ∧
    Answered config behaviour tools answered results ∧
    Watching observer tools start updates (calls ++ answered) loop

theorem executeToolCallsSequential_spec (settles : Settles config behaviour observer) {fuel : Nat}
    (toolCalls : List AgentToolCall) (enough : updates + 1 ≤ fuel) :
    Triple (Watching observer tools start updates calls)
      (executeToolCallsSequential config fuel toolCalls)
      (Returns config behaviour observer tools start updates calls toolCalls) Never := by
  induction toolCalls generalizing calls with
  | nil =>
    refine triple_pure _ fun loop known => ⟨[], [], rfl, fun other => (other rfl).elim,
      ⟨List.Forall₂.nil, List.Forall₂.nil⟩, ?_⟩
    rw [append_nil]
    exact known
  | cons toolCall rest step =>
    apply triple_bind (settles.executeToolCall_spec toolCall enough)
    intro outcome
    apply triple_each
    rintro loop ⟨ends, watching⟩
    refine Triple.here ?_ watching
    refine settles.emitToolResult_spec ends.result ?_
    intro message named
    apply triple_bind (hook_spec settles.aborted)
    intro aborted
    apply triple_each
    rintro loop ⟨allowed, watching⟩
    refine Triple.here ?_ watching
    cases aborted with
    | true =>
      refine triple_pure _ fun loop known => ⟨[toolCall], rest, rfl, fun _ => allowed, ?_, known⟩
      exact ⟨List.Forall₂.cons ends List.Forall₂.nil, List.Forall₂.cons named List.Forall₂.nil⟩
    | false =>
      apply triple_bind step
      rintro ⟨outcomes, messages⟩
      apply triple_pure
      rintro loop ⟨answered, left, rfl, aborts, each, watching⟩
      refine ⟨toolCall :: answered, left, rfl, aborts, ?_, ?_⟩
      · exact ⟨List.Forall₂.cons ends each.outcomes, List.Forall₂.cons named each.messages⟩
      · rw [append_cons]
        exact watching

/-! ## Calls at the same time -/

theorem placed_nil : Placed config behaviour tools index [] [] [] where
  places := List.Perm.refl _
  running _ member := absurd member not_mem_nil
  ended _ member := absurd member not_mem_nil

variable {batch : List AgentToolCall} {running : List (Nat × AgentToolCall)}
  {ended : List (Nat × FinalizedToolCallOutcome)}

theorem Placed.consRunning (placed : Placed config behaviour tools (index + 1) batch running ended)
    (prepared : MayPrepare config behaviour tools toolCall .prepared) :
    Placed config behaviour tools index (toolCall :: batch)
      ((index, toolCall) :: running) ended where
  places := placed.places.cons index
  running entry member := by
    rcases mem_cons.mp member with rfl | member
    · exact ⟨0, rfl, rfl, prepared⟩
    · obtain ⟨place, same, found⟩ := placed.running entry member
      exact ⟨place + 1, by omega, found⟩
  ended entry member := by
    obtain ⟨place, other, same, found⟩ := placed.ended entry member
    exact ⟨place + 1, other, by omega, found⟩

theorem Placed.consEnded (placed : Placed config behaviour tools (index + 1) batch running ended)
    {outcome : FinalizedToolCallOutcome} (ends : MayEnd config behaviour tools toolCall outcome) :
    Placed config behaviour tools index (toolCall :: batch) running
      ((index, outcome) :: ended) where
  places := perm_middle.trans (placed.places.cons index)
  running entry member := by
    obtain ⟨place, same, found⟩ := placed.running entry member
    exact ⟨place + 1, by omega, found⟩
  ended entry member := by
    rcases mem_cons.mp member with rfl | member
    · exact ⟨0, toolCall, rfl, rfl, ends⟩
    · obtain ⟨place, other, same, found⟩ := placed.ended entry member
      exact ⟨place + 1, other, by omega, found⟩

/-- The calls of a batch are prepared one after the other, until the batch is aborted. -/
theorem prepareToolCalls_spec (settles : Settles config behaviour observer)
    (toolCalls : List AgentToolCall) (index : Nat) :
    Triple (Watching observer tools start updates calls) (prepareToolCalls config index toolCalls)
      (fun results loop => ∃ answered rest, toolCalls = answered ++ rest ∧
        (rest ≠ [] → behaviour.aborts true) ∧
        Placed config behaviour tools index answered results.1 results.2 ∧
        (∀ entry ∈ results.1, entry.2 ∈ answered) ∧
        Watching observer tools start updates (calls ++ answered) loop) Never := by
  induction toolCalls generalizing calls index with
  | nil =>
    refine triple_pure _ fun loop known => ⟨[], [], rfl, fun other => (other rfl).elim,
      placed_nil, fun _ member => absurd member not_mem_nil, ?_⟩
    rw [append_nil]
    exact known
  | cons toolCall rest step =>
    apply triple_bind (settles.emit_spec _)
    intro _
    apply triple_bind (settles.prepareToolCall_spec toolCall)
    intro preparation
    apply triple_each
    rintro loop ⟨prepares, watching⟩
    refine Triple.here ?_ watching
    cases preparation with
    | immediate result isError =>
      have ends : MayEnd config behaviour tools toolCall ⟨toolCall, some result, isError⟩ :=
        Or.inl ⟨result, isError, prepares, rfl⟩
      apply triple_bind (settles.emit_quiet _ rfl)
      intro _
      apply triple_bind (hook_spec settles.aborted)
      intro aborted
      apply triple_each
      rintro loop ⟨allowed, watching⟩
      refine Triple.here ?_ watching
      cases aborted with
      | true =>
        exact triple_pure _ fun loop known => ⟨[toolCall], rest, rfl, fun _ => allowed,
          placed_nil.consEnded ends, fun _ member => absurd member not_mem_nil, known⟩
      | false =>
        apply triple_bind (step (index + 1))
        rintro ⟨running, ended⟩
        apply triple_pure
        rintro loop ⟨answered, left, rfl, aborts, placed, own, watching⟩
        refine ⟨toolCall :: answered, left, rfl, aborts, placed.consEnded ends, ?_, ?_⟩
        · exact fun entry member => mem_cons_of_mem _ (own entry member)
        · rw [append_cons]
          exact watching
    | prepared =>
      apply triple_bind (hook_spec settles.aborted)
      intro aborted
      apply triple_each
      rintro loop ⟨allowed, watching⟩
      refine Triple.here ?_ watching
      cases aborted with
      | true =>
        refine triple_pure _ fun loop known => ⟨[toolCall], rest, rfl, fun _ => allowed,
          placed_nil.consRunning prepares, ?_, known⟩
        intro entry member
        obtain rfl := mem_singleton.mp member
        exact mem_cons_self
      | false =>
        apply triple_bind (step (index + 1))
        rintro ⟨running, ended⟩
        apply triple_pure
        rintro loop ⟨answered, left, rfl, aborts, placed, own, watching⟩
        refine ⟨toolCall :: answered, left, rfl, aborts, placed.consRunning prepares, ?_, ?_⟩
        · intro entry member
          rcases mem_cons.mp member with rfl | member
          · exact mem_cons_self
          · exact mem_cons_of_mem _ (own entry member)
        · rw [append_cons]
          exact watching

/-- Sorted by their places, the outcomes of a batch are in the order of its calls. -/
theorem Placed.ordered_mayEnd (placed : Placed config behaviour tools 0 batch [] ended) :
    List.Forall₂ (MayEnd config behaviour tools) batch (ordered ended) := by
  have sorted : (ended.mergeSort fun first second => first.1 ≤ second.1).map Prod.fst =
      range batch.length := by
    apply List.Perm.eq_of_pairwise' (r := (· ≤ ·))
    · rw [pairwise_map]
      exact pairwise_mergeSort' (fun first second => first.1 ≤ second.1) ended
    · exact pairwise_le_range
    · have places : (ended.map Prod.fst).Perm (range batch.length) := by
        rw [range_eq_range']
        exact placed.places
      exact ((mergeSort_perm _ _).map Prod.fst).trans places
  have length := congrArg length sorted
  rw [length_map, length_range] at length
  rw [ordered, forall₂_iff_get]
  refine ⟨by rw [length_map, length], ?_⟩
  intro place inBatch inEnded
  rw [length_map] at inEnded
  have here := getElem_of_eq sorted (i := place) (by rwa [length_map])
  rw [getElem_map, getElem_range] at here
  have member := (mergeSort_perm _ _).mem_iff.mp (getElem_mem inEnded)
  obtain ⟨offset, toolCall, same, found, ends⟩ := placed.ended _ member
  rw [here, Nat.zero_add] at same
  subst same
  rw [getElem?_eq_getElem inBatch] at found
  obtain rfl := Option.some.inj found
  rw [get_eq_getElem, get_eq_getElem, getElem_map]
  exact ends

theorem results_present {outcomes : List FinalizedToolCallOutcome}
    (ends : List.Forall₂ (MayEnd config behaviour tools) batch outcomes) :
    ∀ outcome ∈ outcomes, ∃ result, outcome.result = some result := by
  induction ends with
  | nil => exact fun _ member => absurd member not_mem_nil
  | cons first rest step =>
    intro outcome member
    rcases mem_cons.mp member with rfl | member
    · exact first.result
    · exact step outcome member

theorem executeToolCallsParallel_spec (settles : Settles config behaviour observer) {fuel : Nat}
    (toolCalls : List AgentToolCall) (enough : updates + toolCalls.length ≤ fuel) :
    Triple (Watching observer tools start updates calls)
      (executeToolCallsParallel config fuel toolCalls)
      (Returns config behaviour observer tools start updates calls toolCalls) Never := by
  apply triple_bind (settles.prepareToolCalls_spec toolCalls 0)
  rintro ⟨running, known⟩
  apply triple_each
  rintro loop ⟨answered, rest, rfl, aborts, placed, own, watching⟩
  refine Triple.here ?_ watching
  dsimp only at placed own ⊢
  have few : running.length ≤ answered.length := by
    have places := placed.places.length_eq
    rw [length_append, length_map, length_map, length_range'] at places
    omega
  rw [length_append] at enough
  have started : ∀ entry ∈ running, entry.2 ∈ calls ++ answered :=
    fun entry member => mem_append_right _ (own entry member)
  apply triple_bind (settles.runTools_spec fuel (by omega) placed started)
  intro ended
  apply triple_each
  rintro loop ⟨placed, watching⟩
  refine Triple.here ?_ watching
  have outcomes := placed.ordered_mayEnd
  apply triple_bind (settles.emitToolResults_spec (ordered ended) (results_present outcomes))
  intro messages
  exact triple_pure _ fun loop known =>
    ⟨answered, rest, rfl, aborts, ⟨outcomes, known.1⟩, known.2⟩

end Settles

/-! ## Batches -/

/-- Hooks and tools that do not interact answer a call in one way. -/
structure Behaviour.Independent (behaviour : Behaviour) : Prop where
  before : ∀ toolCall first second,
    behaviour.before toolCall first → behaviour.before toolCall second → first = second
  execute : ∀ toolCall first second,
    behaviour.execute toolCall first → behaviour.execute toolCall second → first = second
  after : ∀ toolCall result isError first second, behaviour.after toolCall result isError first →
      behaviour.after toolCall result isError second → first = second

/-- No batch is aborted. -/
def Behaviour.Unaborted (behaviour : Behaviour) : Prop :=
  ∀ aborted, behaviour.aborts aborted → aborted = false

section Unaborted

variable {Host : Type} {config : AgentLoopConfig Host} {behaviour : Behaviour}
  {tools : List AgentTool} {toolCall : AgentToolCall}

theorem MayPrepare.unique (independent : behaviour.Independent) (unaborted : behaviour.Unaborted)
    {first second : PreparedToolCall} (one : MayPrepare config behaviour tools toolCall first)
    (other : MayPrepare config behaviour tools toolCall second) : first = second := by
  unfold MayPrepare at one other
  cases found : tools.find? fun tool => tool.name = toolCall.name with
  | none =>
    rw [found] at one other
    exact one.trans other.symm
  | some tool =>
    rw [found] at one other
    dsimp only at one other
    cases valid : config.validateToolArguments tool toolCall with
    | error message =>
      rw [valid] at one other
      exact one.trans other.symm
    | ok checked =>
      rw [valid] at one other
      obtain ⟨answer, answers, one⟩ := one
      obtain ⟨answer', answers', other⟩ := other
      obtain rfl := independent.before toolCall answer answer' answers answers'
      cases answer with
      | error message => exact one.trans other.symm
      | ok before =>
        obtain ⟨aborted, allowed, rfl⟩ := one
        obtain ⟨aborted', allowed', rfl⟩ := other
        rw [unaborted aborted allowed, unaborted aborted' allowed']

theorem MayExecute.unique (independent : behaviour.Independent)
    {first second : FinalizedToolCallOutcome} (one : MayExecute behaviour toolCall first)
    (other : MayExecute behaviour toolCall second) : first = second := by
  obtain ⟨execution, answer, executes, answers, rfl⟩ := one
  obtain ⟨execution', answer', executes', answers', rfl⟩ := other
  obtain rfl := independent.execute toolCall execution execution' executes executes'
  rw [independent.after toolCall _ _ answer answer' answers answers']

/-- A call has one outcome when nothing interacts and nothing is aborted. -/
theorem MayEnd.unique (independent : behaviour.Independent) (unaborted : behaviour.Unaborted)
    {first second : FinalizedToolCallOutcome} (one : MayEnd config behaviour tools toolCall first)
    (other : MayEnd config behaviour tools toolCall second) : first = second := by
  rcases one with ⟨result, isError, prepares, rfl⟩ | ⟨prepares, executes⟩
  · rcases other with ⟨result', isError', prepares', rfl⟩ | ⟨prepares', -⟩
    · cases prepares.unique independent unaborted prepares'
      rfl
    · cases prepares.unique independent unaborted prepares'
  · rcases other with ⟨result', isError', prepares', -⟩ | ⟨-, executes'⟩
    · cases prepares.unique independent unaborted prepares'
    · exact executes.unique independent executes'

end Unaborted

def untimed (message : MessageObject) : MessageObject :=
  match message.message with
  | .toolResult id name content details isError _ =>
    { message with message := .toolResult id name content details isError 0 }
  | _ => message

def toolCallIdOf (message : MessageObject) : Option String :=
  match message.message with
  | .toolResult id _ _ _ _ _ => some id
  | _ => none

theorem ResultMessage.untimed_eq {outcome : FinalizedToolCallOutcome} {first second : MessageObject}
    (one : ResultMessage outcome first) (other : ResultMessage outcome second) :
    untimed first = untimed second := by
  obtain ⟨result, timestamp, present, rfl⟩ := one
  obtain ⟨result', timestamp', present', rfl⟩ := other
  obtain rfl := Option.some.inj (present.symm.trans present')
  rfl

theorem messages_untimed {outcomes : List FinalizedToolCallOutcome}
    {first second : List MessageObject} (one : List.Forall₂ ResultMessage outcomes first)
    (other : List.Forall₂ ResultMessage outcomes second) :
    first.map untimed = second.map untimed := by
  induction one generalizing second with
  | nil =>
    cases other
    rfl
  | cons named rest step =>
    cases other with
    | cons named' rest' =>
      rw [map_cons, map_cons, named.untimed_eq named', step rest']

variable {calls : List AgentToolCall} {behaviour : Behaviour}

theorem outcomes_unique {Host : Type} {config : AgentLoopConfig Host}
    {tools : List AgentTool} (independent : behaviour.Independent)
    (unaborted : behaviour.Unaborted) {first second : List FinalizedToolCallOutcome}
    (one : List.Forall₂ (MayEnd config behaviour tools) calls first)
    (other : List.Forall₂ (MayEnd config behaviour tools) calls second) : first = second := by
  induction one generalizing second with
  | nil =>
    cases other
    rfl
  | cons ends rest step =>
    cases other with
    | cons ends' rest' =>
      rw [ends.unique independent unaborted ends', step rest']

theorem Answered.toolCallIds {Host : Type} {config : AgentLoopConfig Host}
    {tools : List AgentTool} {results : List FinalizedToolCallOutcome × List MessageObject}
    (answered : Answered config behaviour tools calls results) :
    results.2.map toolCallIdOf = calls.map fun toolCall => some toolCall.id := by
  obtain ⟨outcomes, messages⟩ := results
  obtain ⟨ends, named⟩ := answered
  dsimp only at ends named ⊢
  induction ends generalizing messages with
  | nil =>
    cases named
    rfl
  | cons first rest step =>
    cases named with
    | cons message others =>
      obtain ⟨result, timestamp, -, rfl⟩ := message
      rw [map_cons, map_cons, step _ others]
      change some _ :: _ = _
      rw [first.toolCall]

/-- What a batch leaves: results of a front of its calls that has all calls that started. -/
structure Answers {Host : Type} (config : AgentLoopConfig Host) (behaviour : Behaviour)
    (observer : Observer Host) (loop after : Loop Host) (calls answered : List AgentToolCall)
    (results : List FinalizedToolCallOutcome × List MessageObject) : Prop where
  front : answered <+: calls
  each : Answered config behaviour loop.context.tools answered results
  toolCallIds : results.2.map toolCallIdOf = answered.map fun toolCall => some toolCall.id
  started : observer.started after.host = observer.started loop.host ++ answered
  executed : ∀ toolCall ∈ observer.executed after.host,
    toolCall ∈ observer.executed loop.host ∨ toolCall ∈ answered
  complete : behaviour.Unaborted → answered = calls

theorem answers_of_returns {Host : Type} {config : AgentLoopConfig Host} {observer : Observer Host}
    {loop : Loop Host} {execute : LoopM Host (List FinalizedToolCallOutcome × List MessageObject)}
    (returns : Triple (Settles.Watching observer loop.context.tools loop.host
        (observer.updates loop.host) [])
      execute (Settles.Returns config behaviour observer loop.context.tools loop.host
        (observer.updates loop.host) [] calls) Settles.Never) :
    ∃ answered results after, perform execute loop = (.ok results, after) ∧
      Answers config behaviour observer loop after calls answered results := by
  have done := returns loop ⟨rfl, Nat.le_refl _, (append_nil _).symm, fun _ => Or.inl⟩
  cases run : perform execute loop with
  | mk outcome after =>
    rw [run] at done
    cases outcome with
    | error stop => exact done.elim
    | ok results =>
      obtain ⟨answered, rest, same, aborts, each, watching⟩ := done
      refine ⟨answered, results, after, rfl, ⟨rest, same.symm⟩, each, each.toolCallIds,
        watching.started, watching.executed, ?_⟩
      intro unaborted
      cases rest with
      | nil => rw [same, append_nil]
      | cons first others =>
        have calm := unaborted true (aborts (cons_ne_nil _ _))
        cases calm

/-- `executeToolCalls` and both ways it may go return the results of a front of the calls,
with all that started, and without an abort both ways answer all calls alike. -/
theorem tool_batch_answers {Host : Type} {config : AgentLoopConfig Host} {behaviour : Behaviour}
    {observer : Observer Host} (settles : Settles config behaviour observer) (loop : Loop Host)
    (calls : List AgentToolCall) (fuel : Nat)
    (enough : observer.updates loop.host + calls.length < fuel) :
    (∃ answered results after,
      perform (executeToolCalls config fuel calls) loop = (.ok results, after) ∧
        Answers config behaviour observer loop after calls answered results) ∧
    (∃ answered results after,
      perform (executeToolCallsSequential config fuel calls) loop = (.ok results, after) ∧
        Answers config behaviour observer loop after calls answered results ∧
        ∃ answered' results' after',
          perform (executeToolCallsParallel config fuel calls) loop = (.ok results', after') ∧
            Answers config behaviour observer loop after' calls answered' results' ∧
            (behaviour.Unaborted → behaviour.Independent →
              answered = calls ∧ answered' = calls ∧ results.1 = results'.1 ∧
                results.2.map untimed = results'.2.map untimed ∧
                shouldTerminateToolBatch results.1 = shouldTerminateToolBatch results'.1)) ∧
    ∀ outcomes, shouldTerminateToolBatch outcomes = true ↔ outcomes ≠ [] ∧
      ∀ outcome ∈ outcomes, ∃ result, outcome.result = some result ∧ result.terminate = true := by
  have one : observer.updates loop.host + 1 ≤ fuel := by omega
  have sequential := answers_of_returns (settles.executeToolCallsSequential_spec calls one)
  have all : observer.updates loop.host + calls.length ≤ fuel := enough.le
  have parallel := answers_of_returns (settles.executeToolCallsParallel_spec calls all)
  refine ⟨?_, ?_, ?_⟩
  · change ∃ answered results after, perform (if config.toolExecution = .sequential ∨
        hasSequentialToolCall loop.context.tools calls = true then
          executeToolCallsSequential config fuel calls
        else executeToolCallsParallel config fuel calls) loop = (.ok results, after) ∧ _
    split
    · exact sequential
    · exact parallel
  · obtain ⟨answered, results, after, done, answers⟩ := sequential
    obtain ⟨answered', results', after', done', answers'⟩ := parallel
    refine ⟨answered, results, after, done, answers, answered', results', after', done',
      answers', ?_⟩
    intro unaborted independent
    have whole := answers.complete unaborted
    have whole' := answers'.complete unaborted
    have outcomes : results.1 = results'.1 :=
      outcomes_unique independent unaborted (whole ▸ answers.each.outcomes)
        (whole' ▸ answers'.each.outcomes)
    refine ⟨whole, whole', outcomes, ?_, by rw [outcomes]⟩
    exact messages_untimed answers.each.messages (outcomes ▸ answers'.each.messages)
  · intro outcomes
    rw [shouldTerminateToolBatch, Bool.and_eq_true, Bool.not_eq_true', isEmpty_eq_false_iff,
      all_eq_true]
    refine and_congr_right fun _ => forall₂_congr fun outcome _ => ?_
    rw [Option.any_eq_true]

/-- A host that knows which calls have started and which were executed. -/
structure Recorder where
  started : List AgentToolCall := []
  executed : List AgentToolCall := []

/-- A tool that returns nothing, and asks to stop. -/
def stops : AgentToolResult := { content := some [], details := none, terminate := true }

/-- A host without hooks, whose tools end as soon as they run. -/
def recorderConfig : AgentLoopConfig Recorder where
  emit event := modify fun host => { host with started := host.started ++ event.startedCalls }
  getSteeringMessages := pure []
  getFollowUpMessages := pure []
  prepareNextTurn _ := pure none
  shouldStopAfterTurn _ := pure false
  transformContext messages := pure messages
  convertToLlm messages := pure messages
  getApiKey _ := pure ()
  streamFunction _ _ := pure ()
  nextStreamEvent := pure none
  streamResult := throw .suspended
  validateToolArguments _ _ := .ok ()
  beforeToolCall _ := pure (.ok none)
  nextToolStep running := do
    modify fun host => { host with executed := host.executed ++ running.map Prod.snd }
    match running with
    | [] => throw .suspended
    | entry :: _ => return .ended entry.1 (.ok (some stops))
  afterToolCall _ _ _ := pure (.ok none)
  aborted := pure false
  now := pure 0
  maxIterations := none
  toolExecution := .parallel

def recorderBehaviour : Behaviour where
  before _ answer := answer = .ok none
  aborts aborted := aborted = false
  execute _ execution := execution = .ok stops
  after _ _ _ answer := answer = .ok none

def recorderObserver : Observer Recorder where
  updates _ := 0
  started host := host.started
  executed host := host.executed

theorem recorder_settles : Settles recorderConfig recorderBehaviour recorderObserver where
  emit event host := ⟨_, rfl, Nat.le_refl _, rfl, rfl⟩
  beforeToolCall toolCall host := ⟨_, _, rfl, rfl, Nat.le_refl _, rfl, rfl⟩
  aborted host := ⟨_, _, rfl, rfl, Nat.le_refl _, rfl, rfl⟩
  nextToolStep running host some := by
    cases running with
    | nil => exact (some rfl).elim
    | cons entry others =>
      refine ⟨_, _, rfl, ?_, rfl, rfl⟩
      exact @ToolStep.Possible.ended _ _ _ _ entry (.ok stops) mem_cons_self (Nat.le_refl _) rfl
  afterToolCall toolCall result isError host := ⟨_, _, rfl, rfl, Nat.le_refl _, rfl, rfl⟩
  now host := ⟨_, _, rfl, Nat.le_refl _, rfl, rfl⟩

/-- Two calls, one of a tool that there is and one of a tool that there is not. -/
theorem tool_batch_answers_two :
    ∃ answered results after,
      perform (executeToolCalls recorderConfig 3 [⟨"1", "read", []⟩, ⟨"2", "write", []⟩])
        (continuing {} ⟨[], [⟨"read", none⟩]⟩ ⟨"", "", ""⟩) = (.ok results, after) ∧
      Answers recorderConfig recorderBehaviour recorderObserver
        (continuing {} ⟨[], [⟨"read", none⟩]⟩ ⟨"", "", ""⟩) after
        [⟨"1", "read", []⟩, ⟨"2", "write", []⟩] answered results :=
  (tool_batch_answers recorder_settles (continuing {} ⟨[], [⟨"read", none⟩]⟩ ⟨"", "", ""⟩)
    [⟨"1", "read", []⟩, ⟨"2", "write", []⟩] 3 (by decide)).1

end Recode.Agent

import Recode.Agent.LoopRules
import Mathlib.Data.List.Sort

/-! # Batches of tool calls

What the hooks and the tools of a batch may answer decides which outcomes its calls may
have. Both ways to execute a batch give each call such an outcome, at its place. -/

open List

namespace Recode.Agent

open Procedure Loop Triple

/-- What the hooks and the tools may answer for a call, and whether the batch may be
aborted. -/
structure Behaviour where
  before : AgentToolCall → Except String (Option BeforeToolCallResult) → Prop
  aborts : Bool → Prop
  execute : AgentToolCall → Except String AgentToolResult → Prop
  after : AgentToolCall → Option AgentToolResult → Bool →
    Except String (Option AfterToolCallResult) → Prop

/-- What an observer of the host knows: how many progress reports of tools are still to
come, which calls have started, and which are or were executed. -/
structure Observer (Host : Type) where
  updates : Host → Nat
  started : Host → List AgentToolCall
  executed : Host → List AgentToolCall

/-- The call that an event starts. -/
def AgentEvent.startedCalls : AgentEvent → List AgentToolCall
  | .toolExecutionStart toolCall => [toolCall]
  | _ => []

/-- No call starts, and no report comes back. -/
structure Observer.Quiet {Host : Type} (observer : Observer Host) (host after : Host) : Prop where
  updates : observer.updates after ≤ observer.updates host
  started : observer.started after = observer.started host
  executed : observer.executed after = observer.executed host

/-- A running tool reports, or it ends with one of its results. -/
inductive ToolStep.Possible (behaviour : Behaviour) (running : List (Nat × AgentToolCall))
    (before after : Nat) : ToolStep → Prop
  | update {entry : Nat × AgentToolCall} {partialResult : AgentToolResult}
      (member : entry ∈ running) (fewer : after < before) :
      ToolStep.Possible behaviour running before after (.update entry.1 partialResult)
  | ended {entry : Nat × AgentToolCall} {execution : Except String AgentToolResult}
      (member : entry ∈ running) (fewer : after ≤ before)
      (executes : behaviour.execute entry.2 execution) :
      ToolStep.Possible behaviour running before after (.ended entry.1 (execution.map some))

/-- Hooks that answer, and tools that end after finitely many reports, as the behaviour
says. -/
structure Settles {Host : Type} (config : AgentLoopConfig Host) (behaviour : Behaviour)
    (observer : Observer Host) : Prop where
  emit : ∀ event host, ∃ after, perform (config.emit event) host = (.ok (), after) ∧
    observer.updates after ≤ observer.updates host ∧
    observer.started after = observer.started host ++ event.startedCalls ∧
    observer.executed after = observer.executed host
  beforeToolCall : ∀ toolCall host, ∃ answer after,
    perform (config.beforeToolCall toolCall) host = (.ok answer, after) ∧
      behaviour.before toolCall answer ∧ observer.Quiet host after
  aborted : ∀ host, ∃ answer after, perform config.aborted host = (.ok answer, after) ∧
    behaviour.aborts answer ∧ observer.Quiet host after
  nextToolStep : ∀ running host, running ≠ [] → ∃ step after,
    perform (config.nextToolStep running) host = (.ok step, after) ∧
      ToolStep.Possible behaviour running (observer.updates host) (observer.updates after) step ∧
      observer.started after = observer.started host ∧
      observer.executed after = observer.executed host ++ running.map Prod.snd
  afterToolCall : ∀ toolCall result isError host, ∃ answer after,
    perform (config.afterToolCall toolCall result isError) host = (.ok answer, after) ∧
      behaviour.after toolCall result isError answer ∧ observer.Quiet host after
  now : ∀ host, ∃ answer after, perform config.now host = (.ok answer, after) ∧
    observer.Quiet host after

/-! ## Outcomes of one call -/

/-- What the hook before a call makes of it. -/
def preparation (aborted : Bool) : Option BeforeToolCallResult → PreparedToolCall
  | some ⟨true, reason, terminate⟩ =>
    if aborted then .immediate (createErrorToolResult "Operation aborted") true
    else .immediate { createErrorToolResult
      ((Text.truthy reason).getD "Tool execution was blocked") with terminate := terminate } true
  | _ =>
    if aborted then .immediate (createErrorToolResult "Operation aborted") true
    else .prepared

def MayPrepare {Host : Type} (config : AgentLoopConfig Host) (behaviour : Behaviour)
    (tools : List AgentTool) (toolCall : AgentToolCall) (decided : PreparedToolCall) : Prop :=
  match tools.find? fun tool => tool.name = toolCall.name with
  | none => decided = .immediate
      (createErrorToolResult s!"Tool {toolCall.name} not found") true
  | some tool =>
    match config.validateToolArguments tool toolCall with
    | .error message => decided = .immediate (createErrorToolResult message) true
    | .ok _ => ∃ answer, behaviour.before toolCall answer ∧
        match answer with
        | .error message => decided = .immediate (createErrorToolResult message) true
        | .ok before => ∃ aborted, behaviour.aborts aborted ∧ decided = preparation aborted before

def finalized (toolCall : AgentToolCall) (result : AgentToolResult) (isError : Bool) :
    Except String (Option AfterToolCallResult) → FinalizedToolCallOutcome
  | .error message => ⟨toolCall, some (createErrorToolResult message), true⟩
  | .ok none => ⟨toolCall, some result, isError⟩
  | .ok (some after) => ⟨toolCall, some
      { content := after.content.or result.content
        details := after.details.or result.details
        terminate := after.terminate.getD result.terminate
        usage := after.usage.or result.usage }, after.isError.getD isError⟩

/-- The result of an execution. A tool that throws has failed. -/
def resultOf : Except String AgentToolResult → AgentToolResult × Bool
  | .ok result => (result, false)
  | .error message => (createErrorToolResult message, true)

def MayExecute (behaviour : Behaviour) (toolCall : AgentToolCall)
    (outcome : FinalizedToolCallOutcome) : Prop :=
  ∃ execution answer, behaviour.execute toolCall execution ∧
    behaviour.after toolCall (some (resultOf execution).1) (resultOf execution).2 answer ∧
    outcome = finalized toolCall (resultOf execution).1 (resultOf execution).2 answer

def MayEnd {Host : Type} (config : AgentLoopConfig Host) (behaviour : Behaviour)
    (tools : List AgentTool) (toolCall : AgentToolCall) (outcome : FinalizedToolCallOutcome) :
    Prop :=
  (∃ result isError, MayPrepare config behaviour tools toolCall (.immediate result isError) ∧
    outcome = ⟨toolCall, some result, isError⟩) ∨
  MayPrepare config behaviour tools toolCall .prepared ∧ MayExecute behaviour toolCall outcome

variable {outcome : FinalizedToolCallOutcome} {behaviour : Behaviour}

theorem MayExecute.toolCall {toolCall : AgentToolCall}
    (executes : MayExecute behaviour toolCall outcome) : outcome.toolCall = toolCall := by
  obtain ⟨execution, answer, -, -, rfl⟩ := executes
  unfold finalized
  split <;> rfl

theorem MayExecute.result {toolCall : AgentToolCall}
    (executes : MayExecute behaviour toolCall outcome) :
    ∃ result, outcome.result = some result := by
  obtain ⟨execution, answer, -, -, rfl⟩ := executes
  unfold finalized
  split <;> exact ⟨_, rfl⟩

theorem MayEnd.toolCall {Host : Type} {config : AgentLoopConfig Host}
    {tools : List AgentTool} {toolCall : AgentToolCall}
    (ends : MayEnd config behaviour tools toolCall outcome) : outcome.toolCall = toolCall := by
  rcases ends with ⟨result, isError, -, rfl⟩ | ⟨-, executes⟩
  · rfl
  · exact executes.toolCall

theorem MayEnd.result {Host : Type} {config : AgentLoopConfig Host} {tools : List AgentTool}
    {toolCall : AgentToolCall} (ends : MayEnd config behaviour tools toolCall outcome) :
    ∃ result, outcome.result = some result := by
  rcases ends with ⟨result, isError, -, rfl⟩ | ⟨-, executes⟩
  · exact ⟨result, rfl⟩
  · exact executes.result

/-! ## One call -/

namespace Settles

variable {Host Result : Type} {config : AgentLoopConfig Host} {behaviour : Behaviour}
  {observer : Observer Host}

/-- A point of a batch that began at some host: the calls that have started so far, and the
reports that may still come. -/
structure Watching (observer : Observer Host) (tools : List AgentTool) (start : Host)
    (updates : Nat) (calls : List AgentToolCall) (loop : Loop Host) : Prop where
  tools : loop.context.tools = tools
  updates : observer.updates loop.host ≤ updates
  started : observer.started loop.host = observer.started start ++ calls
  executed : ∀ toolCall ∈ observer.executed loop.host,
    toolCall ∈ observer.executed start ∨ toolCall ∈ calls

variable {tools : List AgentTool} {start : Host} {updates index : Nat}
  {calls : List AgentToolCall}

/-- No procedure of a batch fails. -/
def Never (_ : Stop) (_ : Loop Host) : Prop := False

theorem host_spec {procedure : Procedure Host Stop Result} {before : Loop Host → Prop}
    {after : Result → Loop Host → Prop}
    (answer : ∀ loop, before loop → ∃ result host,
      perform procedure loop.host = (.ok result, host) ∧
      after result { loop with host := host }) :
    Triple before (onHost procedure) after Never := by
  apply triple_get
  intro loop known
  obtain ⟨result, host, done, known⟩ := answer loop known
  rintro _ rfl
  rw [done]
  exact known

theorem Watching.quiet {loop : Loop Host}
    (watching : Watching observer tools start updates calls loop)
    {host : Host} (quiet : observer.Quiet loop.host host) :
    Watching observer tools start updates calls { loop with host := host } where
  tools := watching.tools
  updates := quiet.updates.trans watching.updates
  started := quiet.started.trans watching.started
  executed := quiet.executed ▸ watching.executed

theorem emit_spec (settles : Settles config behaviour observer) (event : AgentEvent) :
    Triple (Watching observer tools start updates calls) (Loop.emit config event)
      (fun _ => Watching observer tools start updates (calls ++ event.startedCalls)) Never := by
  apply host_spec
  intro loop watching
  obtain ⟨host, done, fewer, started, executed⟩ := settles.emit event loop.host
  refine ⟨(), host, done, watching.tools, fewer.trans watching.updates, ?_, ?_⟩
  · rw [started, watching.started, append_assoc]
  · intro toolCall member
    rw [executed] at member
    rcases watching.executed toolCall member with earlier | now
    · exact Or.inl earlier
    · exact Or.inr (mem_append_left _ now)

theorem emit_quiet (settles : Settles config behaviour observer) (event : AgentEvent)
    (none : event.startedCalls = []) :
    Triple (Watching observer tools start updates calls) (Loop.emit config event)
      (fun _ => Watching observer tools start updates calls) Never := by
  have told : Triple (Watching observer tools start updates calls) (Loop.emit config event)
      (fun _ => Watching observer tools start updates (calls ++ event.startedCalls)) Never :=
    settles.emit_spec event
  rw [none, append_nil] at told
  exact told

theorem hook_spec {procedure : Procedure Host Stop Result} {answers : Result → Prop}
    (answer : ∀ host, ∃ result after, perform procedure host = (.ok result, after) ∧
      answers result ∧ observer.Quiet host after) :
    Triple (Watching observer tools start updates calls) (onHost procedure)
      (fun result loop => answers result ∧ Watching observer tools start updates calls loop)
      Never := by
  apply host_spec
  intro loop watching
  obtain ⟨result, host, done, allowed, quiet⟩ := answer loop.host
  exact ⟨result, host, done, allowed, watching.quiet quiet⟩

theorem prepareToolCall_spec (settles : Settles config behaviour observer)
    (toolCall : AgentToolCall) :
    Triple (Watching observer tools start updates calls) (prepareToolCall config toolCall)
      (fun decided loop => MayPrepare config behaviour tools toolCall decided ∧
        Watching observer tools start updates calls loop) Never := by
  apply triple_get
  intro loop watching
  refine here ?_ watching
  rw [watching.tools]
  unfold MayPrepare
  cases tools.find? fun tool => tool.name = toolCall.name with
  | none => exact triple_pure _ fun loop known => ⟨rfl, known⟩
  | some tool =>
    dsimp only
    cases config.validateToolArguments tool toolCall with
    | error message => exact triple_pure _ fun loop known => ⟨rfl, known⟩
    | ok valid =>
      apply triple_bind (hook_spec (settles.beforeToolCall toolCall))
      intro answer
      cases answer with
      | error message => exact triple_pure _ fun loop known => ⟨⟨_, known.1, rfl⟩, known.2⟩
      | ok before =>
        apply triple_each
        rintro loop ⟨answers, watching⟩
        refine here ?_ watching
        apply triple_bind (hook_spec settles.aborted)
        intro aborted
        have told (decided : PreparedToolCall) (same : decided = preparation aborted before) :
            Triple (fun loop => behaviour.aborts aborted ∧
                Watching observer tools start updates calls loop)
              (pure decided : LoopM Host PreparedToolCall)
              (fun decided loop => (∃ answer, behaviour.before toolCall answer ∧
                match answer with
                | .error message => decided = .immediate (createErrorToolResult message) true
                | .ok before => ∃ aborted, behaviour.aborts aborted ∧
                    decided = preparation aborted before) ∧
                Watching observer tools start updates calls loop) Never :=
          triple_pure _ fun loop known => ⟨⟨_, answers, aborted, known.1, same⟩, known.2⟩
        cases aborted with
        | true =>
          refine told _ ?_
          unfold preparation
          split <;> rfl
        | false =>
          simp only [Bool.false_eq_true, if_false]
          split
          · exact told _ rfl
          rename_i other
          refine told _ ?_
          unfold preparation
          split
          · exact (other _ _ rfl).elim
          · rfl

theorem executedResult_map (execution : Except String AgentToolResult) :
    executedResult (execution.map some) =
      (some (resultOf execution).1, (resultOf execution).2) := by
  cases execution <;> rfl

theorem finalizeExecutedToolCall_spec (settles : Settles config behaviour observer)
    (toolCall : AgentToolCall) (result : AgentToolResult) (isError : Bool) :
    Triple (Watching observer tools start updates calls)
      (finalizeExecutedToolCall config toolCall (some result) isError)
      (fun outcome loop => (∃ answer, behaviour.after toolCall (some result) isError answer ∧
        outcome = finalized toolCall result isError answer) ∧
        Watching observer tools start updates calls loop) Never := by
  apply triple_bind (hook_spec (settles.afterToolCall toolCall (some result) isError))
  intro answer
  cases answer with
  | error message => exact triple_pure _ fun loop known => ⟨⟨_, known.1, rfl⟩, known.2⟩
  | ok after =>
    cases after with
    | none => exact triple_pure _ fun loop known => ⟨⟨_, known.1, rfl⟩, known.2⟩
    | some after => exact triple_pure _ fun loop known => ⟨⟨_, known.1, rfl⟩, known.2⟩

/-! ## Calls that run at the same time -/

/-- The places of a batch are those of the calls that run and of those that have ended, and
what has ended is an outcome of the call at its place. The places of a batch begin at an
index. -/
structure Placed (config : AgentLoopConfig Host) (behaviour : Behaviour) (tools : List AgentTool)
    (index : Nat) (batch : List AgentToolCall) (running : List (Nat × AgentToolCall))
    (ended : List (Nat × FinalizedToolCallOutcome)) : Prop where
  places : (running.map Prod.fst ++ ended.map Prod.fst).Perm (range' index batch.length)
  running : ∀ entry ∈ running, ∃ place, entry.1 = index + place ∧ batch[place]? = some entry.2 ∧
    MayPrepare config behaviour tools entry.2 .prepared
  ended : ∀ entry ∈ ended, ∃ place toolCall, entry.1 = index + place ∧
    batch[place]? = some toolCall ∧ MayEnd config behaviour tools toolCall entry.2

variable {running : List (Nat × AgentToolCall)} {ended : List (Nat × FinalizedToolCallOutcome)}
  {entry : Nat × AgentToolCall} {batch : List AgentToolCall}

/-- A running call is found at its place. -/
theorem find_running (distinct : (running.map Prod.fst).Nodup) (member : entry ∈ running) :
    running.find? (fun other => other.1 = entry.1) = some entry := by
  induction running with
  | nil => cases member
  | cons first others ih =>
    rw [map_cons, nodup_cons] at distinct
    rcases mem_cons.mp member with rfl | later
    · rw [find?_cons_of_pos (by simp)]
    · have different : first.1 ≠ entry.1 := fun same =>
        distinct.1 (same ▸ mem_map_of_mem later)
      rw [find?_cons_of_neg (by simpa using different)]
      exact ih distinct.2 later

theorem perm_filter_running (distinct : (running.map Prod.fst).Nodup) (member : entry ∈ running) :
    running.Perm (entry :: running.filter fun other => other.1 ≠ entry.1) := by
  induction running with
  | nil => cases member
  | cons first others ih =>
    rw [map_cons, nodup_cons] at distinct
    rcases mem_cons.mp member with rfl | later
    · rw [filter_cons_of_neg (by simp)]
      have kept : (others.filter fun other => other.1 ≠ entry.1) = others := by
        apply filter_eq_self.mpr
        intro other found
        have different : other.1 ≠ entry.1 := fun same =>
          distinct.1 (same ▸ mem_map_of_mem found)
        simpa using different
      rw [kept]
    · have different : first.1 ≠ entry.1 := fun same =>
        distinct.1 (same ▸ mem_map_of_mem later)
      rw [filter_cons_of_pos (by simpa using different)]
      exact ((ih distinct.2 later).cons first).trans (List.Perm.swap _ _ _)

theorem Placed.distinct (placed : Placed config behaviour tools index batch running ended) :
    (running.map Prod.fst).Nodup :=
  (nodup_append.mp (placed.places.nodup_iff.mpr nodup_range')).1

theorem Placed.endOne {outcome : FinalizedToolCallOutcome}
    (placed : Placed config behaviour tools index batch running ended) (member : entry ∈ running)
    (executes : MayExecute behaviour entry.2 outcome) :
    Placed config behaviour tools index batch (running.filter fun other => other.1 ≠ entry.1)
      (ended ++ [(entry.1, outcome)]) where
  places := by
    have left := (perm_filter_running placed.distinct member).map Prod.fst
    rw [map_append, ← append_assoc]
    refine List.Perm.trans ?_ placed.places
    refine List.Perm.trans ?_ (left.symm.append_right _)
    exact perm_append_singleton _ _
  running other found := placed.running other (mem_of_mem_filter found)
  ended other found := by
    rcases mem_append.mp found with before | now
    · exact placed.ended other before
    · obtain rfl := mem_singleton.mp now
      obtain ⟨place, same, found, decided⟩ := placed.running entry member
      exact ⟨place, entry.2, same, found, Or.inr ⟨decided, executes⟩⟩

theorem runTools_spec (settles : Settles config behaviour observer) (fuel : Nat)
    (enough : updates + running.length ≤ fuel)
    (placed : Placed config behaviour tools index batch running ended)
    (started : ∀ entry ∈ running, entry.2 ∈ calls) :
    Triple (Watching observer tools start updates calls) (runTools config fuel running ended)
      (fun ended loop => Placed config behaviour tools index batch [] ended ∧
        Watching observer tools start updates calls loop) Never := by
  induction fuel generalizing updates running ended with
  | zero =>
    cases running with
    | nil => exact triple_pure _ fun loop known => ⟨placed, known⟩
    | cons first others => cases enough
  | succ fuel step =>
    cases running with
    | nil => exact triple_pure _ fun loop known => ⟨placed, known⟩
    | cons first others =>
      have next : Triple (Watching observer tools start updates calls)
          (onHost (config.nextToolStep (first :: others)))
          (fun step loop => ∃ before after, before ≤ updates ∧
            ToolStep.Possible behaviour (first :: others) before after step ∧
            Watching observer tools start after calls loop) Never := by
        apply host_spec
        intro loop watching
        obtain ⟨step, host, done, possible, begun, executed⟩ :=
          settles.nextToolStep (first :: others) loop.host (cons_ne_nil _ _)
        refine ⟨step, host, done, _, _, watching.updates, possible, watching.tools,
          Nat.le_refl _, begun.trans watching.started, ?_⟩
        intro toolCall member
        rw [executed] at member
        rcases mem_append.mp member with before | now
        · exact watching.executed toolCall before
        · obtain ⟨entry, found, rfl⟩ := mem_map.mp now
          exact Or.inr (started entry found)
      apply triple_bind next
      intro toolStep
      apply triple_each
      rintro loop ⟨before, after, most, possible, watching⟩
      refine here ?_ watching
      cases possible with
      | update member fewer =>
        simp only [find_running placed.distinct member]
        apply triple_bind (settles.emit_quiet _ rfl)
        intro _
        have rest := @step after _ _ (by omega) placed started
        exact rest.weaken (fun _ => id)
          (fun _ _ known => ⟨known.1, known.2.tools, by have := known.2.updates; omega,
            known.2.started, known.2.executed⟩) (fun _ _ => id)
      | @ended entry execution member fewer executes =>
        simp only [find_running placed.distinct member, executedResult_map]
        apply triple_bind (settles.finalizeExecutedToolCall_spec _ _ _)
        intro outcome
        apply triple_each
        rintro loop ⟨⟨answer, answers, same⟩, watching⟩
        refine here ?_ watching
        apply triple_bind (settles.emit_quiet _ rfl)
        intro _
        have left : (first :: others).length =
            ((first :: others).filter fun other => other.1 ≠ entry.1).length + 1 :=
          (perm_filter_running placed.distinct member).length_eq
        have rest := @step after _ _ (by omega)
          (placed.endOne member ⟨execution, answer, executes, answers, same⟩)
          fun other found => started other (mem_of_mem_filter found)
        exact rest.weaken (fun _ => id)
          (fun _ _ known => ⟨known.1, known.2.tools, by have := known.2.updates; omega,
            known.2.started, known.2.executed⟩) (fun _ _ => id)

end Settles

end Recode.Agent

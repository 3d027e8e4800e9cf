import Recode.Agent.ToolRules

/-! # The turns of a run

Between the steps of a turn no message is open and no tool runs, and the run has
added to its context the messages that ended. A turn leads from one such point
to another, and so does a run. -/

namespace Recode.Agent

open Procedure List Progress

/-- A point at which no message is open and no tool is running. -/
structure Progress.Quiet (progress : Progress) (stage : Stage) (held : List MessageObject) :
    Prop where
  stage : progress.stage = stage
  message : progress.message = false
  tools : progress.tools = 0
  held : progress.held = held

/-- Messages that a run injects: those it holds, or some that were not queued. -/
def Injected (messages held : List MessageObject) : Prop :=
  held = messages ∨ held = [] ∧ ∀ message ∈ messages, message.origin = none

namespace Injected

theorem nil_left {held : List MessageObject} (injected : Injected [] held) : held = [] := by
  rcases injected with rfl | ⟨none_, _⟩
  · rfl
  · exact none_

theorem nil_right : Injected [] [] := Or.inl rfl

/-- The first of the messages may enter the transcript. -/
theorem carries {progress : Progress} {message : MessageObject} {rest : List MessageObject}
    (injected : Injected (message :: rest) progress.held) :
    progress.carries (.messageEnd message) := by
  rw [Progress.carries]
  rcases injected with same | ⟨none_, fresh⟩
  · rw [same]
  · rw [none_]
    exact fresh message mem_cons_self

theorem tail {message : MessageObject} {rest held : List MessageObject}
    (injected : Injected (message :: rest) held) : Injected rest held.tail := by
  rcases injected with rfl | ⟨rfl, fresh⟩
  · exact Or.inl rfl
  · exact Or.inr ⟨rfl, fun other member => fresh other (mem_cons_of_mem _ member)⟩

end Injected

namespace Loop

variable {Host : Type}

/-- A point between the steps of a turn. -/
def Settled (config : AgentLoopConfig Host) (orderly : Prop) (holds : Progress → Host → Prop)
    (stage : Stage) (held : List MessageObject) (loop : Loop Host) : Prop :=
  ∃ progress : Progress, progress.Quiet stage held ∧
    (progress.calls : Int) ≤ config.maxIterations.getD defaultAgentMaxIterations ∧
    At orderly holds progress progress.since progress.since progress.calls loop

def Polled (config : AgentLoopConfig Host) (orderly : Prop) (holds : Progress → Host → Prop)
    (stage : Stage) (messages : List MessageObject) (loop : Loop Host) : Prop :=
  ∃ held, Injected messages held ∧ Settled config orderly holds stage held loop

end Loop

namespace Follows

open Loop

variable {Host : Type} {config : AgentLoopConfig Host} {orderly : Prop}
  {holds : Progress → Host → Prop} {failed : Stop → Host → Prop} {progress : Progress}
  {pushed new : List MessageObject} {used : Nat}

theorem emitPrompts_spec (follows : Follows config orderly holds failed)
    (prompts : List MessageObject) (injected : Injected prompts progress.held)
    (open_ : progress.stage = .turn) (closed : progress.message = false) :
    Triple (At orderly holds progress pushed new used) (emitPrompts config prompts)
      (fun _ => At orderly holds { progress with
        held := []
        since := progress.since ++ prompts } pushed new used) (Fails failed) := by
  induction prompts generalizing progress with
  | nil =>
    apply triple_pure
    intro loop known
    rw [append_nil, with_held injected.nil_left]
    exact known
  | cons prompt rest ih =>
    apply triple_bind (follows.emitMessage_spec prompt injected.carries open_ closed)
    intro _
    have others : Triple (At orderly holds { progress with
        held := progress.held.tail
        since := progress.since ++ [prompt] } pushed new used) _ _ (Fails failed) :=
      ih (by exact injected.tail) (by exact open_) (by exact closed)
    refine others.weaken (fun _ => id) ?_ (fun _ _ => id)
    intro _ loop known
    simpa [append_assoc] using known

/-- Messages that are injected enter the transcript, the context and the messages the run
returns. -/
theorem inject_spec (follows : Follows config orderly holds failed)
    (messages : List MessageObject) (injected : Injected messages progress.held)
    (open_ : progress.stage = .turn) (closed : progress.message = false) :
    Triple (At orderly holds progress pushed new used) (inject config messages)
      (fun _ => At orderly holds { progress with
        held := []
        since := progress.since ++ messages } (pushed ++ messages) (new ++ messages) used)
      (Fails failed) := by
  induction messages generalizing progress pushed new with
  | nil =>
    apply triple_pure
    intro loop known
    rw [append_nil, append_nil, append_nil, with_held injected.nil_left]
    exact known
  | cons message rest ih =>
    apply triple_bind (follows.emitMessage_spec message injected.carries open_ closed)
    intro _
    apply triple_bind (pushContext_spec message)
    intro _
    apply triple_bind (pushNew_spec message)
    intro _
    have others : Triple (At orderly holds { progress with
        held := progress.held.tail
        since := progress.since ++ [message] } (pushed ++ [message]) (new ++ [message]) used) _ _
        (Fails failed) :=
      ih (by exact injected.tail) (by exact open_) (by exact closed)
    refine others.weaken (fun _ => id) ?_ (fun _ _ => id)
    intro _ loop known
    simpa [append_assoc] using known

theorem pushResults_spec (messages : List MessageObject) :
    Triple (At orderly holds progress pushed new used) (pushResults messages)
      (fun _ => At orderly holds progress (pushed ++ messages) (new ++ messages) used)
      (Fails failed) := by
  induction messages generalizing pushed new with
  | nil =>
    apply triple_pure
    intro loop known
    simpa using known
  | cons message rest ih =>
    apply triple_bind (pushContext_spec message)
    intro _
    apply triple_bind (pushNew_spec message)
    intro _
    refine ih.weaken (fun _ => id) ?_ (fun _ _ => id)
    intro _ loop known
    simpa [append_assoc] using known

section

variable (follows : Follows config orderly holds failed)
include follows

theorem emitAgentEnd_spec (quiet : progress.Quiet .between [])
    (spent : (progress.calls : Int) ≤ config.maxIterations.getD defaultAgentMaxIterations) :
    Triple (At orderly holds progress progress.since progress.since progress.calls)
      (emitAgentEnd config) (fun _ => Settled config orderly holds .over []) (Fails failed) := by
  apply triple_get
  intro loop here
  refine Triple.here ?_ here
  refine (follows.emit_spec progress (.agentEnd _) trivial
    fun _ => by simp [admits, quiet.stage]).weaken (fun _ => id) ?_ (fun _ _ => id)
  intro _ loop known
  exact ⟨{ progress with stage := .over }, ⟨rfl, quiet.message, quiet.tools, quiet.held⟩, spent,
    known⟩

theorem executeBatch_spec (fuel : Nat)
    (stopReason : StopReason) (toolCalls : List AgentToolCall) (held : progress.held = [])
    (open_ : progress.stage = .turn) (closed : progress.message = false)
    (none_ : progress.tools = 0) :
    Triple (At orderly holds progress pushed new used)
      (executeBatch config fuel stopReason toolCalls)
      (fun results => At orderly holds { progress with since := progress.since ++ results.1 }
        pushed new used) (Fails failed) := by
  unfold executeBatch
  split
  · apply triple_bind
      (follows.failToolCallsFromTruncatedMessage_spec toolCalls held open_ closed)
    intro messages
    exact triple_pure _ fun _ => id
  · apply triple_bind (follows.executeToolCalls_spec fuel toolCalls held open_ closed none_)
    intro results
    exact triple_pure _ fun _ => id

theorem executeTurnTools_spec (fuel : Nat)
    (message : AssistantMessage) (held : progress.held = []) (open_ : progress.stage = .turn)
    (closed : progress.message = false) (none_ : progress.tools = 0) :
    Triple (At orderly holds progress pushed new used) (executeTurnTools config fuel message)
      (fun results => At orderly holds { progress with since := progress.since ++ results.1 }
        (pushed ++ results.1) (new ++ results.1) used) (Fails failed) := by
  unfold executeTurnTools
  split
  · apply triple_pure
    intro loop known
    simpa using known
  apply triple_bind (follows.executeBatch_spec fuel message.stopReason _ held open_ closed none_)
  rintro ⟨results, terminate⟩
  apply triple_bind (pushResults_spec results)
  intro _
  exact triple_pure _ fun _ => id

end

/-! ## Turns -/

theorem turnContext_spec (message : MessageObject) (toolResults : List MessageObject) :
    Triple (At orderly holds progress pushed new used) (turnContext message toolResults)
      (fun shown loop => At orderly holds progress pushed new used loop ∧
        (orderly → shown.context.messages = progress.base ++ pushed)) (Fails failed) := by
  apply triple_get
  rintro loop here
  refine Triple.here ?_ here
  exact triple_pure _ fun _ known => ⟨known, here.2.context⟩

/-- The context of an update takes the place of the old one. -/
theorem applyUpdate_spec (update : Option AgentLoopTurnUpdate) :
    Triple (fun loop => holds (progress.rebased update) loop.host ∧
        Frame orderly progress progress.since progress.since used loop)
      (applyUpdate update)
      (fun _ => At orderly holds (progress.rebased update) (progress.rebased update).since
        (progress.rebased update).since used) (Fails failed) := by
  apply triple_modify
  rintro loop ⟨known, framed⟩
  rw [rebased] at known ⊢
  cases chosen : update.bind AgentLoopTurnUpdate.context with
  | none =>
    rw [chosen] at known
    refine ⟨known, framed.used, fun tidy => ?_, framed.appended, framed.newMessages⟩
    simpa [chosen] using framed.context tidy
  | some context =>
    rw [chosen] at known
    refine ⟨known, framed.used, fun tidy => ?_, fun tidy => ?_, fun tidy => ?_⟩
    · simp
    · exact (framed.appended tidy).trans (append_nil _).symm
    · exact (framed.newMessages tidy).trans (append_nil _).symm

theorem rebased_stage (progress : Progress) (update : Option AgentLoopTurnUpdate) :
    (progress.rebased update).stage = progress.stage ∧
      (progress.rebased update).message = progress.message ∧
      (progress.rebased update).tools = progress.tools ∧
      (progress.rebased update).held = progress.held ∧
      (progress.rebased update).calls = progress.calls := by
  rw [rebased]
  cases update.bind AgentLoopTurnUpdate.context with
  | none => exact ⟨rfl, rfl, rfl, rfl, rfl⟩
  | some context => exact ⟨rfl, rfl, rfl, rfl, rfl⟩

theorem finishTurn_spec (follows : Follows config orderly holds failed) (message : MessageObject)
    (toolResults : List MessageObject) (quiet : progress.Quiet .turn [])
    (spent : (progress.calls : Int) ≤ config.maxIterations.getD defaultAgentMaxIterations) :
    Triple (At orderly holds progress progress.since progress.since progress.calls)
      (finishTurn config message toolResults)
      (fun goesOn => Settled config orderly holds (if goesOn then .between else .over) [])
      (Fails failed) := by
  apply triple_bind (follows.emit_spec progress (.turnEnd message toolResults) trivial
    fun _ => by simp [admits, quiet.stage, quiet.message, quiet.tools])
  intro _
  apply triple_bind (turnContext_spec message toolResults)
  intro shown
  apply triple_each
  rintro loop ⟨here, same⟩
  refine Triple.here ?_ here
  apply triple_bind (hook_spec
    (follows.prepareNextTurn (progress.next (.turnEnd message toolResults)) shown
      ⟨quiet.held, by simp [Progress.next]⟩ same))
  intro update
  have applied : Triple (fun loop =>
        holds ((progress.next (.turnEnd message toolResults)).rebased update) loop.host ∧
        Frame orderly (progress.next (.turnEnd message toolResults)) progress.since progress.since
          progress.calls loop) (applyUpdate update) _ (Fails failed) :=
    applyUpdate_spec update
  apply triple_bind applied
  intro _
  obtain ⟨stage, open_, tools, held, calls⟩ :=
    rebased_stage (progress.next (.turnEnd message toolResults)) update
  generalize (progress.next (.turnEnd message toolResults)).rebased update = after at *
  apply triple_bind (turnContext_spec message toolResults)
  intro shown
  apply triple_each
  rintro loop ⟨here, -⟩
  refine Triple.here ?_ here
  apply triple_bind (hook_spec
    (follows.shouldStopAfterTurn after shown ⟨held.trans quiet.held,
      by rw [stage]; simp [Progress.next]⟩))
  intro stops
  have count : after.calls = progress.calls := calls
  have settled : after.Quiet .between [] := ⟨stage, open_.trans quiet.message,
    tools.trans quiet.tools, held.trans quiet.held⟩
  rw [← count] at spent ⊢
  split
  · apply triple_bind (follows.emitAgentEnd_spec settled spent)
    intro _
    exact triple_pure _ fun _ => id
  · exact triple_pure _ fun _ known => ⟨after, settled, spent, known⟩

/-- A turn of a run that may not ask the provider again. -/
theorem exhaustBudget_spec (follows : Follows config orderly holds failed) (maxTotal : Nat)
    (quiet : progress.Quiet .turn [])
    (spent : (progress.calls : Int) ≤ config.maxIterations.getD defaultAgentMaxIterations) :
    Triple (At orderly holds progress progress.since progress.since progress.calls)
      (exhaustBudget config maxTotal)
      (fun _ => Settled config orderly holds .over []) (Fails failed) := by
  apply triple_get
  intro loop here
  refine Triple.here ?_ here
  apply triple_bind (hook_spec (follows.now progress (free_of_turn quiet.held quiet.stage)))
  intro timestamp
  generalize object : (⟨.assistant (budgetMessage loop.model maxTotal timestamp), none⟩ :
    MessageObject) = message
  have fresh : message.origin = none := by rw [← object]
  apply triple_bind (pushContext_spec message)
  intro _
  apply triple_bind (pushNew_spec message)
  intro _
  apply triple_bind (follows.emitMessage_spec message
    (by simpa only [Progress.carries, quiet.held] using fresh) quiet.stage quiet.message)
  intro _
  apply triple_bind (follows.emit_spec
    { progress with held := progress.held.tail, since := progress.since ++ [message] }
    (.turnEnd message []) trivial
    fun _ => by simp [admits, quiet.stage, quiet.message, quiet.tools])
  intro _
  have last : progress.held.tail = [] := by rw [quiet.held, tail_nil]
  exact follows.emitAgentEnd_spec ⟨rfl, quiet.message, quiet.tools, last⟩ spent

def afterTurn : Option Bool → Stage
  | none => .over
  | some _ => .between

theorem runTurn_spec (follows : Follows config orderly holds failed) (fuel maxTotal : Nat)
    (total : (maxTotal : Int) = config.maxIterations.getD defaultAgentMaxIterations) :
    Triple (Settled config orderly holds .turn []) (runTurn config fuel maxTotal)
      (fun goesOn => Settled config orderly holds (afterTurn goesOn) []) (Fails failed) := by
  apply triple_each
  rintro loop ⟨progress, quiet, spent, here⟩
  refine Triple.here ?_ here
  have consumed : Triple (At orderly holds progress progress.since progress.since progress.calls)
      (consume maxTotal)
      (fun left loop => if left then (progress.calls : Int) < maxTotal ∧
          At orderly holds progress progress.since progress.since (progress.calls + 1) loop
        else At orderly holds progress progress.since progress.since progress.calls loop)
      (Fails failed) := by
    apply triple_get
    intro loop known
    have count : loop.usedTotal = progress.calls := known.2.used
    split
    · rintro _ rfl
      exact known
    · rename_i left
      rintro _ rfl
      refine ⟨by omega, known.1, ?_, known.2.context, known.2.appended, known.2.newMessages⟩
      rw [← count]
  apply triple_bind consumed
  intro left
  apply triple_each
  intro loop known
  cases left with
  | false =>
    have known : At orderly holds progress progress.since progress.since progress.calls loop :=
      known
    refine Triple.here ?_ known
    apply triple_bind (follows.exhaustBudget_spec maxTotal quiet spent)
    intro _
    exact triple_pure _ fun _ => id
  | true =>
    obtain ⟨left, known⟩ := known
    have asked : ((progress.calls + 1 : Nat) : Int) ≤
        config.maxIterations.getD defaultAgentMaxIterations := by omega
    refine Triple.here ?_ known
    apply triple_bind (follows.streamAssistantResponse_spec fuel quiet.held quiet.stage
      quiet.message (by omega))
    intro answer
    apply triple_each
    rintro loop ⟨started, known⟩
    refine Triple.here ?_ known
    apply triple_bind (pushNew_spec _)
    intro _
    split
    · apply triple_bind (follows.emit_spec _ (.turnEnd _ []) trivial
        fun _ => by simp [admits, quiet.stage, quiet.message, quiet.tools])
      intro _
      apply triple_bind (follows.emitAgentEnd_spec
        (by exact ⟨rfl, quiet.message, quiet.tools, quiet.held⟩) (by exact asked))
      intro _
      exact triple_pure _ fun _ => id
    · apply triple_bind (follows.executeTurnTools_spec fuel answer (by exact quiet.held)
        (by exact quiet.stage) (by exact quiet.message) (by exact quiet.tools))
      rintro ⟨toolResults, hasMoreToolCalls⟩
      apply triple_bind (follows.finishTurn_spec ⟨.assistant answer, none⟩ toolResults
        (by exact ⟨quiet.stage, quiet.message, quiet.tools, quiet.held⟩) (by exact asked))
      intro goesOn
      cases goesOn with
      | false => exact triple_pure _ fun _ => id
      | true => exact triple_pure _ fun _ => id

/-! ## Runs -/

/-- A queue of the host is asked at a point between the steps of a turn. -/
theorem poll_spec {poll : Procedure Host Stop (List MessageObject)} {stage : Stage}
    (goesOn : stage ≠ .over)
    (spec : ∀ progress : Progress, progress.Free → Triple (holds progress) poll
      (fun messages host => ∃ held, Injected messages held ∧
        holds { progress with held := held } host) failed) :
    Triple (Settled config orderly holds stage []) (onHost poll)
      (fun messages => Polled config orderly holds stage messages) (Fails failed) := by
  apply triple_each
  rintro loop ⟨progress, quiet, spent, here⟩
  refine Triple.here ?_ here
  refine (hook_spec (spec progress ⟨quiet.held, by rw [quiet.stage]; exact goesOn⟩)).weaken
      (fun _ => id) ?_ (fun _ _ => id)
  rintro messages loop ⟨⟨held, injected, known⟩, framed⟩
  exact ⟨held, injected, { progress with held := held },
    ⟨quiet.stage, quiet.message, quiet.tools, rfl⟩, spent, known, framed.used, framed.context,
    framed.appended, framed.newMessages⟩

def beforeTurn (firstTurn : Bool) : Stage := if firstTurn then .turn else .between

section

variable (follows : Follows config orderly holds failed)
include follows

theorem startTurn_spec (firstTurn : Bool) (messages : List MessageObject) :
    Triple (Polled config orderly holds (beforeTurn firstTurn) messages)
      (startTurn config firstTurn)
      (fun _ => Polled config orderly holds .turn messages) (Fails failed) := by
  unfold startTurn
  cases firstTurn with
  | true => exact triple_pure _ fun _ => id
  | false =>
    apply triple_each
    rintro loop ⟨held, injected, progress, quiet, spent, here⟩
    have between : progress.stage = .between := quiet.stage
    refine Triple.here ?_ here
    refine (follows.emit_spec progress .turnStart trivial
      fun _ => by simp [admits, between]).weaken (fun _ => id) ?_
        (fun _ _ => id)
    intro _ loop known
    exact ⟨held, injected, progress.next .turnStart,
      ⟨rfl, quiet.message, quiet.tools, quiet.held⟩, spent, known⟩

theorem injectPolled_spec (messages : List MessageObject) :
    Triple (Polled config orderly holds .turn messages) (inject config messages)
      (fun _ => Settled config orderly holds .turn []) (Fails failed) := by
  apply triple_each
  rintro loop ⟨held, injected, progress, quiet, spent, here⟩
  refine Triple.here ?_ here
  refine (follows.inject_spec messages (quiet.held ▸ injected) quiet.stage
    quiet.message).weaken (fun _ => id) ?_ (fun _ _ => id)
  intro _ loop known
  exact ⟨{ progress with held := [], since := progress.since ++ messages },
    ⟨quiet.stage, quiet.message, quiet.tools, rfl⟩, spent, known⟩

theorem runTurns_spec (maxTotal fuel : Nat)
    (firstTurn hasMoreToolCalls : Bool) (pendingMessages : List MessageObject)
    (total : (maxTotal : Int) = config.maxIterations.getD defaultAgentMaxIterations)
    (first : firstTurn = true → hasMoreToolCalls = true) :
    Triple (Polled config orderly holds (beforeTurn firstTurn) pendingMessages)
      (runTurns config maxTotal fuel firstTurn hasMoreToolCalls pendingMessages)
      (fun _ => Settled config orderly holds .over []) (Fails failed) := by
  induction fuel generalizing firstTurn hasMoreToolCalls pendingMessages with
  | zero =>
    exact triple_throw _ fun _ ⟨_, _, _, _, _, here⟩ => follows.suspended _ _ here.1
  | succ fuel ih =>
    unfold runTurns
    split
    · apply triple_bind (follows.startTurn_spec firstTurn pendingMessages)
      intro _
      apply triple_bind (follows.injectPolled_spec pendingMessages)
      intro _
      apply triple_bind (follows.runTurn_spec fuel maxTotal total)
      intro goesOn
      cases goesOn with
      | none => exact triple_pure _ fun _ => id
      | some hasMoreToolCalls =>
        apply triple_bind (poll_spec (by simp [afterTurn]) follows.getSteeringMessages)
        intro pendingMessages
        exact ih false hasMoreToolCalls pendingMessages (by simp)
    · rename_i idle
      obtain ⟨last, rfl⟩ : hasMoreToolCalls = false ∧ pendingMessages = [] := by
        simpa using idle
      have later : firstTurn = false := by
        cases firstTurn with
        | false => rfl
        | true => cases last.symm.trans (first rfl)
      subst later
      apply triple_each
      rintro loop ⟨held, injected, settled⟩
      obtain rfl := injected.nil_left
      refine Triple.here ?_ settled
      apply triple_bind (poll_spec (by simp [beforeTurn]) follows.getFollowUpMessages)
      intro followUpMessages
      apply triple_each
      rintro loop ⟨held, injected, progress, quiet, spent, here⟩
      have between : progress.stage = .between := quiet.stage
      refine Triple.here ?_ here
      split
      · rename_i empty
        obtain rfl := isEmpty_iff.mp empty
        obtain rfl := injected.nil_left
        exact follows.emitAgentEnd_spec quiet spent
      apply triple_bind (follows.emit_spec progress .followUpStart trivial
        fun _ => by simp [admits, between])
      intro _
      refine (ih false true followUpMessages (by simp)).weaken ?_ (fun _ _ => id)
        (fun _ _ => id)
      intro loop known
      exact ⟨held, injected, progress, quiet, spent, known⟩

theorem runLoop_spec (fuel : Nat) (quiet : progress.Quiet .turn []) (unused : progress.calls = 0) :
    Triple (At orderly holds progress progress.since progress.since 0) (runLoop config fuel)
      (fun _ => Settled config orderly holds .over []) (Fails failed) := by
  unfold runLoop
  simp only
  split
  · exact triple_throw _ fun loop known =>
      follows.thrown progress _ loop.host (free_of_turn quiet.held quiet.stage) known.1
  rename_i valid
  rw [not_or] at valid
  have settled : ∀ loop, At orderly holds progress progress.since progress.since 0 loop →
      Settled config orderly holds .turn [] loop :=
    fun loop known => ⟨progress, quiet, by omega, by rw [unused]; exact known⟩
  have total : ((config.maxIterations.getD defaultAgentMaxIterations).toNat : Int) =
      config.maxIterations.getD defaultAgentMaxIterations := by omega
  apply triple_bind ((poll_spec (by simp) follows.getSteeringMessages).weaken settled
      (fun _ _ => id)
    (fun _ _ => id))
  intro pendingMessages
  exact follows.runTurns_spec _ fuel true true pendingMessages total (fun _ => rfl)

theorem runAgentLoop_spec (fuel : Nat)
    (prompts held base : List MessageObject) (injected : Injected prompts held) :
    Triple (At orderly holds (start held base) prompts prompts 0)
      (runAgentLoop config fuel prompts)
      (fun _ => Settled config orderly holds .over []) (Fails failed) := by
  apply triple_bind (follows.emit_spec (start held base) .agentStart trivial fun _ => rfl)
  intro _
  apply triple_bind (follows.emit_spec _ .turnStart trivial fun _ => rfl)
  intro _
  apply triple_bind (follows.emitPrompts_spec prompts (by exact injected) rfl rfl)
  intro _
  exact follows.runLoop_spec fuel ⟨rfl, rfl, rfl, rfl⟩ rfl

theorem runAgentLoopContinue_spec (fuel : Nat) (base : List MessageObject) :
    Triple (At orderly holds (start [] base) [] [] 0)
      (runAgentLoopContinue config fuel)
      (fun _ => Settled config orderly holds .over []) (Fails failed) := by
  apply triple_get
  intro loop here
  refine Triple.here ?_ here
  split
  · exact triple_throw _ fun other known =>
        follows.thrown _ _ other.host ⟨rfl, by simp [start]⟩ known.1
  split
  · exact triple_throw _ fun other known =>
        follows.thrown _ _ other.host ⟨rfl, by simp [start]⟩ known.1
  apply triple_bind (follows.emit_spec (start [] base) .agentStart trivial fun _ => rfl)
  intro _
  apply triple_bind (follows.emit_spec _ .turnStart trivial fun _ => rfl)
  intro _
  exact follows.runLoop_spec fuel ⟨rfl, rfl, rfl, rfl⟩ rfl

end

end Follows

end Recode.Agent

import Recode.Agent.Protocol

/-! # What a host may rely on

A host describes what it keeps at each point of a run. If its procedures keep
that, so does the loop: every event it emits is admitted, messages it holds enter
the transcript in their order, and its context grows by the messages that end. -/

namespace Recode.Agent

open Procedure Progress List

/-- A point at which a run may wait for its hooks: it holds no messages and is not over. -/
structure Progress.Free (progress : Progress) : Prop where
  held : progress.held = []
  goesOn : progress.stage ≠ .over

theorem Progress.free_of_turn {progress : Progress} (held : progress.held = [])
    (open_ : progress.stage = .turn) : progress.Free :=
  ⟨held, by rw [open_]; simp⟩

/-- A host that keeps what it says of every point of a run. In an orderly run a stream starts at
most once. -/
structure Follows {Host : Type} (config : AgentLoopConfig Host) (orderly : Prop)
    (holds : Progress → Host → Prop) (failed : Stop → Host → Prop) : Prop where
  emit : ∀ progress event, progress.carries event → (orderly → progress.admits event = true) →
    Triple (holds progress) (config.emit event) (fun _ => holds (progress.next event)) failed
  getSteeringMessages : ∀ progress : Progress, progress.Free →
    Triple (holds progress) config.getSteeringMessages
      (fun messages host => ∃ held, (held = messages ∨ held = [] ∧
        ∀ message ∈ messages, message.origin = none) ∧ holds { progress with held := held } host)
      failed
  getFollowUpMessages : ∀ progress : Progress, progress.Free →
    Triple (holds progress) config.getFollowUpMessages
      (fun messages host => ∃ held, (held = messages ∨ held = [] ∧
        ∀ message ∈ messages, message.origin = none) ∧ holds { progress with held := held } host)
      failed
  prepareNextTurn : ∀ (progress : Progress) context, progress.Free →
    (orderly → context.context.messages = progress.base ++ progress.since) →
      Triple (holds progress) (config.prepareNextTurn context)
        (fun update => holds (progress.rebased update)) failed
  shouldStopAfterTurn : ∀ (progress : Progress) context, progress.Free →
    Triple (holds progress) (config.shouldStopAfterTurn context) (fun _ => holds progress) failed
  transformContext : ∀ (progress : Progress) messages, progress.Free →
    Triple (holds progress) (config.transformContext messages) (fun _ => holds progress) failed
  convertToLlm : ∀ (progress : Progress) messages, progress.Free →
    Triple (holds progress) (config.convertToLlm messages) (fun _ => holds progress) failed
  getApiKey : ∀ (progress : Progress) model, progress.Free →
    Triple (holds progress) (config.getApiKey model) (fun _ => holds progress) failed
  streamFunction : ∀ (progress : Progress) model messages, progress.Free →
    (progress.calls : Int) < config.maxIterations.getD defaultAgentMaxIterations →
    Triple (holds progress) (config.streamFunction model messages)
      (fun _ => holds { progress with calls := progress.calls + 1, started := false }) failed
  nextStreamEvent : ∀ progress : Progress, progress.Free →
    Triple (holds progress) config.nextStreamEvent
      (fun event host =>
        holds { progress with started := progress.started || event.any fun event => event.isStart }
          host ∧
        ∀ message, event = some (.start message) → orderly → progress.started = false) failed
  streamResult : ∀ progress : Progress, progress.Free →
    Triple (holds progress) config.streamResult (fun _ => holds progress) failed
  beforeToolCall : ∀ (progress : Progress) toolCall, progress.Free →
    Triple (holds progress) (config.beforeToolCall toolCall) (fun _ => holds progress) failed
  nextToolStep : ∀ (progress : Progress) running, progress.Free →
    Triple (holds progress) (config.nextToolStep running) (fun _ => holds progress) failed
  afterToolCall : ∀ (progress : Progress) toolCall result isError, progress.Free →
    Triple (holds progress) (config.afterToolCall toolCall result isError)
      (fun _ => holds progress) failed
  aborted : ∀ progress : Progress, progress.Free →
    Triple (holds progress) config.aborted (fun _ => holds progress) failed
  now : ∀ progress : Progress, progress.Free →
    Triple (holds progress) config.now (fun _ => holds progress) failed
  suspended : ∀ progress host, holds progress host → failed .suspended host
  thrown : ∀ (progress : Progress) error host, progress.Free → holds progress host →
    failed (.thrown error) host

namespace Loop

variable {Host Result : Type}

/-- What an orderly run has in its loop: the messages it added to its context and to those it
returns, since the context was last replaced. -/
structure Frame (orderly : Prop) (progress : Progress) (pushed new : List MessageObject)
    (used : Nat) (loop : Loop Host) : Prop where
  used : loop.usedTotal = used
  context : orderly → loop.context.messages = progress.base ++ pushed
  appended : orderly → loop.appended = progress.earlier ++ pushed
  newMessages : orderly → loop.newMessages = progress.earlier ++ new

/-- A point of a run. -/
def At (orderly : Prop) (holds : Progress → Host → Prop) (progress : Progress)
    (pushed new : List MessageObject) (used : Nat) (loop : Loop Host) : Prop :=
  holds progress loop.host ∧ Frame orderly progress pushed new used loop

/-- What is said of the host of a run that does not go on. -/
def Fails (failed : Stop → Host → Prop) (stop : Stop) (loop : Loop Host) : Prop :=
  failed stop loop.host

theorem triple_onHost {procedure : Procedure Host Stop Result} {before : Host → Prop}
    {after : Result → Host → Prop} {failed : Stop → Host → Prop}
    (spec : Triple before procedure after failed) {frame : Loop Host → Prop}
    (stable : ∀ loop host, frame loop → frame { loop with host := host }) :
    Triple (fun loop => before loop.host ∧ frame loop) (onHost procedure)
      (fun result loop => after result loop.host ∧ frame loop)
      (Fails failed) := by
  apply triple_get
  rintro loop ⟨known, framed⟩
  have done := spec loop.host known
  rintro loop rfl
  cases run : procedure.perform loop.host with
  | mk result host =>
    rw [run] at done
    cases result with
    | ok result => exact ⟨done, stable loop host framed⟩
    | error stop => exact done

end Loop

namespace Follows

open Loop

variable {Host : Type} {config : AgentLoopConfig Host} {orderly : Prop}
  {holds : Progress → Host → Prop} {failed : Stop → Host → Prop} {progress : Progress}
  {pushed new : List MessageObject} {used : Nat}

theorem emit_spec (follows : Follows config orderly holds failed) (progress : Progress)
    (event : AgentEvent) (carries : progress.carries event)
    (admits : orderly → progress.admits event = true) :
    Triple (At orderly holds progress pushed new used) (Loop.emit config event)
      (fun _ => At orderly holds (progress.next event) pushed new used) (Fails failed) := by
  have kept : Triple (At orderly holds progress pushed new used) (Loop.emit config event)
      (fun _ loop => holds (progress.next event) loop.host ∧
        Frame orderly progress pushed new used loop) (Fails failed) :=
    triple_onHost (follows.emit progress event carries admits) fun _ _ framed =>
      ⟨framed.used, framed.context, framed.appended, framed.newMessages⟩
  refine kept.weaken (fun _ => id) ?_ (fun _ _ => id)
  rintro _ loop ⟨held, framed⟩
  cases event <;>
    exact ⟨held, framed.used, framed.context, framed.appended, framed.newMessages⟩

theorem hook_spec {Result : Type} {procedure : Procedure Host Stop Result}
    {after : Result → Host → Prop} (spec : Triple (holds progress) procedure after failed) :
    Triple (At orderly holds progress pushed new used) (onHost procedure)
      (fun result loop => after result loop.host ∧ Frame orderly progress pushed new used loop)
      (Fails failed) :=
  triple_onHost spec fun _ _ framed =>
    ⟨framed.used, framed.context, framed.appended, framed.newMessages⟩

theorem pushContext_spec (message : MessageObject) :
    Triple (At orderly holds progress pushed new used) (pushContext message)
      (fun _ => At orderly holds progress (pushed ++ [message]) new used) (Fails failed) := by
  apply triple_modify
  rintro loop ⟨held, framed⟩
  refine ⟨held, framed.used, ?_, ?_, framed.newMessages⟩
  · intro tidy
    simp only [framed.context tidy, append_assoc]
  · intro tidy
    simp only [framed.appended tidy, append_assoc]

theorem replaceLast_spec (old message : MessageObject) :
    Triple (At orderly holds progress (pushed ++ [old]) new used) (replaceLast message)
      (fun _ => At orderly holds progress (pushed ++ [message]) new used) (Fails failed) := by
  apply triple_modify
  rintro loop ⟨held, framed⟩
  refine ⟨held, framed.used, ?_, ?_, framed.newMessages⟩
  · intro tidy
    simp only [framed.context tidy, ← append_assoc, dropLast_concat]
  · intro tidy
    simp only [framed.appended tidy, ← append_assoc, dropLast_concat]

theorem pushNew_spec (message : MessageObject) :
    Triple (At orderly holds progress pushed new used) (pushNew message)
      (fun _ => At orderly holds progress pushed (new ++ [message]) used) (Fails failed) := by
  apply triple_modify
  rintro loop ⟨held, framed⟩
  refine ⟨held, framed.used, framed.context, framed.appended, ?_⟩
  intro tidy
  simp only [framed.newMessages tidy, append_assoc]

theorem suspended_spec (follows : Follows config orderly holds failed) {Result : Type}
    {after : Result → Loop Host → Prop} :
    Triple (At orderly holds progress pushed new used)
      (throw .suspended : LoopM Host Result) after (Fails failed) :=
  triple_throw _ fun _ known => follows.suspended _ _ known.1

theorem emitMessage_spec (follows : Follows config orderly holds failed)
    (message : MessageObject) (carries : progress.carries (.messageEnd message))
    (open_ : progress.stage = .turn) (closed : progress.message = false) :
    Triple (At orderly holds progress pushed new used) (emitMessage config message)
      (fun _ => At orderly holds { progress with
        held := progress.held.tail
        since := progress.since ++ [message] } pushed new used) (Fails failed) := by
  apply triple_bind (follows.emit_spec progress (.messageStart message) trivial
    fun _ => by simp [Progress.admits, open_, closed])
  intro _
  have ended : Triple (At orderly holds _ pushed new used) _ _ (Fails failed) :=
    follows.emit_spec (progress.next (.messageStart message)) (.messageEnd message) carries
      fun _ => by simp [Progress.admits, Progress.next, open_]
  refine ended.weaken (fun _ => id) ?_ (fun _ _ => id)
  intro _ loop known
  simpa [Progress.next, closed] using known

/-- In a run that is not orderly nothing is said of its contexts. -/
theorem at_of_not_orderly (unruly : ¬ orderly) {other fresh : List MessageObject}
    {loop : Loop Host} (known : At orderly holds progress pushed new used loop) :
    At orderly holds progress other fresh used loop :=
  ⟨known.1, known.2.used, fun tidy => absurd tidy unruly, fun tidy => absurd tidy unruly,
    fun tidy => absurd tidy unruly⟩

section

variable (follows : Follows config orderly holds failed)
include follows

/-- The end of a stream: its final message is the last of the context. -/
theorem finishStream_spec (started : Bool)
    (held : progress.held = []) (open_ : progress.stage = .turn)
    (message : progress.message = started)
    (added : if started then ∃ old, pushed = progress.since ++ [old] else pushed = progress.since) :
    Triple (At orderly holds progress pushed new used) (finishStream config started)
      (fun answer => At orderly holds { progress with
        message := false
        since := progress.since ++ [⟨.assistant answer, none⟩] }
        (progress.since ++ [⟨.assistant answer, none⟩]) new used) (Fails failed) := by
  apply triple_bind (hook_spec (follows.streamResult progress (free_of_turn held open_)))
  intro final
  have placed : Triple (At orderly holds progress pushed new used)
      (placeFinal config started ⟨.assistant final, none⟩)
      (fun _ => At orderly holds { progress with message := true }
        (progress.since ++ [⟨.assistant final, none⟩]) new used) (Fails failed) := by
    cases started with
    | false =>
      obtain rfl : pushed = progress.since := by simpa using added
      apply triple_bind (pushContext_spec _)
      intro _
      exact follows.emit_spec progress _ trivial
        fun _ => by simp [Progress.admits, open_, message]
    | true =>
      obtain ⟨old, rfl⟩ : ∃ old, pushed = progress.since ++ [old] := by simpa using added
      rw [with_message message]
      exact replaceLast_spec old _
  apply triple_bind placed
  intro _
  refine triple_bind (follows.emit_spec { progress with message := true } (.messageEnd _)
    (by simp [Progress.carries, held]) fun _ => by simp [Progress.admits, open_]) fun _ => ?_
  apply triple_pure
  intro loop known
  simpa [Progress.next, held] using known

theorem readStream_spec (fuel : Nat)
    (partialMessage : Option AssistantMessage) (held : progress.held = [])
    (open_ : progress.stage = .turn) (message : progress.message = partialMessage.isSome)
    (started : progress.started = partialMessage.isSome)
    (added : if partialMessage.isSome then ∃ old, pushed = progress.since ++ [old]
      else pushed = progress.since) :
    Triple (At orderly holds progress pushed new used) (readStream config fuel partialMessage)
      (fun answer loop => ∃ started, At orderly holds { progress with
        message := false
        started := started
        since := progress.since ++ [⟨.assistant answer, none⟩] }
        (progress.since ++ [⟨.assistant answer, none⟩]) new used loop) (Fails failed) := by
  induction fuel generalizing progress partialMessage pushed with
  | zero => exact follows.suspended_spec
  | succ fuel ih =>
    have finish : Triple (At orderly holds { progress with started := progress.started || false }
        pushed new used) (finishStream config partialMessage.isSome)
        (fun answer loop => ∃ started, At orderly holds { progress with
          message := false
          started := started
          since := progress.since ++ [⟨.assistant answer, none⟩] }
          (progress.since ++ [⟨.assistant answer, none⟩]) new used loop) (Fails failed) :=
      (follows.finishStream_spec partialMessage.isSome (by exact held) (by exact open_)
        (by exact message) (by exact added)).weaken (fun _ => id)
        (fun _ _ known => ⟨_, known⟩) (fun _ _ => id)
    apply triple_bind (hook_spec (follows.nextStreamEvent progress (free_of_turn held open_)))
    intro event
    apply triple_each
    rintro loop ⟨⟨known, once⟩, framed⟩
    match event with
    | some (.start answer) =>
      have first : orderly → progress.message = false := fun tidy =>
        message.trans (started.symm.trans (once answer rfl tidy))
      have here : At orderly holds { progress with started := progress.started || true }
        pushed new used loop :=
          ⟨known, framed.used, framed.context, framed.appended, framed.newMessages⟩
      have before : At orderly holds { progress with started := progress.started || true }
          progress.since new used loop := by
        cases partialMessage with
        | none => exact added ▸ here
        | some old => exact at_of_not_orderly (fun tidy => by simp [first tidy] at message) here
      refine Triple.here ?_ before
      apply triple_bind (pushContext_spec _)
      intro _
      apply triple_bind (follows.emit_spec _ (.messageStart _) trivial
        fun tidy => by simp [Progress.admits, open_, first tidy])
      intro _
      exact ih (some answer) (by exact held) (by exact open_) rfl (Bool.or_true _) ⟨_, rfl⟩
    | some (.update answer) =>
      have here : At orderly holds { progress with started := progress.started || false }
        pushed new used loop :=
          ⟨known, framed.used, framed.context, framed.appended, framed.newMessages⟩
      have same : (progress.started || false) = partialMessage.isSome :=
        (Bool.or_false _).trans started
      refine Triple.here ?_ here
      cases partialMessage with
      | none =>
        exact ih none (by exact held) (by exact open_) (by exact message) (by exact same)
          (by exact added)
      | some old =>
        obtain ⟨old, rfl⟩ := added
        apply triple_bind (replaceLast_spec old _)
        intro _
        apply triple_bind (follows.emit_spec _ (.messageUpdate _) trivial
          fun _ => by simp [Progress.admits, open_, message])
        intro _
        exact ih (some answer) (by exact held) (by exact open_) (by exact message)
          (by exact same) ⟨_, rfl⟩
    | some .terminal =>
      exact finish.here
        ⟨known, framed.used, framed.context, framed.appended, framed.newMessages⟩
    | none =>
      exact finish.here
        ⟨known, framed.used, framed.context, framed.appended, framed.newMessages⟩

/-- The answer of the provider enters the transcript and the context. -/
theorem streamAssistantResponse_spec (fuel : Nat)
    (held : progress.held = []) (open_ : progress.stage = .turn)
    (message : progress.message = false)
    (left : (progress.calls : Int) < config.maxIterations.getD defaultAgentMaxIterations) :
    Triple (At orderly holds progress progress.since new used)
      (streamAssistantResponse config fuel)
      (fun answer loop => ∃ started, At orderly holds { progress with
        calls := progress.calls + 1
        started := started
        since := progress.since ++ [⟨.assistant answer, none⟩] }
        (progress.since ++ [⟨.assistant answer, none⟩]) new used loop) (Fails failed) := by
  apply triple_get
  rintro loop here
  refine Triple.here ?_ here
  apply triple_bind (hook_spec (follows.transformContext progress _ (free_of_turn held open_)))
  intro messages
  apply triple_bind (hook_spec (follows.convertToLlm progress _ (free_of_turn held open_)))
  intro llmMessages
  apply triple_bind (hook_spec (follows.getApiKey progress _ (free_of_turn held open_)))
  intro _
  apply triple_bind (hook_spec
    (follows.streamFunction progress _ _ (free_of_turn held open_) left))
  intro _
  have read : Triple (At orderly holds
      { progress with calls := progress.calls + 1, started := false }
      progress.since new used) (readStream config fuel none) _ (Fails failed) :=
    follows.readStream_spec fuel none held open_ message rfl rfl
  refine read.weaken ?_ ?_ (fun _ _ => id)
  · rintro loop ⟨known, framed⟩
    exact ⟨known, framed.used, framed.context, framed.appended, framed.newMessages⟩
  · rintro answer loop ⟨started, known⟩
    refine ⟨started, ?_⟩
    simpa [message] using known

end

end Follows

end Recode.Agent

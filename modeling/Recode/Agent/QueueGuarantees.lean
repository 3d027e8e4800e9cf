import Recode.Agent.Queues

/-! # What becomes of queued messages

As long as no listener throws while a run holds messages, every message that was
queued is in one place and none is held after a run. Whatever happens, a run asks
its provider no more often than its budget allows. -/

namespace Recode.Agent

open Procedure List Option PendingMessageQueue

/-- No listener threw while the run held messages that were queued. -/
def Calm (agent : Agent) : Prop := ∀ held ∈ agent.ledger.interrupted, held = []

/-- The provider calls a run may make. -/
def budget (agent : Agent) : Nat := (agent.maxIterations.getD defaultAgentMaxIterations).toNat

/-- What an agent keeps at each point of a run. -/
structure Holds (limit : Option Int) (progress : Progress) (agent : Agent) : Prop where
  active : agent.activeRun.isSome
  limit : agent.maxIterations = limit
  calls : agent.ledger.providerCalls = progress.calls
  budget : progress.calls ≤ agent.budget
  held : agent.Calm → agent.ledger.held = progress.held
  conserved : agent.Calm → Conserved agent

/-- What is left of an agent whose run does not go on. -/
structure Failed (limit : Option Int) (stop : Stop) (agent : Agent) : Prop where
  active : agent.activeRun.isSome
  limit : agent.maxIterations = limit
  budget : agent.ledger.providerCalls ≤ agent.budget
  held : agent.Calm → ∀ error, stop = .thrown error → agent.ledger.held = []
  conserved : agent.Calm → Conserved agent

variable {limit : Option Int} {progress : Progress} {agent : Agent} {after : Agent}

theorem Holds.interleaved (holds : Holds limit progress agent)
    (between : Interleaved agent after) : Holds limit progress after := by
  have calm : after.Calm → agent.Calm := by
    intro calm
    rw [Calm, ← between.interrupted]
    exact calm
  refine ⟨between.activeRun.trans holds.active, between.maxIterations.trans holds.limit,
    between.providerCalls.trans holds.calls, ?_, ?_, ?_⟩
  · rw [Agent.budget, between.maxIterations]
    exact holds.budget
  · exact fun now => between.held.trans (holds.held (calm now))
  · exact fun now => between.conserved (holds.conserved (calm now))

/-- A run may wait for ever at each of its points. -/
theorem Holds.suspended (holds : Holds limit progress agent) : Failed limit .suspended agent := by
  refine ⟨holds.active, holds.limit, holds.calls ▸ holds.budget, ?_, holds.conserved⟩
  intro _ error never
  cases never

theorem Holds.thrown (holds : Holds limit progress agent) (held : progress.held = [])
    (error : String) : Failed limit (.thrown error) agent :=
  ⟨holds.active, holds.limit, holds.calls ▸ holds.budget,
    fun calm _ _ => (holds.held calm).trans held, holds.conserved⟩

theorem await_spec :
    Triple (Holds limit progress) await (fun _ => Holds limit progress) (Failed limit) := by
  apply triple_get
  intro agent holds
  cases waiting : agent.inputs with
  | nil => exact triple_throw _ fun _ same => same ▸ holds.suspended
  | cons input rest =>
    rintro _ rfl
    exact holds.interleaved (interleaved_receive _ input rest)

theorem answered_spec {Result : Type} (read : Answer → Option Result) (held : progress.held = []) :
    Triple (Holds limit progress) (answered read) (fun _ => Holds limit progress)
      (Failed limit) := by
  apply triple_bind await_spec
  intro answer
  split
  · exact triple_throw _ fun _ holds => holds.thrown held _
  · split
    · exact triple_pure _ fun _ => id
    · exact triple_throw _ fun _ holds => holds.suspended

def endedMessage : AgentEvent → Option MessageObject
  | .messageEnd message => some message
  | _ => none

def reduced (agent : Agent) (event : AgentEvent) : Agent :=
  { agent.reduce event with ledger := agent.ledger.record event }

/-- An event touches nothing that a run relies on, unless it ends a message. -/
theorem reduced_same (agent : Agent) (event : AgentEvent) :
    (agent.reduced event).activeRun = agent.activeRun ∧
      (agent.reduced event).maxIterations = agent.maxIterations ∧
      (agent.reduced event).queue = agent.queue ∧
      (agent.reduced event).ledger.enqueued = agent.ledger.enqueued ∧
      (agent.reduced event).ledger.removed = agent.ledger.removed ∧
      (agent.reduced event).ledger.interrupted = agent.ledger.interrupted ∧
      (agent.reduced event).ledger.providerCalls = agent.ledger.providerCalls := by
  cases event with
  | turnEnd message toolResults =>
    obtain ⟨message, origin⟩ := message
    cases message <;> exact ⟨rfl, rfl, rfl, rfl, rfl, rfl, rfl⟩
  | _ => exact ⟨rfl, rfl, rfl, rfl, rfl, rfl, rfl⟩

theorem reduced_transcript (agent : Agent) (event : AgentEvent) :
    (agent.reduced event).messages = agent.messages ++ (endedMessage event).toList ∧
      (agent.reduced event).ledger.appended = agent.ledger.appended ++ (endedMessage event).toList ∧
      (agent.reduced event).ledger.held = match endedMessage event with
        | none => agent.ledger.held
        | some message => agent.ledger.held.filter fun other => other.origin ≠ message.origin := by
  cases event with
  | turnEnd message toolResults =>
    obtain ⟨message, origin⟩ := message
    cases message <;> exact ⟨(append_nil _).symm, (append_nil _).symm, rfl⟩
  | messageEnd message => exact ⟨rfl, rfl, rfl⟩
  | _ => exact ⟨(append_nil _).symm, (append_nil _).symm, rfl⟩

/-- The messages a run holds were queued at different places. -/
theorem held_tail (conserved : Conserved agent) {message : MessageObject}
    {rest : List MessageObject} (holding : agent.ledger.held = message :: rest) :
    (agent.ledger.held.filter fun other => other.origin ≠ message.origin) = rest := by
  obtain ⟨place, placed⟩ : ∃ place, message.origin = some place :=
    isSome_iff_exists.mp (conserved.owned message (holding ▸ mem_cons_self))
  have whole := conserved.accounted place
  rw [holding, count_cons, if_pos placed] at whole
  rw [holding, filter_cons_of_neg (by simp)]
  apply filter_eq_self.mpr
  intro other member
  simp only [ne_eq, decide_eq_true_eq]
  intro same
  have twice := count_pos member (same.trans placed)
  split at whole <;> omega

/-- An event that a run may emit leaves its messages where they belong. -/
theorem conserved_reduced (conserved : Conserved agent) (event : AgentEvent)
    (holding : agent.ledger.held = progress.held) (carries : progress.carries event) :
    (agent.reduced event).ledger.held = (progress.next event).held ∧
      Conserved (agent.reduced event) := by
  obtain ⟨-, -, queues, enqueued, removed, -, -⟩ := reduced_same agent event
  obtain ⟨messages, appended, held⟩ := reduced_transcript agent event
  cases ends : endedMessage event with
  | none =>
    have kept : (progress.next event).held = progress.held := by
      cases event <;> first | rfl | cases ends
    rw [ends] at messages appended held
    simp only [toList_none, append_nil] at messages appended
    refine ⟨held.trans (holding.trans kept.symm), ?_⟩
    exact conserved_of_same conserved queues enqueued removed held appended
      (messages ▸ suffix_refl _)
  | some message =>
    obtain rfl : event = .messageEnd message := by
      cases event <;> cases ends
      rfl
    cases waiting : progress.held with
    | nil =>
      simp only [Progress.carries, waiting] at carries
      have empty : (agent.reduced (.messageEnd message)).ledger.held = agent.ledger.held := by
        rw [held, holding, waiting]
        rfl
      refine ⟨?_, conserved_appended conserved carries queues enqueued removed empty appended
        messages⟩
      rw [empty, holding, Progress.next, waiting]
      rfl
    | cons first rest =>
      simp only [Progress.carries, waiting] at carries
      subst carries
      rw [waiting] at holding
      have tail : (agent.reduced (.messageEnd message)).ledger.held = rest :=
        held.trans (held_tail conserved holding)
      refine ⟨?_, conserved_injected conserved holding queues enqueued removed tail appended
        messages⟩
      rw [tail, Progress.next, waiting]
      rfl

theorem Holds.reduced (holds : Holds limit progress agent) (event : AgentEvent)
    (carries : progress.carries event) :
    Holds limit (progress.next event) (agent.reduced event) := by
  obtain ⟨activeRun, maxIterations, -, -, -, interrupted, providerCalls⟩ :=
    reduced_same agent event
  have calm : (agent.reduced event).Calm → agent.Calm := by
    rw [Calm, Calm, interrupted]
    exact id
  have calls : (progress.next event).calls = progress.calls := by cases event <;> rfl
  have both : agent.Calm → (agent.reduced event).ledger.held = (progress.next event).held ∧
      Conserved (agent.reduced event) := fun now =>
    conserved_reduced (holds.conserved now) event (holds.held now) carries
  refine ⟨activeRun ▸ holds.active, maxIterations.trans holds.limit,
    (providerCalls.trans holds.calls).trans calls.symm, ?_, fun now => (both (calm now)).1,
    fun now => (both (calm now)).2⟩
  rw [calls, Agent.budget, maxIterations]
  exact holds.budget

/-- A listener that throws is recorded with what the run held. -/
theorem notify_spec :
    Triple (Holds limit progress) notify (fun _ => Holds limit progress) (Failed limit) := by
  apply triple_bind await_spec
  intro answer
  split
  · exact triple_pure _ fun _ => id
  · rename_i error
    intro agent holds
    refine ⟨holds.active, holds.limit, holds.calls ▸ holds.budget, fun calm _ _ => ?_,
      fun calm => ?_⟩
    · exact calm agent.ledger.held (mem_append_right _ (mem_singleton_self _))
    · have before : agent.Calm := fun held member => calm held (mem_append_left _ member)
      exact conserved_of_same (holds.conserved before) rfl rfl rfl rfl rfl (suffix_refl _)
  · exact triple_throw _ fun _ holds => holds.suspended

theorem processEvents_spec (event : AgentEvent) (carries : progress.carries event) :
    Triple (Holds limit progress) (processEvents event)
      (fun _ => Holds limit (progress.next event)) (Failed limit) := by
  have told : Triple (Holds limit progress)
      (modify fun agent => agent.reduced event) (fun _ => Holds limit (progress.next event))
      (Failed limit) := triple_modify fun agent holds => holds.reduced event carries
  apply triple_bind told
  intro _
  apply triple_get
  intro agent holds
  refine Triple.here ?_ holds
  split
  · rename_i inactive
    have active := holds.active
    rw [isNone_iff_eq_none.mp inactive] at active
    cases active
  · exact notify_spec

/-! ## Queues -/

theorem taken_drain (queue : PendingMessageQueue) :
    queue.messages = queue.drained ++ queue.drain.messages := by
  unfold drained drain
  cases queue.mode with
  | all => exact (append_nil _).symm
  | oneAtATime => exact (take_append_drop 1 _).symm

theorem Holds.taken {name : QueueName} {taken : List MessageObject}
    (holds : Holds limit progress agent) (held : progress.held = [])
    (queues : name = .steering ∨ name = .followUp) (left : Taken agent after name taken)
    (activeRun : after.activeRun = agent.activeRun)
    (maxIterations : after.maxIterations = agent.maxIterations)
    (ledger : after.ledger = agent.ledger.hold taken) :
    Holds limit { progress with held := taken } after := by
  refine ⟨activeRun ▸ holds.active, maxIterations.trans holds.limit, ?_, ?_, ?_, ?_⟩
  · rw [ledger]
    exact holds.calls
  · rw [Agent.budget, maxIterations]
    exact holds.budget
  · intro _
    rw [ledger]
    rfl
  · intro calm
    have before : agent.Calm := by
      rw [Calm, ledger] at calm
      exact calm
    exact conserved_held (holds.conserved before) queues left (by rw [ledger]; rfl)
      ((holds.held before).trans held) (by rw [ledger]; rfl)

theorem settle_spec :
    Triple (Holds limit progress) settle (fun _ => Holds limit progress) (Failed limit) := by
  apply triple_bind await_spec
  intro answer
  split
  · exact triple_pure _ fun _ => id
  · exact triple_throw _ fun _ holds => holds.suspended

/-- The messages of a poll, of which the run holds those that were queued. -/
def Offered (limit : Option Int) (progress : Progress) (messages : List MessageObject)
    (agent : Agent) : Prop :=
  ∃ held, Injected messages held ∧ Holds limit { progress with held := held } agent

theorem Holds.offered (holds : Holds limit progress agent) (held : progress.held = []) :
    Offered limit progress [] agent :=
  ⟨[], Injected.nil_right, Progress.with_held held ▸ holds⟩

theorem getSteeringMessages_spec (held : progress.held = []) :
    Triple (Holds limit progress) getSteeringMessages
      (fun messages => Offered limit progress messages) (Failed limit) := by
  apply triple_get
  intro _ holds
  split
  · rintro agent rfl
    have skipped : Holds limit progress { agent with skipInitialSteeringPoll := false } :=
      ⟨holds.active, holds.limit, holds.calls, holds.budget, holds.held, fun calm =>
        conserved_of_same (holds.conserved calm) rfl rfl rfl rfl rfl (suffix_refl _)⟩
    have rest : Triple (Holds limit progress) (do settle; return [])
        (fun messages => Offered limit progress messages) (Failed limit) :=
      triple_bind settle_spec fun _ => triple_pure _ fun _ holds => holds.offered held
    exact rest _ skipped
  · rintro agent rfl
    have left : Taken agent { agent with
        steeringQueue := agent.steeringQueue.drain
        ledger := agent.ledger.hold agent.steeringQueue.drained } .steering
          agent.steeringQueue.drained := by
      refine ⟨taken_drain agent.steeringQueue, ?_, rfl, rfl, rfl⟩
      intro other different
      cases other with
      | steering => exact absurd rfl different
      | followUp => rfl
      | nextTurn => rfl
    have rest : Triple (Holds limit { progress with held := agent.steeringQueue.drained })
        (do settle; return agent.steeringQueue.drained)
        (fun messages => Offered limit progress messages) (Failed limit) :=
      triple_bind settle_spec fun _ => triple_pure _ fun _ holds => ⟨_, Or.inl rfl, holds⟩
    exact rest _ (holds.taken held (Or.inl rfl) left rfl rfl rfl)

theorem getFollowUpMessages_spec (held : progress.held = []) :
    Triple (Holds limit progress) getFollowUpMessages
      (fun messages => Offered limit progress messages) (Failed limit) := by
  apply triple_get
  rintro _ holds agent rfl
  have left : Taken agent { agent with
      followUpQueue := agent.followUpQueue.drain
      ledger := agent.ledger.hold agent.followUpQueue.drained } .followUp
        agent.followUpQueue.drained := by
    refine ⟨taken_drain agent.followUpQueue, ?_, rfl, rfl, rfl⟩
    intro other different
    cases other with
    | steering => rfl
    | followUp => exact absurd rfl different
    | nextTurn => rfl
  have rest : Triple (Holds limit { progress with held := agent.followUpQueue.drained })
      (do settle; return agent.followUpQueue.drained)
      (fun messages => Offered limit progress messages) (Failed limit) :=
    triple_bind settle_spec fun _ => triple_pure _ fun _ holds => ⟨_, Or.inl rfl, holds⟩
  exact rest _ (holds.taken held (Or.inr rfl) left rfl rfl rfl)

theorem stream_spec (held : progress.held = [])
    (left : (progress.calls : Int) < limit.getD defaultAgentMaxIterations) :
    Triple (Holds limit progress) stream
      (fun _ => Holds limit { progress with calls := progress.calls + 1, started := false })
      (Failed limit) := by
  have asked : Triple (Holds limit progress)
      (modify fun agent => { agent with
        ledger := { agent.ledger with providerCalls := agent.ledger.providerCalls + 1 } })
      (fun _ => Holds limit { progress with calls := progress.calls + 1, started := false })
      (Failed limit) := by
    apply triple_modify
    intro agent holds
    refine ⟨holds.active, holds.limit, congrArg (· + 1) holds.calls, ?_, holds.held, fun calm =>
      conserved_of_same (holds.conserved calm) rfl rfl rfl rfl rfl (suffix_refl _)⟩
    have same : agent.maxIterations = limit := holds.limit
    simp only [Agent.budget, same]
    omega
  apply triple_bind asked
  intro _
  exact answered_spec _ held

theorem aborted_spec :
    Triple (Holds limit progress) aborted (fun _ => Holds limit progress) (Failed limit) := by
  apply triple_get
  rintro _ holds agent rfl
  exact holds

theorem now_spec :
    Triple (Holds limit progress) now (fun _ => Holds limit progress) (Failed limit) := by
  apply triple_get
  rintro _ holds agent rfl
  exact holds

variable {validateToolArguments : AgentTool → AgentToolCall → Except String Unit}

/-- An agent keeps track of its queued messages at every point of a run, whatever its hooks, its
tools and its provider do. -/
theorem follows_queues (agent : Agent) :
    Follows (agent.createLoopConfig validateToolArguments) False (Holds agent.maxIterations)
      (Failed agent.maxIterations) where
  emit progress event carries _ := processEvents_spec event carries
  getSteeringMessages progress free := getSteeringMessages_spec free.held
  getFollowUpMessages progress free := getFollowUpMessages_spec free.held
  prepareNextTurn progress context free _ := by
    refine (answered_spec Answer.updated? free.held).weaken (fun _ => id) ?_ (fun _ _ => id)
    intro update after holds
    rw [Progress.rebased]
    cases update.bind AgentLoopTurnUpdate.context with
    | none => exact holds
    | some context => exact ⟨holds.active, holds.limit, holds.calls, holds.budget, holds.held,
        holds.conserved⟩
  shouldStopAfterTurn progress context free := answered_spec Answer.stops? free.held
  transformContext progress messages free := answered_spec Answer.messages? free.held
  convertToLlm progress messages free := answered_spec Answer.messages? free.held
  getApiKey progress model free := answered_spec Answer.done? free.held
  streamFunction progress model messages free left := stream_spec free.held left
  nextStreamEvent progress free := by
    refine (answered_spec Answer.event? free.held).weaken (fun _ => id) ?_ (fun _ _ => id)
    intro event after holds
    exact ⟨⟨holds.active, holds.limit, holds.calls, holds.budget, holds.held, holds.conserved⟩,
      fun _ _ never => never.elim⟩
  streamResult progress free := answered_spec Answer.result? free.held
  beforeToolCall progress toolCall free := answered_spec Answer.before? free.held
  nextToolStep progress running free := answered_spec Answer.toolStep? free.held
  afterToolCall progress toolCall result isError free := answered_spec Answer.after? free.held
  aborted progress free := aborted_spec
  now progress free := now_spec
  suspended progress host holds := holds.suspended
  thrown progress error host free holds := holds.thrown free.held error

/-! ## Runs -/

/-- What an agent keeps between calls, while a run waits or when none is active. -/
structure Sound (agent : Agent) : Prop where
  budget : agent.ledger.providerCalls ≤ agent.budget
  conserved : agent.Calm → Conserved agent
  held : agent.Calm → agent.activeRun = none → agent.ledger.held = []

/-- A run that holds nothing finishes. -/
theorem Holds.finishRun (holds : Holds limit progress agent) (held : progress.held = []) :
    Sound agent.finishRun := by
  refine ⟨holds.calls ▸ holds.budget, fun calm => ?_, fun calm _ => (holds.held calm).trans held⟩
  exact conserved_of_same (holds.conserved calm) rfl rfl rfl rfl rfl (suffix_refl _)

theorem Failed.finishRun {error : String} (failed : Failed limit (.thrown error) agent) :
    Sound agent.finishRun := by
  refine ⟨failed.budget, fun calm => ?_, fun calm _ => failed.held calm error rfl⟩
  exact conserved_of_same (failed.conserved calm) rfl rfl rfl rfl rfl (suffix_refl _)

theorem Failed.suspended (failed : Failed limit .suspended agent) : Sound agent := by
  refine ⟨failed.budget, failed.conserved, fun _ idle => ?_⟩
  have active := failed.active
  rw [idle] at active
  cases active

/-- When the locals of a run that threw are gone, nothing is held. -/
theorem Failed.dropHeld {error : String} (failed : Failed limit (.thrown error) agent) :
    ∃ progress : Progress, progress.held = [] ∧ Holds limit progress agent.dropHeld := by
  refine ⟨{ Progress.start [] [] with calls := agent.ledger.providerCalls }, rfl,
    failed.active, failed.limit, rfl, failed.budget, fun _ => rfl, fun calm => ?_⟩
  exact conserved_of_same (failed.conserved calm) rfl rfl rfl (failed.held calm error rfl).symm rfl
    (suffix_refl _)

theorem handleRunFailure_spec (error : String) (held : progress.held = []) :
    Triple (Holds limit progress) (handleRunFailure error)
      (fun _ agent => ∃ progress : Progress, progress.held = [] ∧ Holds limit progress agent)
      (Failed limit) := by
  apply triple_get
  intro agent holds
  refine Triple.here ?_ holds
  apply triple_bind (processEvents_spec (.messageStart _) trivial)
  intro _
  apply triple_bind (processEvents_spec (.messageEnd _) (by
    simp [Progress.carries, Progress.next, held, failureMessage]))
  intro _
  apply triple_bind (processEvents_spec (.turnEnd _ _) trivial)
  intro _
  refine (processEvents_spec (.agentEnd _) trivial).weaken (fun _ => id) ?_ (fun _ _ => id)
  intro _ after holds
  exact ⟨_, by simp [Progress.next, held], holds⟩

theorem runWithLifecycle_sound {executor : AgentM Unit} (spec : Triple (· = agent) executor
      (fun _ after => ∃ progress : Progress, progress.held = [] ∧ Holds limit progress after)
      (Failed limit)) : Sound (runWithLifecycle executor agent) := by
  have done := spec agent rfl
  rw [runWithLifecycle]
  cases run : executor.perform agent with
  | mk result after =>
    rw [run] at done
    cases result with
    | ok _ =>
      obtain ⟨progress, held, holds⟩ := done
      exact holds.finishRun held
    | error stop =>
      cases stop with
      | suspended => exact Failed.suspended done
      | thrown error =>
        obtain ⟨progress, held, holds⟩ := Failed.dropHeld done
        have handled := handleRunFailure_spec error held _ holds
        simp only
        cases failure : (handleRunFailure error).perform after.dropHeld with
        | mk result after =>
          rw [failure] at handled
          cases result with
          | ok _ =>
            obtain ⟨progress, held, holds⟩ := handled
            exact holds.finishRun held
          | error stop =>
            cases stop with
            | suspended => exact Failed.suspended handled
            | thrown error => exact Failed.finishRun handled

theorem onLoop_spec {start : Agent → Loop Agent}
    {loop : AgentLoopConfig Agent → Nat → LoopM Agent Unit} (spec : ∀ fuel, Triple (· = start agent)
      (loop (agent.createLoopConfig validateToolArguments) fuel)
      (fun _ => Loop.Settled (agent.createLoopConfig validateToolArguments) False (Holds limit)
        .over []) (Loop.Fails (Failed limit))) :
    Triple (· = agent) (onLoop validateToolArguments start loop)
      (fun _ after => ∃ progress : Progress, progress.held = [] ∧ Holds limit progress after)
      (Failed limit) := by
  apply triple_get
  rintro _ rfl agent rfl
  have done := spec (agent.inputs.length + 1) (start agent) rfl
  cases run : (loop (agent.createLoopConfig validateToolArguments)
      (agent.inputs.length + 1)).perform (start agent) with
  | mk result ended =>
    rw [run] at done
    cases result with
    | ok _ =>
      obtain ⟨progress, quiet, -, here⟩ := done
      exact ⟨progress, quiet.held, here.1⟩
    | error stop => exact done

theorem Sound.beginRun (sound : Sound agent) (inputs : List Input) (skip : Bool)
    (base : List MessageObject) (idle : agent.activeRun = none) :
    Holds agent.maxIterations (Progress.start [] base) (agent.beginRun inputs skip []) := by
  refine ⟨rfl, rfl, rfl, Nat.zero_le _, fun _ => rfl, fun calm => ?_⟩
  exact conserved_of_same (sound.conserved calm) rfl rfl rfl (sound.held calm idle).symm rfl
    (suffix_refl _)

theorem Sound.beginRun_taken {name : QueueName} {taken : List MessageObject}
    (sound : Sound agent) (inputs : List Input) (skip : Bool) (base : List MessageObject)
    (idle : agent.activeRun = none) (queues : name = .steering ∨ name = .followUp)
    (left : Taken agent after name taken) (ledger : after.ledger = agent.ledger) :
    Holds after.maxIterations (Progress.start taken base) (after.beginRun inputs skip taken) := by
  refine ⟨rfl, rfl, rfl, Nat.zero_le _, fun _ => rfl, fun calm => ?_⟩
  have before : agent.Calm := by
    rw [Calm, ← ledger]
    exact calm
  have begun : Taken agent (after.beginRun inputs skip taken) name taken :=
    ⟨left.queue, left.others, left.enqueued, left.appended, left.messages⟩
  have removed : after.ledger.removed = agent.ledger.removed := by rw [ledger]
  exact conserved_held (sound.conserved before) queues begun removed (sound.held before idle) rfl

theorem runPromptMessages_sound {messages held : List MessageObject} {inputs : List Input}
    {skip : Bool} (injected : Injected messages held)
    (begun : Holds agent.maxIterations (Progress.start held agent.messages)
      (agent.beginRun inputs skip held)) :
    Sound (agent.runPromptMessages validateToolArguments inputs messages held skip) := by
  apply runWithLifecycle_sound
  apply onLoop_spec
  intro fuel
  refine ((follows_queues (agent.beginRun inputs skip held)).runAgentLoop_spec fuel messages held
    agent.messages injected).here ?_
  exact ⟨begun, rfl, fun never => never.elim, fun never => never.elim, fun never => never.elim⟩

section

variable (sound : Sound agent)
include sound

theorem runContinuation_sound (inputs : List Input) (idle : agent.activeRun = none) :
    Sound (agent.runContinuation validateToolArguments inputs) := by
  apply runWithLifecycle_sound
  apply onLoop_spec
  intro fuel
  refine ((follows_queues (agent.beginRun inputs false [])).runAgentLoopContinue_spec fuel
    agent.messages).here ?_
  exact ⟨sound.beginRun inputs false agent.messages idle, rfl, fun never => never.elim,
    fun never => never.elim, fun never => never.elim⟩

theorem continueRun_sound (inputs : List Input) :
    Sound (agent.continueRun validateToolArguments inputs) := by
  unfold continueRun
  split
  · exact sound
  rename_i idle
  have idle : agent.activeRun = none := by simpa using idle
  split
  · exact sound
  split
  · split
    · apply runPromptMessages_sound (Or.inl rfl)
      refine sound.beginRun_taken inputs true _ idle (Or.inl rfl)
        ⟨taken_drain agent.steeringQueue, ?_, rfl, rfl, rfl⟩ rfl
      intro other different
      cases other with
      | steering => exact absurd rfl different
      | followUp => rfl
      | nextTurn => rfl
    · split
      · rename_i empty _
        have untouched : agent.steeringQueue.drain.messages =
            agent.steeringQueue.messages := by
          have none_ : agent.steeringQueue.drained = [] := by simpa using empty
          rw [taken_drain agent.steeringQueue, none_, nil_append]
        apply runPromptMessages_sound (Or.inl rfl)
        refine sound.beginRun_taken inputs false _ idle (Or.inr rfl)
          ⟨taken_drain agent.followUpQueue, ?_, rfl, rfl, rfl⟩ rfl
        intro other different
        cases other with
        | steering => exact untouched
        | followUp => exact absurd rfl different
        | nextTurn => rfl
      · exact sound
  · exact runContinuation_sound sound inputs idle

theorem call_sound (call : AgentCall) : Sound (agent.call call) := by
  have between := interleaved_call agent call
  have calm : (agent.call call).Calm → agent.Calm := by
    rw [Calm, between.interrupted]
    exact id
  refine ⟨?_, fun now => between.conserved (sound.conserved (calm now)), fun now idle => ?_⟩
  · rw [between.providerCalls, Agent.budget, between.maxIterations]
    exact sound.budget
  · rw [between.held]
    apply sound.held (calm now)
    have same := between.activeRun
    rw [idle] at same
    exact isNone_iff_eq_none.mp (by simpa using same.symm)

theorem request_sound (request : Request) :
    Sound (agent.request validateToolArguments request) := by
  unfold Agent.request
  split
  · rename_i messages _
    unfold prompt
    split
    · exact sound
    rename_i idle
    apply runPromptMessages_sound (Or.inr ⟨rfl, ?_⟩)
    · exact sound.beginRun request.inputs false _ (by simpa using idle)
    · intro message member
      obtain ⟨_, -, rfl⟩ := mem_map.mp member
      rfl
  · exact continueRun_sound sound request.inputs
  · exact call_sound sound request.call

theorem requests_sound (requests : List Request) :
    Sound (agent.requests validateToolArguments requests) := by
  induction requests generalizing agent with
  | nil => exact sound
  | cons request rest ih => exact ih (request_sound sound request)

end

theorem count_unqueued (place : QueueName × Nat) (messages : List AgentMessage) :
    count place (unqueued messages) = 0 := by
  rw [count, countP_eq_zero]
  intro message member
  obtain ⟨_, -, rfl⟩ := mem_map.mp member
  simp

theorem create_sound (options : Options) : Sound (create options) := by
  have unplaced : ∀ name, (unqueued options.messages).filterMap (number name) = [] := by
    intro name
    apply filterMap_eq_nil_iff.mpr
    intro message member
    obtain ⟨_, -, rfl⟩ := mem_map.mp member
    rfl
  refine ⟨Nat.zero_le _, fun _ => ⟨fun place => ?_, fun name => ?_, fun name => ?_, ?_,
    suffix_refl _⟩, fun _ _ => rfl⟩
  · simp [create, queue, count_unqueued]
  · have empty : (create options).line name = [] := by
      cases name <;> simp [line, create, queue, unplaced]
    rw [empty]
    exact List.Pairwise.nil
  · cases name <;> simp [create, queue]
  · simp [create]

def steered (answers : List Answer) : Agent :=
  (create ⟨[], [], ⟨"api", "provider", "model"⟩, .oneAtATime, .oneAtATime, none,
      .parallel⟩).requests
    (fun _ _ => .ok ())
    [⟨.steer (.user (.text "and the tests") 0), []⟩,
      ⟨.prompt [.user (.text "fix the build") 0], answers.map fun answer => ⟨0, [], answer⟩⟩]

end Recode.Agent

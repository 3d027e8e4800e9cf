import Recode.Agent.QueueGuarantees

/-! # The events of a run

The events of a run are bracketed and tell what entered the transcript, as long
as each stream of its provider starts at most once and no listener throws. When
something else throws, four events of a failure message follow, whichever
brackets are open. -/

namespace Recode.Agent

open Procedure List Option Progress Loop Triple

/-- How far events lead, if each of them is admitted when it comes. -/
def Progress.follow (progress : Progress) : List AgentEvent → Option Progress
  | [] => some progress
  | event :: rest =>
    if progress.admits event = true then (progress.next event).follow rest else none

/-- Events that a run may emit one after the other from its begin. -/
def Bracketed (events : List AgentEvent) (stage : Stage) : Prop :=
  ∃ point, (start [] []).follow events = some point ∧ point.stage = stage

/-- The events of a whole run: all brackets are closed, and the last event ends the run. -/
structure WellBracketed (events : List AgentEvent) : Prop where
  bracketed : ∃ point, (start [] []).follow events = some point ∧ point.stage = .over ∧
    point.message = false ∧ point.tools = 0
  last : ∃ before messages, events = before ++ [.agentEnd messages] ∧
    ∀ other ∈ before, ∀ messages, other ≠ .agentEnd messages

/-- The messages that events end. -/
def endedMessages (events : List AgentEvent) : List MessageObject := events.filterMap endedMessage

def failureEvents (message : MessageObject) : List AgentEvent :=
  [.messageStart message, .messageEnd message, .turnEnd message [], .agentEnd [message]]

def StartsOnce (started : Bool) : List Input → Prop
  | [] => True
  | input :: rest =>
    match input.answer with
    | .streaming => StartsOnce false rest
    | .event (some (.start _)) => started = false ∧ StartsOnce true rest
    | _ => StartsOnce started rest

namespace Progress

theorem follow_append (progress : Progress) (first second : List AgentEvent) :
    progress.follow (first ++ second) =
      (progress.follow first).bind fun point => point.follow second := by
  induction first generalizing progress with
  | nil => rfl
  | cons event rest ih =>
    rw [cons_append, follow, follow]
    split
    · exact ih (progress.next event)
    · rfl

/-- Two points whose brackets are the same and that saw the same messages. -/
structure Agrees (point progress : Progress) : Prop where
  stage : point.stage = progress.stage
  message : point.message = progress.message
  tools : point.tools = progress.tools
  ended : point.ended = progress.ended

namespace Agrees

variable {point progress : Progress}

theorem admits (agrees : Agrees point progress) (event : AgentEvent) :
    point.admits event = progress.admits event := by
  cases event <;> simp only [Progress.admits, agrees.stage, agrees.message, agrees.tools]

theorem next (agrees : Agrees point progress) (event : AgentEvent) :
    Agrees (point.next event) (progress.next event) := by
  obtain ⟨stage, message, tools, ended⟩ := agrees
  cases event with
  | messageEnd object =>
    refine ⟨stage, rfl, tools, ?_⟩
    simp only [Progress.ended, Progress.next, ← append_assoc] at ended ⊢
    rw [ended]
  | toolExecutionStart toolCall =>
    exact ⟨stage, message, congrArg (Multiset.cons toolCall.id) tools, ended⟩
  | toolExecutionEnd toolCall result isError =>
    exact ⟨stage, message, congrArg (Multiset.erase · toolCall.id) tools, ended⟩
  | messageStart _ => exact ⟨stage, rfl, tools, ended⟩
  | agentStart => exact ⟨rfl, message, tools, ended⟩
  | agentEnd _ => exact ⟨rfl, message, tools, ended⟩
  | turnStart => exact ⟨rfl, message, tools, ended⟩
  | turnEnd _ _ => exact ⟨rfl, message, tools, ended⟩
  | followUpStart => exact ⟨stage, message, tools, ended⟩
  | messageUpdate _ => exact ⟨stage, message, tools, ended⟩
  | toolExecutionUpdate _ _ => exact ⟨stage, message, tools, ended⟩

end Agrees

variable {progress point : Progress} {events : List AgentEvent}

/-- The messages that events end are those the point they lead to saw. -/
theorem ended_of_follow (followed : progress.follow events = some point) :
    point.ended = progress.ended ++ endedMessages events := by
  induction events generalizing progress with
  | nil =>
    cases followed
    exact (append_nil _).symm
  | cons event rest ih =>
    rw [follow] at followed
    split at followed
    · rw [ih followed]
      cases event <;> simp [endedMessages, filterMap_cons, endedMessage, ended, next]
    · cases followed

theorem not_admits_over {progress : Progress} (finished : progress.stage = .over)
    (event : AgentEvent) : progress.admits event = false := by
  cases event <;> simp [admits, finished]

theorem next_over {progress : Progress} {event : AgentEvent}
    (admitted : progress.admits event = true) (finished : (progress.next event).stage = .over) :
    ∃ messages, event = .agentEnd messages := by
  have before : progress.stage ≠ .over := by
    intro already
    rw [not_admits_over already] at admitted
    cases admitted
  cases event with
  | agentEnd messages => exact ⟨messages, rfl⟩
  | agentStart => cases finished
  | turnStart => cases finished
  | turnEnd _ _ => cases finished
  | followUpStart => exact absurd finished before
  | messageStart _ => exact absurd finished before
  | messageUpdate _ => exact absurd finished before
  | messageEnd _ => exact absurd finished before
  | toolExecutionStart _ => exact absurd finished before
  | toolExecutionUpdate _ _ => exact absurd finished before
  | toolExecutionEnd _ _ _ => exact absurd finished before

theorem not_agentEnd_of_follow (followed : progress.follow events = some point)
    (open_ : point.stage ≠ .over) : ∀ event ∈ events, ∀ messages, event ≠ .agentEnd messages := by
  induction events generalizing progress with
  | nil => simp
  | cons first rest ih =>
    rw [follow] at followed
    split at followed
    · rename_i admitted
      intro event member messages
      rcases mem_cons.mp member with rfl | later
      · rintro rfl
        cases rest with
        | nil =>
          cases followed
          exact open_ rfl
        | cons second rest =>
          rw [follow, not_admits_over rfl] at followed
          cases followed
      · exact ih followed event later messages
    · cases followed

theorem last_of_follow (followed : progress.follow events = some point)
    (begun : progress.stage ≠ .over) (finished : point.stage = .over) :
    ∃ before messages, events = before ++ [.agentEnd messages] ∧
      ∀ other ∈ before, ∀ messages, other ≠ .agentEnd messages := by
  rcases eq_nil_or_concat events with rfl | ⟨before, event, rfl⟩
  · cases followed
    exact absurd finished begun
  rw [concat_eq_append, follow_append, bind_eq_some_iff] at followed
  obtain ⟨middle, reached, followed⟩ := followed
  rw [follow] at followed
  split at followed
  · rename_i admitted
    cases followed
    obtain ⟨messages, rfl⟩ := next_over admitted finished
    have open_ : middle.stage ≠ .over := by
      intro already
      rw [not_admits_over already] at admitted
      cases admitted
    exact ⟨before, messages, concat_eq_append, not_agentEnd_of_follow reached open_⟩
  · cases followed

end Progress

/-! ## What a run tells -/

/-- What the events of a run tell at each of its points: they agree with its progress and with the
transcript. -/
structure Tells (transcript : List MessageObject) (told : List (List MessageObject))
    (progress : Progress) (agent : Agent) : Prop where
  active : agent.activeRun.isSome
  told : agent.ledger.interrupted = told
  events : ∃ point, (start [] []).follow agent.ledger.events = some point ∧
    point.Agrees progress
  messages : agent.messages = transcript ++ progress.ended

/-- A point of a run whose streams will start at most once. -/
def Reports (transcript : List MessageObject) (told : List (List MessageObject))
    (progress : Progress) (agent : Agent) : Prop :=
  Tells transcript told progress agent ∧ StartsOnce progress.started agent.inputs

/-- What is left of a run that does not go on, unless a listener threw. -/
structure Reported (transcript : List MessageObject) (told : List (List MessageObject))
    (stop : Stop) (agent : Agent) : Prop where
  active : agent.activeRun.isSome
  heard : told <+: agent.ledger.interrupted
  tells : agent.ledger.interrupted = told → ∃ progress, Tells transcript told progress agent ∧
    ∀ error, stop = .thrown error → progress.stage ≠ .over

variable {transcript : List MessageObject} {told : List (List MessageObject)}
  {progress : Progress} {agent : Agent}

theorem Tells.suspended (tells : Tells transcript told progress agent) :
    Reported transcript told .suspended agent := by
  refine ⟨tells.active, tells.told ▸ prefix_rfl, fun _ => ⟨progress, tells, ?_⟩⟩
  intro error never
  cases never

theorem Tells.thrown (tells : Tells transcript told progress agent)
    (goesOn : progress.stage ≠ .over) (error : String) :
    Reported transcript told (.thrown error) agent :=
  ⟨tells.active, tells.told ▸ prefix_rfl, fun _ => ⟨progress, tells, fun _ _ => goesOn⟩⟩

/-- The inputs after an answer, if each stream starts at most once. -/
def StartsAfter (started : Bool) (answer : Answer) (rest : List Input) : Prop :=
  StartsOnce started (⟨0, [], answer⟩ :: rest)

/-! ## Waiting -/

/-- Whatever is called while a run waits, its events and its transcript stay as they are. -/
structure Untouched (agent after : Agent) : Prop where
  active : after.activeRun.isSome
  told : after.ledger.interrupted = agent.ledger.interrupted
  events : after.ledger.events = agent.ledger.events
  messages : after.messages = agent.messages
  inputs : after.inputs = agent.inputs

theorem untouched_call (active : agent.activeRun.isSome) (call : AgentCall) :
    Untouched agent (agent.call call) := by
  cases call with
  | reset =>
    have refused : agent.call .reset = agent := by
      change agent.reset = agent
      rw [reset, if_pos active]
    rw [refused]
    exact ⟨active, rfl, rfl, rfl, rfl⟩
  | abort => exact ⟨isSome_map.trans active, rfl, rfl, rfl, rfl⟩
  | _ => exact ⟨active, rfl, rfl, rfl, rfl⟩

theorem untouched_calls (active : agent.activeRun.isSome) (calls : List AgentCall) :
    Untouched agent (calls.foldl Agent.call agent) := by
  induction calls generalizing agent with
  | nil => exact ⟨active, rfl, rfl, rfl, rfl⟩
  | cons call rest ih =>
    have first := untouched_call active call
    have later := ih first.active
    exact ⟨later.active, later.told.trans first.told, later.events.trans first.events,
      later.messages.trans first.messages, later.inputs.trans first.inputs⟩

theorem Tells.received (tells : Tells transcript told progress agent) (input : Input)
    (rest : List Input) :
    Tells transcript told progress (agent.receive input rest) ∧
      (agent.receive input rest).inputs = rest := by
  have calm : Untouched { agent with inputs := rest, time := input.time }
      (agent.receive input rest) := untouched_calls (by exact tells.active) input.calls
  exact ⟨⟨calm.active, calm.told.trans tells.told, calm.events ▸ tells.events,
    calm.messages.trans tells.messages⟩, calm.inputs⟩

theorem await_reports :
    Triple (Reports transcript told progress) await
      (fun answer agent => Tells transcript told progress agent ∧
        StartsAfter progress.started answer agent.inputs) (Reported transcript told) := by
  apply triple_get
  rintro agent ⟨tells, once⟩
  cases waiting : agent.inputs with
  | nil => exact triple_throw _ fun _ same => same ▸ tells.suspended
  | cons input rest =>
    rintro _ rfl
    obtain ⟨received, inputs⟩ := tells.received input rest
    refine ⟨received, ?_⟩
    rw [waiting] at once
    rw [inputs]
    exact once

/-- An answer that does not concern a stream. -/
def Unrelated {Result : Type} (read : Answer → Option Result) : Prop :=
  ∀ answer result, read answer = some result → ∀ started rest,
    StartsAfter started answer rest → StartsOnce started rest

/-- A run waits for an answer that does not concern a stream. -/
theorem answered_reports {Result : Type} {read : Answer → Option Result}
    (unrelated : Unrelated read) (free : progress.Free) :
    Triple (Reports transcript told progress) (answered read)
      (fun _ => Reports transcript told progress) (Reported transcript told) := by
  apply triple_bind await_reports
  intro answer
  split
  · exact triple_throw _ fun _ known => known.1.thrown free.goesOn _
  · split
    · rename_i result found
      exact triple_pure _ fun _ known => ⟨known.1, unrelated answer result found _ _ known.2⟩
    · exact triple_throw _ fun _ known => known.1.suspended

theorem settle_reports :
    Triple (Reports transcript told progress) settle
      (fun _ => Reports transcript told progress) (Reported transcript told) := by
  apply triple_bind await_reports
  intro answer
  split
  · exact triple_pure _ fun _ known => known
  · exact triple_throw _ fun _ known => known.1.suspended

theorem unrelated_of {Result : Type} {read : Answer → Option Result}
    (streaming : read .streaming = none) (event : ∀ event, read (.event event) = none) :
    Unrelated read := by
  intro answer result found started rest once
  cases answer with
  | streaming => cases found.symm.trans streaming
  | event of => cases found.symm.trans (event of)
  | _ => exact once

theorem stream_reports (free : progress.Free) :
    Triple (Reports transcript told progress) stream
      (fun _ => Reports transcript told
        { progress with calls := progress.calls + 1, started := false })
      (Reported transcript told) := by
  have asked : Triple (Reports transcript told progress)
      (modify fun agent => { agent with
        ledger := { agent.ledger with providerCalls := agent.ledger.providerCalls + 1 } })
      (fun _ => Reports transcript told progress) (Reported transcript told) :=
    triple_modify fun agent known =>
      ⟨⟨known.1.active, known.1.told, known.1.events, known.1.messages⟩, known.2⟩
  apply triple_bind asked
  intro _
  apply triple_bind await_reports
  intro answer
  split
  · exact triple_throw _ fun _ known => known.1.thrown free.goesOn _
  cases answer with
  | streaming =>
    apply triple_pure
    rintro agent ⟨⟨active, told, ⟨point, followed, agrees⟩, messages⟩, once⟩
    exact ⟨⟨active, told, ⟨point, followed, agrees.stage, agrees.message, agrees.tools,
      agrees.ended⟩, messages⟩, once⟩
  | _ => exact triple_throw _ fun _ known => known.1.suspended

theorem event_reports (free : progress.Free) :
    Triple (Reports transcript told progress) (answered Answer.event?)
      (fun event agent => Reports transcript told
          { progress with started := progress.started || event.any fun event => event.isStart }
          agent ∧ ∀ message, event = some (.start message) → progress.started = false)
      (Reported transcript told) := by
  apply triple_bind await_reports
  intro answer
  split
  · exact triple_throw _ fun _ known => known.1.thrown free.goesOn _
  cases answer with
  | event event =>
    apply triple_pure
    rintro agent ⟨⟨active, told, ⟨point, followed, agrees⟩, messages⟩, once⟩
    refine ⟨⟨⟨active, told, ⟨point, followed, agrees.stage, agrees.message, agrees.tools,
      agrees.ended⟩, messages⟩, ?_⟩, ?_⟩
    · match event with
      | none => exact (Bool.or_false _).symm ▸ once
      | some (.start message) => exact (Bool.or_true _).symm ▸ once.2
      | some (.update message) => exact (Bool.or_false _).symm ▸ once
      | some .terminal => exact (Bool.or_false _).symm ▸ once
    · rintro message rfl
      exact once.1
  | _ => exact triple_throw _ fun _ known => known.1.suspended

/-! ## Events -/

theorem notify_reports :
    Triple (Reports transcript told progress) notify
      (fun _ => Reports transcript told progress) (Reported transcript told) := by
  apply triple_bind await_reports
  intro answer
  split
  · exact triple_pure _ fun _ known => known
  · rintro agent ⟨tells, -⟩
    refine ⟨tells.active, tells.told ▸ prefix_append _ _, fun same => ?_⟩
    -- A listener that throws is recorded, so that more is recorded than before.
    have longer := congrArg List.length same
    rw [← tells.told] at longer
    simp [Ledger.interrupt] at longer
  · exact triple_throw _ fun _ known => known.1.suspended

theorem Tells.reduced (tells : Tells transcript told progress agent) {event : AgentEvent}
    (admitted : progress.admits event = true) :
    Tells transcript told (progress.next event) (agent.reduced event) := by
  obtain ⟨activeRun, -, -, -, -, interrupted, -⟩ := reduced_same agent event
  obtain ⟨messages, -, -⟩ := reduced_transcript agent event
  obtain ⟨point, followed, agrees⟩ := tells.events
  have events : (agent.reduced event).ledger.events = agent.ledger.events ++ [event] := by
    cases event <;> rfl
  have ended : (progress.next event).ended = progress.ended ++ (endedMessage event).toList := by
    cases event <;> simp [Progress.ended, Progress.next, endedMessage]
  refine ⟨activeRun ▸ tells.active, interrupted.trans tells.told, ⟨point.next event, ?_,
    agrees.next event⟩, ?_⟩
  · rw [events, Progress.follow_append, followed, bind_some, Progress.follow,
      agrees.admits event, if_pos admitted, Progress.follow]
  · rw [messages, ended, tells.messages, append_assoc]

theorem processEvents_reports {event : AgentEvent} (admitted : progress.admits event = true) :
    Triple (Reports transcript told progress) (processEvents event)
      (fun _ => Reports transcript told (progress.next event)) (Reported transcript told) := by
  have started : (progress.next event).started = progress.started := by cases event <;> rfl
  have told : Triple (Reports transcript told progress)
      (modify fun agent => agent.reduced event)
      (fun _ => Reports transcript told (progress.next event)) (Reported transcript told) := by
    apply triple_modify
    rintro agent ⟨tells, once⟩
    have inputs : (agent.reduced event).inputs = agent.inputs := by
      cases event with
      | turnEnd message toolResults =>
        obtain ⟨message, origin⟩ := message
        cases message <;> rfl
      | _ => rfl
    exact ⟨tells.reduced admitted, by rw [started, inputs]; exact once⟩
  apply triple_bind told
  intro _
  apply triple_get
  intro agent known
  refine here ?_ known
  split
  · rename_i inactive
    have active := known.1.active
    rw [isNone_iff_eq_none.mp inactive] at active
    cases active
  · exact notify_reports

/-- What a run holds does not show in its events. -/
theorem Reports.with_held (reports : Reports transcript told progress agent)
    (held : List MessageObject) : Reports transcript told { progress with held := held } agent := by
  obtain ⟨⟨active, told, ⟨point, followed, agrees⟩, messages⟩, once⟩ := reports
  exact ⟨⟨active, told, ⟨point, followed, agrees.stage, agrees.message, agrees.tools,
    agrees.ended⟩, messages⟩, once⟩

theorem Reports.rebased (reports : Reports transcript told progress agent)
    (update : Option AgentLoopTurnUpdate) :
    Reports transcript told (progress.rebased update) agent := by
  obtain ⟨⟨active, told, ⟨point, followed, agrees⟩, messages⟩, once⟩ := reports
  obtain ⟨stage, message, tools, -, -⟩ := Follows.rebased_stage progress update
  have ended := ended_rebased progress update
  have started : (progress.rebased update).started = progress.started := by
    rw [Progress.rebased]
    cases update.bind AgentLoopTurnUpdate.context <;> rfl
  exact ⟨⟨active, told, ⟨point, followed, agrees.stage.trans stage.symm,
    agrees.message.trans message.symm, agrees.tools.trans tools.symm,
    agrees.ended.trans ended.symm⟩, messages.trans (by rw [ended])⟩, by rw [started]; exact once⟩

theorem settled_reports {messages : List MessageObject} :
    Triple (Reports transcript told progress) (do settle; return messages)
      (fun messages agent => ∃ held, Injected messages held ∧
        Reports transcript told { progress with held := held } agent) (Reported transcript told) :=
  triple_bind settle_reports fun _ => triple_pure _ fun _ known =>
    ⟨messages, Or.inl rfl, known.with_held messages⟩

theorem getSteeringMessages_reports :
    Triple (Reports transcript told progress) getSteeringMessages
      (fun messages agent => ∃ held, Injected messages held ∧
        Reports transcript told { progress with held := held } agent)
      (Reported transcript told) := by
  apply triple_get
  rintro _ ⟨⟨active, told, events, messages⟩, once⟩
  split
  · rintro agent rfl
    exact settled_reports { agent with skipInitialSteeringPoll := false }
      ⟨⟨active, told, events, messages⟩, once⟩
  rintro agent rfl
  exact settled_reports { agent with
    steeringQueue := agent.steeringQueue.drain
    ledger := agent.ledger.hold agent.steeringQueue.drained }
    ⟨⟨active, told, events, messages⟩, once⟩

theorem getFollowUpMessages_reports :
    Triple (Reports transcript told progress) getFollowUpMessages
      (fun messages agent => ∃ held, Injected messages held ∧
        Reports transcript told { progress with held := held } agent)
      (Reported transcript told) := by
  apply triple_get
  rintro _ ⟨⟨active, told, events, messages⟩, once⟩ agent rfl
  exact settled_reports { agent with
    followUpQueue := agent.followUpQueue.drain
    ledger := agent.ledger.hold agent.followUpQueue.drained }
    ⟨⟨active, told, events, messages⟩, once⟩

variable {validateToolArguments : AgentTool → AgentToolCall → Except String Unit}

/-- The events of a run are bracketed at each of its points and agree with the transcript, whatever
its hooks and its tools do. -/
theorem follows_events (agent : Agent) :
    Follows (agent.createLoopConfig validateToolArguments) True (Reports transcript told)
      (Reported transcript told) where
  emit progress event _ admitted := processEvents_reports (admitted trivial)
  getSteeringMessages progress _ := getSteeringMessages_reports
  getFollowUpMessages progress _ := getFollowUpMessages_reports
  prepareNextTurn progress context free _ :=
    (answered_reports (unrelated_of rfl fun _ => rfl) free).weaken (fun _ => id)
      (fun update _ known => known.rebased update) (fun _ _ => id)
  shouldStopAfterTurn progress context free := answered_reports (unrelated_of rfl fun _ => rfl) free
  transformContext progress messages free := answered_reports (unrelated_of rfl fun _ => rfl) free
  convertToLlm progress messages free := answered_reports (unrelated_of rfl fun _ => rfl) free
  getApiKey progress model free := answered_reports (unrelated_of rfl fun _ => rfl) free
  streamFunction progress model messages free _ := stream_reports free
  nextStreamEvent progress free := (event_reports free).weaken (fun _ => id)
    (fun _ _ known => ⟨known.1, fun message same _ => known.2 message same⟩) (fun _ _ => id)
  streamResult progress free := answered_reports (unrelated_of rfl fun _ => rfl) free
  beforeToolCall progress toolCall free := answered_reports (unrelated_of rfl fun _ => rfl) free
  nextToolStep progress running free := answered_reports (unrelated_of rfl fun _ => rfl) free
  afterToolCall progress toolCall result isError free :=
    answered_reports (unrelated_of rfl fun _ => rfl) free
  aborted progress _ := by
    apply triple_get
    rintro _ known agent rfl
    exact known
  now progress _ := by
    apply triple_get
    rintro _ known agent rfl
    exact known
  suspended progress host known := known.1.suspended
  thrown progress error host free known := known.1.thrown free.goesOn error

/-! ## Runs -/

def promptLoop (validateToolArguments : AgentTool → AgentToolCall → Except String Unit)
    (agent : Agent) (inputs : List Input) (messages held : List MessageObject) (skip : Bool) :
    Except Stop Unit × Loop Agent :=
  (runAgentLoop
    ((agent.beginRun inputs skip held).createLoopConfig validateToolArguments)
    (inputs.length + 1) messages).perform
    (withPrompts (agent.beginRun inputs skip held)
      (agent.beginRun inputs skip held).createContextSnapshot agent.model messages)

def continueLoop (validateToolArguments : AgentTool → AgentToolCall → Except String Unit)
    (agent : Agent) (inputs : List Input) : Except Stop Unit × Loop Agent :=
  (runAgentLoopContinue
    ((agent.beginRun inputs false []).createLoopConfig validateToolArguments)
    (inputs.length + 1)).perform
    (continuing (agent.beginRun inputs false [])
      (agent.beginRun inputs false []).createContextSnapshot agent.model)

def conclude : Except Stop Unit × Agent → Agent
  | (.ok _, agent) => agent.finishRun
  | (.error .suspended, agent) => agent
  | (.error (.thrown error), agent) =>
    match (handleRunFailure error).perform agent.dropHeld with
    | (.error .suspended, agent) => agent
    | (_, agent) => agent.finishRun

theorem runPromptMessages_eq (agent : Agent) (inputs : List Input)
    (messages held : List MessageObject) (skip : Bool) :
    agent.runPromptMessages validateToolArguments inputs messages held skip =
      conclude ((agent.promptLoop validateToolArguments inputs messages held skip).1,
        (agent.promptLoop validateToolArguments inputs messages held skip).2.host) := rfl

theorem runContinuation_eq (agent : Agent) (inputs : List Input) :
    agent.runContinuation validateToolArguments inputs =
      conclude ((agent.continueLoop validateToolArguments inputs).1,
        (agent.continueLoop validateToolArguments inputs).2.host) := rfl

def LoopReported (agent : Agent) : Except Stop Unit × Loop Agent → Prop
  | (.ok _, loop) =>
    (∃ progress, Tells agent.messages agent.ledger.interrupted progress loop.host) ∧
      WellBracketed loop.host.ledger.events ∧
      endedMessages loop.host.ledger.events = loop.appended
  | (.error stop, loop) => Reported agent.messages agent.ledger.interrupted stop loop.host

theorem Tells.endedMessages (tells : Tells transcript told progress agent) :
    endedMessages agent.ledger.events = progress.ended := by
  obtain ⟨point, followed, agrees⟩ := tells.events
  have seen := Progress.ended_of_follow followed
  rw [agrees.ended] at seen
  exact seen.symm

variable {loop : Loop Agent} {inputs : List Input}

/-- A loop that ended is over, and its context grew by the messages that ended. -/
theorem loopReported_of_settled {config : AgentLoopConfig Agent} (settled : Loop.Settled config True
      (Reports agent.messages agent.ledger.interrupted) .over [] loop) :
    LoopReported agent (.ok (), loop) := by
  obtain ⟨progress, quiet, -, ⟨tells, -⟩, framed⟩ := settled
  refine ⟨⟨progress, tells⟩, ?_, ?_⟩
  · obtain ⟨point, followed, agrees⟩ := tells.events
    have finished : point.stage = .over := agrees.stage.trans quiet.stage
    exact ⟨⟨point, followed, finished, agrees.message.trans quiet.message,
      agrees.tools.trans quiet.tools⟩,
      Progress.last_of_follow followed (by simp [start]) finished⟩
  · rw [tells.endedMessages]
    exact (framed.appended trivial).symm

theorem Reports.begun (agent : Agent) (once : StartsOnce false inputs)
    (skip : Bool) (held base : List MessageObject) :
    Reports agent.messages agent.ledger.interrupted (start held base)
      (agent.beginRun inputs skip held) :=
  ⟨⟨rfl, rfl, ⟨_, rfl, rfl, rfl, rfl, rfl⟩, (append_nil _).symm⟩, once⟩

theorem loopReported_of_triple {procedure : LoopM Agent Unit} {config : AgentLoopConfig Agent}
    (spec : Triple (· = loop) procedure
      (fun _ => Loop.Settled config True (Reports agent.messages agent.ledger.interrupted) .over [])
      (Loop.Fails (Reported agent.messages agent.ledger.interrupted))) :
    LoopReported agent (procedure.perform loop) := by
  have done := spec loop rfl
  cases run : procedure.perform loop with
  | mk result after =>
    rw [run] at done
    cases result with
    | ok _ => exact loopReported_of_settled done
    | error stop => exact done

theorem promptLoop_reported (agent : Agent) (once : StartsOnce false inputs)
    {messages held : List MessageObject} (injected : Injected messages held) (skip : Bool) :
    LoopReported agent (agent.promptLoop validateToolArguments inputs messages held skip) := by
  apply loopReported_of_triple
  refine ((follows_events (agent.beginRun inputs skip held)).runAgentLoop_spec _ messages held
    agent.messages injected).here ?_
  exact ⟨Reports.begun agent once skip held agent.messages, rfl, fun _ => rfl, fun _ => rfl,
    fun _ => rfl⟩

theorem continueLoop_reported (agent : Agent) (once : StartsOnce false inputs) :
    LoopReported agent (agent.continueLoop validateToolArguments inputs) := by
  apply loopReported_of_triple
  refine ((follows_events (agent.beginRun inputs false [])).runAgentLoopContinue_spec _
    agent.messages).here ?_
  exact ⟨Reports.begun agent once false [] agent.messages, rfl,
    fun _ => (append_nil _).symm, fun _ => rfl, fun _ => rfl⟩

/-! ## The events of a failure -/

/-- A point of a failure: which of its events were emitted after those of the loop. -/
structure Fails (transcript : List MessageObject) (told : List (List MessageObject))
    (before emitted : List AgentEvent) (agent : Agent) : Prop where
  active : agent.activeRun.isSome
  told : agent.ledger.interrupted = told
  events : agent.ledger.events = before ++ emitted
  messages : agent.messages = transcript ++ endedMessages emitted

/-- A failure that does not go on: it waits for a listener, or a listener threw. -/
structure FailsAt (transcript : List MessageObject) (told : List (List MessageObject))
    (before all : List AgentEvent) (stop : Stop) (agent : Agent) : Prop where
  active : agent.activeRun.isSome
  heard : told <+: agent.ledger.interrupted
  waits : agent.ledger.interrupted = told → stop = .suspended ∧
    ∃ emitted, emitted <+: all ∧ Fails transcript told before emitted agent

variable {before emitted all : List AgentEvent}

theorem await_fails (initial : emitted <+: all) :
    Triple (Fails transcript told before emitted) await
      (fun _ => Fails transcript told before emitted) (FailsAt transcript told before all) := by
  apply triple_get
  intro agent fails
  cases waiting : agent.inputs with
  | nil =>
    refine triple_throw _ fun _ same => same ▸ ⟨fails.active, fails.told ▸ prefix_rfl,
      fun _ => ⟨rfl, emitted, initial, fails⟩⟩
  | cons input rest =>
    rintro agent rfl
    have calm : Untouched { agent with inputs := rest, time := input.time }
        (agent.receive input rest) := untouched_calls (by exact fails.active) input.calls
    exact ⟨calm.active, calm.told.trans fails.told, calm.events.trans fails.events,
      calm.messages.trans fails.messages⟩

theorem notify_fails (initial : emitted <+: all) :
    Triple (Fails transcript told before emitted) notify
      (fun _ => Fails transcript told before emitted) (FailsAt transcript told before all) := by
  apply triple_bind (await_fails initial)
  intro answer
  split
  · exact triple_pure _ fun _ known => known
  · intro agent fails
    refine ⟨fails.active, fails.told ▸ prefix_append _ _, fun same => ?_⟩
    have longer := congrArg List.length same
    rw [← fails.told] at longer
    simp [Ledger.interrupt] at longer
  · exact triple_throw _ fun _ fails => ⟨fails.active, fails.told ▸ prefix_rfl,
      fun _ => ⟨rfl, emitted, initial, fails⟩⟩

theorem processEvents_fails (event : AgentEvent) (initial : emitted ++ [event] <+: all) :
    Triple (Fails transcript told before emitted) (processEvents event)
      (fun _ => Fails transcript told before (emitted ++ [event]))
      (FailsAt transcript told before all) := by
  have told : Triple (Fails transcript told before emitted)
      (modify fun agent => agent.reduced event)
      (fun _ => Fails transcript told before (emitted ++ [event]))
      (FailsAt transcript told before all) := by
    apply triple_modify
    intro agent fails
    obtain ⟨activeRun, -, -, -, -, interrupted, -⟩ := reduced_same agent event
    obtain ⟨messages, -, -⟩ := reduced_transcript agent event
    have events : (agent.reduced event).ledger.events = agent.ledger.events ++ [event] := by
      cases event <;> rfl
    have ended : endedMessages [event] = (endedMessage event).toList := by
      cases event <;> rfl
    refine ⟨activeRun ▸ fails.active, interrupted.trans fails.told, ?_, ?_⟩
    · rw [events, fails.events, append_assoc]
    · rw [messages, fails.messages, append_assoc, ← ended, Agent.endedMessages,
        Agent.endedMessages, Agent.endedMessages, filterMap_append]
  apply triple_bind told
  intro _
  apply triple_get
  intro agent fails
  refine here ?_ fails
  split
  · rename_i inactive
    have active := fails.active
    rw [isNone_iff_eq_none.mp inactive] at active
    cases active
  · exact notify_fails initial

/-- The events of a failure are those of its message. -/
theorem handleRunFailure_fails (error : String) (agent : Agent)
    (fails : Fails transcript told before [] agent) :
    Triple (· = agent) (handleRunFailure error)
      (fun _ => Fails transcript told before (failureEvents (agent.failureMessage error)))
      (FailsAt transcript told before (failureEvents (agent.failureMessage error))) := by
  apply triple_get
  rintro _ rfl
  refine here ?_ fails
  apply triple_bind (processEvents_fails (.messageStart _) ⟨_, rfl⟩)
  intro _
  apply triple_bind (processEvents_fails (.messageEnd _) ⟨_, rfl⟩)
  intro _
  apply triple_bind (processEvents_fails (.turnEnd _ []) ⟨_, rfl⟩)
  intro _
  exact processEvents_fails (.agentEnd [_]) ⟨_, rfl⟩

/-! ## Whole runs -/

/-- The loop that a call starts, if it starts one, and how it ends. -/
def startedLoop (validateToolArguments : AgentTool → AgentToolCall → Except String Unit)
    (agent : Agent) (request : Request) : Option (Except Stop Unit × Loop Agent) :=
  match request.call with
  | .prompt messages =>
    if agent.activeRun.isSome then none
    else some (agent.promptLoop validateToolArguments request.inputs (unqueued messages) [] false)
  | .continueRun =>
    if agent.activeRun.isSome then none
    else
      match agent.messages.getLast? with
      | none => none
      | some last =>
        if last.message.isAssistant then
          if !agent.steeringQueue.drained.isEmpty then
            some ({ agent with steeringQueue := agent.steeringQueue.drain }.promptLoop
              validateToolArguments request.inputs agent.steeringQueue.drained
              agent.steeringQueue.drained true)
          else if !agent.followUpQueue.drained.isEmpty then
            some ({ agent with
              steeringQueue := agent.steeringQueue.drain
              followUpQueue := agent.followUpQueue.drain }.promptLoop
              validateToolArguments request.inputs agent.followUpQueue.drained
              agent.followUpQueue.drained false)
          else none
        else some (agent.continueLoop validateToolArguments request.inputs)
  | _ => none

theorem request_startedLoop {request : Request} {ran : Except Stop Unit × Loop Agent}
    (started : agent.startedLoop validateToolArguments request = some ran) :
    agent.request validateToolArguments request = conclude (ran.1, ran.2.host) := by
  obtain ⟨call, inputs⟩ := request
  cases call with
  | prompt messages =>
    change agent.prompt validateToolArguments messages inputs = _
    simp only [startedLoop] at started
    unfold prompt
    split at started
    · cases started
    · rename_i idle
      cases started
      rw [if_neg idle, runPromptMessages_eq]
  | continueRun =>
    change agent.continueRun validateToolArguments inputs = _
    simp only [startedLoop] at started
    unfold continueRun
    split at started
    · cases started
    rename_i idle
    rw [if_neg idle]
    cases found : agent.messages.getLast? with
    | none =>
      rw [found] at started
      cases started
    | some last =>
      rw [found] at started
      simp only at started ⊢
      split at started
      · rename_i assistant
        rw [if_pos assistant]
        split at started
        · rename_i steering
          cases started
          rw [if_pos steering, runPromptMessages_eq]
        rename_i steering
        rw [if_neg steering]
        split at started
        · rename_i following
          cases started
          rw [if_pos following, runPromptMessages_eq]
        · cases started
      · rename_i other
        cases started
        rw [if_neg other, runContinuation_eq]
  | _ => cases started

theorem unqueued_injected (messages : List AgentMessage) : Injected (unqueued messages) [] := by
  refine Or.inr ⟨rfl, fun message member => ?_⟩
  obtain ⟨_, -, rfl⟩ := mem_map.mp member
  rfl

theorem startedLoop_reported {request : Request} {ran : Except Stop Unit × Loop Agent}
    (once : StartsOnce false request.inputs)
    (started : agent.startedLoop validateToolArguments request = some ran) :
    LoopReported agent ran := by
  unfold startedLoop at started
  split at started
  · split at started
    · cases started
    · cases started
      exact promptLoop_reported agent once (unqueued_injected _) false
  · split at started
    · cases started
    split at started
    · cases started
    split at started
    · split at started
      · cases started
        exact promptLoop_reported { agent with steeringQueue := agent.steeringQueue.drain }
          once (Or.inl rfl) true
      split at started
      · cases started
        exact promptLoop_reported { agent with
          steeringQueue := agent.steeringQueue.drain
          followUpQueue := agent.followUpQueue.drain } once (Or.inl rfl) false
      · cases started
    · cases started
      exact continueLoop_reported agent once
  · cases started

/-- What the events of a run tell: that of a whole run, of one that waits, or of one that failed. -/
def RunReported (agent after : Agent) (ran : Except Stop Unit × Loop Agent) : Prop :=
  after.messages = agent.messages ++ endedMessages after.ledger.events ∧
    match ran.1 with
    | .ok _ => after.activeRun = none ∧ WellBracketed after.ledger.events ∧
        endedMessages after.ledger.events = ran.2.appended
    | .error .suspended => after.activeRun.isSome ∧ ∃ stage, Bracketed after.ledger.events stage
    | .error (.thrown _) => ∃ before emitted message stage,
        Bracketed before stage ∧ stage ≠ .over ∧ after.ledger.events = before ++ emitted ∧
          emitted <+: failureEvents message ∧
          (after.activeRun = none → emitted = failureEvents message)

theorem runReported_of_fails {error : String} {after : Agent} {message : MessageObject}
    (reported : Reported agent.messages agent.ledger.interrupted (.thrown error) loop.host)
    (same : loop.host.ledger.interrupted = agent.ledger.interrupted)
    (initial : emitted <+: failureEvents message)
    (whole : after.activeRun = none → emitted = failureEvents message)
    (events : after.ledger.events = loop.host.ledger.events ++ emitted)
    (messages : after.messages = loop.host.messages ++ endedMessages emitted) :
    RunReported agent after (.error (.thrown error), loop) := by
  obtain ⟨progress, tells, goesOn⟩ := reported.tells same
  obtain ⟨point, followed, agrees⟩ := tells.events
  refine ⟨?_, loop.host.ledger.events, emitted, message, point.stage, ⟨point, followed, rfl⟩, ?_,
    events, initial, whole⟩
  · rw [messages, events, tells.messages, ← tells.endedMessages, append_assoc,
      Agent.endedMessages, Agent.endedMessages, Agent.endedMessages, filterMap_append]
  · rw [agrees.stage]
    exact goesOn error rfl

theorem conclude_thrown {error : String}
    (reported : Reported agent.messages agent.ledger.interrupted (.thrown error) loop.host)
    (calm : (conclude (.error (.thrown error), loop.host)).ledger.interrupted =
      agent.ledger.interrupted) :
    RunReported agent (conclude (.error (.thrown error), loop.host))
      (.error (.thrown error), loop) := by
  have begun : Fails loop.host.messages loop.host.ledger.interrupted loop.host.ledger.events []
      loop.host.dropHeld :=
    ⟨reported.active, rfl, (append_nil _).symm, (append_nil _).symm⟩
  have handled := handleRunFailure_fails error loop.host.dropHeld begun _ rfl
  simp only [conclude] at calm ⊢
  cases run : (handleRunFailure error).perform loop.host.dropHeld with
  | mk result after =>
    rw [run] at handled
    simp only [run] at calm ⊢
    cases result with
    | ok _ =>
      have same : loop.host.ledger.interrupted = agent.ledger.interrupted :=
        handled.told.symm.trans calm
      exact runReported_of_fails reported same prefix_rfl (fun _ => rfl) handled.events
        handled.messages
    | error stop =>
      have grown : after.ledger.interrupted = agent.ledger.interrupted := by
        cases stop <;> exact calm
      have same : loop.host.ledger.interrupted = agent.ledger.interrupted := by
        apply List.IsPrefix.eq_of_length_le (grown ▸ handled.heard)
        exact reported.heard.length_le
      obtain ⟨rfl, emitted, initial, fails⟩ := handled.waits (grown.trans same.symm)
      refine runReported_of_fails reported same initial (fun idle => ?_) fails.events
        fails.messages
      have active := fails.active
      rw [idle] at active
      cases active

/-- The events of a run are well bracketed and tell what entered the transcript and the context. A
run that something else than a listener interrupts tells the events of one failure message after
events of a run that is not finished. -/
theorem run_reported (validateToolArguments : AgentTool → AgentToolCall → Except String Unit)
    (agent : Agent) (request : Request) (ran : Except Stop Unit × Loop Agent)
    (started : agent.startedLoop validateToolArguments request = some ran)
    (once : StartsOnce false request.inputs)
    (calm : (agent.request validateToolArguments request).ledger.interrupted =
      agent.ledger.interrupted) :
    RunReported agent (agent.request validateToolArguments request) ran := by
  have reported := startedLoop_reported once started
  rw [request_startedLoop started] at calm ⊢
  obtain ⟨result, loop⟩ := ran
  cases result with
  | ok _ =>
    obtain ⟨⟨progress, tells⟩, bracketed, grown⟩ := reported
    refine ⟨?_, rfl, bracketed, grown⟩
    exact tells.messages.trans (by rw [← tells.endedMessages]; rfl)
  | error stop =>
    cases stop with
    | suspended =>
      obtain ⟨progress, tells, -⟩ := reported.tells calm
      obtain ⟨point, followed, agrees⟩ := tells.events
      refine ⟨?_, reported.active, point.stage, point, followed, rfl⟩
      exact tells.messages.trans (by rw [← tells.endedMessages]; rfl)
    | thrown error => exact conclude_thrown reported calm

def fresh : Agent :=
  create ⟨[], [], ⟨"api", "provider", "model"⟩, .oneAtATime, .oneAtATime, none, .parallel⟩

def hello : AssistantMessage where
  content := [.text "hello" none]
  api := "api"
  provider := "provider"
  model := "model"
  usage := ⟨0, 0, 0, 0, none, none, 0, ⟨0, 0, 0, 0, 0⟩⟩
  stopReason := .stop
  errorMessage := none
  timestamp := 0

def firstTurn : List Answer :=
  [.done, .done, .done, .done, .done, .messages [], .messages [], .done, .streaming,
    .event (some (.start hello)), .done, .event (some .terminal), .result hello, .done, .done]

def greeted (answers : List Answer) : Request where
  call := .prompt [.user (.text "hi") 0]
  inputs := (firstTurn ++ answers).map fun answer => ⟨0, [], answer⟩

/-- A run that ends after its first turn. -/
theorem run_reported_oneTurn :
    RunReported fresh
      (fresh.request (fun _ _ => .ok ())
        (greeted [.updated none, .stops false, .done, .done, .done]))
      (fresh.promptLoop (fun _ _ => .ok ())
        (greeted [.updated none, .stops false, .done, .done, .done]).inputs
        (unqueued [.user (.text "hi") 0]) [] false) := by
  refine run_reported (fun _ _ => .ok ()) fresh
    (greeted [.updated none, .stops false, .done, .done, .done]) _ rfl ⟨rfl, trivial⟩ ?_
  exact length_eq_zero_iff.mp (by decide +kernel)

/-- A hook that throws between turns: the turn that ended ends once more, and the message of the
failure is in the transcript but not in the context. -/
theorem not_wellBracketed_thrownAfterTurn :
    let request := greeted [.thrown "hook", .done, .done, .done, .done]
    let after := fresh.request (fun _ _ => .ok ()) request
    let loop := (fresh.promptLoop (fun _ _ => .ok ()) request.inputs
      (unqueued [.user (.text "hi") 0]) [] false).2
    StartsOnce false request.inputs ∧ after.ledger.interrupted.length = 0 ∧
      after.activeRun = none ∧ ¬ WellBracketed after.ledger.events ∧
      (endedMessages after.ledger.events).length = 3 ∧ loop.appended.length = 2 := by
  refine ⟨⟨rfl, trivial⟩, by decide +kernel, by decide +kernel, ?_, by decide +kernel,
    by decide +kernel⟩
  rintro ⟨⟨point, followed, -⟩, -⟩
  have refused : ((Progress.start [] []).follow (fresh.request (fun _ _ => .ok ())
      (greeted [.thrown "hook", .done, .done, .done, .done])).ledger.events).isNone = true := by
    decide +kernel
  rw [followed] at refused
  cases refused

end Recode.Agent

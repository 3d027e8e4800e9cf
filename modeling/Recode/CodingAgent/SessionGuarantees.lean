import Recode.CodingAgent.AgentSession
import Recode.Lib.Monitor

/-! # Runs of a session continue, are bounded and are paired

Monitors of the events tell what may follow what. The invariant ties their states to the flags of
the session: the retries that are open are those it counts, a compaction is open while it waits
for one, and a recovery since the last message of the user is remembered. -/

namespace Recode.CodingAgent

open Recode Monitor List Option PromptMessage

/-! ## What is allowed -/

/-- The retries that are open, and whether an answer was completed that has to end them. -/
structure OpenRetries where
  attempts : Nat := 0
  completed : Bool := false
deriving DecidableEq

/-- Retries are counted from one and do not exceed their maximum. A completed answer ends them at
once. Their end names how many there were, and reports a success exactly behind such an answer.
None is open when a prompt settles. -/
def retries (completes : StopReason → Bool) : Monitor SessionEvent OpenRetries where
  start := {}
  next found event :=
    match event, found.completed with
    | .autoRetryEnd success attempt _, completed =>
      if 0 < found.attempts ∧ attempt = found.attempts ∧ success = completed then some {} else none
    | _, true => none
    | .messageEnd (.assistant answer), false =>
      some { found with completed := 0 < found.attempts && completes answer.stopReason }
    | .autoRetryStart attempt maxAttempts _ _, false =>
      if attempt = found.attempts + 1 ∧ attempt ≤ maxAttempts then some ⟨attempt, false⟩
      else none
    | .agentSettled, false => if found.attempts = 0 then some found else none
    | _, false => some found

/-- Between messages of the user and answers that did not fail, the session goes on at most once
after it compacted a context that was too long. -/
def recoveries : Monitor SessionEvent Bool where
  start := false
  next recovered
    | .messageStart message => some (recovered && !message.isUser)
    | .messageEnd (.assistant answer) => some (recovered && answer.stopReason = .error)
    | .compactionEnd .overflow _ _ true _ => if recovered then none else some true
    | _ => some recovered

/-- A compaction ends before the next one starts and before the prompt settles. What ends without
a start is only a recovery that is not tried again. -/
def compactions : Monitor SessionEvent (Option CompactionReason) where
  start := none
  next
    | none, .compactionStart reason => some (some reason)
    | some _, .compactionStart _ => none
    | some opened, .compactionEnd reason _ _ _ _ => if reason = opened then some none else none
    | none, .compactionEnd .overflow none false false (some message) =>
      if message = recoveryFailed then some none else none
    | none, .compactionEnd _ _ _ _ _ => none
    | some _, .agentSettled => none
    | opened, _ => some opened

/-- A transcript that the agent can answer. -/
structure Answerable (messages : List AgentMessage) : Prop where
  nonempty : messages ≠ []
  asked : endsInAnswer messages = false

/-- A session that has just compacted a context that was too long, and goes on. -/
def AgentSession.RecoversFromOverflow (session : AgentSession) : Prop :=
  ∃ report, session.events.getLast? = some (.compactionEnd .overflow (some report) false true none)

/-! ## Transcripts -/

theorem endsInAnswer_append_singleton (messages : List AgentMessage) (message : AgentMessage) :
    endsInAnswer (messages ++ [message]) = message.isAssistant := by
  simp [endsInAnswer]

theorem dropAnswer_append_answer (messages : List AgentMessage) (answer : AssistantMessage) :
    dropAnswer (messages ++ [.assistant answer]) = messages := by
  rw [dropAnswer, endsInAnswer_append_singleton]
  simp [AgentMessage.isAssistant]

variable {messages : List AgentMessage}

theorem Answerable.dropAnswer_eq (able : Answerable messages) : dropAnswer messages = messages := by
  rw [dropAnswer, able.asked]
  rfl

theorem nonempty_of_dropAnswer (able : Answerable (dropAnswer messages)) : messages ≠ [] := by
  rintro rfl
  exact able.nonempty rfl

theorem Answerable.append (able : Answerable messages) {later : List AgentMessage}
    (none : ∀ message ∈ later, message.isAssistant = false) : Answerable (messages ++ later) := by
  induction later using reverseRecOn with
  | nil => rwa [append_nil]
  | append_singleton later last _ =>
    rw [← append_assoc]
    refine ⟨by simp, ?_⟩
    rw [endsInAnswer_append_singleton]
    exact none last (by simp)

theorem answerable_of_append (messages : List AgentMessage) {later : List AgentMessage}
    (some_ : later ≠ []) (none : ∀ message ∈ later, message.isAssistant = false) :
    Answerable (messages ++ later) := by
  induction later using reverseRecOn with
  | nil => exact absurd rfl some_
  | append_singleton later last _ =>
    rw [← append_assoc]
    refine ⟨by simp, ?_⟩
    rw [endsInAnswer_append_singleton]
    exact none last (by simp)

theorem answerable_dropAnswer_append {messages later : List AgentMessage}
    (able : Answerable (dropAnswer messages))
    (none : ∀ message ∈ later, message.isAssistant = false) :
    Answerable (dropAnswer (messages ++ later)) := by
  by_cases empty : later = []
  · rwa [empty, append_nil]
  · have appended := answerable_of_append messages empty none
    rwa [appended.dropAnswer_eq]

theorem continueError_eq_none_iff {queued : Bool} :
    continueError messages queued = none ↔
      messages ≠ [] ∧ (endsInAnswer messages = true → queued = true) := by
  rw [continueError]
  cases messages with
  | nil => simp
  | cons first rest => cases queued <;> cases endsInAnswer (first :: rest) <;> simp

theorem Answerable.continueError_eq (able : Answerable messages)
    (queued : Bool) : continueError messages queued = none :=
  continueError_eq_none_iff.mpr ⟨able.nonempty, fun ends => by simp [able.asked] at ends⟩

theorem taken_ne_nil {mode : Agent.QueueMode} {queue : List PromptMessage} (some_ : queue ≠ []) :
    taken mode queue ≠ [] := by
  cases mode with
  | all => exact some_
  | oneAtATime =>
    cases queue with
    | nil => exact absurd rfl some_
    | cons first rest => simp [taken]

theorem toMessage_not_assistant (prompts : List PromptMessage) :
    ∀ message ∈ prompts.map toMessage, message.isAssistant = false := by
  intro message member
  obtain ⟨prompt, -, rfl⟩ := mem_map.mp member
  cases prompt <;> rfl

theorem result_not_assistant (results : List ToolResult) :
    ∀ message ∈ results.map ToolResult.toMessage, message.isAssistant = false := by
  intro message member
  obtain ⟨result, -, rfl⟩ := mem_map.mp member
  rfl

/-! ## Flags and monitors -/

namespace AgentSession

/-- The flags of a session agree with what its events show: whether it recovered from an overflow,
and the compaction that is open. -/
structure Watched (session : AgentSession) (recovered : Bool)
    (opened : Option CompactionReason) : Prop where
  retries : (retries (· ≠ .error)).state session.events = some ⟨session.retryAttempt, false⟩
  recoveries : recoveries.state session.events = some recovered
  compactions : compactions.state session.events = some opened
  attempted : recovered = true → session.overflowRecoveryAttempted = true

variable {session : AgentSession} {recovered : Bool} {opened : Option CompactionReason}
  {surroundings : Surroundings} {reason : CompactionReason} {message : AssistantMessage}
  {after : AgentSession} {willRetry : Bool} {next : AfterCompaction}

/-- What is watched are the events and two flags. -/
theorem Watched.same (watched : session.Watched recovered opened)
    (events : after.events = session.events)
    (retryAttempt : after.retryAttempt = session.retryAttempt)
    (attempted : after.overflowRecoveryAttempted = session.overflowRecoveryAttempted) :
    after.Watched recovered opened := by
  refine ⟨?_, ?_, ?_, fun before => attempted.trans (watched.attempted before)⟩
  · rw [events, retryAttempt]
    exact watched.retries
  · rw [events]
    exact watched.recoveries
  · rw [events]
    exact watched.compactions

theorem Watched.compactionStart (watched : session.Watched recovered none)
    (reason : CompactionReason) :
    (session.emit (.compactionStart reason)).Watched recovered (some reason) := by
  exact ⟨state_snoc watched.retries rfl, state_snoc watched.recoveries rfl,
    state_snoc watched.compactions rfl, watched.attempted⟩

theorem Watched.compactionEnd (watched : session.Watched recovered (some reason))
    (result : Option CompactionReport) (aborted : Bool) (error : Option String) :
    (session.emit (.compactionEnd reason result aborted false error)).Watched recovered none := by
  refine ⟨state_snoc watched.retries rfl,
    state_snoc watched.recoveries ?_, state_snoc watched.compactions (if_pos rfl),
    watched.attempted⟩
  cases reason <;> rfl

theorem Watched.recovery
    (watched : session.Watched false (some reason)) (attempted : session.overflowRecoveryAttempted)
    (result : Option CompactionReport) (aborted : Bool) (error : Option String) :
    ∃ recovered, (session.emit (.compactionEnd reason result aborted true error)).Watched
      recovered none := by
  refine ⟨reason = .overflow, state_snoc watched.retries rfl,
    state_snoc watched.recoveries ?_, state_snoc watched.compactions (if_pos rfl),
    fun _ => attempted⟩
  cases reason <;> rfl

theorem Watched.recoveryFailed (watched : session.Watched recovered none) :
    (session.emit (.compactionEnd .overflow none false false (some recoveryFailed))).Watched
      recovered none := by
  refine ⟨state_snoc watched.retries rfl, state_snoc watched.recoveries rfl,
    state_snoc watched.compactions ?_, watched.attempted⟩
  change (if CodingAgent.recoveryFailed = CodingAgent.recoveryFailed then some none else none) = _
  exact if_pos rfl

theorem Watched.settle (watched : session.Watched recovered none)
    (closed : session.retryAttempt = 0)
    (thrown : Option String) : (session.settle thrown).Watched recovered none := by
  refine ⟨state_snoc watched.retries (if_pos closed),
    state_snoc watched.recoveries rfl, state_snoc watched.compactions rfl,
    watched.attempted⟩

theorem Watched.autoRetryEnd (watched : session.Watched recovered opened)
    (some_ : 0 < session.retryAttempt) (error : Option String) :
    { session.emit (.autoRetryEnd false session.retryAttempt error) with
      retryAttempt := 0 }.Watched recovered opened := by
  refine ⟨state_snoc watched.retries (if_pos ⟨some_, rfl, rfl⟩),
    state_snoc watched.recoveries rfl, state_snoc watched.compactions ?_,
    watched.attempted⟩
  cases opened <;> rfl

theorem Watched.messageStarted (watched : session.Watched recovered opened)
    (message : AgentMessage) :
    (session.messageStarted message).Watched (recovered && !message.isUser) opened := by
  refine ⟨state_snoc watched.retries rfl, state_snoc watched.recoveries rfl,
    state_snoc watched.compactions ?_, fun before => ?_⟩
  · cases opened <;> rfl
  · rw [Bool.and_eq_true] at before
    change (session.overflowRecoveryAttempted && !message.isUser) = true
    rw [watched.attempted before.1, before.2]
    rfl

theorem not_recovers {events : List SessionEvent} {event : SessionEvent}
    (emitted : after.events = events ++ [event])
    (other : ∀ report, event ≠ .compactionEnd .overflow (some report) false true none) :
    ¬ after.RecoversFromOverflow := by
  intro recovers
  obtain ⟨report, last⟩ := recovers
  rw [emitted, getLast?_concat] at last
  exact other report (some.inj last)

/-! ## Messages -/

variable {generateId : List SessionTreeEntry → EntryId} {now : Nat}

/-- Messages were delivered to a session that are no answers. -/
structure Delivers (before after : AgentSession) (delivered : List AgentMessage) : Prop where
  messages : after.messages = before.messages ++ delivered
  retryAttempt : after.retryAttempt = before.retryAttempt
  lastAssistantMessage : after.lastAssistantMessage = before.lastAssistantMessage
  recovers : ¬ before.RecoversFromOverflow → ¬ after.RecoversFromOverflow
  watched : ∀ {recovered opened}, before.Watched recovered opened →
    ∃ recovered, after.Watched recovered opened

/-- A message is recorded in the branch, or is not. -/
theorem messageEnded_of_not_assistant {message : AgentMessage}
    (other : message.isAssistant = false) :
    ∃ branch, session.messageEnded generateId now message =
      { session.emit (.messageEnd message) with
        messages := session.messages ++ [message]
        branch := branch } := by
  cases message with
  | assistant answer => cases other
  | _ => exact ⟨_, rfl⟩

theorem delivers_receive {message : AgentMessage} (other : message.isAssistant = false) :
    Delivers session (session.receive generateId now message) [message] := by
  obtain ⟨branch, same⟩ := @messageEnded_of_not_assistant (session.messageStarted message)
    generateId now message other
  rw [receive, same]
  refine ⟨rfl, rfl, rfl, fun _ => not_recovers rfl fun _ other => (by cases other),
    fun {recovered opened} watched => ?_⟩
  have started := watched.messageStarted message
  refine ⟨_, state_snoc started.retries ?_, state_snoc started.recoveries ?_,
    state_snoc started.compactions ?_, started.attempted⟩
  · cases message with
    | assistant answer => cases other
    | _ => rfl
  · cases message with
    | assistant answer => cases other
    | _ => rfl
  · cases opened <;> rfl

theorem delivers_receiveAll {messages : List AgentMessage}
    (others : ∀ message ∈ messages, message.isAssistant = false) :
    Delivers session (session.receiveAll generateId now messages) messages := by
  induction messages generalizing session with
  | nil =>
    exact ⟨(append_nil _).symm, rfl, rfl, id, fun watched => ⟨_, watched⟩⟩
  | cons first rest ih =>
    have one := @delivers_receive session generateId now first (others first (by simp))
    have more := @ih (session.receive generateId now first) fun message member =>
      others message (mem_cons_of_mem _ member)
    refine ⟨?_, more.retryAttempt.trans one.retryAttempt,
      more.lastAssistantMessage.trans one.lastAssistantMessage,
      fun before => more.recovers (one.recovers before), fun watched => ?_⟩
    · exact (more.messages.trans (by rw [one.messages, append_assoc]; rfl))
    · obtain ⟨recovered, watched⟩ := one.watched watched
      exact more.watched watched

theorem delivers_injectSteering (session : AgentSession) (now : Nat) :
    Delivers session (session.injectSteering generateId now)
      ((taken session.steeringMode session.steering).map toMessage) := by
  have delivered := @delivers_receiveAll
    { session with steering := remaining session.steeringMode session.steering } generateId now
    _ (toMessage_not_assistant (taken session.steeringMode session.steering))
  exact ⟨delivered.messages, delivered.retryAttempt, delivered.lastAssistantMessage,
    delivered.recovers, fun watched => delivered.watched (watched.same rfl rfl rfl)⟩

theorem delivers_injectFollowUp (session : AgentSession) (now : Nat) :
    Delivers session (session.injectFollowUp generateId now)
      ((taken session.followUpMode session.followUp).map toMessage) := by
  have delivered := @delivers_receiveAll
    { session with followUp := remaining session.followUpMode session.followUp } generateId now
    _ (toMessage_not_assistant (taken session.followUpMode session.followUp))
  exact ⟨delivered.messages, delivered.retryAttempt, delivered.lastAssistantMessage,
    delivered.recovers, fun watched => delivered.watched (watched.same rfl rfl rfl)⟩

/-- What an answer changes: it joins the transcript and is remembered, and unless it failed no
retry is open. -/
structure Answers (before after : AgentSession) (answer : AssistantMessage) : Prop where
  messages : after.messages = before.messages ++ [.assistant answer]
  lastAssistantMessage : after.lastAssistantMessage = some answer
  closed : answer.stopReason ≠ .error → after.retryAttempt = 0
  kept : answer.stopReason = .error → after.retryAttempt = before.retryAttempt
  recovers : ¬ after.RecoversFromOverflow
  watched : ∀ {recovered opened}, before.Watched recovered opened →
    ∃ recovered, after.Watched recovered opened

theorem answerEnded_fields (session : AgentSession) (answer : AssistantMessage) :
    (session.answerEnded answer).messages = session.messages ∧
      (session.answerEnded answer).lastAssistantMessage = some answer ∧
      (answer.stopReason ≠ .error → (session.answerEnded answer).retryAttempt = 0) ∧
      (answer.stopReason = .error →
        (session.answerEnded answer).retryAttempt = session.retryAttempt) := by
  unfold answerEnded
  dsimp only
  split
  · rename_i succeeds
    exact ⟨rfl, rfl, fun _ => rfl, fun failed => absurd failed succeeds.1⟩
  · rename_i other
    refine ⟨rfl, rfl, fun completed => ?_, fun _ => rfl⟩
    by_contra some_
    exact other ⟨completed, Nat.pos_of_ne_zero some_⟩

/-- Behind an answer that did not fail, the retries before it end with a success. -/
theorem watched_answerEnded {answer : AssistantMessage}
    (open_ : (CodingAgent.retries (· ≠ .error)).state session.events =
      some ⟨session.retryAttempt, 0 < session.retryAttempt && answer.stopReason ≠ .error⟩)
    (recovers : CodingAgent.recoveries.state session.events =
      some (recovered && answer.stopReason = .error))
    (compacts : CodingAgent.compactions.state session.events = some opened)
    (attempted : recovered = true → session.overflowRecoveryAttempted = true) :
    ∃ recovered, (session.answerEnded answer).Watched recovered opened := by
  unfold answerEnded
  dsimp only
  split
  · rename_i succeeds
    have completed : (decide (0 < session.retryAttempt) && decide (answer.stopReason ≠ .error)) =
        true := by simp [succeeds]
    rw [completed] at open_
    refine ⟨_, state_snoc open_ (if_pos ⟨succeeds.2, rfl, rfl⟩),
      state_snoc recovers rfl, state_snoc compacts ?_, fun before => ?_⟩
    · cases opened <;> rfl
    · simp [succeeds.1] at before
  · rename_i other
    have open_' : (decide (0 < session.retryAttempt) && decide (answer.stopReason ≠ .error)) =
        false := by
      rw [Bool.eq_false_iff, Ne, Bool.and_eq_true, decide_eq_true_iff, decide_eq_true_iff, and_comm]
      exact other
    rw [open_'] at open_
    refine ⟨_, open_, recovers, compacts, fun before => ?_⟩
    rw [Bool.and_eq_true] at before
    change (session.overflowRecoveryAttempted && decide _) = true
    rw [attempted before.1, before.2]
    rfl

theorem answerEnded_not_recovers (answer : AssistantMessage)
    (before : ¬ session.RecoversFromOverflow) :
    ¬ (session.answerEnded answer).RecoversFromOverflow := by
  unfold answerEnded
  dsimp only
  split
  · exact not_recovers rfl fun _ other => (by cases other)
  · exact before

theorem answers_receive (session : AgentSession) (now : Nat) (answer : AssistantMessage) :
    Answers session (session.receive generateId now (.assistant answer)) answer := by
  obtain ⟨messages, last, closed, kept⟩ := answerEnded_fields
    ({ (session.messageStarted (.assistant answer)).emit (.messageEnd (.assistant answer)) with
        messages := session.messages ++ [AgentMessage.assistant answer] }.appendEntry generateId now
      (.message (.assistant answer))) answer
  refine ⟨messages, last, closed, kept, answerEnded_not_recovers answer (not_recovers rfl
    fun _ other => (by cases other)), fun {recovered opened} watched => ?_⟩
  have started := watched.messageStarted (.assistant answer)
  have same : (recovered && !(AgentMessage.assistant answer).isUser) = recovered :=
    Bool.and_true _
  rw [same] at started
  refine @watched_answerEnded _ recovered opened answer
    (state_snoc started.retries rfl) (state_snoc started.recoveries rfl)
    (state_snoc started.compactions ?_) started.attempted
  cases opened <;> rfl

/-! ## The invariant -/

def openCompaction (session : AgentSession) : Option CompactionReason :=
  match session.phase with
  | .compacting reason _ _ _ => some reason
  | _ => none

def Situated (session : AgentSession) (recovered : Bool) : Prop :=
  match session.phase with
  | .idle => session.retryAttempt = 0
  | .running => Answerable session.messages
  | .ended => Answerable (dropAnswer session.messages) ∧
      ∃ message, session.lastAssistantMessage = some message ∧
        (message.stopReason ≠ .error → session.retryAttempt = 0) ∧ ¬ session.RecoversFromOverflow
  | .backoff _ => Answerable session.messages ∧ 0 < session.retryAttempt ∧
      ¬ session.RecoversFromOverflow
  | .compacting reason willRetry _ next => session.retryAttempt = 0 ∧
      (next = .postRun → session.messages ≠ []) ∧
      (willRetry = true → reason = .overflow ∧ recovered = false ∧
        session.overflowRecoveryAttempted = true)
  | .continuing => (Answerable session.messages ∧ 0 < session.retryAttempt) ∧
        ¬ session.RecoversFromOverflow ∨
      session.retryAttempt = 0 ∧ session.messages ≠ [] ∧
        (session.hasQueuedMessages = true ∨ session.RecoversFromOverflow) ∧
        (session.RecoversFromOverflow →
          session.messages = dropFailedAnswer (branchMessages session.branch))

def Sound (session : AgentSession) : Prop :=
  ∃ recovered, session.Watched recovered session.openCompaction ∧ session.Situated recovered

/-- What a check of a context finds, or a compaction leaves, for what comes next. -/
structure Checked (session : AgentSession) (next : AfterCompaction) (result : Bool) : Prop where
  watched : ∃ recovered, session.Watched recovered none
  closed : session.retryAttempt = 0
  nonempty : next = .postRun → session.messages ≠ []
  able : result = true → next = .postRun →
    session.hasQueuedMessages = true ∨ session.RecoversFromOverflow
  rebuilt : next = .postRun → session.RecoversFromOverflow →
    session.messages = dropFailedAnswer (branchMessages session.branch)

/-- A check that finds nothing to compact. -/
theorem Checked.of_not_recovers (watched : session.Watched recovered none)
    (closed : session.retryAttempt = 0) (nonempty : next = .postRun → session.messages ≠ [])
    (other : next = .postRun → ¬ session.RecoversFromOverflow) : session.Checked next false where
  watched := ⟨recovered, watched⟩
  closed := closed
  nonempty := nonempty
  able continues := by cases continues
  rebuilt after recovers := absurd recovers (other after)

section

variable (watched : ∃ recovered, session.Watched recovered none)
include watched

theorem sound_running
    (able : Answerable session.messages) : { session with phase := .running }.Sound := by
  obtain ⟨recovered, watched⟩ := watched
  exact ⟨recovered, watched.same rfl rfl rfl, able⟩

theorem sound_settle (closed : session.retryAttempt = 0) (thrown : Option String) :
    (session.settle thrown).Sound := by
  obtain ⟨recovered, watched⟩ := watched
  exact ⟨recovered, watched.settle closed thrown, closed⟩

theorem sound_runPromptMessages {prompts : List PromptMessage} (some_ : prompts ≠ [])
    (skips : Bool) : (session.runPromptMessages generateId now prompts skips).Sound := by
  obtain ⟨recovered, watched⟩ := watched
  have prompted := @delivers_receiveAll session generateId now _
    (toMessage_not_assistant prompts)
  have able : Answerable
      (session.receiveAll generateId now (prompts.map toMessage)).messages := by
    rw [prompted.messages]
    exact answerable_of_append _ (by simpa using some_) (toMessage_not_assistant _)
  rw [runPromptMessages]
  cases skips with
  | true => exact sound_running (prompted.watched watched) able
  | false =>
    have steered := @delivers_injectSteering generateId
      (session.receiveAll generateId now (prompts.map toMessage)) now
    obtain ⟨recovered, watched⟩ := prompted.watched watched
    refine sound_running (steered.watched watched) ?_
    rw [if_neg Bool.false_ne_true, steered.messages]
    exact able.append (toMessage_not_assistant _)

theorem sound_runContinuation (able : Answerable session.messages) :
    (session.runContinuation generateId now).Sound := by
  obtain ⟨recovered, watched⟩ := watched
  have steered := @delivers_injectSteering generateId session now
  refine sound_running (steered.watched watched) ?_
  rw [steered.messages]
  exact able.append (toMessage_not_assistant _)

end

theorem Checked.resume {result : Bool} (checked : session.Checked next result) :
    (session.resume generateId now next result).Sound := by
  cases next with
  | prompt first rest => exact sound_runPromptMessages checked.watched (cons_ne_nil _ _) false
  | postRun =>
    rw [AgentSession.resume, proceed]
    by_cases continues : (result || session.hasQueuedMessages) = true
    · rw [if_pos continues]
      obtain ⟨recovered, watched⟩ := checked.watched
      refine ⟨recovered, watched.same rfl rfl rfl,
        .inr ⟨checked.closed, checked.nonempty rfl, ?_, checked.rebuilt rfl⟩⟩
      rw [Bool.or_eq_true] at continues
      rcases continues with continues | queued
      · exact checked.able continues rfl
      · exact .inl queued
    · rw [if_neg continues]
      exact sound_settle checked.watched checked.closed none

theorem sound_runAutoCompaction (watched : session.Watched recovered none)
    (closed : session.retryAttempt = 0) (nonempty : next = .postRun → session.messages ≠ [])
    (other : next = .postRun → ¬ session.RecoversFromOverflow)
    (retries : willRetry = true → reason = .overflow ∧ recovered = false ∧
      session.overflowRecoveryAttempted = true) :
    (session.runAutoCompaction generateId now surroundings reason willRetry next).Sound := by
  have checked : session.Checked next false := .of_not_recovers watched closed nonempty other
  rw [runAutoCompaction]
  split
  · exact checked.resume
  cases prepareCompaction session.branch surroundings.compaction with
  | none => exact checked.resume
  | some preparation =>
    exact ⟨recovered, (watched.compactionStart reason).same rfl rfl rfl, closed, nonempty, retries⟩

theorem sound_checkCompaction {skips : Bool} {next : AfterCompaction}
    (watched : session.Watched recovered none) (closed : session.retryAttempt = 0)
    (able : next = .postRun → Answerable (dropAnswer session.messages))
    (other : next = .postRun → ¬ session.RecoversFromOverflow) :
    (session.checkCompaction generateId now surroundings message skips next).Sound := by
  have nonempty (after : next = .postRun) : session.messages ≠ [] :=
    nonempty_of_dropAnswer (able after)
  have checked : session.Checked next false := .of_not_recovers watched closed nonempty other
  rw [checkCompaction]
  split
  · exact checked.resume
  split
  · split
    · exact sound_runAutoCompaction watched closed nonempty other nofun
    split
    · have ended : (session.emit (.compactionEnd .overflow none false false
          (some recoveryFailed))).Checked next false :=
        .of_not_recovers watched.recoveryFailed closed nonempty fun _ =>
          not_recovers rfl nofun
      exact ended.resume
    · rename_i first
      have fresh : recovered = false := by
        by_contra before
        exact first (watched.attempted (by simpa using before))
      refine @sound_runAutoCompaction _ recovered _ _ _ _ _ _
        ⟨watched.retries, watched.recoveries, watched.compactions, fun _ => rfl⟩ closed
        (fun after => (able after).nonempty) other fun _ => ⟨rfl, fresh, rfl⟩
  · split
    · exact checked.resume
    · split
      · exact sound_runAutoCompaction watched closed nonempty other fun retries => by
          cases retries
      · exact checked.resume

/-! ## Steps keep the invariant -/

theorem branchMessages_compaction (branch : List SessionTreeEntry) {entry : SessionTreeEntry}
    {data : CompactionData} (compacts : entry.body = .compaction data) :
    ∃ rest, branchMessages (branch ++ [entry]) =
      .compactionSummary data.summary data.tokensBefore entry.timestamp :: rest := by
  have found : entry.compaction? = some data := by
    rw [SessionTreeEntry.compaction?, compacts]
  have newest : newestCompaction (branch ++ [entry]) = some (entry, data) :=
    (newestCompaction_eq_some_iff _ _ _).mpr ⟨branch, [], rfl, found, fun _ member => by
      cases member⟩
  have entries : ∃ rest, contextEntriesOfPath (branch ++ [entry]) = entry :: rest := by
    rw [contextEntriesOfPath, newest]
    exact ⟨_, rfl⟩
  obtain ⟨rest, entries⟩ := entries
  refine ⟨rest.flatMap sessionEntryToContextMessages, ?_⟩
  rw [branchMessages, entries, flatMap_cons, sessionEntryToContextMessages, compacts]
  rfl

theorem dropFailedAnswer_ne_nil {first : AgentMessage} {rest : List AgentMessage}
    (other : first.isAssistant = false) : dropFailedAnswer (first :: rest) ≠ [] := by
  unfold dropFailedAnswer
  split
  · rename_i failed
    cases rest with
    | nil =>
      cases first with
      | assistant answer => cases other
      | _ => cases failed
    | cons second rest => simp
  · exact cons_ne_nil _ _

theorem sound_recordCompaction (watched : session.Watched recovered (some reason))
    (closed : session.retryAttempt = 0)
    (retries : willRetry = true → reason = .overflow ∧ recovered = false ∧
      session.overflowRecoveryAttempted = true) (data : CompactionData) :
    (session.recordCompaction generateId now reason willRetry next data).Sound := by
  obtain ⟨rest, rebuilt⟩ := @branchMessages_compaction session.branch
    { id := generateId session.branch
      parentId := session.branch.getLast?.map SessionTreeEntry.id
      timestamp := now
      body := .compaction data } data rfl
  have nonempty : dropFailedAnswer (branchMessages
      (session.appendEntry generateId now (.compaction data)).branch) ≠ [] := by
    unfold appendEntry
    rw [rebuilt]
    exact dropFailedAnswer_ne_nil rfl
  unfold recordCompaction
  cases willRetry with
  | true =>
    obtain ⟨rfl, rfl, attempted⟩ := retries rfl
    have ended := watched.recovery attempted
    apply Checked.resume
    refine ⟨?_, closed, fun _ => nonempty, fun _ _ => .inr ⟨_, getLast?_concat⟩,
      fun _ _ => rfl⟩
    obtain ⟨recovered, ended⟩ := ended _ false none
    exact ⟨recovered, ended.same rfl rfl rfl⟩
  | false =>
    have ended := watched.compactionEnd
    apply Checked.resume
    refine ⟨⟨recovered, (ended _ false none).same rfl rfl rfl⟩, closed, fun _ => ?_,
      fun waits _ => .inl waits, fun _ recovers => absurd recovers (not_recovers rfl
        fun _ other => (by cases other))⟩
    change branchMessages (session.appendEntry generateId now (.compaction data)).branch ≠ []
    unfold appendEntry
    rw [rebuilt]
    exact cons_ne_nil _ _

theorem sound_compacted {preparation : CompactionPreparation} {next : AfterCompaction}
    (watched : session.Watched recovered (some reason)) (closed : session.retryAttempt = 0)
    (nonempty : next = .postRun → session.messages ≠ [])
    (retries : willRetry = true → reason = .overflow ∧ recovered = false ∧
      session.overflowRecoveryAttempted = true) (outcome : CompactionOutcome) :
    (session.compacted generateId now reason willRetry preparation next outcome).Sound := by
  have unmade (aborted : Bool) (error : Option String) :
      ((session.emit (.compactionEnd reason none aborted false error)).resume generateId now next
        false).Sound :=
    Checked.resume (.of_not_recovers (watched.compactionEnd none aborted error) closed nonempty
      fun _ => not_recovers rfl fun _ other => (by cases other))
  cases outcome with
  | cancelled => exact unmade true none
  | aborted => exact unmade true none
  | failed message aborted => exact unmade aborted _
  | provided summary firstKeptEntryId tokensBefore details =>
    exact sound_recordCompaction watched closed retries _
  | generated summary details => exact sound_recordCompaction watched closed retries _

theorem sound_withoutRetry (watched : session.Watched recovered none)
    (able : Answerable (dropAnswer session.messages))
    (closed : message.stopReason ≠ .error → session.retryAttempt = 0)
    (other : ¬ session.RecoversFromOverflow) :
    (session.withoutRetry generateId now surroundings message).Sound := by
  unfold withoutRetry giveUpRetrying
  split
  · rename_i failed
    exact sound_checkCompaction (watched.autoRetryEnd failed.2 _) rfl (fun _ => able)
      fun _ => not_recovers rfl fun _ other => (by cases other)
  rename_i completed
  refine sound_checkCompaction watched ?_ (fun _ => able) fun _ => other
  by_cases failed : message.stopReason = .error
  · by_contra some_
    exact completed ⟨failed, Nat.pos_of_ne_zero some_⟩
  · exact closed failed

theorem Watched.autoRetryStart (watched : session.Watched recovered opened) {maxAttempts : Nat}
    (within : session.retryAttempt + 1 ≤ maxAttempts) (delayMs : Nat) (error : String) :
    { session.emit (.autoRetryStart (session.retryAttempt + 1) maxAttempts delayMs error) with
      retryAttempt := session.retryAttempt + 1 }.Watched recovered opened := by
  refine ⟨state_snoc watched.retries (if_pos ⟨rfl, within⟩),
    state_snoc watched.recoveries rfl, state_snoc watched.compactions ?_,
    watched.attempted⟩
  cases opened <;> rfl

theorem sound_handlePostAgentRun (watched : session.Watched recovered none)
    (last : session.lastAssistantMessage = some message)
    (able : Answerable (dropAnswer session.messages))
    (closed : message.stopReason ≠ .error → session.retryAttempt = 0)
    (other : ¬ session.RecoversFromOverflow) :
    (session.handlePostAgentRun generateId now surroundings).Sound := by
  have taken : { session with lastAssistantMessage := none }.Watched recovered none :=
    watched.same rfl rfl rfl
  have goesOn : ({ session with lastAssistantMessage := none }.withoutRetry generateId now
      surroundings message).Sound := sound_withoutRetry taken able closed other
  unfold handlePostAgentRun
  rw [last]
  dsimp only
  split
  · rw [prepareRetry]
    split
    · rename_i retries
      exact ⟨recovered, (taken.autoRetryStart retries.2 _ _).same rfl rfl rfl, able,
        Nat.succ_pos _, not_recovers rfl fun _ other => (by cases other)⟩
    · exact goesOn
  · exact goesOn

theorem sound_slept {aborted : Bool}
    (watched : session.Watched recovered none) (able : Answerable session.messages)
    (some_ : 0 < session.retryAttempt) (other : ¬ session.RecoversFromOverflow) :
    (session.slept generateId now surroundings message aborted).Sound := by
  unfold slept
  split
  · refine sound_withoutRetry (watched.autoRetryEnd some_ _) ?_ (fun _ => rfl)
      (not_recovers rfl fun _ other => (by cases other))
    change Answerable (dropAnswer session.messages)
    rwa [able.dropAnswer_eq]
  · exact ⟨recovered, watched.same rfl rfl rfl, .inl ⟨⟨able, some_⟩, other⟩⟩

theorem sound_ended (watched : ∃ recovered, session.Watched recovered none)
    (able : Answerable (dropAnswer session.messages)) {answer : AssistantMessage}
    (last : session.lastAssistantMessage = some answer)
    (closed : answer.stopReason ≠ .error → session.retryAttempt = 0)
    (other : ¬ session.RecoversFromOverflow) : { session with phase := .ended }.Sound := by
  obtain ⟨recovered, watched⟩ := watched
  exact ⟨recovered, watched.same rfl rfl rfl, able, answer, last, closed, other⟩

section

variable (watched : session.Watched recovered none)
include watched

theorem sound_endTurn {turn : Turn} (able : Answerable (dropAnswer session.messages))
    (last : session.lastAssistantMessage = some turn.answer) (closed : session.retryAttempt = 0)
    (more : turn.hasMoreToolCalls = true → Answerable session.messages)
    (other : ¬ session.RecoversFromOverflow) : (session.endTurn generateId now turn).Sound := by
  unfold endTurn
  split
  · exact sound_ended ⟨recovered, watched⟩ able last (fun _ => closed) other
  have steered := @delivers_injectSteering generateId session now
  obtain ⟨recovered, watched⟩ := steered.watched watched
  dsimp only
  split
  · rename_i goesOn
    refine sound_running ⟨recovered, watched⟩ ?_
    rw [steered.messages]
    rcases goesOn with tools | some_
    · exact (more tools).append (toMessage_not_assistant _)
    · exact answerable_of_append _ (by simpa using some_) (toMessage_not_assistant _)
  have able := answerable_dropAnswer_append able
    (toMessage_not_assistant (taken session.steeringMode session.steering))
  rw [← steered.messages] at able
  rw [← steered.lastAssistantMessage] at last
  rw [← steered.retryAttempt] at closed
  split
  · rename_i some_
    have followed := @delivers_injectFollowUp generateId (session.injectSteering generateId now) now
    refine sound_running (followed.watched watched) ?_
    rw [followed.messages]
    exact answerable_of_append _ (by simpa using some_) (toMessage_not_assistant _)
  · exact sound_ended ⟨recovered, watched⟩ able last (fun _ => closed) (steered.recovers other)

/-- Before every answer there is something to answer, so a failed answer can be taken back. -/
theorem sound_takeTurn {turn : Turn} (able : Answerable session.messages)
    (possible : turn.isPossible = true) : (session.takeTurn generateId now turn).Sound := by
  have answered := @answers_receive generateId session now turn.answer
  have before : Answerable (dropAnswer
      (session.receive generateId now (.assistant turn.answer)).messages) := by
    rwa [answered.messages, dropAnswer_append_answer]
  obtain ⟨recovered, watched⟩ := answered.watched watched
  unfold takeTurn
  dsimp only
  split
  · exact sound_ended ⟨recovered, watched⟩ before answered.lastAssistantMessage answered.closed
      answered.recovers
  rename_i failed
  have tools := @delivers_receiveAll
    (session.receive generateId now (.assistant turn.answer)) generateId now _
    (result_not_assistant turn.results)
  obtain ⟨recovered, watched⟩ := tools.watched watched
  apply sound_endTurn watched
  · rw [tools.messages]
    exact answerable_dropAnswer_append before (result_not_assistant _)
  · exact tools.lastAssistantMessage.trans answered.lastAssistantMessage
  · exact tools.retryAttempt.trans (answered.closed fun error => failed (.inl error))
  · intro goesOn
    rw [tools.messages]
    refine answerable_of_append _ (fun none => ?_) (result_not_assistant _)
    rw [Turn.isPossible, if_neg failed, Bool.and_eq_true] at possible
    have results := of_decide_eq_true possible.2 goesOn
    rw [map_eq_nil_iff.mp none] at results
    cases results
  · exact tools.recovers answered.recovers

theorem sound_continueRun (situated : Answerable session.messages ∨ session.retryAttempt = 0) :
    (session.continueRun generateId now).Sound := by
  unfold continueRun
  cases refused : continueError session.messages session.hasQueuedMessages with
  | some error =>
    refine sound_settle ⟨recovered, watched⟩ (situated.resolve_left fun able => ?_) _
    rw [able.continueError_eq] at refused
    cases refused
  | none =>
    obtain ⟨nonempty, queued⟩ := continueError_eq_none_iff.mp refused
    dsimp only
    split
    · rename_i ends
      split
      · rename_i some_
        refine sound_runPromptMessages ?_ (taken_ne_nil some_) true
        exact ⟨recovered, watched.same rfl rfl rfl⟩
      rename_i none_
      have waits : session.followUp ≠ [] := by
        have queued := queued ends
        intro none
        simp only [ne_eq, not_not] at none_
        simp [hasQueuedMessages, none, none_] at queued
      refine sound_runPromptMessages ?_ (taken_ne_nil waits) false
      exact ⟨recovered, watched.same rfl rfl rfl⟩
    · rename_i asked
      exact sound_runContinuation ⟨recovered, watched⟩ ⟨nonempty, by simpa using asked⟩

theorem sound_startPrompt {content : InputContent} {others : List PromptMessage}
    {surroundings : Surroundings} (closed : session.retryAttempt = 0) :
    (session.startPrompt generateId now content others surroundings).Sound := by
  unfold startPrompt
  split
  · exact sound_runPromptMessages ⟨recovered, watched⟩ (cons_ne_nil _ _) false
  · exact sound_checkCompaction watched closed nofun
      nofun

end

theorem sound_queued {steering followUp : List PromptMessage} (sound : session.Sound)
    (waits : session.phase = .continuing → session.hasQueuedMessages = true →
      (!steering.isEmpty || !followUp.isEmpty) = true) :
    { session with steering := steering, followUp := followUp }.Sound := by
  obtain ⟨recovered, watched, situated⟩ := sound
  refine ⟨recovered, watched.same rfl rfl rfl, ?_⟩
  unfold Situated at situated ⊢
  cases phase : session.phase with
  | continuing =>
    simp only [phase] at situated ⊢
    refine situated.imp id fun ⟨closed, nonempty, goesOn, rebuilt⟩ => ?_
    exact ⟨closed, nonempty, goesOn.imp (waits phase) id, rebuilt⟩
  | _ =>
    simp only [phase] at situated ⊢
    exact situated

variable (generateId session) in
/-- What an input that can happen makes of a session, by where the session is. -/
inductive Happens : Input → AgentSession → Prop
  | steer (message : PromptMessage) :
      Happens (.steer message) { session with steering := session.steering ++ [message] }
  | followUp (message : PromptMessage) :
      Happens (.followUp message) { session with followUp := session.followUp ++ [message] }
  | clearQueue (rests : session.phase ≠ .continuing) :
      Happens .clearQueue { session with steering := [], followUp := [] }
  | prompt (now : Nat) (content : InputContent) (others : List PromptMessage)
      (surroundings : Surroundings) (idle : session.phase = .idle)
      (ready : ¬ (surroundings.compacting ∨ surroundings.model.isNone)) :
      Happens (.prompt now content others surroundings)
        (session.startPrompt generateId now content others surroundings)
  | triggerTurn (now : Nat) (message : PromptMessage) (idle : session.phase = .idle) :
      Happens (.triggerTurn now message) (session.runPromptMessages generateId now [message] false)
  | turn (now : Nat) (turn : Turn) (running : session.phase = .running)
      (possible : turn.isPossible) :
      Happens (.turn now turn) (session.takeTurn generateId now turn)
  | postRun (now : Nat) (surroundings : Surroundings) (ended : session.phase = .ended) :
      Happens (.postRun now surroundings) (session.handlePostAgentRun generateId now surroundings)
  | slept (now : Nat) (surroundings : Surroundings) (aborted : Bool) (message : AssistantMessage)
      (waits : session.phase = .backoff message) :
      Happens (.slept now surroundings aborted)
        (session.slept generateId now surroundings message aborted)
  | compacted (now : Nat) (outcome : CompactionOutcome) (reason : CompactionReason)
      (willRetry : Bool) (preparation : CompactionPreparation) (next : AfterCompaction)
      (compacting : session.phase = .compacting reason willRetry preparation next) :
      Happens (.compacted now outcome)
        (session.compacted generateId now reason willRetry preparation next outcome)
  | continueRun (now : Nat) (continues : session.phase = .continuing) :
      Happens (.continueRun now) (session.continueRun generateId now)

theorem happens_of_step {input : Input} (stepped : session.step generateId input = some after) :
    session.Happens generateId input after := by
  unfold step at stepped
  split at stepped
  all_goals try split at stepped
  all_goals cases stepped
  · exact .steer _
  · exact .followUp _
  · next rests => exact .clearQueue rests
  · next idle ready => exact .prompt _ _ _ _ idle ready
  · next idle => exact .triggerTurn _ _ idle
  · next running possible => exact .turn _ _ running possible
  · next ended => exact .postRun _ _ ended
  · next waits => exact .slept _ _ _ _ waits
  · next compacting => exact .compacted _ _ _ _ _ _ compacting
  · next continues => exact .continueRun _ continues

theorem sound_step {input : Input} (sound : session.Sound)
    (stepped : session.step generateId input = some after) : after.Sound := by
  have kept := sound
  obtain ⟨recovered, watched, situated⟩ := kept
  unfold openCompaction at watched
  unfold Situated at situated
  cases happens_of_step stepped with
  | steer message => exact sound_queued sound fun _ _ => by simp
  | followUp message => exact sound_queued sound fun _ _ => by simp
  | clearQueue rests => exact sound_queued sound fun continues => (rests continues).elim
  | prompt _ _ _ _ idle ready =>
    simp only [idle] at watched situated
    exact sound_startPrompt watched situated
  | triggerTurn _ _ idle =>
    simp only [idle] at watched
    exact sound_runPromptMessages ⟨recovered, watched⟩ (cons_ne_nil _ _) false
  | turn _ _ running possible =>
    simp only [running] at watched situated
    exact sound_takeTurn watched situated possible
  | postRun _ _ ended =>
    simp only [ended] at watched situated
    obtain ⟨able, message, last, closed, other⟩ := situated
    exact sound_handlePostAgentRun watched last able closed other
  | slept _ _ _ _ waits =>
    simp only [waits] at watched situated
    exact sound_slept watched situated.1 situated.2.1 situated.2.2
  | compacted _ _ _ _ _ _ compacting =>
    simp only [compacting] at watched situated
    exact sound_compacted watched situated.1 situated.2.1 situated.2.2 _
  | continueRun _ continues =>
    simp only [continues] at watched situated
    exact sound_continueRun watched (situated.imp (·.1.1) And.left)

theorem sound_create (messages : List AgentMessage) (branch : List SessionTreeEntry)
    (steeringMode followUpMode : Agent.QueueMode) :
    (create messages branch steeringMode followUpMode).Sound :=
  ⟨false, ⟨rfl, rfl, rfl, nofun⟩, rfl⟩

theorem sound_run {inputs : List Input} {after : AgentSession} (sound : session.Sound)
    (ran : session.run generateId inputs = some after) : after.Sound := by
  induction inputs generalizing session with
  | nil =>
    cases ran
    exact sound
  | cons input inputs ih =>
    unfold run at ran
    rw [foldlM_cons] at ran
    obtain ⟨middle, stepped, ran⟩ := bind_eq_some_iff.mp ran
    exact ih (sound_step sound stepped) ran

theorem Sound.continues (sound : session.Sound) (phase : session.phase = .continuing)
    (other : ¬ session.RecoversFromOverflow) :
    continueError session.messages session.hasQueuedMessages = none := by
  obtain ⟨recovered, watched, situated⟩ := sound
  unfold Situated at situated
  rw [phase] at situated
  rcases situated with ⟨⟨able, -⟩, -⟩ | ⟨-, nonempty, goesOn, -⟩
  · exact able.continueError_eq _
  · exact continueError_eq_none_iff.mpr ⟨nonempty, fun _ => goesOn.resolve_right other⟩

theorem Sound.reasons (sound : session.Sound) (phase : session.phase = .continuing) :
    0 < session.retryAttempt ∨ session.hasQueuedMessages = true ∨ session.RecoversFromOverflow := by
  obtain ⟨recovered, watched, situated⟩ := sound
  unfold Situated at situated
  rw [phase] at situated
  exact situated.imp (·.1.2) (·.2.2.1)

theorem Sound.recovers (sound : session.Sound) (phase : session.phase = .continuing)
    (recovers : session.RecoversFromOverflow)
    (asked : endsInAnswer (dropFailedAnswer (branchMessages session.branch)) = false ∨
      session.hasQueuedMessages = true) :
    continueError session.messages session.hasQueuedMessages = none := by
  obtain ⟨recovered, watched, situated⟩ := sound
  unfold Situated at situated
  rw [phase] at situated
  rcases situated with ⟨-, other⟩ | ⟨-, nonempty, -, rebuilt⟩
  · exact absurd recovers other
  refine continueError_eq_none_iff.mpr ⟨nonempty, fun ends => ?_⟩
  rcases asked with asked | queued
  · rw [← rebuilt recovers, ends] at asked
    cases asked
  · exact queued

/-! ## Occasions of retries -/

/-- The agent is given something new: a prompt, an answer that did not fail, or a continuation that
is no retry. -/
def renews (session : AgentSession) : Input → Bool
  | .prompt _ _ _ _ => true
  | .triggerTurn _ _ => true
  | .turn _ turn => turn.answer.stopReason ≠ .error
  | .continueRun _ => session.retryAttempt = 0
  | _ => false

/-- A run has ended and the first one of some retries waits. -/
def begins (session : AgentSession) (input : Input) (after : AgentSession) : Bool :=
  match input, after.phase with
  | .postRun _ _, .backoff _ => session.retryAttempt = 0
  | _, _ => false

/-- After something new, retries begin at most once. -/
def Occasioned (generateId : List SessionTreeEntry → EntryId) :
    Bool → AgentSession → List Input → Prop
  | _, _, [] => True
  | fresh, session, input :: inputs => ∀ after, session.step generateId input = some after →
    (session.begins input after = true → fresh = true) ∧
      Occasioned generateId (session.renews input || fresh && !session.begins input after) after
        inputs

/-- Retries may begin at the end of the run that goes on or comes next. -/
def MayRetry (session : AgentSession) : Prop :=
  match session.phase with
  | .running => session.retryAttempt = 0
  | .ended => session.retryAttempt = 0
  | .compacting _ _ _ (.prompt _ _) => True
  | _ => False

theorem not_mayRetry_resume (result : Bool) :
    ¬ (session.resume generateId now .postRun result).MayRetry := by
  rw [AgentSession.resume, proceed]
  split <;> exact id

theorem not_mayRetry_runAutoCompaction :
    ¬ (session.runAutoCompaction generateId now surroundings reason
      willRetry .postRun).MayRetry := by
  unfold runAutoCompaction
  split
  · exact not_mayRetry_resume false
  split
  · exact not_mayRetry_resume false
  · exact id

theorem not_mayRetry_withoutRetry :
    ¬ (session.withoutRetry generateId now surroundings message).MayRetry := by
  rw [withoutRetry, checkCompaction]
  split
  · exact not_mayRetry_resume false
  split
  · split
    · exact not_mayRetry_runAutoCompaction
    split
    · exact not_mayRetry_resume false
    · exact not_mayRetry_runAutoCompaction
  split
  · exact not_mayRetry_resume false
  split
  · exact not_mayRetry_runAutoCompaction
  · exact not_mayRetry_resume false

theorem not_mayRetry_handlePostAgentRun :
    ¬ (session.handlePostAgentRun generateId now surroundings).MayRetry := by
  unfold handlePostAgentRun
  split
  · exact id
  dsimp only
  split
  · unfold prepareRetry
    split
    · exact id
    · exact not_mayRetry_withoutRetry
  · exact not_mayRetry_withoutRetry

theorem not_mayRetry_slept {aborted : Bool} :
    ¬ (session.slept generateId now surroundings message aborted).MayRetry := by
  unfold slept
  split
  · exact not_mayRetry_withoutRetry
  · exact id

theorem not_mayRetry_compacted {preparation : CompactionPreparation} {outcome : CompactionOutcome} :
    ¬ (session.compacted generateId now reason willRetry preparation
      .postRun outcome).MayRetry := by
  have recorded (data : CompactionData) :
      ¬ (session.recordCompaction generateId now reason willRetry .postRun data).MayRetry := by
    unfold recordCompaction
    split
    · exact not_mayRetry_resume true
    · exact not_mayRetry_resume _
  cases outcome with
  | provided => exact recorded _
  | generated => exact recorded _
  | _ => exact @not_mayRetry_resume _ generateId now false

theorem not_mayRetry_runPromptMessages (open_ : 0 < session.retryAttempt)
    (prompts : List PromptMessage) (skips : Bool) :
    ¬ (session.runPromptMessages generateId now prompts skips).MayRetry := by
  have prompted := @delivers_receiveAll session generateId now _ (toMessage_not_assistant prompts)
  intro may
  cases skips with
  | true => exact open_.ne' (prompted.retryAttempt.symm.trans may)
  | false =>
    have steered := @delivers_injectSteering generateId
      (session.receiveAll generateId now (prompts.map toMessage)) now
    exact open_.ne' (prompted.retryAttempt.symm.trans (steered.retryAttempt.symm.trans may))

/-- A retry goes on with the retries that are open. -/
theorem not_mayRetry_continueRun (open_ : 0 < session.retryAttempt) :
    ¬ (session.continueRun generateId now).MayRetry := by
  unfold continueRun
  split
  · exact id
  split
  · split
    · apply not_mayRetry_runPromptMessages
      exact open_
    · apply not_mayRetry_runPromptMessages
      exact open_
  · exact fun may => open_.ne' ((delivers_injectSteering session now).retryAttempt.symm.trans may)

theorem mayRetry_takeTurn {turn : Turn} (failed : turn.answer.stopReason = .error)
    (may : (session.takeTurn generateId now turn).MayRetry) : session.retryAttempt = 0 := by
  unfold takeTurn at may
  rw [if_pos (.inl failed)] at may
  exact ((answers_receive session now turn.answer).kept failed).symm.trans may

/-- Where retries may begin, something new was given to the agent since the last ones began. -/
theorem mayRetry_step {input : Input} {fresh : Bool} (ready : session.MayRetry → fresh = true)
    (stepped : session.step generateId input = some after) :
    (session.begins input after = true → fresh = true) ∧ (after.MayRetry →
      (session.renews input || fresh && !session.begins input after) = true) := by
  cases happens_of_step stepped with
  | steer message => exact ⟨nofun, fun may => by simp [begins, ready may]⟩
  | followUp message => exact ⟨nofun, fun may => by simp [begins, ready may]⟩
  | clearQueue => exact ⟨nofun, fun may => by simp [begins, ready may]⟩
  | prompt => exact ⟨nofun, fun _ => rfl⟩
  | triggerTurn => exact ⟨nofun, fun _ => rfl⟩
  | turn now turn running possible =>
    refine ⟨nofun, fun may => ?_⟩
    by_cases failed : turn.answer.stopReason = .error
    · have asked : session.MayRetry := by
        rw [MayRetry, running]
        exact mayRetry_takeTurn failed may
      simp [begins, ready asked]
    · simp [renews, failed]
  | postRun _ _ ended =>
    refine ⟨fun begun => ready ?_, fun may => absurd may not_mayRetry_handlePostAgentRun⟩
    rw [MayRetry, ended]
    unfold begins at begun
    split at begun
    · exact of_decide_eq_true begun
    · cases begun
  | slept => exact ⟨nofun, fun may => absurd may not_mayRetry_slept⟩
  | compacted _ _ _ _ _ next compacting =>
    refine ⟨nofun, fun may => ?_⟩
    cases next with
    | postRun => exact absurd may not_mayRetry_compacted
    | prompt first rest =>
      have asked : session.MayRetry := by
        rw [MayRetry, compacting]
        trivial
      simp [begins, ready asked]
  | continueRun _ continues =>
    refine ⟨nofun, fun may => ?_⟩
    have closed : session.retryAttempt = 0 := by
      by_contra open_
      exact not_mayRetry_continueRun (Nat.pos_of_ne_zero open_) may
    simp [renews, closed]

theorem occasioned {fresh : Bool} (ready : session.MayRetry → fresh = true) (inputs : List Input) :
    session.Occasioned generateId fresh inputs := by
  induction inputs generalizing session fresh with
  | nil => trivial
  | cons input inputs ih =>
    intro after stepped
    obtain ⟨begun, later⟩ := mayRetry_step ready stepped
    exact ⟨begun, ih later⟩

/-! ## Results -/

/-- What holds of a session at any moment of its runs. -/
structure Orderly (session : AgentSession) : Prop where
  /-- A run is continued for a retry, for messages that wait, or with a shorter context. -/
  reasons : session.phase = .continuing → 0 < session.retryAttempt ∨
    session.hasQueuedMessages = true ∨ session.RecoversFromOverflow
  continues : session.phase = .continuing → ¬ session.RecoversFromOverflow →
    continueError session.messages session.hasQueuedMessages = none
  recovers : session.phase = .continuing → session.RecoversFromOverflow →
    endsInAnswer (dropFailedAnswer (branchMessages session.branch)) = false ∨
      session.hasQueuedMessages = true →
    continueError session.messages session.hasQueuedMessages = none
  retries : (retries (· ≠ .error)).Accepts session.events
  recoveries : recoveries.Accepts session.events
  compactions : compactions.Accepts session.events
  settled : session.phase = .idle → session.retryAttempt = 0

/-- Runs are orderly: the agent accepts the continuations, unless a recovery from an overflow left
an answer at the end, retries and recoveries are bounded, what starts ends once, no retry is open
when a prompt is over, and retries begin at most once after something new. -/
theorem runs_orderly {messages : List AgentMessage} {branch : List SessionTreeEntry}
    {steeringMode followUpMode : Agent.QueueMode} {inputs : List Input}
    (ran : (create messages branch steeringMode followUpMode).run generateId inputs =
      some session) : session.Orderly ∧
        Occasioned generateId false (create messages branch steeringMode followUpMode) inputs := by
  have sound := sound_run (sound_create messages branch steeringMode followUpMode) ran
  have never : ¬ (create messages branch steeringMode followUpMode).MayRetry := id
  have watching := sound
  obtain ⟨recovered, watched, situated⟩ := watching
  refine ⟨⟨sound.reasons, sound.continues, sound.recovers, accepts_of_state watched.retries,
    accepts_of_state watched.recoveries, accepts_of_state watched.compactions,
    fun idle => ?_⟩, occasioned (fun may => absurd may never) inputs⟩
  unfold Situated at situated
  rw [idle] at situated
  exact situated

section Runs

def small : AgentSession := .create [] [] .oneAtATime .oneAtATime

def smallSurroundings : Surroundings where
  model := some ⟨"faux", "faux-1", 100⟩
  retry := ⟨true, 1, 1⟩
  compaction := ⟨true, 0, 1⟩
  compacting := false
  authorized := true

def nthId (branch : List SessionTreeEntry) : EntryId := .nth 'e' branch.length

def smallTurn (stopReason : StopReason) (errorMessage : Option String) (time input : Nat) : Input :=
  .turn time
    { answer :=
        { content := [.text "answer" none]
          api := "faux"
          provider := "faux"
          model := "faux-1"
          usage := ⟨input, 0, 0, 0, none, none, input, ⟨0, 0, 0, 0, 0⟩⟩
          stopReason := stopReason
          errorMessage := errorMessage
          timestamp := time }
      results := []
      stops := false
      hasMoreToolCalls := false }

/-- A prompt whose first answer is refused by the provider, and is retried after a while. -/
def retried (last : StopReason) : List Input :=
  [.prompt 1 (.text "hello") [] smallSurroundings, smallTurn .error (some "429") 2 0,
    .postRun 3 smallSurroundings, .slept 4 smallSurroundings false, .continueRun 5,
    smallTurn last none 6 10, .postRun 7 smallSurroundings]

theorem runs_orderly_retried :
    (small.run nthId (retried .stop)).isSome = true ∧
      ∀ session, small.run nthId (retried .stop) = some session → session.Orderly :=
  ⟨by decide +kernel, fun _ ran => (runs_orderly ran).1⟩

/-- An answer without output whose input fills the window. -/
def lengthStop : List Input :=
  [.prompt 1 (.text "hello") [] smallSurroundings, smallTurn .length none 2 100,
    .postRun 3 smallSurroundings, .compacted 4 (.generated "summary" none), .continueRun 5]

def queuedRetries : List Input :=
  [.prompt 1 (.text "hello") [] smallSurroundings, .steer (.user (.text "wait") 2),
    smallTurn .error (some "429") 3 0, .postRun 4 smallSurroundings,
    .slept 5 smallSurroundings true, .continueRun 6, smallTurn .error (some "429") 7 0,
    .postRun 8 smallSurroundings]

def completes (stopReason : StopReason) : Bool := stopReason ≠ .error && stopReason ≠ .aborted

/-- Between completed answers there are at most so many retries, and one recovery. -/
def bounds (maxRetries : Nat) : Monitor SessionEvent (Nat × Nat) where
  start := (0, 0)
  next found
    | .messageEnd (.assistant answer) =>
      some (if completes answer.stopReason then (0, 0) else found)
    | .autoRetryStart _ _ _ _ =>
      if found.1 < maxRetries then some (found.1 + 1, found.2) else none
    | .compactionEnd .overflow _ _ true _ =>
      if found.2 < 1 then some (found.1, found.2 + 1) else none
    | _ => some found

/-- The agent refuses to continue from an answer that was cut off at the end of the window. An
aborted answer is reported as the success of a retry. And retries are counted anew after they were
given up, so there are two of them where one is the maximum. -/
theorem not_runs_orderly :
    (∃ session, small.run nthId lengthStop = some session ∧
      session.thrown = some "Cannot continue from message role: assistant") ∧
    (∃ session, small.run nthId (retried .aborted) = some session ∧
      ¬ (CodingAgent.retries completes).Accepts session.events) ∧
    ∃ session, small.run nthId queuedRetries = some session ∧
      ¬ (bounds 1).Accepts session.events := by
  have refused : (small.run nthId lengthStop).any (fun session =>
      session.thrown = some "Cannot continue from message role: assistant") = true := by
    decide +kernel
  have reported : (small.run nthId (retried .aborted)).any (fun session =>
      !decide ((CodingAgent.retries completes).Accepts session.events)) = true := by
    decide +kernel
  have again : (small.run nthId queuedRetries).any (fun session =>
      !decide ((bounds 1).Accepts session.events)) = true := by
    decide +kernel
  obtain ⟨first, ran, refused⟩ := (any_eq_true _ _).mp refused
  obtain ⟨second, ran', reported⟩ := (any_eq_true _ _).mp reported
  obtain ⟨third, ran'', again⟩ := (any_eq_true _ _).mp again
  exact ⟨⟨first, ran, of_decide_eq_true refused⟩, ⟨second, ran', by simpa using reported⟩,
    third, ran'', by simpa using again⟩

end Runs

end AgentSession
end Recode.CodingAgent

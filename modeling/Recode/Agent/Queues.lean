import Recode.Agent.RunRules
import Recode.Agent.Agent

/-! # The queues of an agent

Every message that was queued is in one place: still in its queue, removed, held
by the active run, or in the transcript. Within a queue the messages pass these
places in the order in which they were queued. -/

namespace Recode.Agent

open Procedure List

def queue (agent : Agent) : QueueName → List MessageObject
  | .steering => agent.steeringQueue.messages
  | .followUp => agent.followUpQueue.messages
  | .nextTurn => []

def count (place : QueueName × Nat) (messages : List MessageObject) : Nat :=
  messages.countP fun message => message.origin = some place

def number (name : QueueName) (message : MessageObject) : Option Nat :=
  match message.origin with
  | some (queue, number) => if queue = name then some number else none
  | none => none

/-- The messages of a queue from the first that entered the transcript to the last that waits. -/
def line (agent : Agent) (name : QueueName) : List Nat :=
  (agent.ledger.appended ++ agent.ledger.held ++ agent.queue name).filterMap (number name)

/-- Every message that was queued is in exactly one place, and messages of one queue are in the
order in which they were queued. -/
structure Conserved (agent : Agent) : Prop where
  accounted : ∀ place, count place (agent.queue .steering) + count place (agent.queue .followUp) +
    count place agent.ledger.removed + count place agent.ledger.held +
    count place agent.ledger.appended = if place.2 < agent.ledger.enqueued place.1 then 1 else 0
  ordered : ∀ name, (agent.line name).Pairwise (· < ·)
  named : ∀ name, ∀ message ∈ agent.queue name, ∃ number, message.origin = some (name, number)
  owned : ∀ message ∈ agent.ledger.held, message.origin.isSome
  transcript : agent.messages <:+ agent.ledger.appended

variable {agent after : Agent} (place : QueueName × Nat)

@[simp] theorem count_nil : count place [] = 0 := rfl

@[simp] theorem count_append (first second : List MessageObject) :
    count place (first ++ second) = count place first + count place second :=
  countP_append

theorem count_cons (message : MessageObject) (messages : List MessageObject) :
    count place (message :: messages) =
      count place messages + if message.origin = some place then 1 else 0 := by
  rw [count, count, countP_cons]
  simp only [decide_eq_true_eq]

variable {message : MessageObject} {name : QueueName}

/-- A message that is in a list is counted there. -/
theorem count_pos {place : QueueName × Nat} {messages : List MessageObject}
    (member : message ∈ messages)
    (placed : message.origin = some place) : 0 < count place messages :=
  countP_pos_iff.mpr ⟨message, member, by simpa using placed⟩

theorem number_eq_none {name other : QueueName} {place : Nat}
    (placed : message.origin = some (other, place)) (different : other ≠ name) :
    number name message = none := by
  simp only [number, placed, different, ↓reduceIte]

theorem number_of_placed {place : Nat}
    (placed : message.origin = some (name, place)) : number name message = some place := by
  simp only [number, placed, ↓reduceIte]

theorem origin_of_number {place : Nat}
    (found : number name message = some place) : message.origin = some (name, place) := by
  cases placed : message.origin with
  | none => simp [number, placed] at found
  | some origin =>
    obtain ⟨queue, number⟩ := origin
    by_cases same : queue = name
    · subst same
      rw [number_of_placed placed] at found
      cases found
      rfl
    · rw [number_eq_none placed same] at found
      cases found

namespace Conserved

variable {agent : Agent}

theorem lt_of_mem_line (conserved : Conserved agent) {name : QueueName} {place : Nat}
    (member : place ∈ agent.line name) : place < agent.ledger.enqueued name := by
  obtain ⟨message, inside, found⟩ := mem_filterMap.mp member
  have placed := origin_of_number found
  have whole := conserved.accounted (name, place)
  by_contra late
  rw [if_neg late] at whole
  rcases mem_append.mp inside with before | queued
  · rcases mem_append.mp before with appended | held
    · have := count_pos appended placed
      omega
    · have := count_pos held placed
      omega
  · cases name with
    | steering =>
      have := count_pos queued placed
      omega
    | followUp =>
      have := count_pos queued placed
      omega
    | nextTurn => cases queued

end Conserved

/-! ## What happens to a queue -/

theorem conserved_enqueued (conserved : Conserved agent)
    (queues : name = .steering ∨ name = .followUp)
    (placed : message.origin = some (name, agent.ledger.enqueued name))
    (grown : after.queue name = agent.queue name ++ [message])
    (others : ∀ other, other ≠ name → after.queue other = agent.queue other)
    (ledger : after.ledger = agent.ledger.enqueue name)
    (messages : after.messages = agent.messages) : Conserved after := by
  have counted : ∀ place, count place (after.queue .steering) +
      count place (after.queue .followUp) = count place (agent.queue .steering) +
        count place (agent.queue .followUp) +
          if message.origin = some place then 1 else 0 := by
    intro place
    rcases queues with rfl | rfl
    · rw [grown, others .followUp (by simp), count_append, count_cons, count_nil]
      omega
    · rw [grown, others .steering (by simp), count_append, count_cons, count_nil]
      omega
  refine ⟨fun place => ?_, fun other => ?_, fun other => ?_, ?_, ?_⟩
  · have whole := conserved.accounted place
    rw [counted, ledger, placed]
    obtain ⟨other, number⟩ := place
    by_cases same : other = name
    · subst same
      simp only [Ledger.enqueue, Option.some.injEq, Prod.mk.injEq, true_and, Function.update_self]
      simp only at whole
      split at whole <;> split <;> split <;> omega
    · simp only [Ledger.enqueue, Option.some.injEq, Prod.mk.injEq, Ne.symm same, false_and,
        ↓reduceIte, Function.update_of_ne same]
      omega
  · by_cases same : other = name
    · subst same
      have extended : after.line other = agent.line other ++ [agent.ledger.enqueued other] := by
        rw [line, line, grown, ledger, ← append_assoc, filterMap_append]
        congr 1
        rw [filterMap_cons, number_of_placed placed, filterMap_nil]
      rw [extended, pairwise_append]
      refine ⟨conserved.ordered other, pairwise_singleton _ _, ?_⟩
      intro place member last latest
      rw [mem_singleton.mp latest]
      exact conserved.lt_of_mem_line member
    · have kept : after.line other = agent.line other := by
        rw [line, line, others other same, ledger]
        rfl
      rw [kept]
      exact conserved.ordered other
  · by_cases same : other = name
    · subst same
      intro queued member
      rw [grown] at member
      rcases mem_append.mp member with before | last
      · exact conserved.named other queued before
      · rw [mem_singleton.mp last]
        exact ⟨_, placed⟩
    · rw [others other same]
      exact conserved.named other
  · rw [ledger]
    exact conserved.owned
  · rw [ledger, messages]
    exact conserved.transcript

/-- Messages leave the front of a queue. -/
structure Taken (agent after : Agent) (name : QueueName) (taken : List MessageObject) : Prop where
  queue : agent.queue name = taken ++ after.queue name
  others : ∀ other, other ≠ name → after.queue other = agent.queue other
  enqueued : after.ledger.enqueued = agent.ledger.enqueued
  appended : after.ledger.appended = agent.ledger.appended
  messages : after.messages = agent.messages

namespace Taken

variable {agent after : Agent} {name : QueueName} {taken : List MessageObject}

theorem count_eq (left : Taken agent after name taken)
    (queues : name = .steering ∨ name = .followUp) (place : QueueName × Nat) :
    count place (agent.queue .steering) + count place (agent.queue .followUp) =
      count place (after.queue .steering) + count place (after.queue .followUp) +
        count place taken := by
  rcases queues with rfl | rfl
  · rw [left.queue, left.others .followUp (by simp), count_append]
    omega
  · rw [left.queue, left.others .steering (by simp), count_append]
    omega

theorem named (left : Taken agent after name taken) (conserved : Conserved agent)
    (other : QueueName) :
    ∀ message ∈ after.queue other, ∃ number, message.origin = some (other, number) := by
  by_cases same : other = name
  · subst same
    intro message member
    exact conserved.named other message (left.queue ▸ mem_append_right _ member)
  · rw [left.others other same]
    exact conserved.named other

/-- Messages that were taken were queued in that queue. -/
theorem placed (left : Taken agent after name taken) (conserved : Conserved agent) :
    ∀ message ∈ taken, ∃ number, message.origin = some (name, number) := by
  intro message member
  exact conserved.named name message (left.queue ▸ mem_append_left _ member)

end Taken

section

variable (conserved : Conserved agent)
include conserved

theorem conserved_removed {taken : List MessageObject}
    (queues : name = .steering ∨ name = .followUp) (left : Taken agent after name taken)
    (removed : after.ledger.removed = agent.ledger.removed ++ taken)
    (held : after.ledger.held = agent.ledger.held) : Conserved after := by
  refine ⟨fun place => ?_, fun other => ?_, left.named conserved, ?_, ?_⟩
  · have whole := conserved.accounted place
    have counted := left.count_eq queues place
    rw [removed, held, left.appended, left.enqueued, count_append]
    omega
  · have shorter : (after.line other).Sublist (agent.line other) := by
      rw [line, line, held, left.appended]
      apply List.Sublist.filterMap
      apply List.Sublist.append_left
      by_cases same : other = name
      · subst same
        rw [left.queue]
        exact sublist_append_right _ _
      · rw [left.others other same]
    exact (conserved.ordered other).sublist shorter
  · rw [held]
    exact conserved.owned
  · rw [left.messages, left.appended]
    exact conserved.transcript

theorem conserved_held {taken : List MessageObject} (queues : name = .steering ∨ name = .followUp)
    (left : Taken agent after name taken) (removed : after.ledger.removed = agent.ledger.removed)
    (none_ : agent.ledger.held = []) (held : after.ledger.held = taken) : Conserved after := by
  refine ⟨fun place => ?_, fun other => ?_, left.named conserved, ?_, ?_⟩
  · have whole := conserved.accounted place
    have counted := left.count_eq queues place
    rw [none_, count_nil] at whole
    rw [removed, held, left.appended, left.enqueued]
    omega
  · have same_line : after.line other = agent.line other := by
      rw [line, line, held, none_, left.appended, append_nil]
      by_cases same : other = name
      · subst same
        rw [left.queue, append_assoc]
      have absent : taken.filterMap (number other) = [] := by
        apply filterMap_eq_nil_iff.mpr
        intro message member
        obtain ⟨place, placed⟩ := left.placed conserved message member
        exact number_eq_none placed (Ne.symm same)
      rw [left.others other same, filterMap_append, filterMap_append, absent,
        append_nil, filterMap_append]
    rw [same_line]
    exact conserved.ordered other
  · rw [held]
    intro message member
    obtain ⟨place, placed⟩ := left.placed conserved message member
    rw [placed]
    rfl
  · rw [left.messages, left.appended]
    exact conserved.transcript

theorem conserved_appended (fresh : message.origin = none)
    (queues : after.queue = agent.queue) (enqueued : after.ledger.enqueued = agent.ledger.enqueued)
    (removed : after.ledger.removed = agent.ledger.removed)
    (held : after.ledger.held = agent.ledger.held)
    (appended : after.ledger.appended = agent.ledger.appended ++ [message])
    (messages : after.messages = agent.messages ++ [message]) : Conserved after := by
  refine ⟨fun place => ?_, fun name => ?_, ?_, ?_, ?_⟩
  · have whole := conserved.accounted place
    rw [queues, enqueued, removed, held, appended, count_append, count_cons, count_nil, fresh]
    simpa using whole
  · have unplaced : number name message = none := by simp only [number, fresh]
    have kept : after.line name = agent.line name := by
      rw [line, line, queues, held, appended]
      simp [filterMap_append, unplaced]
    rw [kept]
    exact conserved.ordered name
  · rw [queues]
    exact conserved.named
  · rw [held]
    exact conserved.owned
  · rw [messages, appended]
    exact suffix_append_self_iff.mpr conserved.transcript

/-- The first message a run holds enters the transcript. -/
theorem conserved_injected {rest : List MessageObject}
    (holding : agent.ledger.held = message :: rest)
    (queues : after.queue = agent.queue) (enqueued : after.ledger.enqueued = agent.ledger.enqueued)
    (removed : after.ledger.removed = agent.ledger.removed) (held : after.ledger.held = rest)
    (appended : after.ledger.appended = agent.ledger.appended ++ [message])
    (messages : after.messages = agent.messages ++ [message]) : Conserved after := by
  refine ⟨fun place => ?_, fun name => ?_, ?_, ?_, ?_⟩
  · have whole := conserved.accounted place
    rw [holding, count_cons] at whole
    rw [queues, enqueued, removed, held, appended, count_append, count_cons, count_nil]
    omega
  · have kept : after.line name = agent.line name := by
      rw [line, line, queues, held, appended, holding]
      simp
    rw [kept]
    exact conserved.ordered name
  · rw [queues]
    exact conserved.named
  · rw [held]
    intro other member
    exact conserved.owned other (holding ▸ mem_cons_of_mem _ member)
  · rw [messages, appended]
    exact suffix_append_self_iff.mpr conserved.transcript

end

/-! ## Calls -/

/-- What the rest of the program leaves as it is while a run waits. -/
structure Interleaved (agent after : Agent) : Prop where
  activeRun : after.activeRun.isSome = agent.activeRun.isSome
  maxIterations : after.maxIterations = agent.maxIterations
  held : after.ledger.held = agent.ledger.held
  interrupted : after.ledger.interrupted = agent.ledger.interrupted
  providerCalls : after.ledger.providerCalls = agent.ledger.providerCalls
  conserved : Conserved agent → Conserved after

namespace Interleaved

theorem refl (agent : Agent) : Interleaved agent agent := ⟨rfl, rfl, rfl, rfl, rfl, id⟩

theorem trans {first second third : Agent} (before : Interleaved first second)
    (after : Interleaved second third) : Interleaved first third :=
  ⟨after.activeRun.trans before.activeRun, after.maxIterations.trans before.maxIterations,
    after.held.trans before.held, after.interrupted.trans before.interrupted,
    after.providerCalls.trans before.providerCalls, after.conserved ∘ before.conserved⟩

end Interleaved

theorem interleaved_clearSteeringQueue (agent : Agent) :
    Interleaved agent agent.clearSteeringQueue := by
  refine ⟨rfl, rfl, rfl, rfl, rfl, fun conserved => conserved_removed conserved (Or.inl rfl)
    ⟨(append_nil _).symm, ?_, rfl, rfl, rfl⟩ rfl rfl⟩
  intro other different
  cases other with
  | steering => exact absurd rfl different
  | followUp => rfl
  | nextTurn => rfl

theorem interleaved_clearFollowUpQueue (agent : Agent) :
    Interleaved agent agent.clearFollowUpQueue := by
  refine ⟨rfl, rfl, rfl, rfl, rfl, fun conserved => conserved_removed conserved (Or.inr rfl)
    ⟨(append_nil _).symm, ?_, rfl, rfl, rfl⟩ rfl rfl⟩
  intro other different
  cases other with
  | steering => rfl
  | followUp => exact absurd rfl different
  | nextTurn => rfl

/-- A transcript that is cleared is still the end of all that was appended. -/
theorem conserved_of_same (conserved : Conserved agent)
    (queues : after.queue = agent.queue) (enqueued : after.ledger.enqueued = agent.ledger.enqueued)
    (removed : after.ledger.removed = agent.ledger.removed)
    (held : after.ledger.held = agent.ledger.held)
    (appended : after.ledger.appended = agent.ledger.appended)
    (messages : after.messages <:+ agent.messages) : Conserved after := by
  refine ⟨?_, fun name => ?_, ?_, ?_, ?_⟩
  · rw [queues, enqueued, removed, held, appended]
    exact conserved.accounted
  · rw [line, queues, held, appended]
    exact conserved.ordered name
  · rw [queues]
    exact conserved.named
  · rw [held]
    exact conserved.owned
  · rw [appended]
    exact messages.trans conserved.transcript

theorem interleaved_reset (agent : Agent) : Interleaved agent agent.reset := by
  unfold reset
  split
  · exact Interleaved.refl agent
  apply Interleaved.trans _ (interleaved_clearSteeringQueue _)
  apply Interleaved.trans _ (interleaved_clearFollowUpQueue _)
  exact ⟨rfl, rfl, rfl, rfl, rfl, fun conserved =>
    conserved_of_same conserved (by funext name; cases name <;> rfl) rfl rfl rfl rfl
      nil_suffix⟩

/-- Whatever is called, the active run keeps what it has. -/
theorem interleaved_call (agent : Agent) (call : AgentCall) :
    Interleaved agent (agent.call call) := by
  cases call with
  | steer message =>
    refine ⟨rfl, rfl, rfl, rfl, rfl, fun conserved =>
      conserved_enqueued conserved (Or.inl rfl) rfl rfl ?_ rfl rfl⟩
    intro other different
    cases other with
    | steering => exact absurd rfl different
    | followUp => rfl
    | nextTurn => rfl
  | followUp message =>
    refine ⟨rfl, rfl, rfl, rfl, rfl, fun conserved =>
      conserved_enqueued conserved (Or.inr rfl) rfl rfl ?_ rfl rfl⟩
    intro other different
    cases other with
    | steering => rfl
    | followUp => exact absurd rfl different
    | nextTurn => rfl
  | clearSteeringQueue => exact interleaved_clearSteeringQueue agent
  | clearFollowUpQueue => exact interleaved_clearFollowUpQueue agent
  | clearAllQueues =>
    exact (interleaved_clearSteeringQueue agent).trans (interleaved_clearFollowUpQueue _)
  | setSteeringMode mode =>
    exact ⟨rfl, rfl, rfl, rfl, rfl, fun conserved =>
      conserved_of_same conserved (by funext name; cases name <;> rfl) rfl rfl rfl rfl
        (suffix_refl _)⟩
  | setFollowUpMode mode =>
    exact ⟨rfl, rfl, rfl, rfl, rfl, fun conserved =>
      conserved_of_same conserved (by funext name; cases name <;> rfl) rfl rfl rfl rfl
        (suffix_refl _)⟩
  | abort =>
    exact ⟨Option.isSome_map, rfl, rfl, rfl, rfl, fun conserved =>
      conserved_of_same conserved rfl rfl rfl rfl rfl
        (suffix_refl _)⟩
  | reset => exact interleaved_reset agent
  | prompt messages => exact Interleaved.refl agent
  | continueRun => exact Interleaved.refl agent

theorem interleaved_calls (agent : Agent) (calls : List AgentCall) :
    Interleaved agent (calls.foldl Agent.call agent) := by
  induction calls generalizing agent with
  | nil => exact Interleaved.refl agent
  | cons call rest ih => exact (interleaved_call agent call).trans (ih (agent.call call))

theorem interleaved_receive (agent : Agent) (input : Input) (rest : List Input) :
    Interleaved agent (agent.receive input rest) := by
  have begun : Interleaved agent { agent with inputs := rest, time := input.time } :=
    ⟨rfl, rfl, rfl, rfl, rfl, fun conserved =>
      conserved_of_same conserved rfl rfl rfl rfl rfl
          (suffix_refl _)⟩
  exact begun.trans (interleaved_calls _ input.calls)

end Recode.Agent

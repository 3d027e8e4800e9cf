import Recode.Agent.Loop
import Mathlib.Data.Multiset.AddSub

/-! # The protocol of a run

How far a run has come, as its events tell: which brackets are open, which
queued messages it holds, and what entered the transcript. An event is admitted
when it closes or opens a bracket that may be closed or opened. -/

namespace Recode.Agent

/-- Whether a run has begun and whether one of its turns is open. -/
inductive Stage where
  | before | between | turn | over
deriving DecidableEq

/-- How far a run has come. Messages that ended are told apart by the context they were added to:
`since` are those after the context was last replaced, `earlier` those before it, and `base` is
what that context held. The provider was asked `calls` times, and its last stream may have
started. -/
structure Progress where
  stage : Stage
  message : Bool
  tools : Multiset String
  held : List MessageObject
  base : List MessageObject
  earlier : List MessageObject
  since : List MessageObject
  calls : Nat
  started : Bool

namespace Progress

/-- A run that has not begun. -/
def start (held base : List MessageObject) : Progress :=
  ⟨.before, false, 0, held, base, [], [], 0, false⟩

def ended (progress : Progress) : List MessageObject := progress.earlier ++ progress.since

/-- The messages a run holds enter the transcript first and in their order, and others were not
queued. -/
def carries (progress : Progress) : AgentEvent → Prop
  | .messageEnd message =>
    match progress.held with
    | [] => message.origin = none
    | first :: _ => message = first
  | _ => True

/-- The events that may come next. -/
def admits (progress : Progress) : AgentEvent → Bool
  | .agentStart => progress.stage = .before
  | .agentEnd _ => progress.stage = .between
  | .followUpStart => progress.stage = .between
  | .turnStart => progress.stage = .between
  | .turnEnd _ _ => progress.stage = .turn && !progress.message && progress.tools = 0
  | .messageStart _ => progress.stage = .turn && !progress.message
  | .messageUpdate _ => progress.stage = .turn && progress.message
  | .messageEnd _ => progress.stage = .turn && progress.message
  | .toolExecutionStart _ => progress.stage = .turn && !progress.message
  | .toolExecutionUpdate toolCall _ => progress.stage = .turn && toolCall.id ∈ progress.tools
  | .toolExecutionEnd toolCall _ _ => progress.stage = .turn && toolCall.id ∈ progress.tools

/-- How far a run has come after an event. -/
def next (progress : Progress) : AgentEvent → Progress
  | .agentStart => { progress with stage := .between }
  | .agentEnd _ => { progress with stage := .over }
  | .followUpStart => progress
  | .turnStart => { progress with stage := .turn }
  | .turnEnd _ _ => { progress with stage := .between }
  | .messageStart _ => { progress with message := true }
  | .messageUpdate _ => progress
  | .messageEnd message => { progress with
      message := false
      held := progress.held.tail
      since := progress.since ++ [message] }
  | .toolExecutionStart toolCall => { progress with tools := toolCall.id ::ₘ progress.tools }
  | .toolExecutionUpdate _ _ => progress
  | .toolExecutionEnd toolCall _ _ => { progress with tools := progress.tools.erase toolCall.id }

/-- How far a run has come after its context was replaced, if it was. -/
def rebased (progress : Progress) (update : Option AgentLoopTurnUpdate) : Progress :=
  match update.bind AgentLoopTurnUpdate.context with
  | none => progress
  | some context => { progress with
      base := context.messages
      earlier := progress.ended
      since := [] }

theorem with_message {progress : Progress} {message : Bool} (same : progress.message = message) :
    { progress with message := message } = progress := by
  rw [← same]

theorem with_held {progress : Progress} {held : List MessageObject}
    (same : progress.held = held) : { progress with held := held } = progress := by
  rw [← same]

@[simp] theorem ended_rebased (progress : Progress) (update : Option AgentLoopTurnUpdate) :
    (progress.rebased update).ended = progress.ended := by
  rw [rebased]
  split
  · rfl
  · simp [ended]

end Progress

end Recode.Agent

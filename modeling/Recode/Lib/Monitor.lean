/-! # Monitors of event sequences

A monitor follows a sequence of events and stops at the first one that its state does not allow.
What it accepts is closed under taking initial parts, so a monitor states a safety property. -/

/-- A monitor, with the state in which it starts and the state after an allowed event. -/
structure Monitor (Event State : Type) where
  start : State
  next : State → Event → Option State

namespace Monitor

variable {Event State : Type} (monitor : Monitor Event State)

/-- The state after some events, if all of them are allowed. -/
def state (events : List Event) : Option State := events.foldlM monitor.next monitor.start

def Accepts (events : List Event) : Prop := (monitor.state events).isSome

instance (events : List Event) : Decidable (monitor.Accepts events) :=
  inferInstanceAs (Decidable ((monitor.state events).isSome = true))

theorem state_append_singleton (events : List Event) (event : Event) :
    monitor.state (events ++ [event]) =
      (monitor.state events).bind fun state => monitor.next state event := by
  unfold state
  rw [List.foldlM_append]
  apply Option.bind_congr
  intro state _
  exact bind_pure _

variable {monitor}

theorem state_snoc {events : List Event} {event : Event} {before after : State}
    (reached : monitor.state events = some before)
    (allowed : monitor.next before event = some after) :
    monitor.state (events ++ [event]) = some after := by
  rw [state_append_singleton, reached]
  exact allowed

theorem accepts_of_state {events : List Event} {state : State}
    (reached : monitor.state events = some state) : monitor.Accepts events := by
  rw [Accepts, reached]
  rfl

end Monitor

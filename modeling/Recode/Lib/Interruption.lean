import Recode.Lib.Procedure

/-! # Procedures that are interrupted

A call to the outside works, throws an error, or is the last thing that its process does.
A handler and a cleanup see an error that was thrown; after a crash nothing runs any more. -/

/-- What comes of a call. A call that does not work may have done a part of its work. -/
inductive Outcome where
  | works
  | throws (part : Nat)
  | crashes (part : Nat)
deriving DecidableEq, Repr

/-- How a procedure ends before its end. -/
inductive Stop (Error : Type) where
  | threw (error : Error)
  | crashed
deriving DecidableEq, Repr

/-- What is known of a state where a procedure stopped. -/
def Stop.Known {Error State : Type} (thrown : Error → State → Prop) (lost : State → Prop) :
    Stop Error → State → Prop
  | .threw error => thrown error
  | .crashed => lost

@[simp] theorem Stop.known_same {Error State : Type} (known : State → Prop) :
    Stop.Known (fun _ : Error => known) known = fun _ => known := by
  funext stop
  cases stop with
  | threw error => rfl
  | crashed => rfl

namespace Procedure

variable {State Error Result : Type}

/-- `try` and `catch`: the handler of an error goes on where the error was thrown. -/
def attempt (body : Procedure State (Stop Error) Result)
    (handler : Error → Procedure State (Stop Error) Result) : Procedure State (Stop Error) Result :=
  ExceptT.mk fun state =>
    match perform body state with
    | (.error (.threw error), stopped) => perform (handler error) stopped
    | ended => ended

/-- `try` and `finally`: the cleanup runs at the end and after an error, and what it throws
takes the place of that error. -/
def ensuring (body : Procedure State (Stop Error) Result)
    (cleanup : Procedure State (Stop Error) Unit) : Procedure State (Stop Error) Result :=
  ExceptT.mk fun state =>
    match perform body state with
    | (.ok result, final) => perform (do cleanup; return result) final
    | (.error (.threw error), stopped) => perform (do cleanup; throw (.threw error)) stopped
    | (.error .crashed, lost) => (.error .crashed, lost)

variable {body : Procedure State (Stop Error) Result}

theorem perform_attempt (handler : Error → Procedure State (Stop Error) Result) (state : State) :
    perform (attempt body handler) state = match perform body state with
      | (.error (.threw error), stopped) => perform (handler error) stopped
      | ended => ended := rfl

theorem perform_ensuring (cleanup : Procedure State (Stop Error) Unit) (state : State) :
    perform (ensuring body cleanup) state = match perform body state with
      | (.ok result, final) => perform (do cleanup; return result) final
      | (.error (.threw error), stopped) => perform (do cleanup; throw (Stop.threw error)) stopped
      | (.error .crashed, lost) => (.error .crashed, lost) := rfl

theorem perform_attempt_ok {state final : State} {result : Result}
    (done : perform body state = (.ok result, final))
    (handler : Error → Procedure State (Stop Error) Result) :
    perform (attempt body handler) state = (.ok result, final) := by
  rw [perform_attempt, done]

theorem perform_attempt_threw {state stopped : State} {error : Error}
    (failed : perform body state = (.error (.threw error), stopped))
    (handler : Error → Procedure State (Stop Error) Result) :
    perform (attempt body handler) state = perform (handler error) stopped := by
  rw [perform_attempt, failed]

variable {before : State → Prop} {after : Result → State → Prop}
  {thrown : Error → State → Prop} {failed : Stop Error → State → Prop}

theorem triple_attempt {handler : Error → Procedure State (Stop Error) Result}
    (first : Triple before body after (Stop.Known thrown (failed .crashed)))
    (caught : ∀ error, Triple (thrown error) (handler error) after failed) :
    Triple before (attempt body handler) after failed := by
  intro state known
  have ended := first state known
  rw [perform_attempt]
  rcases run : perform body state with ⟨(error | -) | result, final⟩ <;> rw [run] at ended
  · exact caught error final ended
  · exact ended
  · exact ended

theorem triple_ensuring
    {cleanup : Procedure State (Stop Error) Unit} {middle : Result → State → Prop}
    (first : Triple before body middle (Stop.Known thrown (failed .crashed)))
    (completed : ∀ result, Triple (middle result) cleanup (fun _ => after result) failed)
    (stopped : ∀ error, Triple (thrown error) cleanup (fun _ => failed (.threw error)) failed) :
    Triple before (ensuring body cleanup) after failed := by
  intro state known
  have ended := first state known
  rw [perform_ensuring]
  rcases run : perform body state with ⟨(error | -) | result, final⟩ <;> rw [run] at ended
  · exact triple_bind (stopped error)
      (fun _ => triple_throw (.threw error) fun _ holds => holds) final ended
  · exact ended
  · exact triple_bind (completed result) (fun _ => triple_pure result fun _ holds => holds)
      final ended

end Procedure

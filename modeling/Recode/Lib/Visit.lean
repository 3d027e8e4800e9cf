import Mathlib.Data.List.Induction

/-! # Visiting a list until the visitor stops

A visitor carries a state along a list. At each element it either stops, keeping
the element as its last, or goes on with a new state. The *front* of a list is
what it has seen when it stops or runs out of elements. -/

namespace Visit

open List

variable {State Node : Type*} (visit : State → Node → Option State)

/-- What a visitor sees, with the element that it stops at. -/
def front : State → List Node → List Node
  | _, [] => []
  | state, node :: nodes =>
    node :: match visit state node with
      | none => []
      | some next => front next nodes

/-- The state after a list in which the visitor does not stop. -/
def passed (state : State) (nodes : List Node) : Option State :=
  nodes.foldlM visit state

variable {visit}

theorem passed_append (state : State) (nodes more : List Node) :
    passed visit state (nodes ++ more) =
      (passed visit state nodes).bind fun next => passed visit next more :=
  foldlM_append

/-- A visitor that passes a list goes on with what follows. -/
theorem front_append {state next : State} {nodes : List Node}
    (passes : passed visit state nodes = some next) (more : List Node) :
    front visit state (nodes ++ more) = nodes ++ front visit next more := by
  induction nodes generalizing state with
  | nil =>
    cases passes
    rfl
  | cons node nodes ih =>
    simp only [passed, foldlM_cons, Option.bind_eq_bind] at passes
    obtain ⟨middle, goesOn, passes⟩ := Option.bind_eq_some_iff.mp passes
    simp only [cons_append, front, goesOn]
    rw [ih passes]

/-- A visitor that stops sees nothing of what follows. -/
theorem front_append_of_stopped {state : State} {nodes : List Node}
    (stopped : passed visit state nodes = none) (more : List Node) :
    front visit state (nodes ++ more) = front visit state nodes := by
  induction nodes generalizing state with
  | nil => cases stopped
  | cons node nodes ih =>
    rw [cons_append, front, front]
    cases goesOn : visit state node with
    | none => rfl
    | some middle =>
      simp only [passed, foldlM_cons, goesOn] at stopped
      simp only [ih stopped]

end Visit

/-! # Procedures on a state that may fail

A procedure reads and writes a state and may end with an error. Unlike a
transaction it undoes nothing: what it wrote before the error stays written. -/

abbrev Procedure (State Error Result : Type) := ExceptT Error (StateM State) Result

namespace Procedure

variable {State Error Result Next : Type}

def perform (procedure : Procedure State Error Result) (state : State) :
    Except Error Result × State :=
  procedure.run.run state

@[simp] theorem perform_pure (result : Result) (state : State) :
    perform (pure result : Procedure State Error Result) state = (.ok result, state) := rfl

@[simp] theorem perform_get (next : State → Procedure State Error Next) (state : State) :
    perform (get >>= next) state = perform (next state) state := rfl

@[simp] theorem perform_throw (error : Error) (state : State) :
    perform (throw error : Procedure State Error Result) state = (.error error, state) := rfl

@[simp] theorem perform_throw_bind (error : Error) (next : Result → Procedure State Error Next)
    (state : State) :
    perform (throw error >>= next) state = (.error error, state) := rfl

@[simp] theorem perform_modify (change : State → State) (state : State) :
    perform (modify change : Procedure State Error Unit) state = (.ok (), change state) := rfl

@[simp] theorem perform_modify_bind (change : State → State)
    (next : Unit → Procedure State Error Next) (state : State) :
    perform (modify change >>= next) state = perform (next ()) (change state) := rfl

@[simp] theorem perform_set_bind (after : State) (next : PUnit → Procedure State Error Next)
    (state : State) :
    perform (set after >>= next) state = perform (next ⟨⟩) after := rfl

def check (result : Except Error Result) : Procedure State Error Result :=
  ExceptT.mk (pure result)

@[simp] theorem perform_check (result : Except Error Result) (state : State) :
    perform (check result) state = (result, state) := rfl

/-- A sequence of computations succeeds when each of them does. -/
theorem bind_eq_ok {run : Except Error Result} {next : Result → Except Error Next}
    {result : Next} (done : (run >>= next) = .ok result) :
    ∃ middle, run = .ok middle ∧ next middle = .ok result := by
  cases run with
  | error error => cases done
  | ok middle => exact ⟨middle, rfl, done⟩

theorem guard_eq_ok {condition : Prop} [Decidable condition] {error : Error}
    {next : Unit → Except Error Next} {result : Next}
    (done : (if condition then throw error >>= next else next ()) = .ok result) :
    ¬ condition ∧ next () = .ok result := by
  split at done
  · cases done
  · rename_i passes
    exact ⟨passes, done⟩

/-- Checks pass one after the other when each of them does. -/
theorem forM_eq_ok {Item : Type} {check : Item → Except Error Unit} {items : List Item}
    (done : items.forM check = .ok ()) : ∀ item ∈ items, check item = .ok () := by
  induction items with
  | nil => simp
  | cons first rest ih =>
    obtain ⟨⟨⟩, passes, done⟩ := bind_eq_ok (show (check first >>= fun _ => rest.forM check) = _
      from done)
    intro item member
    rcases List.mem_cons.mp member with rfl | later
    · exact passes
    · exact ih done item later

/-- Checks that pass each pass one after the other. -/
theorem forM_ok {Item : Type} {check : Item → Except Error Unit} {items : List Item}
    (passes : ∀ item ∈ items, check item = .ok ()) : items.forM check = .ok () := by
  induction items with
  | nil => rfl
  | cons first rest ih =>
    change (check first >>= fun _ => rest.forM check) = _
    rw [passes first List.mem_cons_self]
    exact ih fun item member => passes item (List.mem_cons_of_mem _ member)

theorem perform_bind_ok {procedure : Procedure State Error Result} {state after : State}
    {result : Result} (done : perform procedure state = (.ok result, after))
    (next : Result → Procedure State Error Next) :
    perform (procedure >>= next) state = perform (next result) after := by
  rw [perform] at done
  simp only [perform, ExceptT.run_bind, StateT.run_bind, done]
  rfl

/-- After a procedure that fails, nothing else happens. -/
theorem perform_bind_error {procedure : Procedure State Error Result} {state after : State}
    {error : Error} (failed : perform procedure state = (.error error, after))
    (next : Result → Procedure State Error Next) :
    perform (procedure >>= next) state = (.error error, after) := by
  rw [perform] at failed
  simp only [perform, ExceptT.run_bind, StateT.run_bind, failed]
  rfl

/-! ## Pre- and postconditions -/

/-- Performed on a state with a property, a procedure that succeeds leaves its result and its state
in a relation, and one that fails its error and its state in another. -/
def Triple (before : State → Prop) (procedure : Procedure State Error Result)
    (after : Result → State → Prop) (failed : Error → State → Prop) : Prop :=
  ∀ state, before state → match perform procedure state with
    | (.ok result, final) => after result final
    | (.error error, final) => failed error final

section Triple

variable {before : State → Prop} {after : Result → State → Prop} {failed : Error → State → Prop}

theorem triple_pure (result : Result) (holds : ∀ state, before state → after result state) :
    Triple before (pure result : Procedure State Error Result) after failed := holds

theorem triple_throw (error : Error) (holds : ∀ state, before state → failed error state) :
    Triple before (throw error : Procedure State Error Result) after failed := holds

/-- A procedure that reads the state goes on in the state it read. -/
theorem triple_get {next : State → Procedure State Error Result}
    (holds : ∀ state, before state → Triple (· = state) (next state) after failed) :
    Triple before (get >>= next) after failed := by
  intro state known
  exact holds state known state rfl

variable {procedure : Procedure State Error Result}

theorem triple_each (holds : ∀ state, before state → Triple (· = state) procedure after failed) :
    Triple before procedure after failed := by
  intro state known
  exact holds state known state rfl

theorem Triple.here {state : State} (triple : Triple before procedure after failed)
    (known : before state) : Triple (· = state) procedure after failed := by
  rintro _ rfl
  exact triple _ known

theorem triple_modify {change : State → State} {after : PUnit → State → Prop}
    (holds : ∀ state, before state → after ⟨⟩ (change state)) :
    Triple before (modify change : Procedure State Error PUnit) after failed := holds

theorem triple_bind {middle : Next → State → Prop} {procedure : Procedure State Error Next}
    {next : Next → Procedure State Error Result} (first : Triple before procedure middle failed)
    (second : ∀ result, Triple (middle result) (next result) after failed) :
    Triple before (procedure >>= next) after failed := by
  intro state known
  have done := first state known
  cases run : perform procedure state with
  | mk outcome final =>
    rw [run] at done
    cases outcome with
    | error error =>
      rw [perform_bind_error run]
      exact done
    | ok result =>
      rw [perform_bind_ok run]
      exact second result final done

/-- A procedure that is known to succeed on a state goes on in the state it leaves. -/
theorem triple_perform {procedure : Procedure State Error Next} {state middle : State}
    {result : Next} {next : Next → Procedure State Error Result}
    (done : perform procedure state = (.ok result, middle))
    (rest : Triple (· = middle) (next result) after failed) :
    Triple (· = state) (procedure >>= next) after failed := by
  rintro state rfl
  rw [perform_bind_ok done]
  exact rest middle rfl

/-- A procedure that is known to succeed on a state ends in the state it leaves. -/
theorem triple_done {state final : State}
    {result : Result} (done : perform procedure state = (.ok result, final))
    (holds : after result final) : Triple (· = state) procedure after failed := by
  rintro state rfl
  rw [done]
  exact holds

theorem Triple.weaken {before' : State → Prop} {after' : Result → State → Prop}
    {failed' : Error → State → Prop} {procedure : Procedure State Error Result}
    (triple : Triple before procedure after failed) (entry : ∀ state, before' state → before state)
    (exit : ∀ result state, after result state → after' result state)
    (failure : ∀ error state, failed error state → failed' error state) :
    Triple before' procedure after' failed' := by
  intro state known
  have done := triple state (entry state known)
  cases run : perform procedure state with
  | mk outcome final =>
    rw [run] at done
    cases outcome with
    | error error => exact failure error final done
    | ok result => exact exit result final done

/-- A loop keeps what each of its rounds keeps. -/
theorem triple_forM {Item : Type} {body : Item → Procedure State Error PUnit}
    {invariant : State → Prop}
    (round : ∀ item, Triple invariant (body item) (fun _ => invariant) failed)
    (items : List Item) : Triple invariant (items.forM body) (fun _ => invariant) failed := by
  induction items with
  | nil => exact triple_pure _ fun _ known => known
  | cons item items ih => exact triple_bind (round item) fun _ => ih

end Triple

end Procedure

import Recode.Auth.AuthFlights

/-! # Returns of credential operations

An asynchronous operation that stores nothing takes its place in the order where it read;
one that stores something comes last. -/

namespace Recode.Auth

open List Operation

variable {first : Content} {state after : State} {operation : Operation}

theorem Operation.apply_of_update {data : AuthStorageData} {next : Option AuthStorageData}
    (answer : operation.update data = .ok next) : operation.apply data = next.getD data := by
  rw [apply, answer]
  cases next <;> rfl

/-- A place of an order where an operation changes nothing, before all operations that
returned after its call. -/
def Idle (first : Content) (order : List Finished) (operation : Operation) (invoked : Nat) : Prop :=
  ∃ front back, order = front ++ back ∧
    (∀ data, (parseStorageData first).map (replay front) = .ok data → operation.apply data = data) ∧
    ∀ one ∈ back, invoked ≤ one.returned

theorem replay_append (front back : List Finished) (data : AuthStorageData) :
    replay (front ++ back) data = replay back (replay front data) := by
  rw [replay, replay, replay, foldl_append]

/-- What an order explains it still explains with an operation in between that changes
nothing there. -/
theorem map_replay_insert {front : List Finished} (back : List Finished) (one : Finished)
    (idle : ∀ data, (parseStorageData first).map (replay front) = .ok data →
      one.operation.apply data = data) :
    (parseStorageData first).map (replay (front ++ one :: back)) =
      (parseStorageData first).map (replay (front ++ back)) := by
  cases parsed : parseStorageData first with
  | error error => rfl
  | ok data =>
    rw [parsed] at idle
    have same := idle (replay front data) rfl
    change Except.ok _ = Except.ok _
    rw [replay_append, replay_append]
    congr 1
    change replay back (one.operation.apply (replay front data)) = _
    rw [same]

theorem Linearized.insert {order : List Finished} (consistent : Consistent first state)
    (linearized : Linearized first state order) {invoked : Nat}
    (place : Idle first order operation invoked) :
    ∃ order, Linearized first (state.finish operation invoked) order := by
  obtain ⟨front, back, rfl, idle, later⟩ := place
  have past : ∀ one ∈ front ++ back, one.invoked ≤ state.clock := fun one member =>
    (consistent.times one (linearized.perm.mem_iff.mp member)).1
  refine ⟨front ++ ⟨operation, invoked, state.clock⟩ :: back, ?_, ?_, ?_, ?_⟩
  · exact perm_middle.trans
      ((linearized.perm.cons _).trans (perm_append_singleton _ _).symm)
  · have respects := pairwise_append.mp linearized.respects
    rw [pairwise_append, pairwise_cons]
    refine ⟨respects.1, ⟨fun one member => later one member, respects.2.1⟩, ?_⟩
    intro one before other member
    rcases mem_cons.mp member with rfl | member
    · exact past one (mem_append_left _ before)
    · exact respects.2.2 one before other member
  · rw [map_replay_insert back _ idle]
    exact linearized.stored
  · intro id flight saw found seen
    obtain ⟨front', back', split, read, returned⟩ := linearized.read id flight saw found seen
    have called := consistent.early id flight found
    rcases append_eq_append_iff.mp split with ⟨mid, rfl, rfl⟩ | ⟨mid, rfl, rfl⟩
    · refine ⟨front ++ ⟨operation, invoked, state.clock⟩ :: mid, back', ?_, ?_, returned⟩
      · rw [append_assoc, cons_append]
      · rw [map_replay_insert mid _ idle]
        exact read
    refine ⟨front', mid ++ ⟨operation, invoked, state.clock⟩ :: back, ?_, read, ?_⟩
    · rw [append_assoc]
    · intro one member
      rcases mem_append.mp member with member | member
      · exact returned one (mem_append_left _ member)
      · rcases mem_cons.mp member with rfl | member
        · exact called
        · exact returned one (mem_append_right _ member)

theorem Consistent.finishIdle (consistent : Consistent first state)
    {invoked : Nat} (early : invoked ≤ state.clock)
    (place : ∀ order, Linearized first state order → Idle first order operation invoked) :
    Consistent first (state.finish operation invoked) where
  views := consistent.views
  holds := consistent.holds
  waiting := consistent.waiting
  answered := consistent.answered
  early := consistent.early
  times one member := by
    rcases mem_append.mp member with member | member
    · exact consistent.times one member
    · obtain rfl := mem_singleton.mp member
      exact ⟨early, Nat.le_refl _⟩
  linear := by
    obtain ⟨order, linearized⟩ := consistent.linear
    exact linearized.insert consistent (place order linearized)

/-- An operation is called that does not ask the store, waits for it, or enters it. -/
theorem call_outcome (object : Nat) (operation : Operation) {access : Access}
    (consistent : Consistent first state) (keeps : access.Keeps state) :
    Outcome first state (state.call object operation access).1
      (state.call object operation access).2 := by
  unfold State.call
  split
  · refine ⟨consistent.finishIdle (Nat.le_refl _) ?_, fun silent => (silent _ _ _ rfl).elim, ?_, ?_⟩
    · intro order linearized
      refine ⟨order, [], (append_nil order).symm, fun _ _ => rfl, ?_⟩
      exact fun one member => absurd member not_mem_nil
    · intro _ _ _ given
      cases given
    · intro _ _ _ given
      cases given
  · exact .silent (consistent.rewrite keeps) keeps (by intro _ _ _ given; cases given)
      (by intro _ _ _ given; cases given)
  · have same := parse_entered state
    dsimp only
    split
    · have waits : Fits { state with content := state.entered } state.clock
          { object := object, operation := operation } :=
        { early := Nat.le_refl _
          holds := nofun
          waiting := fun _ => rfl
          answered := nofun
          read := nofun }
      refine .silent ((consistent.rewrite same).setFlight waits ?_) same
        (by intro _ _ _ given; cases given) (by intro _ _ _ given; cases given)
      intro data assigned
      obtain ⟨saw, seen⟩ := Flight.saw_of_assigned assigned
      cases seen
    · rename_i memory
      exact enter_outcome consistent (Nat.le_refl _) rfl fun file => (memory file).elim

/-- On the file backend an operation that ends with its lock leaves it free. -/
theorem Consistent.free_drop (consistent : Consistent first state) {id : Nat} {flight : Flight}
    {saw : AuthStorageData} (found : state.flights id = some flight) (seen : flight.saw = some saw)
    (sound : flight.compromised = false) : (state.drop id).Free := by
  intro file
  obtain ⟨lock, -⟩ := consistent.holds file id flight saw found seen sound
  rw [State.drop]
  dsimp only
  rw [lock, if_pos rfl]

/-- In memory an operation only writes what it would write now, over the last view its
object was given. -/
def Flight.Undisturbed (state : State) (id : Nat) (flight : Flight) (saw : AuthStorageData)
    (next : Option AuthStorageData) : Prop :=
  (state.objects flight.object).assignedBy = some id ∧
    (next ≠ none → parseStorageData state.content = .ok saw)

/-- The callback of an operation has answered, and the operation writes and ends. -/
theorem complete_outcome {id : Nat} {flight : Flight} {saw : AuthStorageData}
    {next : Option AuthStorageData} {written : Written} (consistent : Consistent first state)
    (found : state.flights id = some flight) (settled : flight.phase = .settled saw next)
    (abandoned : flight.compromised = true → (state.objects flight.object).data = saw)
    (undisturbed : flight.compromised = false → state.file = false →
      flight.Undisturbed state id saw next)
    (keeps : flight.compromised = false → next ≠ none → written.Keeps state ∧
      (written ≠ .done → (state.objects flight.object).data = saw)) :
    Outcome first state (state.complete id flight saw next written).1
      (state.complete id flight saw next written).2 := by
  have seen : flight.saw = some saw := by rw [Flight.saw, settled]
  have assigned : flight.assigned = some (next.getD saw) := by rw [Flight.assigned, settled]
  have answer := consistent.answered id flight saw next found settled
  have early := consistent.early id flight found
  unfold State.complete
  split
  · rename_i compromised
    refine ⟨consistent.drop id, fun _ => rfl, fun _ _ _ given => (by cases given), ?_⟩
    intro _ _ _ given
    cases given
    exact abandoned compromised
  · rename_i sound
    rw [Bool.not_eq_true] at sound
    have mine : (state.objects flight.object).assignedBy = some id ∧
        (next ≠ none → parseStorageData state.content = .ok saw) := by
      cases file : state.file with
      | false => exact undisturbed sound file
      | true =>
        obtain ⟨-, stored, own⟩ := consistent.holds file id flight saw found seen sound
        exact ⟨own (Option.isSome_of_eq_some assigned), fun _ => stored⟩
    have view := consistent.views id flight _ found assigned mine.1
    cases next with
    | none =>
      have idle : ∀ order, Linearized first state order →
          Idle first order flight.operation id := by
        intro order linearized
        obtain ⟨front, back, split, read, later⟩ := linearized.read id flight saw found seen
        refine ⟨front, back, split, ?_, later⟩
        intro data same
        cases read.symm.trans same
        exact apply_of_update answer
      refine ⟨(consistent.finishIdle early idle).drop id, fun silent => (silent _ _ _ rfl).elim,
        ?_, nofun⟩
      intro _ _ _ given
      cases given
      exact view
    | some merged =>
      have stored := mine.2 nofun
      obtain ⟨writes, unchanged⟩ := keeps sound nofun
      have dropped := consistent.drop id
      cases written with
      | done =>
        refine ⟨dropped.finish (.data merged) flight.operation id
          (consistent.free_drop found seen sound) early ?_,
          fun silent => (silent _ _ _ rfl).elim, ?_, nofun⟩
        · change Except.ok merged = (parseStorageData state.content).map _
          rw [stored]
          exact congrArg Except.ok (apply_of_update answer).symm
        · intro _ _ _ given
          cases given
          exact view
      | fails left error =>
        refine ⟨dropped.rewrite writes, fun _ => writes, fun _ _ _ given => (by cases given), ?_⟩
        intro _ _ _ given
        cases given
        exact unchanged nofun
      | throwsAfter error => exact writes.elim

end Recode.Auth

import Recode.Auth.AuthSteps

/-! # Asynchronous credential operations

An asynchronous operation reads under the lock, lets others in while its callback runs,
and writes what it answered. -/

namespace Recode.Auth

open Function Option

variable {first : Content} {state after : State}

/-- An operation under way ends. -/
theorem Consistent.drop (consistent : Consistent first state) (id : Nat) :
    Consistent first (state.drop id) := by
  have remains {other : Nat} {flight : Flight}
      (found : (state.drop id).flights other = some flight) :
      other ≠ id ∧ state.flights other = some flight := by
    by_cases same : other = id
    · subst same
      rw [State.drop] at found
      dsimp only at found
      rw [update_self] at found
      cases found
    · rw [State.drop] at found
      dsimp only at found
      rw [update_of_ne same] at found
      exact ⟨same, found⟩
  refine consistent.transport (fun _ _ found => (remains found).2) rfl (Nat.le_refl _) rfl ?_ ?_
  · intro other flight data found assigned by_
    exact consistent.views other flight data (remains found).2 assigned by_
  · intro file other flight saw found seen sound
    obtain ⟨different, found⟩ := remains found
    obtain ⟨lock, rest⟩ := consistent.holds file other flight saw found seen sound
    refine ⟨?_, rest⟩
    change (if state.lock = some id then none else state.lock) = some other
    rw [if_neg]
    · exact lock
    · rw [lock]
      exact fun same => different (some.inj same)

/-- What an operation under way says may be added when it is true of it. -/
structure Fits (state : State) (id : Nat) (flight : Flight) : Prop where
  early : id ≤ state.clock
  holds : state.file = true → ∀ saw, flight.saw = some saw → flight.compromised = false →
    state.lock = some id ∧ parseStorageData state.content = .ok saw
  waiting : flight.phase = .waiting → flight.compromised = false
  answered : ∀ saw next, flight.phase = .settled saw next → flight.operation.update saw = .ok next
  read : ∀ saw, flight.saw = some saw → (∃ old, state.flights id = some old ∧ old.saw = some saw) ∨
      parseStorageData state.content = .ok saw

theorem flights_setFlight {id other : Nat} {flight found : Flight}
    (lookup : (state.setFlight id flight).flights other = some found) :
    other = id ∧ found = flight ∨ other ≠ id ∧ state.flights other = some found := by
  rw [State.setFlight] at lookup
  dsimp only at lookup
  by_cases same : other = id
  · subst same
    rw [update_self] at lookup
    exact Or.inl ⟨rfl, (some.inj lookup).symm⟩
  · rw [update_of_ne same] at lookup
    exact Or.inr ⟨same, lookup⟩

variable {flight : Flight} {id : Nat} {saw : AuthStorageData}

theorem Linearized.setFlight {order : List Finished} (linearized : Linearized first state order)
    (fits : Fits state id flight) : Linearized first (state.setFlight id flight) order := by
  refine linearized.transport rfl rfl ?_
  intro other found saw lookup seen
  rcases flights_setFlight lookup with ⟨rfl, rfl⟩ | ⟨-, before⟩
  · exact fits.read saw seen
  · exact Or.inl ⟨found, before, seen⟩

/-- An operation goes on without assigning a view. -/
theorem Consistent.setFlight (consistent : Consistent first state) (fits : Fits state id flight)
    (views : ∀ data, flight.assigned = some data →
      ((state.objects flight.object).assignedBy = some id →
        (state.objects flight.object).data = data) ∧
      (state.file = true → flight.compromised = false →
        (state.objects flight.object).assignedBy = some id)) :
    Consistent first (state.setFlight id flight) := by
  refine ⟨?_, ?_, ?_, ?_, ?_, consistent.times, ?_⟩
  · intro other found data lookup assigned by_
    rcases flights_setFlight lookup with ⟨rfl, rfl⟩ | ⟨-, before⟩
    · exact (views data assigned).1 by_
    · exact consistent.views other found data before assigned by_
  · intro file other found saw lookup seen sound
    rcases flights_setFlight lookup with ⟨rfl, rfl⟩ | ⟨-, before⟩
    · obtain ⟨lock, stored⟩ := fits.holds file saw seen sound
      refine ⟨lock, stored, fun given => ?_⟩
      obtain ⟨data, assigned⟩ := isSome_iff_exists.mp given
      exact (views data assigned).2 file sound
    · exact consistent.holds file other found saw before seen sound
  · intro other found lookup waits
    rcases flights_setFlight lookup with ⟨rfl, rfl⟩ | ⟨-, before⟩
    · exact fits.waiting waits
    · exact consistent.waiting other found before waits
  · intro other found saw next lookup settled
    rcases flights_setFlight lookup with ⟨rfl, rfl⟩ | ⟨-, before⟩
    · exact fits.answered saw next settled
    · exact consistent.answered other found saw next before settled
  · intro other found lookup
    rcases flights_setFlight lookup with ⟨rfl, rfl⟩ | ⟨-, before⟩
    · exact fits.early
    · exact consistent.early other found before
  · obtain ⟨order, linearized⟩ := consistent.linear
    exact ⟨order, linearized.setFlight fits⟩

/-- Operations of the same object that hold the lock have not assigned its view. -/
def Flight.Alone (state : State) (id : Nat) (flight : Flight) : Prop :=
  ∀ other found, other ≠ id → state.flights other = some found →
    found.object = flight.object → found.compromised = false → found.assigned = none

/-- An operation goes on and assigns the view of its object, while no other one that could
have assigned it holds the lock. -/
theorem Consistent.advance (consistent : Consistent first state)
    (new : AuthObject) (fits : Fits state id flight) (assigned : flight.assigned = some new.data)
    (own : new.assignedBy = some id) (alone : state.file = true → flight.Alone state id) :
    Consistent first
      { state.setFlight id flight with
        objects := update state.objects flight.object new } := by
  refine ⟨?_, ?_, ?_, ?_, ?_, consistent.times, ?_⟩
  · intro other found data lookup given by_
    dsimp only at by_ ⊢
    rcases flights_setFlight lookup with ⟨rfl, rfl⟩ | ⟨different, before⟩
    · rw [update_self]
      exact some.inj (assigned.symm.trans given)
    by_cases same : found.object = flight.object
    · rw [same, update_self, own] at by_
      exact absurd (some.inj by_).symm different
    · rw [update_of_ne same] at by_ ⊢
      exact consistent.views other found data before given by_
  · intro file other found saw lookup seen sound
    dsimp only
    rcases flights_setFlight lookup with ⟨rfl, rfl⟩ | ⟨different, before⟩
    · obtain ⟨lock, stored⟩ := fits.holds file saw seen sound
      exact ⟨lock, stored, fun _ => by rw [update_self, own]⟩
    obtain ⟨lock, stored, kept⟩ := consistent.holds file other found saw before seen sound
    refine ⟨lock, stored, fun given => ?_⟩
    by_cases same : found.object = flight.object
    · rw [alone file other found different before same sound] at given
      cases given
    · rw [update_of_ne same]
      exact kept given
  · intro other found lookup waits
    rcases flights_setFlight lookup with ⟨rfl, rfl⟩ | ⟨-, before⟩
    · exact fits.waiting waits
    · exact consistent.waiting other found before waits
  · intro other found saw next lookup settled
    rcases flights_setFlight lookup with ⟨rfl, rfl⟩ | ⟨-, before⟩
    · exact fits.answered saw next settled
    · exact consistent.answered other found saw next before settled
  · intro other found lookup
    rcases flights_setFlight lookup with ⟨rfl, rfl⟩ | ⟨-, before⟩
    · exact fits.early
    · exact consistent.early other found before
  · obtain ⟨order, linearized⟩ := consistent.linear
    exact ⟨order, (linearized.setFlight fits).transport rfl rfl
      fun other found saw lookup seen => Or.inl ⟨found, lookup, seen⟩⟩

theorem Flight.saw_of_assigned {data : AuthStorageData}
    (assigned : flight.assigned = some data) : ∃ saw, flight.saw = some saw := by
  obtain ⟨object, operation, compromised, phase⟩ := flight
  cases phase with
  | waiting => cases operation <;> cases assigned
  | called saw => exact ⟨saw, rfl⟩
  | settled saw next => exact ⟨saw, rfl⟩

/-- The view of an operation's object may be assigned: the operation holds the lock, or no
other one that holds it has assigned the view. -/
theorem Consistent.alone (consistent : Consistent first state)
    (fits : Fits state id flight) (seen : flight.saw = some saw)
    (others : state.file = true → flight.compromised = true → flight.Alone state id) :
    state.file = true → flight.Alone state id := by
  intro file other found different before same sound
  cases compromised : flight.compromised with
  | true => exact others file compromised other found different before same sound
  | false =>
    cases assigned : found.assigned with
    | none => rfl
    | some data =>
      obtain ⟨read, reads⟩ := Flight.saw_of_assigned assigned
      obtain ⟨lock, -⟩ := consistent.holds file other found read before reads sound
      obtain ⟨mine, -⟩ := fits.holds file saw seen compromised
      exact absurd (some.inj (lock.symm.trans mine)) different

theorem Fits.settled
    {next : Option AuthStorageData} (fits : Fits state id { flight with phase := .called saw })
    (answer : flight.operation.update saw = .ok next) :
    Fits state id { flight with phase := .settled saw next } where
  early := fits.early
  holds := fits.holds
  waiting same := by cases same
  answered saw' next' same := by
    cases same
    exact answer
  read := fits.read

/-- The callback of an operation that is under way, or about to be, answers. -/
theorem settle_outcome (consistent : Consistent first state)
    (fits : Fits state id { flight with phase := .called saw })
    (views : ∀ data, ({ flight with phase := .called saw } : Flight).assigned = some data →
      ((state.objects flight.object).assignedBy = some id →
        (state.objects flight.object).data = data) ∧
      (state.file = true → flight.compromised = false →
        (state.objects flight.object).assignedBy = some id))
    (upToDate : ∀ error, flight.operation.update saw = .error error →
      (state.objects flight.object).data = saw)
    (others : state.file = true → flight.compromised = true → flight.Alone state id) :
    Outcome first state (state.settle id flight saw).1 (state.settle id flight saw).2 := by
  obtain ⟨object, operation, compromised, phase⟩ := flight
  rw [State.settle]
  cases answer : operation.update saw with
  | error error =>
    refine ⟨consistent.drop id, fun _ => rfl, nofun, ?_⟩
    intro _ _ _ given
    cases given
    exact upToDate error answer
  | ok next =>
    have fits' := fits.settled answer
    have alone := consistent.alone fits' rfl others
    have loaded := consistent.advance
      { data := next.getD saw, loadError := none, assignedBy := some id } fits' rfl rfl alone
    cases operation with
    | set provider credential => exact .silent loaded rfl nofun nofun
    | remove provider => exact .silent loaded rfl nofun nofun
    | delete provider => exact .silent loaded rfl nofun nofun
    | modify provider fn =>
      cases next with
      | none =>
        have kept := consistent.advance
          { state.objects object with data := saw, assignedBy := some id } fits' rfl rfl alone
        exact .silent kept rfl nofun nofun
      | some merged => exact .silent loaded rfl nofun nofun
    | refreshOAuthToken provider known now getOAuthApiKey =>
      cases next with
      | none => exact .silent (consistent.setFlight fits' views) rfl nofun nofun
      | some merged => exact .silent loaded rfl nofun nofun

/-- An operation reads the store: on the file backend it has just got the lock. -/
theorem enter_outcome (consistent : Consistent first state) (early : id ≤ state.clock)
    (sound : flight.compromised = false) (holds : state.file = true → state.lock = some id) :
    Outcome first state (state.enter id flight).1 (state.enter id flight).2 := by
  obtain ⟨object, operation, compromised, phase⟩ := flight
  rw [State.enter]
  cases parsed : parseStorageData state.content with
  | error error => exact .silent (consistent.drop id) rfl nofun nofun
  | ok saw =>
    have fits : Fits state id ⟨object, operation, compromised, .called saw⟩ :=
      { early := early
        holds := fun file saw' same _ => by
          cases same
          exact ⟨holds file, parsed⟩
        waiting := nofun
        answered := nofun
        read := fun saw' same => by
          cases same
          exact Or.inr parsed }
    have waits : state.file = true → compromised = true →
        Flight.Alone state id ⟨object, operation, compromised, .called saw⟩ := by
      intro _ isCompromised
      cases isCompromised.symm.trans sound
    cases operation with
    | set provider credential =>
      exact .silent (consistent.setFlight fits nofun) rfl nofun nofun
    | remove provider => exact .silent (consistent.setFlight fits nofun) rfl nofun nofun
    | modify provider fn => exact .silent (consistent.setFlight fits nofun) rfl nofun nofun
    | delete provider => exact settle_outcome consistent fits nofun nofun waits
    | refreshOAuthToken provider known now getOAuthApiKey =>
      have assigned := consistent.advance
        { data := saw, loadError := none, assignedBy := some id } fits rfl rfl
        (consistent.alone fits rfl waits)
      exact .silent assigned rfl nofun nofun

end Recode.Auth

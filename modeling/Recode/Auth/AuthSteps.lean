import Recode.Auth.AuthStorage

/-! # Steps of credential operations

What the steps of the operations keep, when the backend holds its lock over the time of
an asynchronous operation, or nothing else is stored meanwhile. -/

namespace Recode.Auth

open Function List

variable {first : Content} {state after : State}

def Operation.apply (data : AuthStorageData) (operation : Operation) : AuthStorageData :=
  match operation.update data with
  | .ok (some next) => next
  | _ => data

def Flight.saw (flight : Flight) : Option AuthStorageData :=
  match flight.phase with
  | .waiting => none
  | .called saw => some saw
  | .settled saw _ => some saw

/-- The view that an asynchronous operation has assigned so far. -/
def Flight.assigned (flight : Flight) : Option AuthStorageData :=
  match flight.phase, flight.operation with
  | .called saw, .refreshOAuthToken .. => some saw
  | .settled saw next, _ => some (next.getD saw)
  | _, _ => none

def replay (order : List Finished) (data : AuthStorageData) : AuthStorageData :=
  order.foldl (fun data one => one.operation.apply data) data

/-- An order of the operations that returned explains the store, and for each operation
under way some front of it explains what that operation read. -/
structure Linearized (first : Content) (state : State) (order : List Finished) : Prop where
  perm : order.Perm state.finished
  /-- No operation stands before one that had returned when it was called. -/
  respects : order.Pairwise fun one other => one.invoked ≤ other.returned
  stored : parseStorageData state.content = (parseStorageData first).map (replay order)
  read : ∀ id flight saw, state.flights id = some flight → flight.saw = some saw →
    ∃ front back, order = front ++ back ∧
      (parseStorageData first).map (replay front) = .ok saw ∧ ∀ one ∈ back, id ≤ one.returned

/-- What holds between steps: views and the lock belong to the operations under way, and
the store to those that returned. -/
structure Consistent (first : Content) (state : State) : Prop where
  views : ∀ id flight data, state.flights id = some flight → flight.assigned = some data →
    (state.objects flight.object).assignedBy = some id → (state.objects flight.object).data = data
  holds : state.file = true → ∀ id flight saw, state.flights id = some flight →
    flight.saw = some saw → flight.compromised = false →
      state.lock = some id ∧ parseStorageData state.content = .ok saw ∧
        (flight.assigned.isSome = true → (state.objects flight.object).assignedBy = some id)
  waiting : ∀ id flight, state.flights id = some flight → flight.phase = .waiting →
    flight.compromised = false
  answered : ∀ id flight saw next, state.flights id = some flight →
    flight.phase = .settled saw next → flight.operation.update saw = .ok next
  early : ∀ id flight, state.flights id = some flight → id ≤ state.clock
  times : ∀ one ∈ state.finished, one.invoked ≤ state.clock ∧ one.returned ≤ state.clock
  linear : ∃ order, Linearized first state order

/-- What a step leaves: what the store holds changes only when an operation returns, and
the object that gets an answer has the view that belongs to it. -/
structure Outcome (first : Content) (state after : State) (reply : Reply) : Prop where
  consistent : Consistent first after
  kept : (∀ object saw wrote, reply ≠ .returned object saw wrote) →
    parseStorageData after.content = parseStorageData state.content
  view : ∀ object saw wrote, reply = .returned object (some saw) wrote →
    (after.objects object).data = wrote.getD saw
  rejected : ∀ object saw error, reply = .rejected object (some saw) error →
    (after.objects object).data = saw

theorem parse_entered (state : State) :
    parseStorageData state.entered = parseStorageData state.content := by
  unfold State.entered
  split
  · rename_i missing
    rw [missing]
    rfl
  · rfl

/-- An order goes on explaining a store that did not change, when every operation under
way has read what it had read, or what is stored. -/
theorem Linearized.transport {order : List Finished} (linearized : Linearized first state order)
    (finished : after.finished = state.finished)
    (same : parseStorageData after.content = parseStorageData state.content)
    (read : ∀ id flight saw, after.flights id = some flight → flight.saw = some saw →
      (∃ old, state.flights id = some old ∧ old.saw = some saw) ∨
        parseStorageData state.content = .ok saw) : Linearized first after order where
  perm := finished ▸ linearized.perm
  respects := linearized.respects
  stored := same.trans linearized.stored
  read id flight saw found seen := by
    rcases read id flight saw found seen with ⟨old, before, saw'⟩ | now
    · exact linearized.read id old saw before saw'
    · exact ⟨order, [], (append_nil order).symm, linearized.stored.symm.trans now,
        fun _ member => absurd member not_mem_nil⟩

theorem Consistent.initial (file : Bool) (content : Content) :
    Consistent content { file := file, content := content } where
  views _ _ _ found := nomatch found
  holds _ _ _ _ found := nomatch found
  waiting _ _ found := nomatch found
  answered _ _ _ _ found := nomatch found
  early _ _ found := nomatch found
  times _ member := nomatch member
  linear := by
    refine ⟨[], List.Perm.refl _, List.Pairwise.nil, ?_, nofun⟩
    change parseStorageData content = (parseStorageData content).map (replay [])
    cases parseStorageData content with
    | ok data => rfl
    | error error => rfl

/-- When no operation enters and the store says the same, what is left to tell is who holds the
lock and whose views the objects have. -/
theorem Consistent.transport (consistent : Consistent first state)
    (remains : ∀ id flight, after.flights id = some flight → state.flights id = some flight)
    (finished : after.finished = state.finished) (later : state.clock ≤ after.clock)
    (same : parseStorageData after.content = parseStorageData state.content)
    (views : ∀ id flight data, after.flights id = some flight → flight.assigned = some data →
      (after.objects flight.object).assignedBy = some id →
        (after.objects flight.object).data = data)
    (holds : after.file = true → ∀ id flight saw, after.flights id = some flight →
      flight.saw = some saw → flight.compromised = false →
        after.lock = some id ∧ parseStorageData after.content = .ok saw ∧
          (flight.assigned.isSome = true →
            (after.objects flight.object).assignedBy = some id)) : Consistent first after where
  views := views
  holds := holds
  waiting id flight found := consistent.waiting id flight (remains id flight found)
  answered id flight saw next found :=
    consistent.answered id flight saw next (remains id flight found)
  early id flight found := (consistent.early id flight (remains id flight found)).trans later
  times one member :=
    (consistent.times one (finished ▸ member)).imp later.trans' later.trans'
  linear := by
    obtain ⟨order, linearized⟩ := consistent.linear
    exact ⟨order, linearized.transport finished same fun id flight saw found seen =>
      Or.inl ⟨flight, remains id flight found, seen⟩⟩

theorem Consistent.tick (consistent : Consistent first state) :
    Consistent first { state with clock := state.clock + 1 } :=
  consistent.transport (fun _ _ => id) rfl (Nat.le_succ _) rfl consistent.views consistent.holds

/-- The content may change its form, but not what it says. -/
theorem Consistent.rewrite (consistent : Consistent first state) {content : Content}
    (same : parseStorageData content = parseStorageData state.content) :
    Consistent first { state with content := content } := by
  refine consistent.transport (fun _ _ => id) rfl (Nat.le_refl _) same consistent.views ?_
  intro file id flight saw found seen sound
  obtain ⟨lock, stored, assigned⟩ := consistent.holds file id flight saw found seen sound
  exact ⟨lock, same.trans stored, assigned⟩

/-- No operation holds the lock of the file backend. -/
def State.Free (state : State) : Prop :=
  state.file = true → state.lock = none

theorem Consistent.no_holder (consistent : Consistent first state) (free : state.Free)
    (file : state.file = true) {id : Nat} {flight : Flight} {saw : AuthStorageData}
    (found : state.flights id = some flight) (seen : flight.saw = some saw)
    (sound : flight.compromised = false) : False := by
  obtain ⟨lock, -⟩ := consistent.holds file id flight saw found seen sound
  rw [free file] at lock
  cases lock

/-- An object gets a new view while no operation holds the lock, or keeps its view. -/
theorem Consistent.object (consistent : Consistent first state) (object : Nat) (new : AuthObject)
    (own : new.assignedBy = none ∧ state.Free ∨
      new.assignedBy = (state.objects object).assignedBy ∧ new.data = (state.objects object).data) :
    Consistent first { state with objects := update state.objects object new } := by
  refine consistent.transport (fun _ _ => id) rfl (Nat.le_refl _) rfl ?_ ?_
  · intro id flight data found assigned by_
    dsimp only at found by_ ⊢
    by_cases same : flight.object = object
    · subst same
      rw [update_self] at by_ ⊢
      rcases own with ⟨none, -⟩ | ⟨before, view⟩
      · rw [none] at by_
        cases by_
      · rw [view]
        exact consistent.views id flight data found assigned (before ▸ by_)
    · rw [update_of_ne same] at by_ ⊢
      exact consistent.views id flight data found assigned by_
  · intro file id flight saw found seen sound
    rcases own with ⟨-, free⟩ | ⟨before, -⟩
    · exact (consistent.no_holder free file found seen sound).elim
    obtain ⟨lock, stored, assigned⟩ := consistent.holds file id flight saw found seen sound
    refine ⟨lock, stored, fun given => ?_⟩
    dsimp only
    by_cases same : flight.object = object
    · subst same
      rw [update_self, before]
      exact assigned given
    · rw [update_of_ne same]
      exact assigned given

/-- An operation returns that changed the store while no other one held it. -/
theorem Consistent.finish (consistent : Consistent first state) (content : Content)
    (operation : Operation) (invoked : Nat) (free : state.Free) (early : invoked ≤ state.clock)
    (applied : parseStorageData content =
      (parseStorageData state.content).map fun data => operation.apply data) :
    Consistent first ({ state with content := content }.finish operation invoked) where
  views := consistent.views
  holds file id flight saw found seen sound :=
    (consistent.no_holder free file found seen sound).elim
  waiting := consistent.waiting
  answered := consistent.answered
  early := consistent.early
  times one member := by
    rcases mem_append.mp member with member | member
    · exact consistent.times one member
    · obtain rfl := mem_singleton.mp member
      exact ⟨early, Nat.le_refl _⟩
  linear := by
    obtain ⟨order, linearized⟩ := consistent.linear
    refine ⟨order ++ [⟨operation, invoked, state.clock⟩], linearized.perm.append_right _,
      ?_, ?_, ?_⟩
    · rw [pairwise_append]
      refine ⟨linearized.respects, pairwise_singleton _ _, ?_⟩
      intro one member other single
      obtain rfl := mem_singleton.mp single
      exact (consistent.times one (linearized.perm.mem_iff.mp member)).1
    · rw [State.finish]
      dsimp only
      rw [applied, linearized.stored]
      cases parseStorageData first with
      | error error => rfl
      | ok data =>
        change Except.ok _ = Except.ok _
        rw [replay, replay, foldl_append]
        rfl
    · intro id flight saw found seen
      obtain ⟨front, back, split, read, later⟩ := linearized.read id flight saw found seen
      refine ⟨front, back ++ [⟨operation, invoked, state.clock⟩], ?_, read, ?_⟩
      · rw [split, append_assoc]
      · intro one member
        rcases mem_append.mp member with member | member
        · exact later one member
        · obtain rfl := mem_singleton.mp member
          exact consistent.early id flight found

theorem apply_changeOf (data : AuthStorageData) (provider : String)
    (credential : Option AuthCredential) :
    (State.changeOf provider credential).apply data =
      update data provider credential := by
  cases credential <;> rfl

/-- What creating the file leaves says what was stored. -/
def Access.Keeps (state : State) : Access → Prop
  | .fails left _ => parseStorageData left = parseStorageData state.content
  | .granted => True

def Written.Keeps (state : State) : Written → Prop
  | .done => True
  | .fails left _ => parseStorageData left = parseStorageData state.content
  | .throwsAfter _ => False

variable {access : Access}

theorem Access.Locks.free (locks : access.Locks state)
    (granted : access = .granted) : state.Free := by
  subst granted
  exact fun _ => locks

/-- What a step leaves that gives no answer of an operation. -/
theorem Outcome.silent {reply : Reply} (consistent : Consistent first after)
    (same : parseStorageData after.content = parseStorageData state.content)
    (returned : ∀ object saw wrote, reply ≠ .returned object (some saw) wrote)
    (rejected : ∀ object saw error, reply ≠ .rejected object (some saw) error) :
    Outcome first state after reply where
  consistent := consistent
  kept _ := same
  view object saw wrote given := absurd given (returned object saw wrote)
  rejected object saw error given := absurd given (rejected object saw error)

/-- What a reload leaves: the store as it was, and a view that could be loaded is what the
store says. -/
structure Reloaded (first : Content) (state after : State) (object : Nat) : Prop where
  consistent : Consistent first after
  same : parseStorageData after.content = parseStorageData state.content
  file : after.file = state.file
  lock : after.lock = state.lock
  clock : after.clock = state.clock
  loaded : (after.objects object).loadError = none →
    parseStorageData after.content = .ok (after.objects object).data

theorem reload_reloaded (object : Nat) (consistent : Consistent first state)
    (locks : access.Locks state) (keeps : access.Keeps state) :
    Reloaded first state (state.reload object access) object := by
  cases access with
  | fails left error =>
    refine ⟨Consistent.object (consistent.rewrite keeps) _ _ (Or.inr ⟨rfl, rfl⟩), keeps,
      rfl, rfl, rfl, ?_⟩
    intro loaded
    rw [State.reload, State.failLoad] at loaded
    dsimp only at loaded
    rw [update_self] at loaded
    cases loaded
  | granted =>
    have same := parse_entered state
    rw [State.reload]
    split
    · refine ⟨Consistent.object (consistent.rewrite same) _ _ (Or.inr ⟨rfl, rfl⟩), same,
        rfl, rfl, rfl, ?_⟩
      intro loaded
      rw [State.failLoad] at loaded
      dsimp only at loaded
      rw [update_self] at loaded
      cases loaded
    · rename_i data parsed
      refine ⟨Consistent.object (consistent.rewrite same) _ _ (Or.inl ⟨rfl, locks.free rfl⟩),
        same, rfl, rfl, rfl, ?_⟩
      intro _
      rw [State.assign]
      dsimp only
      rw [update_self, parsed]

/-- A change of a provider with access to the store. -/
theorem storeChange_outcome (object : Nat) (provider : String)
    (credential : Option AuthCredential) {written : Written}
    (consistent : Consistent first state) (free : access = .granted → state.Free)
    (keeps : access.Keeps state) (writes : written.Keeps state)
    (fresh : access = .granted → written ≠ .done → ∀ current,
      parseStorageData state.content = .ok current → (state.objects object).data = current) :
    Outcome first state (state.storeChange object provider credential written access).1
      (state.storeChange object provider credential written access).2 := by
  cases access with
  | fails left error => exact .silent (consistent.rewrite keeps) keeps nofun nofun
  | granted =>
    have same := parse_entered state
    have free := free rfl
    rw [State.storeChange]
    split
    · exact .silent (consistent.rewrite same) same nofun nofun
    rename_i current parsed
    rw [same] at parsed
    cases written with
    | done =>
      have assigned := consistent.object object
        { data := update current provider credential, loadError := none,
          assignedBy := none } (Or.inl ⟨rfl, free⟩)
      have finished := assigned.finish
        (.data (update current provider credential))
        (State.changeOf provider credential) state.clock free (Nat.le_refl _) (by
          dsimp only
          rw [parsed, parseStorageData]
          exact congrArg Except.ok (apply_changeOf current provider credential).symm)
      refine ⟨finished, fun silent => (silent _ _ _ rfl).elim, ?_, nofun⟩
      intro _ saw wrote given
      cases given
      change (update state.objects object _ object).data = _
      rw [update_self]
      rfl
    | fails left error =>
      refine ⟨consistent.rewrite writes, fun _ => writes, nofun, ?_⟩
      intro _ saw _ given
      cases given
      exact fresh rfl nofun current parsed
    | throwsAfter error => exact writes.elim

/-- The view of an object is what the store says, if that can be parsed. -/
def State.UpToDate (state : State) (object : Nat) : Prop :=
  ∀ current, parseStorageData state.content = .ok current → (state.objects object).data = current

theorem persistProviderChange_outcome {object : Nat} {provider : String}
    {credential : Option AuthCredential} {reloadAccess access : Access} {written : Written}
    (consistent : Consistent first state) (reloadLocks : reloadAccess.Locks state)
    (locks : access.Locks state) (reloadKeeps : reloadAccess.Keeps state)
    (keeps : access.Keeps state) (writes : written.Keeps state)
    (fresh : (state.objects object).loadError = none → access = .granted → written ≠ .done →
      state.UpToDate object) :
    Outcome first state
      (state.persistProviderChange object provider credential reloadAccess access written).1
      (state.persistProviderChange object provider credential reloadAccess access written).2 := by
  rw [State.persistProviderChange]
  split
  · rename_i loaded
    exact storeChange_outcome object provider credential consistent locks.free keeps writes
        (fresh loaded)
  have reloaded := reload_reloaded object consistent reloadLocks reloadKeeps
  dsimp only
  split
  · rename_i loaded
    have stored := reloaded.loaded loaded
    have keeps' : access.Keeps (state.reload object reloadAccess) := by
      cases access with
      | fails left error => exact keeps.trans reloaded.same.symm
      | granted => trivial
    have writes' : written.Keeps (state.reload object reloadAccess) := by
      cases written with
      | done => trivial
      | fails left error => exact writes.trans reloaded.same.symm
      | throwsAfter error => exact writes
    have changed := storeChange_outcome object provider credential reloaded.consistent
      (fun granted file => by
        rw [reloaded.lock]
        exact locks.free granted (reloaded.file ▸ file)) keeps' writes'
      (fun _ _ current parsed => Except.ok.inj (stored.symm.trans parsed))
    exact ⟨changed.consistent, fun silent => (changed.kept silent).trans reloaded.same,
      changed.view, changed.rejected⟩
  · exact .silent reloaded.consistent reloaded.same nofun nofun

end Recode.Auth

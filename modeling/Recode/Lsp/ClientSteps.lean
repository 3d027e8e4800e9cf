import Recode.Lsp.Clients

/-! # What the steps of clients keep

Creations that may still come to something hold the lock of their key, and the maps have
the clients that are starting and those that are ready. -/

namespace Recode.Lsp

open Function Option Clients

variable {state after : Clients}

/-- A stage that the client of a creation passes through while it starts. -/
def Stage.Running : Stage → Prop
  | .wrapping | .returned | .threw | .settled => False
  | _ => True

/-- A creation that may still become ready. -/
def Promising (creation : Creation) : Prop :=
  match creation.client with
  | none => creation.stage = .wrapping
  | some client => client.state = .starting ∨
      client.state = .error ∧ (creation.stage = .writing true ∨ creation.stage = .written true)

/-- What is true of a creation between steps. -/
structure Fits (state : Clients) (id : Nat) (creation : Creation) : Prop where
  promising : Promising creation →
    state.locks creation.key = some id ∧ state.clients creation.key = none
  starting : ∀ client, creation.client = some client → client.state = .starting →
    state.initializing creation.key = some id ∧ client.failed = false ∧ creation.stage.Running
  ready : ∀ client, creation.client = some client → client.state = .ready →
    state.clients creation.key = some id ∧ (creation.stage = .returned ∨ creation.stage = .settled)
  error : ∀ client, creation.client = some client → client.state = .error → client.failed = true
  unspawned : creation.stage = .wrapping → creation.client = none

/-- What holds between steps: each map has the clients it is for. -/
structure Consistent (state : Clients) : Prop where
  fits : ∀ id creation, state.creations id = some creation → Fits state id creation
  clients : ∀ key id, state.clients key = some id → ∃ creation client,
    state.Has id creation client ∧ creation.key = key ∧ client.state = .ready
  initializing : ∀ key id, state.initializing key = some id → ∃ creation client,
    state.Has id creation client ∧ creation.key = key ∧ client.state = .starting
  fresh : ∀ id, state.next ≤ id → state.creations id = none

theorem consistent_initial : Consistent {} where
  fits _ _ found := by cases found
  clients _ _ found := by cases found
  initializing _ _ found := by cases found
  fresh _ _ := rfl

variable {creation : Creation} {client : LspClient} {id : Nat} {key : String}

/-- A client that starts makes its creation promising. -/
theorem promising_of_starting (found : creation.client = some client)
    (starting : client.state = .starting) : Promising creation := by
  rw [Promising, found]
  exact Or.inl starting

section

variable (consistent : Consistent state)
include consistent

theorem Consistent.change (id : Nat) (creation : Creation)
    (creations : after.creations = update state.creations id (some creation))
    (next : state.next ≤ after.next) (known : id < after.next) (clients : ∀ key other, other ≠ id →
      (after.clients key = some other ↔ state.clients key = some other))
    (initializing : ∀ key other, other ≠ id →
      (after.initializing key = some other ↔ state.initializing key = some other))
    (others : ∀ other found, other ≠ id → state.creations other = some found →
      Promising found → after.locks found.key = state.locks found.key ∧
        after.clients found.key ≠ some id) (fits : Fits after id creation)
    (ready : ∀ key, after.clients key = some id → creation.key = key ∧
      ∃ client, creation.client = some client ∧ client.state = .ready)
    (starting : ∀ key, after.initializing key = some id → creation.key = key ∧
      ∃ client, creation.client = some client ∧ client.state = .starting) : Consistent after := by
  have own : after.creations id = some creation := by rw [creations, update_self]
  have kept (other : Nat) (different : other ≠ id) :
      after.creations other = state.creations other := by
    rw [creations, update_of_ne different]
  refine ⟨?_, ?_, ?_, ?_⟩
  · intro other found lookup
    by_cases same : other = id
    · subst same
      obtain rfl := some.inj (own.symm.trans lookup)
      exact fits
    rw [kept other same] at lookup
    have before := consistent.fits other found lookup
    refine ⟨?_, ?_, ?_, before.error, before.unspawned⟩
    · intro promising
      obtain ⟨lock, none⟩ := before.promising promising
      obtain ⟨locks, notOwn⟩ := others other found same lookup promising
      refine ⟨locks.trans lock, ?_⟩
      cases entry : after.clients found.key with
      | none => rfl
      | some registered =>
        by_cases mine : registered = id
        · exact absurd (mine ▸ entry) notOwn
        · rw [clients found.key registered mine, none] at entry
          cases entry
    · intro client spawned starts
      obtain ⟨entry, rest⟩ := before.starting client spawned starts
      exact ⟨(initializing found.key other same).mpr entry, rest⟩
    · intro client spawned isReady
      obtain ⟨entry, rest⟩ := before.ready client spawned isReady
      exact ⟨(clients found.key other same).mpr entry, rest⟩
  · intro key other entry
    by_cases same : other = id
    · subst same
      obtain ⟨named, client, spawned, isReady⟩ := ready key entry
      exact ⟨creation, client, ⟨own, spawned⟩, named, isReady⟩
    · obtain ⟨found, client, has, rest⟩ :=
        consistent.clients key other ((clients key other same).mp entry)
      exact ⟨found, client, ⟨(kept other same).trans has.1, has.2⟩, rest⟩
  · intro key other entry
    by_cases same : other = id
    · subst same
      obtain ⟨named, client, spawned, starts⟩ := starting key entry
      exact ⟨creation, client, ⟨own, spawned⟩, named, starts⟩
    · obtain ⟨found, client, has, rest⟩ :=
        consistent.initializing key other ((initializing key other same).mp entry)
      exact ⟨found, client, ⟨(kept other same).trans has.1, has.2⟩, rest⟩
  · intro other beyond
    have different : other ≠ id := by omega
    rw [kept other different]
    exact consistent.fresh other (Nat.le_trans next beyond)

theorem Consistent.known (found : state.creations id = some creation) : id < state.next := by
  by_contra beyond
  rw [consistent.fresh id (Nat.le_of_not_lt beyond)] at found
  cases found

theorem Consistent.promising_unique {id other : Nat}
    {creation found : Creation} (one : state.creations id = some creation)
    (two : state.creations other = some found) (first : Promising creation)
    (second : Promising found) (same : found.key = creation.key) : other = id := by
  obtain ⟨lock, -⟩ := (consistent.fits id creation one).promising first
  obtain ⟨lock', -⟩ := (consistent.fits other found two).promising second
  rw [same, lock] at lock'
  exact (some.inj lock').symm

theorem Consistent.unregistered {id other : Nat} (found : state.creations id = some creation)
    (promising : Promising creation) : state.clients creation.key ≠ some other := by
  rw [((consistent.fits id creation found).promising promising).2]
  exact nofun

section

variable (found : state.creations id = some creation)
include found

theorem Consistent.own_initializing
    (entry : state.initializing key = some id) : creation.key = key ∧
      ∃ client, creation.client = some client ∧ client.state = .starting := by
  obtain ⟨found', client, has, named, starts⟩ := consistent.initializing key id entry
  obtain rfl := some.inj (found.symm.trans has.1)
  exact ⟨named, client, has.2, starts⟩

theorem Consistent.own_clients (entry : state.clients key = some id) : creation.key = key ∧
      ∃ client, creation.client = some client ∧ client.state = .ready := by
  obtain ⟨found', client, has, named, isReady⟩ := consistent.clients key id entry
  obtain rfl := some.inj (found.symm.trans has.1)
  exact ⟨named, client, has.2, isReady⟩

/-- A creation gets to another stage, and the maps stay as they are. -/
theorem Consistent.restage (stage : Stage)
    (promises : Promising { creation with stage := stage } → Promising creation)
    (running : ∀ client, creation.client = some client → client.state = .starting → stage.Running)
    (unready : ∀ client, creation.client = some client → client.state ≠ .ready)
    (spawned : stage ≠ .wrapping) :
    Consistent (state.setCreation id { creation with stage := stage }) := by
  have before := consistent.fits id creation found
  refine consistent.change id { creation with stage := stage } rfl (Nat.le_refl _)
    (consistent.known found) (fun _ _ _ => Iff.rfl) (fun _ _ _ => Iff.rfl) ?_ ?_ ?_ ?_
  · intro other other' different lookup promising
    exact ⟨rfl, consistent.unregistered lookup promising⟩
  · refine ⟨fun promising => before.promising (promises promising), ?_, ?_, before.error, ?_⟩
    · intro client has starts
      obtain ⟨entry, healthy, -⟩ := before.starting client has starts
      exact ⟨entry, healthy, running client has starts⟩
    · exact fun client has isReady => (unready client has isReady).elim
    · exact fun wraps => (spawned wraps).elim
  · exact fun key entry => (consistent.own_clients found entry :)
  · exact fun key entry => (consistent.own_initializing found entry :)

end

end

variable {map : String → Option Nat}

theorem remove_eq_some {key other : String} :
    remove map key other = some id ↔ other ≠ key ∧ map other = some id := by
  rw [remove]
  by_cases same : other = key
  · subst same
    rw [update_self]
    exact ⟨fun entry => (by cases entry), fun entry => (entry.1 rfl).elim⟩
  · rw [update_of_ne same]
    exact ⟨fun entry => ⟨same, entry⟩, fun entry => entry.2⟩

section

variable (consistent : Consistent state)
include consistent

theorem Consistent.mine {id other : Nat}
    (found : state.creations id = some creation) (promising : Promising creation)
    (entry : state.initializing creation.key = some other) : other = id := by
  obtain ⟨found', client, has, named, starts⟩ := consistent.initializing creation.key other entry
  exact consistent.promising_unique found has.1 promising
    (promising_of_starting has.2 starts) named

theorem Consistent.mine_ready
    (has : state.Has id creation client) (isReady : client.state = .ready) :
    state.clients creation.key = some id ∧ state.initializing creation.key = none := by
  have registered := ((consistent.fits id creation has.1).ready client has.2 isReady).1
  refine ⟨registered, ?_⟩
  cases entry : state.initializing creation.key with
  | none => rfl
  | some other =>
    obtain ⟨found, client', has', named, starts⟩ :=
      consistent.initializing creation.key other entry
    rw [← named] at registered
    exact absurd registered
      (consistent.unregistered has'.1 (promising_of_starting has'.2 starts))

theorem Consistent.alone (has : state.Has id creation client)
    (lives : client.state = .starting ∨ client.state = .ready) :
    (∀ other, state.clients creation.key = some other → other = id) ∧
      ∀ other, state.initializing creation.key = some other → other = id := by
  rcases lives with starts | isReady
  · have promising := promising_of_starting has.2 starts
    exact ⟨fun other entry => absurd entry (consistent.unregistered has.1 promising),
      fun other entry => consistent.mine has.1 promising entry⟩
  obtain ⟨registered, none⟩ := consistent.mine_ready has isReady
  refine ⟨fun other entry => ?_, fun other entry => ?_⟩
  · rw [registered] at entry
    exact (some.inj entry).symm
  · rw [none] at entry
    cases entry

theorem Consistent.lives (has : state.Has id creation client)
    (sound : ¬ (client.state = .stopped ∨ client.failed = true)) :
    client.state = .starting ∨ client.state = .ready := by
  rw [not_or] at sound
  cases current : client.state with
  | starting => exact Or.inl rfl
  | ready => exact Or.inr rfl
  | error => exact (sound.2 ((consistent.fits id creation has.1).error client has.2 current)).elim
  | stopped => exact (sound.1 current).elim

end

theorem remove_others (own : ∀ other, map key = some other → other = id) (place : String)
    (other : Nat) (different : other ≠ id) :
    remove map key place = some other ↔ map place = some other := by
  rw [remove_eq_some]
  refine ⟨fun entry => entry.2, fun entry => ⟨?_, entry⟩⟩
  rintro rfl
  exact different (own other entry)

/-- What is left of a map without the entries of a creation. -/
structure Without (map after : String → Option Nat) (id : Nat) : Prop where
  others : ∀ key other, other ≠ id → (after key = some other ↔ map key = some other)
  gone : ∀ key, after key ≠ some id

/-- Taking out the entry under a key that only a creation has entries under. -/
theorem without_remove (own : ∀ other, map key = some other → other = id)
    (only : ∀ other, map other = some id → key = other) :
    Without map (remove map key) id where
  others place other different := by
    rw [remove_eq_some]
    refine ⟨fun entry => entry.2, fun entry => ⟨?_, entry⟩⟩
    rintro rfl
    exact different (own other entry)
  gone place entry := by
    obtain ⟨different, entry⟩ := remove_eq_some.mp entry
    exact different (only place entry).symm

section

variable (consistent : Consistent state) (has : state.Has id creation client)
include consistent has

theorem Consistent.retire (stage : Stage)
    (last : LspClient) (gone : last.state = .stopped ∨ last.state = .error ∧ last.failed = true)
    (spawned : stage ≠ .wrapping) {clients initializing locks : String → Option Nat}
    (leaves : Without state.clients clients id)
    (leavesStarting : Without state.initializing initializing id)
    (promises : Promising { creation with stage := stage, client := some last } →
      locks creation.key = some id ∧ clients creation.key = none)
    (others : ∀ other found, other ≠ id → state.creations other = some found →
      Promising found → locks found.key = state.locks found.key) :
    Consistent { state.setCreation id { creation with stage := stage, client := some last } with
      clients := clients, initializing := initializing, locks := locks } := by
  refine consistent.change id _ rfl (Nat.le_refl _) (consistent.known has.1) leaves.others
    leavesStarting.others ?_ ?_ ?_ ?_
  · intro other found different lookup promising
    exact ⟨others other found different lookup promising, leaves.gone _⟩
  · refine ⟨promises, ?_, ?_, ?_, fun wraps => (spawned wraps).elim⟩
    · intro client' spawned' starts
      obtain rfl := some.inj spawned'
      rcases gone with stops | ⟨isError, -⟩
      · cases stops.symm.trans starts
      · cases isError.symm.trans starts
    · intro client' spawned' isReady
      obtain rfl := some.inj spawned'
      rcases gone with stops | ⟨isError, -⟩
      · cases stops.symm.trans isReady
      · cases isError.symm.trans isReady
    · intro client' spawned' isError
      obtain rfl := some.inj spawned'
      rcases gone with stops | ⟨-, failed⟩
      · cases stops.symm.trans isError
      · exact failed
  · exact fun key entry => (leaves.gone key entry).elim
  · exact fun key entry => (leavesStarting.gone key entry).elim

theorem Consistent.leaves (lives : client.state = .starting ∨ client.state = .ready) :
    Without state.clients (remove state.clients creation.key) id ∧
      Without state.initializing (remove state.initializing creation.key) id := by
  obtain ⟨registered, starting⟩ := consistent.alone has lives
  exact ⟨without_remove registered fun key entry => (consistent.own_clients has.1 entry).1,
    without_remove starting fun key entry => (consistent.own_initializing has.1 entry).1⟩

theorem Consistent.not_last (isReady : client.state = .ready)
    {second : Bool} : creation.stage ≠ .writing second ∧ creation.stage ≠ .written second := by
  rcases ((consistent.fits id creation has.1).ready client has.2 isReady).2 with stage | stage
  · rw [stage]
    exact ⟨fun same => (by cases same), nofun⟩
  · rw [stage]
    exact ⟨fun same => (by cases same), nofun⟩

end

theorem reject_wrapping {stage : Stage} (spawned : stage ≠ .wrapping) :
    Stage.reject stage ≠ .wrapping := by
  cases stage with
  | wrapping => exact spawned
  | initializing => exact nofun
  | _ => exact spawned

theorem Consistent.spawned (consistent : Consistent state)
    (has : state.Has id creation client) : creation.stage ≠ .wrapping := by
  intro wraps
  have none := (consistent.fits id creation has.1).unspawned wraps
  rw [has.2] at none
  cases none

theorem reject_last {stage : Stage}
    (last : Stage.reject stage = .writing true ∨ Stage.reject stage = .written true) :
    stage = .writing true ∨ stage = .written true := by
  cases stage with
  | initializing => rcases last with last | last <;> cases last
  | _ => exact last

section

variable (consistent : Consistent state)
include consistent

theorem Consistent.fail (has : state.Has id creation client) :
    Consistent (state.fail id creation client) := by
  rw [Clients.fail]
  split
  · exact consistent
  rename_i sound
  have lives := consistent.lives has sound
  obtain ⟨leaves, leavesStarting⟩ := consistent.leaves has lives
  refine consistent.retire has _ _ (Or.inr ⟨rfl, rfl⟩) (reject_wrapping (consistent.spawned has))
    leaves leavesStarting ?_ fun _ _ _ _ _ => rfl
  intro promising
  refine ⟨?_, update_self ..⟩
  rcases promising with starts | ⟨-, last⟩
  · cases starts
  rcases lives with starts | isReady
  · exact ((consistent.fits id creation has.1).promising (promising_of_starting has.2 starts)).1
  · rcases reject_last last with last | last
    · exact ((consistent.not_last has isReady).1 last).elim
    · exact ((consistent.not_last has isReady).2 last).elim

theorem Consistent.ready (has : state.Has id creation client)
    (last : creation.stage = .written true) (unstopped : client.state ≠ .stopped) :
    Consistent (state.ready id creation client) := by
  have before := consistent.fits id creation has.1
  have promising : Promising creation := by
    rw [Promising, has.2]
    cases current : client.state with
    | starting => exact Or.inl current
    | ready =>
      rcases (before.ready client has.2 current).2 with stage | stage
      · rw [last] at stage
        cases stage
      · rw [last] at stage
        cases stage
    | error => exact Or.inr ⟨current, Or.inr last⟩
    | stopped => exact (unstopped current).elim
  refine consistent.change id _ rfl (Nat.le_refl _) (consistent.known has.1) ?_
    (remove_others fun other entry => consistent.mine has.1 promising entry) ?_ ?_ ?_ ?_
  · intro key other different
    change update state.clients creation.key (some id) key = some other ↔ _
    by_cases same : key = creation.key
    · subst same
      rw [update_self]
      exact ⟨fun own => (different (some.inj own).symm).elim,
        fun entry => absurd entry (consistent.unregistered has.1 promising)⟩
    · rw [update_of_ne same]
  · intro other found different lookup promising'
    refine ⟨rfl, fun entry => ?_⟩
    change update state.clients creation.key (some id) found.key = some id at entry
    by_cases same : found.key = creation.key
    · exact different (consistent.promising_unique has.1 lookup promising promising' same)
    · rw [update_of_ne same] at entry
      exact consistent.unregistered lookup promising' entry
  · refine ⟨?_, ?_, ?_, ?_, ?_⟩
    · intro again
      rcases again with starts | ⟨isError, -⟩
      · cases starts
      · cases isError
    · intro client' spawned starts
      obtain rfl := some.inj spawned
      cases starts
    · intro client' spawned _
      exact ⟨update_self .., Or.inl rfl⟩
    · intro client' spawned isError
      obtain rfl := some.inj spawned
      cases isError
    · exact nofun
  · intro key entry
    refine ⟨?_, _, rfl, rfl⟩
    by_contra different
    change update state.clients creation.key (some id) key = some id at entry
    rw [update_of_ne (Ne.symm different)] at entry
    exact different (consistent.own_clients has.1 entry).1
  · intro key entry
    obtain ⟨different, entry⟩ := remove_eq_some.mp entry
    exact (different (consistent.own_initializing has.1 entry).1.symm).elim

theorem Consistent.spawn (found : state.creations id = some creation)
    (wraps : creation.stage = .wrapping) : Consistent (state.spawn id creation) := by
  have before := consistent.fits id creation found
  have promising : Promising creation := by
    rw [Promising, before.unspawned wraps]
    exact wraps
  refine consistent.change id { creation with stage := .initializing, client := some {} } rfl
    (Nat.le_refl _) (consistent.known found) (fun _ _ _ => Iff.rfl) ?_ ?_ ?_ ?_ ?_
  · intro key other different
    change update state.initializing creation.key (some id) key = some other ↔ _
    by_cases same : key = creation.key
    · subst same
      rw [update_self]
      exact ⟨fun own => (different (some.inj own).symm).elim,
        fun entry => (different (consistent.mine found promising entry)).elim⟩
    · rw [update_of_ne same]
  · intro other found' _ lookup promising'
    exact ⟨rfl, consistent.unregistered lookup promising'⟩
  · refine ⟨fun _ => before.promising promising, ?_, ?_, ?_, ?_⟩
    · intro client spawned _
      obtain rfl := some.inj spawned
      exact ⟨update_self .., rfl, trivial⟩
    · intro client spawned isReady
      obtain rfl := some.inj spawned
      cases isReady
    · intro client spawned isError
      obtain rfl := some.inj spawned
      cases isError
    · exact nofun
  · exact fun key entry => ((consistent.own_clients found entry).2.elim fun client has => by
      rw [before.unspawned wraps] at has
      cases has.1)
  · intro key entry
    refine ⟨?_, _, rfl, rfl⟩
    by_contra different
    change update state.initializing creation.key (some id) key = some id at entry
    rw [update_of_ne (Ne.symm different)] at entry
    exact different (consistent.own_initializing found entry).1

theorem Consistent.cleanUp
    (has : state.Has id creation client) (rejected : creation.stage = .rejected)
    (alone : ∀ other, state.initializing creation.key = some other → other = id) :
    Consistent (state.cleanUp id creation client) := by
  have unready : client.state ≠ .ready := by
    intro isReady
    rcases ((consistent.fits id creation has.1).ready client has.2 isReady).2 with stage | stage
    · cases rejected.symm.trans stage
    · cases rejected.symm.trans stage
  have leavesStarting := without_remove alone
    fun key entry => (consistent.own_initializing has.1 entry).1
  rw [Clients.cleanUp, Clients.fail]
  dsimp only
  by_cases gone : client.state = .stopped ∨ client.failed = true
  · rw [if_pos gone, if_pos gone]
    have stops : client.state = .stopped ∨ client.state = .error ∧ client.failed = true := by
      cases current : client.state with
      | starting =>
        have healthy := ((consistent.fits id creation has.1).starting client has.2 current).2.1
        rcases gone with stops | failed
        · cases current.symm.trans stops
        · cases healthy.symm.trans failed
      | ready => exact (unready current).elim
      | error => exact Or.inr ⟨rfl, (consistent.fits id creation has.1).error client has.2 current⟩
      | stopped => exact Or.inl rfl
    have leaves : Without state.clients state.clients id := by
      refine ⟨fun _ _ _ => Iff.rfl, fun key entry => ?_⟩
      obtain ⟨-, client', spawned, isReady⟩ := consistent.own_clients has.1 entry
      obtain rfl := some.inj (has.2.symm.trans spawned)
      exact unready isReady
    refine consistent.retire has .threw client stops nofun leaves leavesStarting ?_
      fun _ _ _ _ _ => rfl
    rintro (starts | ⟨-, last | last⟩)
    · rcases stops with stops | ⟨isError, -⟩
      · cases stops.symm.trans starts
      · cases isError.symm.trans starts
    · cases last
    · cases last
  · rw [if_neg gone, if_neg gone]
    obtain ⟨leaves, -⟩ := consistent.leaves has (consistent.lives has gone)
    have cleared : remove (remove state.initializing creation.key) creation.key =
        remove state.initializing creation.key := update_idem ..
    have overwritten (first second : Creation) :
        update (update state.creations id (some first)) id (some second) =
          update state.creations id (some second) := update_idem ..
    let failure : LspClient := { state := .error, failed := true }
    have hopeless : Promising { creation with stage := .threw, client := some failure } →
        state.locks creation.key = some id ∧
        remove state.clients creation.key creation.key = none := by
      rintro (starts | ⟨-, last | last⟩)
      · cases starts
      · cases last
      · cases last
    have retired := consistent.retire has .threw failure
      (Or.inr ⟨rfl, rfl⟩) nofun leaves leavesStarting hopeless
      fun _ _ _ _ _ => rfl
    rw [setCreation, setCreation]
    dsimp only
    rw [cleared, overwritten]
    exact retired

end

end Recode.Lsp

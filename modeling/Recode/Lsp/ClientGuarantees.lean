import Recode.Lsp.ClientSteps

/-! # One server for each key

As long as no client that was stopped becomes ready, and nothing of an older client or of
a shutdown takes away what a newer one has, each key has at most one client that starts
or is ready, and every ready one is registered. -/

namespace Recode.Lsp

open Function Option Clients

variable {state after : Clients} {client : LspClient} {creation : Creation}

section

variable (consistent : Consistent state)
include consistent

theorem Consistent.settle {id : Nat} (found : state.creations id = some creation)
    (gone : creation.stage = .returned ∨ creation.stage = .threw) (cacheFailure : Bool) :
    Consistent (state.settle id creation cacheFailure) := by
  have before := consistent.fits id creation found
  have unstarted : ∀ client, creation.client = some client → client.state ≠ .starting := by
    intro client has starts
    have running := (before.starting client has starts).2.2
    rcases gone with stage | stage
    · rw [stage] at running
      exact running
    · rw [stage] at running
      exact running
  refine consistent.change id { creation with stage := .settled } rfl (Nat.le_refl _)
    (consistent.known found) (fun _ _ _ => Iff.rfl) (fun _ _ _ => Iff.rfl) ?_ ?_
    (fun key entry => (consistent.own_clients found entry :))
    fun key entry => (consistent.own_initializing found entry :)
  · intro other found' different lookup promising
    refine ⟨?_, consistent.unregistered lookup promising⟩
    rw [Clients.settle]
    dsimp only
    split
    · rename_i mine
      by_cases same : found'.key = creation.key
      · have lock := ((consistent.fits other found' lookup).promising promising).1
        rw [same, mine] at lock
        exact (different (some.inj lock).symm).elim
      · exact update_of_ne same ..
    · rfl
  · refine ⟨?_, ?_, ?_, before.error, nofun⟩
    · intro promising
      cases client : creation.client with
      | none =>
        rw [Promising] at promising
        dsimp only at promising
        rw [client] at promising
        cases promising
      | some spawned =>
        rw [Promising] at promising
        dsimp only at promising
        rw [client] at promising
        rcases promising with starts | ⟨-, last | last⟩
        · exact (unstarted spawned client starts).elim
        · cases last
        · cases last
    · exact fun client has starts => (unstarted client has starts).elim
    · exact fun client has isReady => ⟨(before.ready client has isReady).1, Or.inr rfl⟩

theorem Consistent.called (key cwd : String)
    (none : state.clients key = none) (unlocked : state.locks key = .none) :
    Consistent { state.setCreation state.next { key := key, cwd := cwd } with
      next := state.next + 1
      locks := update state.locks key (some state.next) } := by
  have unknown : state.creations state.next = .none := consistent.fresh _ (Nat.le_refl _)
  refine consistent.change state.next { key := key, cwd := cwd } rfl (Nat.le_succ _)
    (Nat.lt_succ_self _) (fun _ _ _ => Iff.rfl) (fun _ _ _ => Iff.rfl) ?_ ?_ ?_ ?_
  · intro other found different lookup promising
    refine ⟨?_, consistent.unregistered lookup promising⟩
    have lock := ((consistent.fits other found lookup).promising promising).1
    by_cases same : found.key = key
    · rw [same, unlocked] at lock
      cases lock
    · exact update_of_ne same ..
  · refine ⟨fun _ => ⟨update_self .., none⟩, ?_, ?_, ?_, fun _ => rfl⟩
    · exact nofun
    · exact nofun
    · exact nofun
  · intro place entry
    obtain ⟨found, client, has, -⟩ := consistent.clients place _ entry
    cases unknown.symm.trans has.1
  · intro place entry
    obtain ⟨found, client, has, -⟩ := consistent.initializing place _ entry
    cases unknown.symm.trans has.1

theorem Consistent.getOrCreate (key cwd : String) (bypass expired direct : Bool) :
    Consistent (state.getOrCreate key cwd bypass expired direct).1 := by
  rw [Clients.getOrCreate]
  split
  · exact consistent
  · exact consistent
  rename_i none unlocked
  split
  · exact consistent
  have called := consistent.called key cwd none unlocked
  cases direct with
  | false => exact called
  | true =>
    have spawned := called.spawn (update_self ..) rfl
    exact spawned

theorem Consistent.goOn {id : Nat} (has : state.Has id creation client) (stage : Stage)
    (running : stage.Running) (open_ : creation.stage.Running)
    (promises : client.state = .error → stage = .writing true ∨ stage = .written true →
      creation.stage = .writing true ∨ creation.stage = .written true) :
    Consistent (state.setCreation id { creation with stage := stage }) := by
  refine consistent.restage has.1 stage ?_ (fun _ _ _ => running) ?_ ?_
  · intro promising
    rw [Promising] at promising ⊢
    dsimp only at promising
    rw [has.2] at promising ⊢
    rcases promising with starts | ⟨isError, place⟩
    · exact Or.inl starts
    · exact Or.inr ⟨isError, promises isError place⟩
  · intro client spawned isReady
    rcases ((consistent.fits id creation has.1).ready client spawned isReady).2 with place | place
    · rw [place] at open_
      exact open_
    · rw [place] at open_
      exact open_
  · rintro rfl
    exact running

end

theorem not_last_stage {stage : Stage} {conclusion : Prop} (first : stage ≠ .writing true)
    (second : stage ≠ .written true) :
    stage = .writing true ∨ stage = .written true → conclusion := by
  rintro (same | same)
  · exact (first same).elim
  · exact (second same).elim

theorem Consistent.proceed (consistent : Consistent state) {id : Nat}
    (has : state.Has id creation client)
    (unstopped : creation.stage = .written true → client.state ≠ .stopped) :
    Consistent (state.proceed id creation client) := by
  rw [Clients.proceed]
  split
  · rename_i place
    refine consistent.goOn has _ trivial (by rw [place]; trivial) fun _ => ?_
    exact not_last_stage nofun nofun
  · rename_i second place
    split
    · refine consistent.goOn has _ trivial (by rw [place]; trivial) fun _ => ?_
      exact not_last_stage nofun nofun
    · rename_i sound
      refine consistent.goOn has _ trivial (by rw [place]; trivial) ?_
      exact fun isError => (sound (Or.inl isError)).elim
  · rename_i second place
    refine consistent.goOn has _ trivial (by rw [place]; trivial) fun _ last => ?_
    rcases last with same | same
    · cases same
    · cases same
      exact Or.inl place
  · rename_i place
    refine consistent.goOn has _ trivial (by rw [place]; trivial) fun _ => ?_
    exact not_last_stage nofun nofun
  · rename_i place
    exact consistent.ready has place (unstopped place)
  · exact consistent

/-! ## Shutdowns -/

variable {id : Nat} {creation : Creation}

theorem stop_client (spawned : creation.client = some client) :
    stop creation =
      { creation with
        stage := if client.state = .starting then creation.stage.reject else creation.stage
        client := some { client with state := .stopped } } := by
  rw [stop, spawned]

theorem Consistent.shutdown (consistent : Consistent state) (key : String) :
    Consistent (state.shutdown key) := by
  rw [Clients.shutdown]
  split
  · exact consistent
  rename_i id entry
  have alive : ∃ creation client, state.Has id creation client ∧ creation.key = key ∧
      (client.state = .starting ∨ client.state = .ready) := by
    cases registered : state.clients key with
    | some found =>
      rw [registered] at entry
      cases entry
      obtain ⟨creation, client, has, named, isReady⟩ := consistent.clients key id registered
      exact ⟨creation, client, has, named, Or.inr isReady⟩
    | none =>
      rw [registered, none_or] at entry
      obtain ⟨creation, client, has, named, starts⟩ := consistent.initializing key id entry
      exact ⟨creation, client, has, named, Or.inl starts⟩
  obtain ⟨creation, client, has, rfl, lives⟩ := alive
  obtain ⟨leaves, leavesStarting⟩ := consistent.leaves has lives
  rw [has.1, map_some, stop_client has.2]
  refine consistent.retire has _ { client with state := .stopped } (Or.inl rfl) ?_ leaves
    leavesStarting ?_ ?_
  · split
    · exact reject_wrapping (consistent.spawned has)
    · exact consistent.spawned has
  · rintro (starts | ⟨isError, -⟩)
    · cases starts
    · cases isError
  · intro other found different lookup promising
    have other' : found.key ≠ creation.key := by
      intro same
      rcases lives with starts | isReady
      · exact different (consistent.promising_unique has.1 lookup
          (promising_of_starting has.2 starts) promising same)
      · have registered := (consistent.mine_ready has isReady).1
        rw [← same] at registered
        exact consistent.unregistered lookup promising registered
    exact update_of_ne other' ..

theorem Consistent.active_lives (consistent : Consistent state) {id : Nat} {creation : Creation}
    (found : state.creations id = some creation) (active : state.active id creation = true) :
    ∃ client, state.Has id creation client ∧
      (client.state = .starting ∨ client.state = .ready) := by
  rw [Clients.active, Bool.or_eq_true, decide_eq_true_iff, decide_eq_true_iff] at active
  rcases active with entry | entry
  · obtain ⟨-, client, spawned, isReady⟩ := consistent.own_clients found entry
    exact ⟨client, ⟨found, spawned⟩, Or.inr isReady⟩
  · obtain ⟨-, client, spawned, starts⟩ := consistent.own_initializing found entry
    exact ⟨client, ⟨found, spawned⟩, Or.inl starts⟩

/-- Keys are cleared, and the clients that are active under them are stopped. -/
def shutdownWhere (state : Clients) (cleared : String → Bool) (stops : Nat → Creation → Bool) :
    Clients :=
  { state with
    clients := fun key => if cleared key then none else state.clients key
    initializing := fun key => if cleared key then none else state.initializing key
    locks := fun key => if cleared key then none else state.locks key
    creations := fun id => (state.creations id).map fun creation =>
      if stops id creation then stop creation else creation }

theorem Consistent.shutdownWhere (consistent : Consistent state) (cleared : String → Bool)
    (stops : Nat → Creation → Bool)
    (only : ∀ id creation, state.creations id = some creation → stops id creation = true →
      ∃ client, state.Has id creation client ∧ (client.state = .starting ∨ client.state = .ready))
    (agrees : ∀ id creation client, state.Has id creation client →
      client.state = .starting ∨ client.state = .ready →
        (stops id creation = true ↔ cleared creation.key = true))
    (idle : ∀ id creation, state.creations id = some creation → Promising creation →
      cleared creation.key = true →
        ∃ client, creation.client = some client ∧ client.state = .starting) :
    Consistent (Lsp.shutdownWhere state cleared stops) := by
  have kept {id : Nat} {creation : Creation} {client : LspClient}
      (has : state.Has id creation client)
      (lives : client.state = .starting ∨ client.state = .ready)
      (unstopped : stops id creation = false) : cleared creation.key = false := by
    cases same : cleared creation.key with
    | false => rfl
    | true =>
      rw [(agrees id creation client has lives).mpr same] at unstopped
      cases unstopped
  have stays {id : Nat} {creation : Creation} {client : LspClient}
      (has : state.Has id creation client)
      (lives : client.state = .starting ∨ client.state = .ready)
      (uncleared : cleared creation.key = false) : (Lsp.shutdownWhere state cleared stops).Has id
        creation client := by
    have unstopped : stops id creation ≠ true := by
      intro stopped
      rw [(agrees id creation client has lives).mp stopped] at uncleared
      cases uncleared
    refine ⟨?_, has.2⟩
    rw [Lsp.shutdownWhere]
    dsimp only
    rw [has.1, map_some, if_neg unstopped]
  refine ⟨?_, ?_, ?_, ?_⟩
  · intro id creation' found
    obtain ⟨creation, before, rfl⟩ := map_eq_some_iff.mp found
    have fits := consistent.fits id creation before
    cases stopped : stops id creation with
    | true =>
      obtain ⟨client, has, lives⟩ := only id creation before stopped
      rw [if_pos rfl, stop_client has.2]
      refine ⟨?_, ?_, ?_, ?_, ?_⟩
      · rintro (starts | ⟨isError, -⟩)
        · cases starts
        · cases isError
      · intro client' spawned starts
        obtain rfl := some.inj spawned
        cases starts
      · intro client' spawned isReady
        obtain rfl := some.inj spawned
        cases isReady
      · intro client' spawned isError
        obtain rfl := some.inj spawned
        cases isError
      · intro wraps
        dsimp only at wraps
        split at wraps
        · exact (reject_wrapping (consistent.spawned has) wraps).elim
        · exact (consistent.spawned has wraps).elim
    | false =>
      rw [if_neg (by simp)]
      have same (map : String → Option Nat) (uncleared : cleared creation.key = false) :
          (if cleared creation.key then none else map creation.key) = map creation.key := by
        rw [uncleared]
        rfl
      refine ⟨?_, ?_, ?_, fits.error, fits.unspawned⟩
      · intro promising
        have uncleared : cleared creation.key = false := by
          cases clears : cleared creation.key with
          | false => rfl
          | true =>
            obtain ⟨client, spawned, starts⟩ := idle id creation before promising clears
            rw [← clears]
            exact kept ⟨before, spawned⟩ (Or.inl starts) stopped
        obtain ⟨lock, unregistered⟩ := fits.promising promising
        exact ⟨(same state.locks uncleared).trans lock,
          (same state.clients uncleared).trans unregistered⟩
      · intro client spawned starts
        obtain ⟨entry, rest⟩ := fits.starting client spawned starts
        exact ⟨(same state.initializing (kept ⟨before, spawned⟩ (Or.inl starts) stopped)).trans
          entry, rest⟩
      · intro client spawned isReady
        obtain ⟨entry, rest⟩ := fits.ready client spawned isReady
        exact ⟨(same state.clients (kept ⟨before, spawned⟩ (Or.inr isReady) stopped)).trans
          entry, rest⟩
  · intro key id entry
    rw [Lsp.shutdownWhere] at entry
    dsimp only at entry
    split at entry
    · cases entry
    · rename_i uncleared
      obtain ⟨creation, client, has, rfl, isReady⟩ := consistent.clients key id entry
      rw [Bool.not_eq_true] at uncleared
      exact ⟨creation, client, stays has (Or.inr isReady) uncleared, rfl, isReady⟩
  · intro key id entry
    rw [Lsp.shutdownWhere] at entry
    dsimp only at entry
    split at entry
    · cases entry
    · rename_i uncleared
      obtain ⟨creation, client, has, rfl, starts⟩ := consistent.initializing key id entry
      rw [Bool.not_eq_true] at uncleared
      exact ⟨creation, client, stays has (Or.inl starts) uncleared, rfl, starts⟩
  · intro id beyond
    rw [Lsp.shutdownWhere]
    dsimp only
    rw [consistent.fresh id beyond]
    rfl

/-- A creation that a shutdown of all clients does not stop, and that may become ready. -/
def Overlooked (creation : Creation) : Prop :=
  creation.stage = .wrapping ∨ ∃ client, creation.client = some client ∧ client.state = .error ∧
    (creation.stage = .writing true ∨ creation.stage = .written true)

theorem Consistent.shutdownAll (consistent : Consistent state)
    (none : ∀ key id creation, state.locks key = some id → state.creations id = some creation →
      ¬ Overlooked creation) : Consistent state.shutdownAll := by
  refine consistent.shutdownWhere (fun _ => true) state.active
    (fun id creation found active => consistent.active_lives found active) ?_ ?_
  · intro id creation client has lives
    refine ⟨fun _ => rfl, fun _ => ?_⟩
    rw [active, Bool.or_eq_true, decide_eq_true_iff, decide_eq_true_iff]
    rcases lives with starts | isReady
    · exact Or.inr ((consistent.fits id creation has.1).starting client has.2 starts).1
    · exact Or.inl ((consistent.fits id creation has.1).ready client has.2 isReady).1
  · intro id creation found promising _
    have lock := ((consistent.fits id creation found).promising promising).1
    have seen := none creation.key id creation lock found
    cases spawned : creation.client with
    | none =>
      rw [Promising, spawned] at promising
      exact (seen (Or.inl promising)).elim
    | some client =>
      rw [Promising, spawned] at promising
      rcases promising with starts | ⟨isError, last⟩
      · exact ⟨client, rfl, starts⟩
      · exact (seen (Or.inr ⟨client, spawned, isError, last⟩)).elim

theorem inWorkspace_iff (found : state.creations id = some creation) (cwd : String) :
    state.inWorkspace cwd id = true ↔ creation.cwd = cwd := by
  rw [inWorkspace, found, any_some, decide_eq_true_iff]

theorem Consistent.shutdownForCwd (consistent : Consistent state) (cwd : String) :
    Consistent (state.shutdownForCwd cwd) := by
  refine consistent.shutdownWhere (state.keyInWorkspace cwd)
    (fun id creation => state.active id creation && creation.cwd = cwd) ?_ ?_ ?_
  · intro id creation found stops
    rw [Bool.and_eq_true] at stops
    exact consistent.active_lives found stops.1
  · intro id creation client has lives
    rw [Bool.and_eq_true, active, keyInWorkspace, Bool.or_eq_true,
      Bool.or_eq_true, decide_eq_true_iff, decide_eq_true_iff, decide_eq_true_iff]
    rcases lives with starts | isReady
    · have entry := ((consistent.fits id creation has.1).starting client has.2 starts).1
      have none := ((consistent.fits id creation has.1).promising
        (promising_of_starting has.2 starts)).2
      rw [entry, none, any_none, any_some, inWorkspace_iff has.1]
      exact ⟨fun stops => Or.inr stops.2, fun clears => ⟨Or.inr rfl, clears.resolve_left nofun⟩⟩
    · obtain ⟨entry, none⟩ := consistent.mine_ready has isReady
      rw [entry, none, any_none, any_some, inWorkspace_iff has.1]
      exact ⟨fun stops => Or.inl stops.2, fun clears => ⟨Or.inl rfl, clears.resolve_right nofun⟩⟩
  · intro id creation found promising clears
    rw [keyInWorkspace, Bool.or_eq_true] at clears
    rcases clears with registered | starting
    · obtain ⟨other, entry, -⟩ := any_eq_true _ _ |>.mp registered
      exact (consistent.unregistered found promising entry).elim
    · obtain ⟨other, entry, -⟩ := any_eq_true _ _ |>.mp starting
      obtain rfl := consistent.mine found promising entry
      exact (consistent.own_initializing found entry).2

/-- The condition of an event: a client that was stopped does not become ready, what ends of an
older client leaves alone what a newer one has, and all clients are only shut down when
none is overlooked. -/
def Event.Keeps (state : Clients) : Event → Prop
  | .proceed _ creation client => creation.stage = .written true → client.state ≠ .stopped
  | .cleanUp id creation _ => ∀ other, state.initializing creation.key = some other → other = id
  | .close _ creation client => client.state = .stopped →
      state.clients creation.key = none ∧ state.initializing creation.key = none
  | .shutdownAll => ∀ key id creation, state.locks key = some id →
      state.creations id = some creation → ¬ Overlooked creation
  | _ => True

theorem remove_none {map : String → Option Nat} {key : String} (none : map key = .none) :
    remove map key = map := by
  rw [remove, ← none, update_eq_self]

theorem close_stopped (stops : client.state = .stopped)
    (none : state.clients creation.key = none ∧ state.initializing creation.key = .none) :
    state.close id creation client = state := by
  rw [close, if_pos stops, remove_none none.1, remove_none none.2]

theorem Consistent.step (consistent : Consistent state) {event : Event}
    (possible : event.Possible state) (keeps : event.Keeps state) :
    Consistent (state.step event) := by
  cases event with
  | getOrCreate key cwd bypass expired direct =>
    exact consistent.getOrCreate key cwd bypass expired direct
  | spawn id creation => exact consistent.spawn possible.1 possible.2
  | wrapFails id creation =>
    obtain ⟨found, wraps⟩ := possible
    have unspawned := (consistent.fits id creation found).unspawned wraps
    refine consistent.restage found .threw ?_ ?_ ?_ fun same => by cases same
    · intro promising
      rw [Promising, unspawned]
      exact wraps
    · intro client spawned
      rw [unspawned] at spawned
      cases spawned
    · intro client spawned
      rw [unspawned] at spawned
      cases spawned
  | answer id creation client =>
    obtain ⟨has, place⟩ := possible
    refine consistent.goOn has _ trivial (by rw [place]; trivial) fun _ => ?_
    exact not_last_stage (fun same => by cases same) fun same => by cases same
  | refuse id creation client =>
    obtain ⟨has, place⟩ := possible
    refine consistent.goOn has _ trivial (by rw [place]; trivial) fun _ => ?_
    exact not_last_stage (fun same => by cases same) fun same => by cases same
  | proceed id creation client => exact consistent.proceed possible keeps
  | writeFails id creation client =>
    obtain ⟨has, second, place⟩ := possible
    refine consistent.goOn has _ trivial ?_ fun _ => ?_
    · rcases place with place | place
      · rw [place]
        trivial
      · rw [place]
        trivial
    · exact not_last_stage (fun same => by cases same) fun same => by cases same
  | cleanUp id creation client => exact consistent.cleanUp possible.1 possible.2 keeps
  | settle id creation cacheFailure => exact consistent.settle possible.1 possible.2 cacheFailure
  | close id creation client =>
    by_cases stops : client.state = .stopped
    · rw [Clients.step, close_stopped stops (keeps stops)]
      exact consistent
    · rw [Clients.step, Clients.close, if_neg stops]
      exact consistent.fail possible
  | error id creation client => exact consistent.fail possible
  | shutdown key => exact consistent.shutdown key
  | shutdownAll => exact consistent.shutdownAll keeps
  | shutdownForCwd cwd => exact consistent.shutdownForCwd cwd

theorem Reached.consistent (reached : Reached Event.Keeps state) : Consistent state := by
  induction reached with
  | start => exact consistent_initial
  | step event reached possible keeps consistent => exact consistent.step possible keeps

/-! ## What a run keeps -/

/-- A key has at most one client that starts or is ready, and a ready client is the one that is
registered: it is returned for its key, and a shutdown of the key stops it. -/
structure OneServer (state : Clients) : Prop where
  unique : ∀ id other creation found client client', state.Has id creation client →
    state.Has other found client' → found.key = creation.key →
      (client.state = .starting ∨ client.state = .ready) →
        (client'.state = .starting ∨ client'.state = .ready) → other = id
  registered : ∀ id creation client, state.Has id creation client → client.state = .ready →
    state.clients creation.key = some id ∧ (∀ cwd bypass expired direct,
        (state.getOrCreate creation.key cwd bypass expired direct).2 = .existing id) ∧
      (state.shutdown creation.key).creations id = some (stop creation)

theorem Consistent.oneServer (consistent : Consistent state) : OneServer state := by
  refine ⟨?_, ?_⟩
  · intro id other creation found client client' has has' same lives lives'
    rcases lives with starts | isReady
    · rcases lives' with starts' | isReady'
      · exact consistent.promising_unique has.1 has'.1 (promising_of_starting has.2 starts)
          (promising_of_starting has'.2 starts') same
      · have registered := (consistent.mine_ready has' isReady').1
        rw [same] at registered
        exact (consistent.unregistered has.1 (promising_of_starting has.2 starts) registered).elim
    · obtain ⟨registered, starting⟩ := consistent.alone has (Or.inr isReady)
      rcases lives' with starts' | isReady'
      · have entry := ((consistent.fits other found has'.1).starting client' has'.2 starts').1
        rw [same] at entry
        exact starting other entry
      · have entry := (consistent.mine_ready has' isReady').1
        rw [same] at entry
        exact registered other entry
  · intro id creation client has isReady
    have registered := (consistent.mine_ready has isReady).1
    refine ⟨registered, ?_, ?_⟩
    · intro cwd bypass expired direct
      rw [Clients.getOrCreate, registered]
    · rw [Clients.shutdown, registered]
      dsimp only [some_or]
      rw [update_self, has.1]
      rfl

/-- What a step leaves: a client that was stopped stays stopped and is not registered, and what
happens to one process leaves the entries of other clients. -/
structure Kept (state after : Clients) (event : Event) : Prop where
  stopped : ∀ id creation client, state.Has id creation client → client.state = .stopped →
    ∃ creation' client', after.Has id creation' client' ∧ client'.state = .stopped ∧
      ∀ key, after.clients key ≠ some id ∧ after.initializing key ≠ some id
  others : ∀ id creation client, event = .close id creation client ∨
      event = .error id creation client ∨ event = .cleanUp id creation client →
    ∀ key other, other ≠ id → (state.clients key = some other → after.clients key = some other) ∧
      (state.initializing key = some other → after.initializing key = some other)

/-- The client of a creation is stopped. -/
def Creation.Stopped (creation : Creation) : Prop :=
  ∃ client, creation.client = some client ∧ client.state = .stopped

theorem stopped_setCreation {id other : Nat} {creation old new : Creation}
    (found : state.creations id = some creation) (stops : creation.Stopped)
    (before : state.creations other = some old) (keeps : old.Stopped → new.Stopped) :
    ∃ creation', (state.setCreation other new).creations id = some creation' ∧
      creation'.Stopped := by
  rw [setCreation]
  dsimp only
  by_cases same : id = other
  · subst same
    obtain rfl := some.inj (found.symm.trans before)
    exact ⟨new, update_self .., keeps stops⟩
  · exact ⟨creation, by rw [update_of_ne same, found], stops⟩

theorem stopped_stop (stops : creation.Stopped) : (stop creation).Stopped := by
  obtain ⟨client, spawned, -⟩ := stops
  rw [stop_client spawned]
  exact ⟨_, rfl, rfl⟩

theorem stopped_fail {id other : Nat} {creation old : Creation}
    (found : state.creations id = some creation) (stops : creation.Stopped)
    (has : state.Has other old client) :
    ∃ creation', (state.fail other old client).creations id = some creation' ∧
      creation'.Stopped := by
  rw [fail]
  split
  · exact ⟨creation, found, stops⟩
  rename_i sound
  refine stopped_setCreation found stops has.1 ?_
  rintro ⟨client', spawned, stops'⟩
  obtain rfl := some.inj (has.2.symm.trans spawned)
  exact (sound (Or.inl stops')).elim

theorem stopped_shutdown
    (found : state.creations id = some creation) (stops : creation.Stopped) (key : String) :
    ∃ creation', (state.shutdown key).creations id = some creation' ∧ creation'.Stopped := by
  rw [shutdown]
  split
  · exact ⟨creation, found, stops⟩
  rename_i other entry
  dsimp only
  by_cases same : id = other
  · subst same
    exact ⟨_, by rw [update_self, found]; rfl, stopped_stop stops⟩
  · exact ⟨creation, by rw [update_of_ne same, found], stops⟩

theorem stopped_where (found : state.creations id = some creation) (stops : creation.Stopped)
    (active : Nat → Creation → Bool) :
    ∃ creation', ((state.creations id).map fun creation =>
      if active id creation then stop creation else creation) = some creation' ∧
        creation'.Stopped := by
  rw [found, map_some]
  refine ⟨_, rfl, ?_⟩
  split
  · exact stopped_stop stops
  · exact stops

section

variable (consistent : Consistent state)
include consistent

theorem stopped_step {event : Event}
    (possible : event.Possible state) (keeps : event.Keeps state) {id : Nat}
    {creation : Creation} (found : state.creations id = some creation) (stops : creation.Stopped) :
    ∃ creation', (state.step event).creations id = some creation' ∧ creation'.Stopped := by
  have unspawned {other : Nat} {old : Creation} (before : state.creations other = some old)
      (wraps : old.stage = .wrapping) : ¬ old.Stopped := by
    rintro ⟨client, spawned, -⟩
    rw [(consistent.fits other old before).unspawned wraps] at spawned
    cases spawned
  cases event with
  | getOrCreate key cwd bypass expired direct =>
    have older : id ≠ state.next := Nat.ne_of_lt (consistent.known found)
    refine ⟨creation, ?_, stops⟩
    rw [step, getOrCreate]
    split
    · exact found
    · exact found
    split
    · exact found
    cases direct with
    | false => exact (update_of_ne older ..).trans found
    | true =>
      exact (update_of_ne older ..).trans
        ((update_of_ne older ..).trans found)
  | spawn other old =>
    exact stopped_setCreation found stops possible.1
      fun stops => (unspawned possible.1 possible.2 stops).elim
  | wrapFails other old =>
    exact stopped_setCreation found stops possible.1
      fun stops => (unspawned possible.1 possible.2 stops).elim
  | answer other old client => exact stopped_setCreation found stops possible.1.1 fun stops => stops
  | refuse other old client => exact stopped_setCreation found stops possible.1.1 fun stops => stops
  | proceed other old client =>
    rw [step, proceed]
    split
    · exact stopped_setCreation found stops possible.1 fun stops => stops
    · split
      · exact stopped_setCreation found stops possible.1 fun stops => stops
      · exact stopped_setCreation found stops possible.1 fun stops => stops
    · exact stopped_setCreation found stops possible.1 fun stops => stops
    · exact stopped_setCreation found stops possible.1 fun stops => stops
    · rename_i place
      refine stopped_setCreation found stops possible.1 ?_
      rintro ⟨client', spawned, stops'⟩
      obtain rfl := some.inj (possible.2.symm.trans spawned)
      exact (keeps place stops').elim
    · exact ⟨creation, found, stops⟩
  | writeFails other old client =>
    exact stopped_setCreation found stops possible.1.1 fun stops => stops
  | cleanUp other old client =>
    obtain ⟨has, -⟩ := possible
    rw [step, cleanUp, setCreation]
    dsimp only
    by_cases same : id = other
    · subst same
      obtain rfl := some.inj (found.symm.trans has.1)
      obtain ⟨client', spawned, stops'⟩ := stops
      obtain rfl := some.inj (has.2.symm.trans spawned)
      refine ⟨_, update_self .., client, ?_, stops'⟩
      rw [if_pos (Or.inl stops')]
    · rw [update_of_ne same]
      exact stopped_fail found stops has
  | settle other old cacheFailure =>
    exact stopped_setCreation found stops possible.1 fun stops => stops
  | close other old client =>
    rw [step, close]
    split
    · exact ⟨creation, found, stops⟩
    · exact stopped_fail found stops possible
  | error other old client => exact stopped_fail found stops possible
  | shutdown key => exact stopped_shutdown found stops key
  | shutdownAll => exact stopped_where found stops state.active
  | shutdownForCwd cwd =>
    exact stopped_where found stops fun id creation =>
      state.active id creation && creation.cwd = cwd

theorem fail_others {id other : Nat} {creation : Creation}
    (has : state.Has id creation client) (key : String) (different : other ≠ id) :
    (state.clients key = some other → (state.fail id creation client).clients key = some other) ∧
      (state.initializing key = some other →
        (state.fail id creation client).initializing key = some other) := by
  rw [fail]
  split
  · exact ⟨fun entry => entry, fun entry => entry⟩
  · rename_i sound
    obtain ⟨leaves, leavesStarting⟩ := consistent.leaves has (consistent.lives has sound)
    exact ⟨(leaves.others key other different).mpr, (leavesStarting.others key other different).mpr⟩

theorem cleanUp_others {id other : Nat} {creation : Creation} (has : state.Has id creation client)
    (key : String) (alone : ∀ other, state.initializing creation.key = some other → other = id)
    (different : other ≠ id) :
    (state.clients key = some other → (state.cleanUp id creation client).clients key = some other) ∧
      (state.initializing key = some other →
        (state.cleanUp id creation client).initializing key = some other) := by
  have starting {place : String} (entry : state.initializing place = some other) :
      remove state.initializing creation.key place = some other := by
    refine remove_eq_some.mpr ⟨?_, entry⟩
    rintro rfl
    exact different (alone other entry)
  rw [cleanUp, setCreation, fail]
  split
  · exact ⟨fun entry => entry, starting⟩
  rename_i sound
  obtain ⟨leaves, -⟩ := consistent.leaves has (consistent.lives has sound)
  refine ⟨(leaves.others key other different).mpr, fun entry =>
      remove_eq_some.mpr ⟨?_, starting entry⟩⟩
  rintro rfl
  exact different (alone other entry)

theorem step_kept {event : Event} (possible : event.Possible state) (keeps : event.Keeps state) :
    Kept state (state.step event) event := by
  have next := consistent.step possible keeps
  refine ⟨?_, ?_⟩
  · intro id creation client has stops
    obtain ⟨creation', found, client', spawned, stops'⟩ :=
      stopped_step consistent possible keeps has.1 ⟨client, has.2, stops⟩
    refine ⟨creation', client', ⟨found, spawned⟩, stops', fun key => ⟨?_, ?_⟩⟩
    · intro entry
      obtain ⟨-, other, spawned', isReady⟩ := next.own_clients found entry
      obtain rfl := some.inj (spawned.symm.trans spawned')
      cases stops'.symm.trans isReady
    · intro entry
      obtain ⟨-, other, spawned', starts⟩ := next.own_initializing found entry
      obtain rfl := some.inj (spawned.symm.trans spawned')
      cases stops'.symm.trans starts
  · rintro id creation client (rfl | rfl | rfl) key other different
    · by_cases stops : client.state = .stopped
      · rw [step, close_stopped stops (keeps stops)]
        exact ⟨fun entry => entry, fun entry => entry⟩
      · rw [step, close, if_neg stops]
        exact fail_others consistent possible key different
    · exact fail_others consistent possible key different
    · exact cleanUp_others consistent possible.1 key keeps different

end

/-- In every run that keeps the condition each key has one live server, and none is lost. -/
theorem one_server (reached : Reached Event.Keeps state) :
    OneServer state ∧ ∀ event : Event, event.Possible state → event.Keeps state →
      Kept state (state.step event) event :=
  ⟨reached.consistent.oneServer, fun _ possible keeps =>
    step_kept reached.consistent possible keeps⟩

def starting (stage : Stage) : Creation :=
  { key := "k", cwd := "w", stage := stage, client := some {} }

def lastWrite : Clients :=
  ((((((({} : Clients).step (.getOrCreate "k" "w" false false true)).step
    (.answer 0 (starting .initializing) {})).step (.proceed 0 (starting .answered) {})).step
    (.proceed 0 (starting (.queued false)) {})).step
    (.proceed 0 (starting (.writing false)) {})).step
    (.proceed 0 (starting (.written false)) {})).step
    (.proceed 0 (starting (.queued true)) {})

theorem lastWrite_reached {condition : Clients → Event → Prop}
    (keeps : ∀ state event, Event.Keeps state event → condition state event) :
    Reached condition lastWrite := by
  refine .step _ (.step _ (.step _ (.step _ (.step _ (.step _ (.step _ .start trivial ?_)
    ⟨⟨rfl, rfl⟩, rfl⟩ ?_) ⟨rfl, rfl⟩ ?_) ⟨rfl, rfl⟩ ?_) ⟨rfl, rfl⟩ ?_) ⟨rfl, rfl⟩ ?_) ⟨rfl, rfl⟩ ?_
  · exact keeps _ _ trivial
  · exact keeps _ _ trivial
  · exact keeps _ _ nofun
  · exact keeps _ _ nofun
  · exact keeps _ _ nofun
  · exact keeps _ _ nofun
  · exact keeps _ _ nofun

theorem one_server_ready :
    OneServer ((lastWrite.step (.proceed 0 (starting (.writing true)) {})).step
      (.proceed 0 (starting (.written true)) {})) := by
  have written : Reached Event.Keeps (lastWrite.step (.proceed 0 (starting (.writing true)) {})) :=
    .step _ (lastWrite_reached fun _ _ keeps => keeps) ⟨rfl, rfl⟩ nofun
  have ready : Reached Event.Keeps ((lastWrite.step (.proceed 0 (starting (.writing true)) {})).step
      (.proceed 0 (starting (.written true)) {})) :=
    .step _ written ⟨rfl, rfl⟩ nofun
  exact (one_server ready).1

/-- A client that is stopped during its last write. -/
def stopping (stage : Stage) : Creation :=
  { key := "k", cwd := "w", stage := stage, client := some { state := .stopped } }

/-- A client that was stopped becomes ready when its last write is done. -/
theorem not_one_server :
    ¬ ∀ state, Reached (fun _ _ => True) state → ∀ event : Event, event.Possible state →
      Kept state (state.step event) event := by
  intro kept
  have shut : Reached (fun _ _ => True) ((lastWrite.step (.shutdown "k")).step
      (.proceed 0 (stopping (.writing true)) { state := .stopped })) :=
    .step _ (.step _ (lastWrite_reached fun _ _ _ => trivial) trivial trivial)
      ⟨by decide +kernel, rfl⟩ trivial
  have possible : Event.Possible ((lastWrite.step (.shutdown "k")).step
      (.proceed 0 (stopping (.writing true)) { state := .stopped }))
      (.proceed 0 (stopping (.written true)) { state := .stopped }) := ⟨rfl, rfl⟩
  obtain ⟨creation, client, has, stops, -⟩ :=
    (kept _ shut _ possible).stopped 0 _ _ possible rfl
  have ready : ((lastWrite.step (.shutdown "k")).step
      (.proceed 0 (stopping (.writing true)) { state := .stopped })).step
      (.proceed 0 (stopping (.written true)) { state := .stopped }) |>.Has 0
        { stopping .returned with client := some { state := .ready } } { state := .ready } :=
    ⟨rfl, rfl⟩
  obtain rfl := some.inj (ready.1.symm.trans has.1)
  obtain rfl := some.inj (ready.2.symm.trans has.2)
  cases stops

end Recode.Lsp

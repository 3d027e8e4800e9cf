import Recode.Orchestrator.TurnLeaseInvariant

/-! # Runs of a registry of turn leases

Turns on a session exclude each other and no waiter is lost, in whatever order
calls are made and timers run out. -/

namespace Recode.Orchestrator
namespace SessionTurnLeaseRegistry

open TurnLeases List Option Procedure

variable {registry : SessionTurnLeaseRegistry} {state : TurnLeases}

/-- What happens at a registry, with the readings of the clock it uses. -/
inductive LeaseEvent where
  | acquire (sessionId ownerId : String) (generation : Int) (timeoutMs : Option ℚ)
      (openedAt grantedAt : Int)
  | timeout (token : Nat)
  | release (token : Option Nat) (releasedAt grantedAt : Int)
  | rebind (token : Option Nat) (newSessionId : String) (now : Int)

/-- The registry after an event. A caller can only pass on tokens that it was granted. -/
def step (registry : SessionTurnLeaseRegistry) (state : TurnLeases) : LeaseEvent → TurnLeases
  | .acquire sessionId ownerId generation timeoutMs openedAt grantedAt =>
    (registry.acquire state sessionId ownerId generation timeoutMs openedAt grantedAt).toOption.getD
      state
  | .timeout token => expire state token
  | .release token releasedAt grantedAt =>
    if token.all fun token => state.Granted token then
      (release state token releasedAt grantedAt).2
    else state
  | .rebind token newSessionId now =>
    if token.all fun token => state.Granted token then
      ((rebind state token newSessionId now).toOption.map Prod.snd).getD state
    else state

def run (registry : SessionTurnLeaseRegistry) (state : TurnLeases) (events : List LeaseEvent) :
    TurnLeases :=
  events.foldl registry.step state

theorem get?_evictIdle (registry : SessionTurnLeaseRegistry) (state : TurnLeases)
    (sessionId : String) :
    (registry.evictIdle state).leases.get? sessionId = state.leases.get? sessionId ∨
      (registry.evictIdle state).leases.get? sessionId = none ∧
        ∀ lease, state.leases.get? sessionId = some lease → state.idle lease = true := by
  rw [evictIdle, InsertionMap.get?_foldl_erase]
  split
  · rename_i evicted
    refine Or.inr ⟨rfl, ?_⟩
    intro lease found
    obtain ⟨entry, taken, rfl⟩ := mem_map.mp evicted
    have listed := mem_mergeSort.mp (mem_of_mem_take taken)
    obtain ⟨present, idle⟩ := mem_filter.mp listed
    have same : state.leases.get? entry.1 = some entry.2 :=
      (state.leases.get?_eq_some_iff _ _).mpr present
    rw [same] at found
    rw [← some.inj found]
    exact idle
  · exact Or.inl rfl

theorem evictIdle_invariant (inv : state.Invariant) : (registry.evictIdle state).Invariant := by
  apply inv.remap
  · intro sessionId lease found
    rcases registry.get?_evictIdle state sessionId with same | ⟨gone, -⟩
    · exact inv.registered sessionId lease (same.symm.trans found)
    · cases gone.symm.trans found
  · intro sessionId lease found busy
    rcases registry.get?_evictIdle state sessionId with same | ⟨-, idle⟩
    · exact same.trans found
    · exact absurd ((inv.idle_iff (inv.registered _ _ found)).mp (idle lease found)) busy

theorem getOrCreate_invariant (registry : SessionTurnLeaseRegistry) (inv : state.Invariant)
    (sessionId : String) (now : Int) :
    (registry.getOrCreate state sessionId now).1.Invariant ∧
      (registry.getOrCreate state sessionId now).1.leases.get? sessionId =
        some (registry.getOrCreate state sessionId now).2 := by
  rw [getOrCreate]
  cases found : state.leases.get? sessionId with
  | some existing =>
    exact ⟨inv.touch existing (fun _ => rfl) (fun _ => rfl), found⟩
  | none =>
    let evicted := registry.evictIdle state
    have opened : (evicted.addLease ⟨none, [], now⟩).Invariant :=
      (evictIdle_invariant inv).addLease now
    have absent : evicted.leases.get? sessionId = none := by
      rcases registry.get?_evictIdle state sessionId with same | ⟨gone, -⟩
      · exact same.trans found
      · exact gone
    refine ⟨opened.remap ?_ ?_, InsertionMap.get?_insert_self ..⟩
    · intro other lease there
      rw [InsertionMap.get?_insert] at there
      split at there
      · obtain rfl := some.inj there
        exact Nat.lt_succ_self _
      · exact opened.registered other lease there
    · intro other lease there _
      rw [InsertionMap.get?_insert, if_neg]
      · exact there
      · rintro rfl
        cases absent.symm.trans there

variable {after : TurnLeases} {token : Nat}

theorem acquire_invariant (inv : state.Invariant) {sessionId ownerId : String} {generation : Int}
    {timeoutMs : Option ℚ} {openedAt grantedAt : Int}
    (done : registry.acquire state sessionId ownerId generation timeoutMs openedAt grantedAt =
      .ok after) : after.Invariant := by
  obtain ⟨checked, -, entered⟩ := bind_eq_ok done
  obtain ⟨opened, found⟩ := getOrCreate_invariant registry inv sessionId openedAt
  dsimp only at entered
  split at entered
  · rename_i free
    obtain rfl := Except.ok.inj entered
    apply opened.takeLease found rfl
    exact isNone_iff_eq_none.mp free
  · rename_i busy
    obtain rfl := Except.ok.inj entered
    apply opened.pushWaiter found rfl
    exact fun free => busy (isNone_iff_eq_none.mpr free)

theorem expire_invariant (inv : state.Invariant) (token : Nat) :
    (expire state token).Invariant := by
  rw [expire]
  cases present : (state.acquisitions.read token).waiter with
  | none => exact inv
  | some waiter =>
    by_cases settled : waiter.settled = true
    · simp only [if_pos settled]
      exact inv
    · simp only [if_neg settled]
      apply inv.timeOut
      rw [waitsFor, present]
      exact if_neg settled

/-- Giving a lease back leaves it free, or held by the first of its waiters. -/
theorem grantNext_invariant (inv : state.Invariant) {token lease : Nat}
    (below : lease < state.objects.fresh) (holds : state.holderOf lease = some token)
    (releasedAt grantedAt : Int) :
    (grantNext (state.freed token lease releasedAt) lease grantedAt).Invariant := by
  rw [grantNext, queueOf_freed]
  cases queued : state.queueOf lease with
  | nil => exact inv.giveBack below holds queued releasedAt
  | cons next rest =>
    have waiting : state.waitsFor next = some lease :=
      (inv.queued lease below next).mp (queued ▸ mem_cons_self)
    have open_ : ((state.freed token lease releasedAt).waitsFor next).isSome = true := by
      rw [waitsFor_freed, waiting]
      rfl
    rw [grantFirst, if_pos open_]
    exact inv.passOn below holds queued releasedAt grantedAt

theorem release_invariant (inv : state.Invariant) (granted : state.Granted token)
    (releasedAt grantedAt : Int) :
    (release state (some token) releasedAt grantedAt).2.Invariant := by
  rw [release]
  by_cases released : state.releasedToken token = true
  · simp only [if_pos released]
    exact inv
  obtain ⟨lease, found, holds⟩ := inv.holding token granted (Bool.eq_false_of_not_eq_true released)
  let marked := state.modifyToken token fun token => { token with released := true }
  have session : marked.sessionOf token = state.sessionOf token := by
    rw [state.sessionOf_modifyToken, if_pos rfl]
    rfl
  have registered : marked.leases.get? (marked.sessionOf token) = some lease := by
    rw [session]
    exact found
  have held : marked.holderOf lease = some token := holds
  simp only [if_neg released, marked, registered, held, ne_eq, not_true_eq_false, ↓reduceIte]
  exact grantNext_invariant inv (inv.registered _ lease found) holds releasedAt grantedAt

theorem rebind_invariant (inv : state.Invariant) {newSessionId : String} {now : Int} {moved : Bool}
    (done : rebind state (some token) newSessionId now = .ok (moved, after)) : after.Invariant := by
  simp only [rebind] at done
  split at done
  · obtain ⟨-, rfl⟩ := Prod.mk.inj (Except.ok.inj done)
    exact inv
  obtain ⟨checked, -, done⟩ := bind_eq_ok done
  cases found : state.leases.get? (state.sessionOf token) with
  | none =>
    rw [found] at done
    obtain ⟨-, rfl⟩ := Prod.mk.inj (Except.ok.inj done)
    exact inv
  | some lease =>
    rw [found] at done
    simp only at done
    split at done
    · obtain ⟨-, rfl⟩ := Prod.mk.inj (Except.ok.inj done)
      exact inv
    rename_i held
    split at done
    · obtain ⟨-, rfl⟩ := Prod.mk.inj (Except.ok.inj done)
      exact inv
    rename_i available
    obtain ⟨-, rfl⟩ := Prod.mk.inj (Except.ok.inj done)
    have below := inv.registered _ lease found
    have bound : Invariant { state with leases := state.leases.insert newSessionId lease } := by
      apply inv.remap
      · intro sessionId other there
        rw [InsertionMap.get?_insert] at there
        split at there
        · obtain rfl := some.inj there
          exact below
        · exact inv.registered sessionId other there
      · intro sessionId other there busy
        rw [InsertionMap.get?_insert]
        split
        · rename_i same
          rw [same] at there
          by_contra different
          apply available
          rw [there, any_some, Bool.and_eq_true, decide_eq_true_eq, Bool.not_eq_true']
          refine ⟨fun equal => different (equal ▸ rfl), ?_⟩
          rw [Bool.eq_false_iff, ne_eq, inv.idle_iff (inv.registered _ other there)]
          exact busy
        · exact there
    let use : SessionLease → SessionLease := fun lease => { lease with lastUsed := now }
    have used : Invariant (modifyLease _ lease use) :=
      bound.touch lease (fun _ => rfl) fun _ => rfl
    apply used.moveToken below
    · refine (holderOf_modifyLease _ lease lease use).trans ?_
      rw [if_pos rfl]
      exact not_not.mp held
    · exact InsertionMap.get?_insert_self ..

theorem step_invariant (inv : state.Invariant) (event : LeaseEvent) :
    (registry.step state event).Invariant := by
  cases event with
  | acquire sessionId ownerId generation timeoutMs openedAt grantedAt =>
    cases done : registry.acquire state sessionId ownerId generation timeoutMs openedAt
        grantedAt with
    | error message =>
      simp only [step, done]
      exact inv
    | ok after =>
      simp only [step, done]
      exact acquire_invariant inv done
  | timeout token => exact expire_invariant inv token
  | release token releasedAt grantedAt =>
    rw [step]
    cases token with
    | none => exact inv
    | some token =>
      split
      · rename_i granted
        exact release_invariant inv (by simpa using granted) releasedAt grantedAt
      · exact inv
  | rebind token newSessionId now =>
    rw [step]
    cases token with
    | none => exact inv
    | some token =>
      split
      · cases done : rebind state (some token) newSessionId now with
        | error message => exact inv
        | ok result => exact rebind_invariant inv done
      · exact inv

theorem run_append (registry : SessionTurnLeaseRegistry) (state : TurnLeases)
    (events later : List LeaseEvent) :
    registry.run state (events ++ later) = registry.run (registry.run state events) later :=
  foldl_append

theorem run_invariant (inv : state.Invariant) (events : List LeaseEvent) :
    (registry.run state events).Invariant := by
  induction events generalizing state with
  | nil => exact inv
  | cons event events ih => exact ih (step_invariant inv event)

/-- What has happened to tokens is not undone. -/
structure Extends (state after : TurnLeases) : Prop where
  settlements : state.settlements <+: after.settlements
  allocated : state.acquisitions.fresh ≤ after.acquisitions.fresh
  released : ∀ token < state.acquisitions.fresh, state.releasedToken token = true →
    after.releasedToken token = true

theorem Extends.refl (state : TurnLeases) : Extends state state :=
  ⟨prefix_rfl, Nat.le_refl _, fun _ _ released => released⟩

theorem Extends.trans {middle after : TurnLeases} (first : Extends state middle)
    (second : Extends middle after) : Extends state after where
  settlements := first.settlements.trans second.settlements
  allocated := Nat.le_trans first.allocated second.allocated
  released token below given :=
    second.released token (Nat.lt_of_lt_of_le below first.allocated)
      (first.released token below given)

theorem extends_addAcquisition (state : TurnLeases) (acquisition : Acquisition) :
    Extends state (state.addAcquisition acquisition) where
  settlements := prefix_rfl
  allocated := Nat.le_succ _
  released token below given := by
    rw [releasedToken_addAcquisition, if_neg (Nat.ne_of_lt below)]
    exact given

theorem extends_modifyToken (state : TurnLeases) (token : Nat)
    {change : SessionTurnLeaseToken → SessionTurnLeaseToken}
    (keeps : ∀ token, token.released = true → (change token).released = true) :
    Extends state (state.modifyToken token change) where
  settlements := prefix_rfl
  allocated := Nat.le_refl _
  released other _ given := by
    rw [releasedToken_modifyToken]
    split
    · rename_i same
      rw [same] at given
      exact keeps _ given
    · exact given

theorem extends_markSettled (state : TurnLeases) (token : Nat) :
    Extends state (state.markSettled token) where
  settlements := prefix_rfl
  allocated := Nat.le_refl _
  released other _ given := by
    rw [releasedToken_markSettled]
    exact given

theorem extends_modifyLease (state : TurnLeases) (lease : Nat)
    (change : SessionLease → SessionLease) : Extends state (state.modifyLease lease change) :=
  ⟨prefix_rfl, Nat.le_refl _, fun _ _ given => given⟩

theorem extends_finish (state : TurnLeases) (settlement : Settlement) :
    Extends state (state.finish settlement) :=
  ⟨prefix_append _ _, Nat.le_refl _, fun _ _ given => given⟩

theorem extends_getOrCreate (registry : SessionTurnLeaseRegistry) (state : TurnLeases)
    (sessionId : String) (now : Int) :
    Extends state (registry.getOrCreate state sessionId now).1 := by
  rw [getOrCreate]
  cases state.leases.get? sessionId with
  | some existing => exact extends_modifyLease state existing _
  | none => exact ⟨prefix_rfl, Nat.le_refl _, fun _ _ given => given⟩

theorem extends_grantFirst (state : TurnLeases) (lease : Nat) (now : Int) (tokens : List Nat) :
    Extends state (grantFirst state lease now tokens) := by
  induction tokens with
  | nil => exact extends_modifyLease state lease _
  | cons token rest ih =>
    rw [grantFirst]
    split
    · apply (extends_markSettled state token).trans
      apply (extends_modifyLease _ lease _).trans
      exact extends_finish _ _
    · exact ih

theorem extends_release (state : TurnLeases) (token : Option Nat) (releasedAt grantedAt : Int) :
    Extends state (release state token releasedAt grantedAt).2 := by
  cases token with
  | none => exact .refl state
  | some token =>
    rw [release]
    have marked : Extends state (state.modifyToken token fun token =>
        { token with released := true }) :=
      extends_modifyToken state token fun _ _ => rfl
    split
    · exact .refl state
    dsimp only
    split
    · exact marked
    split
    · exact marked
    · apply marked.trans
      exact (extends_modifyLease _ _ _).trans (extends_grantFirst _ _ _ _)

theorem extends_bindLease (state : TurnLeases) (token lease : Nat) (newSessionId : String)
    (now : Int) : Extends state (bindLease state token lease newSessionId now) := by
  let move : SessionTurnLeaseToken → SessionTurnLeaseToken := fun token =>
    { token with sessionId := newSessionId }
  let used := modifyLease { state with leases := state.leases.insert newSessionId lease } lease
    fun lease => { lease with lastUsed := now }
  have registered : Extends state used := ⟨prefix_rfl, Nat.le_refl _, fun _ _ given => given⟩
  have moved : Extends used (used.modifyToken token move) :=
    extends_modifyToken used token fun _ given => given
  exact registered.trans moved

theorem extends_rebind {token : Option Nat} {newSessionId : String} {now : Int}
    {result : Bool × TurnLeases} (done : rebind state token newSessionId now = .ok result) :
    Extends state result.2 := by
  cases token with
  | none =>
    rw [← Except.ok.inj done]
    exact .refl state
  | some token =>
    simp only [rebind] at done
    split at done
    · rw [← Except.ok.inj done]
      exact .refl state
    obtain ⟨checked, -, done⟩ := bind_eq_ok done
    split at done
    · rw [← Except.ok.inj done]
      exact .refl state
    rename_i lease found
    split at done
    · rw [← Except.ok.inj done]
      exact .refl state
    split at done
    · rw [← Except.ok.inj done]
      exact .refl state
    rw [← Except.ok.inj done]
    exact extends_bindLease state token lease newSessionId now

theorem extends_acquire {sessionId ownerId : String} {generation : Int} {timeoutMs : Option ℚ}
    {openedAt grantedAt : Int}
    (done : registry.acquire state sessionId ownerId generation timeoutMs openedAt grantedAt =
      .ok after) : Extends state after := by
  obtain ⟨checked, -, entered⟩ := bind_eq_ok done
  have opened := extends_getOrCreate registry state sessionId openedAt
  dsimp only at entered
  split at entered
  · obtain rfl := Except.ok.inj entered
    apply opened.trans
    apply (extends_addAcquisition _ _).trans
    exact (extends_modifyLease _ _ _).trans (extends_finish _ _)
  · obtain rfl := Except.ok.inj entered
    apply opened.trans
    exact (extends_addAcquisition _ _).trans (extends_modifyLease _ _ _)

theorem extends_expire (state : TurnLeases) (token : Nat) : Extends state (expire state token) := by
  rw [expire]
  split
  · exact .refl state
  · split
    · exact .refl state
    · apply (extends_markSettled state token).trans
      exact (extends_modifyLease _ _ _).trans (extends_finish _ _)

theorem extends_step (registry : SessionTurnLeaseRegistry) (state : TurnLeases)
    (event : LeaseEvent) : Extends state (registry.step state event) := by
  cases event with
  | acquire sessionId ownerId generation timeoutMs openedAt grantedAt =>
    cases done : registry.acquire state sessionId ownerId generation timeoutMs openedAt
        grantedAt with
    | error message =>
      simp only [step, done]
      exact .refl state
    | ok after =>
      simp only [step, done]
      exact extends_acquire done
  | timeout token => exact extends_expire state token
  | release token releasedAt grantedAt =>
    rw [step]
    split
    · exact extends_release state token releasedAt grantedAt
    · exact .refl state
  | rebind token newSessionId now =>
    rw [step]
    split
    · cases done : rebind state token newSessionId now with
      | error message => exact .refl state
      | ok result => exact extends_rebind done
    · exact .refl state

theorem extends_run (registry : SessionTurnLeaseRegistry) (state : TurnLeases)
    (events : List LeaseEvent) : Extends state (registry.run state events) := by
  induction events generalizing state with
  | nil => exact .refl state
  | cons event events ih => exact (extends_step registry state event).trans (ih _)

/-- A call of `acquire` timed out, or the token it was granted was given back. -/
def Over (state : TurnLeases) (token : Nat) : Prop :=
  (∃ error, Settlement.timedOut token error ∈ state.settlements) ∨
    state.Granted token ∧ state.releasedToken token = true

theorem Over.later (inv : state.Invariant)
    (past : Over state token) (extends_ : Extends state after) : Over after token := by
  rcases past with ⟨error, timedOut⟩ | ⟨granted, released⟩
  · exact Or.inl ⟨error, extends_.settlements.subset timedOut⟩
  · have below := inv.endedBelow token granted.ended
    exact Or.inr ⟨extends_.settlements.subset granted, extends_.released token below released⟩

theorem Over.not_holder (inv : state.Invariant) (past : Over state token)
    {lease : Nat} (below : lease < state.objects.fresh) : state.holderOf lease ≠ some token := by
  intro holds
  obtain ⟨granted, unreleased, -⟩ := inv.held lease below token holds
  rcases past with ⟨error, timedOut⟩ | ⟨-, released⟩
  · have same := inj_on_of_nodup_map inv.endedOnce granted timedOut rfl
    cases same
  · rw [unreleased] at released
    cases released

/-- Turns exclude each other, and no waiter is lost. -/
structure Exclusive (state : TurnLeases) : Prop where
  /-- At most one granted token that was not released is for a session. -/
  oneTurn : ∀ token other, state.Granted token → state.releasedToken token = false →
    state.Granted other → state.releasedToken other = false →
      state.sessionOf token = state.sessionOf other → token = other
  /-- It holds the lease registered under its session. -/
  holds : ∀ token, state.Granted token → state.releasedToken token = false →
    ∃ lease, state.leases.get? (state.sessionOf token) = some lease ∧
      state.holderOf lease = some token
  /-- The waiters of a lease are granted it in the order in which they asked. -/
  grantOrder : ∀ lease < state.objects.fresh, (state.waiterGrants lease).Pairwise (· < ·) ∧
    ∀ granted ∈ state.waiterGrants lease, ∀ waiting, state.waitsFor waiting = some lease →
      granted < waiting
  /-- A call of `acquire` ends at most once. -/
  endsOnce : state.ended.Nodup
  /-- No one waits for a lease that no one holds. -/
  noLostWakeup : ∀ lease token, state.holderOf lease = none → state.waitsFor token ≠ some lease

theorem exclusive_of_invariant (inv : state.Invariant) : Exclusive state where
  oneTurn token other granted unreleased alsoGranted alsoUnreleased :=
    inv.granted_unique granted unreleased alsoGranted alsoUnreleased
  holds := inv.holding
  grantOrder lease below := by
    obtain ⟨granted, -, first⟩ := pairwise_append.mp (inv.order lease below)
    refine ⟨granted, fun earlier before waiting waits => first earlier before waiting ?_⟩
    exact (inv.queued lease below waiting).mpr waits
  endsOnce := inv.endedOnce
  noLostWakeup lease token free waits := (inv.waiting token lease waits).2.2 free

/-- In every run of a registry turns exclude each other and no waiter is lost, and a token that
timed out or was released is never a holder again. -/
theorem run_exclusive (registry : SessionTurnLeaseRegistry) (events later : List LeaseEvent) :
    Exclusive (registry.run initial events) ∧ ∀ token, Over (registry.run initial events) token →
        ∀ lease < (registry.run initial (events ++ later)).objects.fresh,
          (registry.run initial (events ++ later)).holderOf lease ≠ some token := by
  have inv : (registry.run initial events).Invariant := run_invariant initial_invariant events
  refine ⟨exclusive_of_invariant inv, ?_⟩
  intro token past lease
  rw [run_append]
  have after := extends_run registry (registry.run initial events) later
  exact (past.later inv after).not_holder (run_invariant inv later)

end SessionTurnLeaseRegistry
end Recode.Orchestrator

import Recode.Orchestrator.TurnLease

/-! # What a registry of turn leases keeps

Every lease that is in use stays registered under the sessions of its holder and
of its waiters. The invariant speaks of what can be read of the objects, so it
does not depend on how many keys a lease has. -/

namespace Recode.Orchestrator

open Nat
namespace TurnLeases

open ObjectStore List

/-! ## Reads after a change -/

section Reads

variable (state : TurnLeases)

theorem waitsFor_eq_some {token lease : Nat} (waits : state.waitsFor token = some lease) :
    state.queuedOn token = some lease := by
  obtain ⟨waiter, present, open_⟩ := Option.bind_eq_some_iff.mp waits
  rw [queuedOn, present]
  split at open_
  · cases open_
  · exact open_

section Acquisition

variable (acquisition : Acquisition) (token : Nat)

theorem sessionOf_addAcquisition : (state.addAcquisition acquisition).sessionOf token =
    if token = state.acquisitions.fresh then acquisition.token.sessionId
    else state.sessionOf token :=
  state.acquisitions.field_alloc acquisition (fun made => made.token.sessionId) token

theorem releasedToken_addAcquisition : (state.addAcquisition acquisition).releasedToken token =
    if token = state.acquisitions.fresh then acquisition.token.released
    else state.releasedToken token :=
  state.acquisitions.field_alloc acquisition (fun made => made.token.released) token

theorem queuedOn_addAcquisition : (state.addAcquisition acquisition).queuedOn token =
    if token = state.acquisitions.fresh then acquisition.waiter.map LeaseWaiter.lease
    else state.queuedOn token :=
  state.acquisitions.field_alloc acquisition (fun made => made.waiter.map LeaseWaiter.lease) token

theorem waitsFor_addAcquisition : (state.addAcquisition acquisition).waitsFor token =
    if token = state.acquisitions.fresh then
      acquisition.waiter.bind fun waiter => if waiter.settled then none else some waiter.lease
    else state.waitsFor token :=
  state.acquisitions.field_alloc acquisition (fun made => made.waiter.bind _) token

end Acquisition

section Token

variable (changed token : Nat) (change : SessionTurnLeaseToken → SessionTurnLeaseToken)

theorem sessionOf_modifyToken : (state.modifyToken changed change).sessionOf token =
    if token = changed then (change (state.acquisitions.read changed).token).sessionId
    else state.sessionOf token := by
  unfold modifyToken sessionOf
  rw [field_modify _ Acquisition.token]
  split <;> rfl

theorem releasedToken_modifyToken : (state.modifyToken changed change).releasedToken token =
    if token = changed then (change (state.acquisitions.read changed).token).released
    else state.releasedToken token := by
  unfold modifyToken releasedToken
  rw [field_modify _ Acquisition.token]
  split <;> rfl

@[simp] theorem queuedOn_modifyToken :
    (state.modifyToken changed change).queuedOn token = state.queuedOn token := by
  unfold modifyToken queuedOn
  rw [read_modify_kept Acquisition.waiter _ _ _ rfl]

@[simp] theorem waitsFor_modifyToken :
    (state.modifyToken changed change).waitsFor token = state.waitsFor token := by
  unfold modifyToken waitsFor
  rw [read_modify_kept Acquisition.waiter _ _ _ rfl]

@[simp] theorem sessionOf_markSettled :
    (state.markSettled changed).sessionOf token = state.sessionOf token := by
  unfold markSettled sessionOf
  rw [read_modify_kept Acquisition.token _ _ _ rfl]

@[simp] theorem releasedToken_markSettled :
    (state.markSettled changed).releasedToken token = state.releasedToken token := by
  unfold markSettled releasedToken
  rw [read_modify_kept Acquisition.token _ _ _ rfl]

@[simp] theorem queuedOn_markSettled :
    (state.markSettled changed).queuedOn token = state.queuedOn token := by
  unfold markSettled queuedOn
  rw [field_modify _ Acquisition.waiter]
  split <;> simp_all [Function.comp_def]

theorem waitsFor_markSettled : (state.markSettled changed).waitsFor token =
    if token = changed then none else state.waitsFor token := by
  unfold markSettled waitsFor
  rw [field_modify _ Acquisition.waiter]
  split <;> simp [Option.bind_map]

end Token

section Lease

variable (changed lease : Nat) (change : SessionLease → SessionLease)

theorem holderOf_modifyLease : (state.modifyLease changed change).holderOf lease =
    if lease = changed then (change (state.objects.read changed)).holder
    else state.holderOf lease :=
  state.objects.field_modify SessionLease.holder changed lease change

theorem queueOf_modifyLease : (state.modifyLease changed change).queueOf lease =
    if lease = changed then (change (state.objects.read changed)).waiters
    else state.queueOf lease :=
  state.objects.field_modify SessionLease.waiters changed lease change

theorem holderOf_addLease (object : SessionLease) : (state.addLease object).holderOf lease =
    if lease = state.objects.fresh then object.holder else state.holderOf lease :=
  state.objects.field_alloc object SessionLease.holder lease

theorem queueOf_addLease (object : SessionLease) : (state.addLease object).queueOf lease =
    if lease = state.objects.fresh then object.waiters else state.queueOf lease :=
  state.objects.field_alloc object SessionLease.waiters lease

end Lease

end Reads

/-! ## The invariant -/

def Granted (state : TurnLeases) (token : Nat) : Prop :=
  Settlement.granted token ∈ state.settlements

instance (state : TurnLeases) (token : Nat) : Decidable (state.Granted token) :=
  inferInstanceAs (Decidable (_ ∈ _))

def ended (state : TurnLeases) : List Nat := state.settlements.map Settlement.token

def waiterGrant (state : TurnLeases) (lease : Nat) : Settlement → Option Nat
  | .granted token => if state.queuedOn token = some lease then some token else none
  | .timedOut _ _ => none

def waiterGrants (state : TurnLeases) (lease : Nat) : List Nat :=
  state.settlements.filterMap (state.waiterGrant lease)

/-- What holds of a registry after any calls. -/
structure Invariant (state : TurnLeases) : Prop where
  registered : ∀ sessionId lease, state.leases.get? sessionId = some lease →
    lease < state.objects.fresh
  held : ∀ lease < state.objects.fresh, ∀ token, state.holderOf lease = some token →
    state.Granted token ∧ state.releasedToken token = false ∧
      state.leases.get? (state.sessionOf token) = some lease
  holding : ∀ token, state.Granted token → state.releasedToken token = false →
    ∃ lease, state.leases.get? (state.sessionOf token) = some lease ∧
      state.holderOf lease = some token
  queued : ∀ lease < state.objects.fresh, ∀ token,
    token ∈ state.queueOf lease ↔ state.waitsFor token = some lease
  waiting : ∀ token lease, state.waitsFor token = some lease → lease < state.objects.fresh ∧
    state.leases.get? (state.sessionOf token) = some lease ∧ state.holderOf lease ≠ none
  pending : ∀ token lease, state.waitsFor token = some lease →
    token < state.acquisitions.fresh ∧ token ∉ state.ended ∧ state.releasedToken token = false
  order : ∀ lease < state.objects.fresh,
    (state.waiterGrants lease ++ state.queueOf lease).Pairwise (· < ·)
  queuedBelow : ∀ token lease, state.queuedOn token = some lease → lease < state.objects.fresh
  endedOnce : state.ended.Nodup
  endedBelow : ∀ token ∈ state.ended, token < state.acquisitions.fresh

theorem Granted.ended {state : TurnLeases} {token : Nat} (granted : state.Granted token) :
    token ∈ state.ended :=
  mem_map_of_mem granted

theorem waiterGrants_congr {state after : TurnLeases}
    (same : ∀ token ∈ state.ended, after.queuedOn token = state.queuedOn token) (lease : Nat) :
    state.settlements.filterMap (after.waiterGrant lease) = state.waiterGrants lease := by
  apply filterMap_congr
  intro settlement member
  cases settlement with
  | granted token =>
    have equal := same token (mem_map_of_mem member)
    rw [waiterGrant, waiterGrant, equal]
  | timedOut token error => rfl

theorem granted_of_mem_waiterGrants {state : TurnLeases} {lease token : Nat}
    (member : token ∈ state.waiterGrants lease) :
    state.Granted token ∧ state.queuedOn token = some lease := by
  obtain ⟨settlement, present, named⟩ := mem_filterMap.mp member
  cases settlement with
  | granted other =>
    rw [waiterGrant] at named
    split at named
    · rename_i queued
      obtain rfl := Option.some.inj named
      exact ⟨present, queued⟩
    · cases named
  | timedOut other error => cases named

theorem initial_invariant : initial.Invariant where
  registered sessionId lease found := by cases found
  held lease allocated := absurd allocated (not_lt_zero lease)
  holding token granted := by cases granted
  queued lease allocated := absurd allocated (not_lt_zero lease)
  waiting token lease waits := by cases waits
  pending token lease waits := by cases waits
  order lease allocated := absurd allocated (not_lt_zero lease)
  queuedBelow token lease queued := by cases queued
  endedOnce := nodup_nil
  endedBelow token settled := by cases settled

/-! ## Steps that keep it -/

section Steps

variable {state : TurnLeases}

section

variable (inv : state.Invariant)
include inv

/-- A registered lease is idle exactly when no one holds it. -/
theorem Invariant.idle_iff {lease : Nat} (allocated : lease < state.objects.fresh) :
    state.idle lease = true ↔ state.holderOf lease = none := by
  rw [idle, Bool.and_eq_true, Option.isNone_iff_eq_none, and_iff_left_iff_imp]
  intro free
  simp only [Bool.not_eq_true', any_eq_false]
  intro token queued
  have waits := (inv.queued lease allocated token).mp queued
  exact absurd free (inv.waiting token lease waits).2.2

/-- Leases may be registered anew as long as those in use keep their keys. -/
theorem Invariant.remap {leases : InsertionMap String Nat}
    (allocated : ∀ sessionId lease, leases.get? sessionId = some lease →
      lease < state.objects.fresh)
    (kept : ∀ sessionId lease, state.leases.get? sessionId = some lease →
      state.holderOf lease ≠ none → leases.get? sessionId = some lease) :
    Invariant { state with leases := leases } where
  registered := allocated
  held lease below token holds := by
    obtain ⟨granted, unreleased, found⟩ := inv.held lease below token holds
    have busy : state.holderOf lease ≠ none := fun free =>
      Option.some_ne_none token (holds.symm.trans free)
    exact ⟨granted, unreleased, kept _ _ found busy⟩
  holding token granted unreleased := by
    obtain ⟨lease, found, holds⟩ := inv.holding token granted unreleased
    have busy : state.holderOf lease ≠ none := fun free =>
      Option.some_ne_none token (holds.symm.trans free)
    exact ⟨lease, kept _ _ found busy, holds⟩
  queued := inv.queued
  waiting token lease waits := by
    obtain ⟨below, found, busy⟩ := inv.waiting token lease waits
    exact ⟨below, kept _ _ found busy, busy⟩
  pending := inv.pending
  order := inv.order
  queuedBelow := inv.queuedBelow
  endedOnce := inv.endedOnce
  endedBelow := inv.endedBelow

theorem Invariant.addLease (now : Int) :
    (state.addLease ⟨none, [], now⟩).Invariant where
  registered sessionId lease found :=
    lt_succ_of_lt (inv.registered sessionId lease found)
  held lease below token holds := by
    rw [holderOf_addLease] at holds
    split at holds
    · cases holds
    · rename_i old
      exact inv.held lease (Nat.lt_of_le_of_ne (le_of_lt_succ below) old) token holds
  holding token granted unreleased := by
    obtain ⟨lease, found, holds⟩ := inv.holding token granted unreleased
    refine ⟨lease, found, ?_⟩
    rw [holderOf_addLease, if_neg (Nat.ne_of_lt (inv.registered _ lease found))]
    exact holds
  queued lease below token := by
    rw [queueOf_addLease]
    split
    · rename_i new
      simp only [not_mem_nil, false_iff]
      intro waits
      exact absurd (inv.waiting token lease waits).1 (Nat.not_lt_of_le (Nat.le_of_eq new.symm))
    · rename_i old
      exact inv.queued lease (Nat.lt_of_le_of_ne (le_of_lt_succ below) old) token
  waiting token lease waits := by
    obtain ⟨below, found, busy⟩ := inv.waiting token lease waits
    refine ⟨lt_succ_of_lt below, found, ?_⟩
    rw [holderOf_addLease, if_neg (Nat.ne_of_lt below)]
    exact busy
  pending := inv.pending
  order lease below := by
    rw [queueOf_addLease]
    split
    · rename_i new
      have unwaited : state.waiterGrants lease = [] := by
        apply eq_nil_iff_forall_not_mem.mpr
        intro token granted
        have queued := (granted_of_mem_waiterGrants granted).2
        exact Nat.lt_irrefl _ (new ▸ inv.queuedBelow token lease queued)
      change (state.waiterGrants lease ++ []).Pairwise _
      rw [unwaited]
      exact .nil
    · rename_i old
      exact inv.order lease (Nat.lt_of_le_of_ne (le_of_lt_succ below) old)
  queuedBelow token lease queued := lt_succ_of_lt (inv.queuedBelow token lease queued)
  endedOnce := inv.endedOnce
  endedBelow := inv.endedBelow

theorem Invariant.touch (changed : Nat) {change : SessionLease → SessionLease}
    (holder : ∀ object, (change object).holder = object.holder)
    (waiters : ∀ object, (change object).waiters = object.waiters) :
    (state.modifyLease changed change).Invariant := by
  have sameHolder : (state.modifyLease changed change).holderOf = state.holderOf :=
    funext fun lease => state.objects.read_modify_kept SessionLease.holder changed lease (holder _)
  have sameQueue : (state.modifyLease changed change).queueOf = state.queueOf :=
    funext fun lease => state.objects.read_modify_kept SessionLease.waiters changed lease
      (waiters _)
  constructor
  · exact inv.registered
  · rw [sameHolder]
    exact inv.held
  · rw [sameHolder]
    exact inv.holding
  · rw [sameQueue]
    exact inv.queued
  · rw [sameHolder]
    exact inv.waiting
  · exact inv.pending
  · rw [sameQueue]
    exact inv.order
  · exact inv.queuedBelow
  · exact inv.endedOnce
  · exact inv.endedBelow

theorem Invariant.fresh_not_ended :
    state.acquisitions.fresh ∉ state.ended :=
  fun ended => absurd (inv.endedBelow _ ended) (lt_irrefl _)

theorem Invariant.fresh_not_waiting (lease : Nat) :
    state.waitsFor state.acquisitions.fresh ≠ some lease :=
  fun waits => absurd (inv.pending _ lease waits).1 (lt_irrefl _)

end

theorem granted_finish (state : TurnLeases) (granted token : Nat) :
    (state.finish (.granted granted)).Granted token ↔ state.Granted token ∨ token = granted := by
  change _ ∈ state.settlements ++ [_] ↔ _
  rw [mem_append, mem_singleton, Settlement.granted.injEq]
  rfl

theorem ended_finish (state : TurnLeases) (settlement : Settlement) :
    (state.finish settlement).ended = state.ended ++ [settlement.token] :=
  map_append

theorem Invariant.takeLease (inv : state.Invariant) {lease : Nat} {token : SessionTurnLeaseToken}
    (found : state.leases.get? token.sessionId = some lease) (unreleased : token.released = false)
    (free : state.holderOf lease = none) (now : Int) :
    (SessionTurnLeaseRegistry.takeLease state lease token now).Invariant := by
  let after := SessionTurnLeaseRegistry.takeLease state lease token now
  let fresh := state.acquisitions.fresh
  let made := state.addAcquisition ⟨token, none⟩
  let hold : SessionLease → SessionLease := fun lease =>
    { lease with holder := some fresh, lastUsed := now }
  have session : ∀ other, after.sessionOf other =
      if other = fresh then token.sessionId else state.sessionOf other :=
    state.sessionOf_addAcquisition ⟨token, none⟩
  have released : ∀ other, after.releasedToken other =
      if other = fresh then token.released else state.releasedToken other :=
    state.releasedToken_addAcquisition ⟨token, none⟩
  have queuedOn : ∀ other, after.queuedOn other =
      if other = fresh then none else state.queuedOn other :=
    state.queuedOn_addAcquisition ⟨token, none⟩
  have waits : ∀ other, after.waitsFor other =
      if other = fresh then none else state.waitsFor other :=
    state.waitsFor_addAcquisition ⟨token, none⟩
  have holder : ∀ other, after.holderOf other =
      if other = lease then some fresh else state.holderOf other :=
    fun other => made.holderOf_modifyLease lease other hold
  have queue : ∀ other, after.queueOf other = state.queueOf other := fun other =>
    read_modify_kept _ made.objects lease other (rfl : (hold _).waiters = _)
  have granted : ∀ other, after.Granted other ↔ state.Granted other ∨ other = fresh :=
    granted_finish _ fresh
  have ended : after.ended = state.ended ++ [fresh] := ended_finish _ _
  have old : ∀ other, other ∈ state.ended → other ≠ fresh := by
    intro other before same
    rw [same] at before
    exact inv.fresh_not_ended before
  have grants : ∀ other, after.waiterGrants other = state.waiterGrants other := by
    intro other
    have kept := waiterGrants_congr
      (fun earlier before => (queuedOn earlier).trans (if_neg (old earlier before))) other
    have last : after.waiterGrant other (.granted fresh) = none := by
      rw [waiterGrant, queuedOn, if_pos rfl]
      rfl
    change (state.settlements ++ [_]).filterMap _ = _
    rw [filterMap_append, kept, filterMap_cons, last]
    exact append_nil _
  change after.Invariant
  constructor
  · exact inv.registered
  · intro other allocated held holds
    rw [holder] at holds
    rw [granted, released, session]
    split at holds
    · rename_i same
      obtain rfl := Option.some.inj holds
      rw [if_pos rfl, if_pos rfl, same]
      exact ⟨Or.inr rfl, unreleased, found⟩
    · obtain ⟨before, open_, at_⟩ := inv.held other allocated held holds
      rw [if_neg (old held before.ended), if_neg (old held before.ended)]
      exact ⟨Or.inl before, open_, at_⟩
  · intro held holds open_
    rw [granted] at holds
    rw [released] at open_
    rw [session]
    rcases holds with before | rfl
    · have earlier := old held before.ended
      rw [if_neg earlier] at open_ ⊢
      obtain ⟨other, at_, holds⟩ := inv.holding held before open_
      refine ⟨other, at_, ?_⟩
      rw [holder, if_neg, holds]
      intro same
      rw [same, free] at holds
      cases holds
    · rw [if_pos rfl]
      refine ⟨lease, found, ?_⟩
      rw [holder, if_pos rfl]
  · intro other allocated waiting
    rw [queue, waits]
    split
    · rename_i new
      rw [inv.queued other allocated, new]
      exact iff_of_false (inv.fresh_not_waiting other) (by simp)
    · exact inv.queued other allocated waiting
  · intro waiting other waited
    rw [waits] at waited
    split at waited
    · cases waited
    rename_i different
    obtain ⟨allocated, at_, busy⟩ := inv.waiting waiting other waited
    rw [session, if_neg different, holder]
    refine ⟨allocated, at_, ?_⟩
    split
    · exact Option.some_ne_none fresh
    · exact busy
  · intro waiting other waited
    rw [waits] at waited
    split at waited
    · cases waited
    · rename_i different
      obtain ⟨earlier, unended, open_⟩ := inv.pending waiting other waited
      rw [released, if_neg different, ended, mem_append, mem_singleton]
      exact ⟨lt_succ_of_lt earlier, not_or.mpr ⟨unended, different⟩, open_⟩
  · intro other allocated
    rw [grants, queue]
    exact inv.order other allocated
  · intro other on queued
    rw [queuedOn] at queued
    split at queued
    · cases queued
    · exact inv.queuedBelow other on queued
  · rw [ended]
    exact inv.endedOnce.append (nodup_singleton fresh)
      (disjoint_singleton.mpr inv.fresh_not_ended)
  · intro other before
    rw [ended, mem_append, mem_singleton] at before
    rcases before with before | rfl
    · exact lt_succ_of_lt (inv.endedBelow other before)
    · exact lt_succ_self fresh

/-- A new token may queue for a lease that is held. -/
theorem Invariant.pushWaiter (inv : state.Invariant) {lease : Nat}
    {token : SessionTurnLeaseToken} (found : state.leases.get? token.sessionId = some lease)
    (unreleased : token.released = false) (busy : state.holderOf lease ≠ none) (timeoutMs : ℚ) :
    (SessionTurnLeaseRegistry.pushWaiter state lease token timeoutMs).Invariant := by
  let after := SessionTurnLeaseRegistry.pushWaiter state lease token timeoutMs
  let fresh := state.acquisitions.fresh
  let waiter : LeaseWaiter := ⟨false, lease, ⟨token.sessionId, token.ownerId, timeoutMs⟩⟩
  let made := state.addAcquisition ⟨token, some waiter⟩
  let push : SessionLease → SessionLease := fun lease =>
    { lease with waiters := lease.waiters ++ [fresh] }
  have session : ∀ other, after.sessionOf other =
      if other = fresh then token.sessionId else state.sessionOf other :=
    state.sessionOf_addAcquisition ⟨token, some waiter⟩
  have released : ∀ other, after.releasedToken other =
      if other = fresh then token.released else state.releasedToken other :=
    state.releasedToken_addAcquisition ⟨token, some waiter⟩
  have queuedOn : ∀ other, after.queuedOn other =
      if other = fresh then some lease else state.queuedOn other :=
    state.queuedOn_addAcquisition ⟨token, some waiter⟩
  have waits : ∀ other, after.waitsFor other =
      if other = fresh then some lease else state.waitsFor other :=
    state.waitsFor_addAcquisition ⟨token, some waiter⟩
  have holder : ∀ other, after.holderOf other = state.holderOf other := fun other =>
    read_modify_kept _ made.objects lease other (rfl : (push _).holder = _)
  have queue : ∀ other, after.queueOf other =
      if other = lease then state.queueOf lease ++ [fresh] else state.queueOf other :=
    fun other => made.queueOf_modifyLease lease other push
  have old : ∀ other, other ∈ state.ended → other ≠ fresh := by
    intro other before same
    rw [same] at before
    exact inv.fresh_not_ended before
  have grants : ∀ other, after.waiterGrants other = state.waiterGrants other :=
    waiterGrants_congr fun earlier before => (queuedOn earlier).trans (if_neg (old earlier before))
  have below := inv.registered _ lease found
  change after.Invariant
  constructor
  · exact inv.registered
  · intro other allocated held holds
    rw [holder] at holds
    obtain ⟨granted, open_, at_⟩ := inv.held other allocated held holds
    rw [released, session, if_neg (old held granted.ended), if_neg (old held granted.ended)]
    exact ⟨granted, open_, at_⟩
  · intro held granted open_
    have earlier := old held (Granted.ended granted)
    rw [released, if_neg earlier] at open_
    obtain ⟨other, at_, holds⟩ := inv.holding held granted open_
    refine ⟨other, ?_, ?_⟩
    · rw [session, if_neg earlier]
      exact at_
    · rw [holder]
      exact holds
  · intro other allocated waiting
    rw [queue, waits]
    by_cases new : waiting = fresh
    · subst new
      rw [if_pos rfl, Option.some.injEq]
      by_cases same : other = lease
      · rw [if_pos same]
        exact iff_of_true (mem_append_right _ mem_cons_self) same.symm
      · rw [if_neg same, inv.queued other allocated]
        exact iff_of_false (inv.fresh_not_waiting other) fun equal => same equal.symm
    · rw [if_neg new]
      by_cases same : other = lease
      · rw [if_pos same, mem_append, mem_singleton, or_iff_left new, same]
        exact inv.queued lease below waiting
      · rw [if_neg same]
        exact inv.queued other allocated waiting
  · intro waiting other waited
    rw [waits] at waited
    rw [session, holder]
    split at waited
    · rename_i new
      obtain rfl := Option.some.inj waited
      rw [if_pos new]
      exact ⟨below, found, busy⟩
    · rename_i earlier
      rw [if_neg earlier]
      exact inv.waiting waiting other waited
  · intro waiting other waited
    rw [waits] at waited
    rw [released]
    split at waited
    · rename_i new
      rw [if_pos new, new]
      exact ⟨lt_succ_self fresh, inv.fresh_not_ended, unreleased⟩
    · rename_i earlier
      rw [if_neg earlier]
      obtain ⟨before, unended, open_⟩ := inv.pending waiting other waited
      exact ⟨lt_succ_of_lt before, unended, open_⟩
  · intro other allocated
    rw [grants, queue]
    split
    · rw [← append_assoc, pairwise_append]
      rename_i same
      refine ⟨same ▸ inv.order other allocated, pairwise_singleton _ _, ?_⟩
      intro earlier listed new last
      rw [mem_singleton.mp last]
      rcases mem_append.mp listed with granted | queued
      · exact inv.endedBelow earlier (granted_of_mem_waiterGrants granted).1.ended
      · exact (inv.pending earlier lease ((inv.queued lease below earlier).mp queued)).1
    · exact inv.order other allocated
  · intro other on queued
    rw [queuedOn] at queued
    split at queued
    · obtain rfl := Option.some.inj queued
      exact below
    · exact inv.queuedBelow other on queued
  · exact inv.endedOnce
  · exact fun other before => lt_succ_of_lt (inv.endedBelow other before)

variable {token lease : Nat}

theorem Invariant.timeOut (inv : state.Invariant)
    (waiting : state.waitsFor token = some lease) (error : TurnLeaseTimeoutError) :
    Invariant (((state.markSettled token).modifyLease lease fun lease =>
      { lease with waiters := lease.waiters.erase token }).finish (.timedOut token error)) := by
  let remove : SessionLease → SessionLease := fun lease =>
    { lease with waiters := lease.waiters.erase token }
  let settled := state.markSettled token
  let after := (settled.modifyLease lease remove).finish (.timedOut token error)
  have session : ∀ other, after.sessionOf other = state.sessionOf other :=
    state.sessionOf_markSettled token
  have released : ∀ other, after.releasedToken other = state.releasedToken other :=
    state.releasedToken_markSettled token
  have queuedOn : ∀ other, after.queuedOn other = state.queuedOn other :=
    state.queuedOn_markSettled token
  have waits : ∀ other, after.waitsFor other =
      if other = token then none else state.waitsFor other :=
    state.waitsFor_markSettled token
  have holder : ∀ other, after.holderOf other = state.holderOf other := fun other =>
    read_modify_kept _ settled.objects lease other (rfl : (remove _).holder = _)
  have queue : ∀ other, after.queueOf other =
      if other = lease then (state.queueOf lease).erase token else state.queueOf other :=
    fun other => settled.queueOf_modifyLease lease other remove
  have granted : ∀ other, after.Granted other ↔ state.Granted other := by
    intro other
    change _ ∈ state.settlements ++ [_] ↔ _ ∈ state.settlements
    simp
  have ended : after.ended = state.ended ++ [token] := ended_finish _ _
  have grants : ∀ other, after.waiterGrants other = state.waiterGrants other := by
    intro other
    have kept := waiterGrants_congr (fun earlier _ => queuedOn earlier) other
    change (state.settlements ++ [_]).filterMap _ = _
    rw [filterMap_append, kept]
    exact append_nil _
  obtain ⟨below, -, -⟩ := inv.waiting token lease waiting
  obtain ⟨made, unended, -⟩ := inv.pending token lease waiting
  have distinct : (state.queueOf lease).Nodup :=
    (pairwise_append.mp (inv.order lease below)).2.1.imp ne_of_lt
  change after.Invariant
  constructor
  · exact inv.registered
  · intro other allocated held holds
    rw [holder] at holds
    rw [granted, released, session]
    exact inv.held other allocated held holds
  · intro held holds open_
    rw [granted] at holds
    rw [released] at open_
    obtain ⟨other, at_, holds⟩ := inv.holding held holds open_
    refine ⟨other, ?_, ?_⟩
    · rw [session]
      exact at_
    · rw [holder]
      exact holds
  · intro other allocated waited
    rw [queue, waits]
    by_cases same : other = lease
    · rw [if_pos same, distinct.mem_erase_iff, inv.queued lease below, same]
      by_cases gone : waited = token <;> simp [gone]
    rw [if_neg same, inv.queued other allocated]
    by_cases gone : waited = token
    · rw [if_pos gone, gone, waiting]
      exact iff_of_false (fun equal => same (Option.some.inj equal).symm) (by simp)
    · rw [if_neg gone]
  · intro waited other still
    rw [waits] at still
    split at still
    · cases still
    · rw [session, holder]
      exact inv.waiting waited other still
  · intro waited other still
    rw [waits] at still
    split at still
    · cases still
    · rename_i different
      obtain ⟨earlier, open_, kept⟩ := inv.pending waited other still
      rw [released, ended, mem_append, mem_singleton]
      exact ⟨earlier, not_or.mpr ⟨open_, different⟩, kept⟩
  · intro other allocated
    rw [grants, queue]
    split
    · rename_i same
      rw [same]
      exact (inv.order lease below).sublist (erase_sublist.append_left _)
    · exact inv.order other allocated
  · intro other on queued
    rw [queuedOn] at queued
    exact inv.queuedBelow other on queued
  · rw [ended]
    exact inv.endedOnce.append (nodup_singleton token) (disjoint_singleton.mpr unended)
  · intro other before
    rw [ended, mem_append, mem_singleton] at before
    rcases before with before | rfl
    · exact inv.endedBelow other before
    · exact made

def freed (state : TurnLeases) (token lease : Nat) (now : Int) : TurnLeases :=
  (state.modifyToken token fun token => { token with released := true }).modifyLease lease
    fun lease => { lease with holder := none, lastUsed := now }

section Freed

variable (state : TurnLeases) (token lease : Nat) (now : Int) (other : Nat)

theorem sessionOf_freed :
    (state.freed token lease now).sessionOf other = state.sessionOf other := by
  refine (state.sessionOf_modifyToken token other fun token =>
    { token with released := true }).trans (ite_eq_right_iff.mpr ?_)
  rintro rfl
  rfl

theorem releasedToken_freed : (state.freed token lease now).releasedToken other =
    if other = token then true else state.releasedToken other :=
  state.releasedToken_modifyToken token other fun token => { token with released := true }

theorem waitsFor_freed : (state.freed token lease now).waitsFor other = state.waitsFor other :=
  state.waitsFor_modifyToken token other fun token => { token with released := true }

theorem queuedOn_freed : (state.freed token lease now).queuedOn other = state.queuedOn other :=
  state.queuedOn_modifyToken token other fun token => { token with released := true }

theorem holderOf_freed : (state.freed token lease now).holderOf other =
    if other = lease then none else state.holderOf other :=
  (state.modifyToken token fun token => { token with released := true }).holderOf_modifyLease
    lease other fun lease => { lease with holder := none, lastUsed := now }

theorem queueOf_freed : (state.freed token lease now).queueOf other = state.queueOf other := by
  refine (queueOf_modifyLease _ lease other _).trans (ite_eq_right_iff.mpr ?_)
  rintro rfl
  rfl

end Freed

section

variable (inv : state.Invariant)
include inv

theorem Invariant.granted_unique {token other : Nat}
    (granted : state.Granted token) (unreleased : state.releasedToken token = false)
    (alsoGranted : state.Granted other) (alsoUnreleased : state.releasedToken other = false)
    (same : state.sessionOf token = state.sessionOf other) : token = other := by
  obtain ⟨lease, found, holds⟩ := inv.holding token granted unreleased
  obtain ⟨again, found', holds'⟩ := inv.holding other alsoGranted alsoUnreleased
  rw [same, found'] at found
  obtain rfl := Option.some.inj found
  rw [holds] at holds'
  exact Option.some.inj holds'

theorem Invariant.holder_unique {token lease other : Nat} (below : lease < state.objects.fresh)
    (holds : state.holderOf lease = some token) (alsoBelow : other < state.objects.fresh)
    (alsoHolds : state.holderOf other = some token) : other = lease := by
  obtain ⟨-, -, found⟩ := inv.held lease below token holds
  obtain ⟨-, -, found'⟩ := inv.held other alsoBelow token alsoHolds
  exact Option.some.inj (found'.symm.trans found)

theorem Invariant.giveBack
    (below : lease < state.objects.fresh) (holds : state.holderOf lease = some token)
    (unwaited : state.queueOf lease = []) (now : Int) :
    ((state.freed token lease now).modifyLease lease fun lease =>
      { lease with waiters := [] }).Invariant := by
  let freed := state.freed token lease now
  let clear : SessionLease → SessionLease := fun lease => { lease with waiters := [] }
  let after := freed.modifyLease lease clear
  have session : ∀ other, after.sessionOf other = state.sessionOf other :=
    state.sessionOf_freed token lease now
  have released : ∀ other, after.releasedToken other =
      if other = token then true else state.releasedToken other :=
    state.releasedToken_freed token lease now
  have waits : ∀ other, after.waitsFor other = state.waitsFor other :=
    state.waitsFor_freed token lease now
  have queuedOn : ∀ other, after.queuedOn other = state.queuedOn other :=
    state.queuedOn_freed token lease now
  have holder : ∀ other, after.holderOf other =
      if other = lease then none else state.holderOf other := by
    intro other
    refine (freed.holderOf_modifyLease lease other clear).trans ?_
    by_cases same : other = lease
    · rw [if_pos same, if_pos same]
      exact (state.holderOf_freed token lease now lease).trans (if_pos rfl)
    · rw [if_neg same, if_neg same]
      exact (state.holderOf_freed token lease now other).trans (if_neg same)
  have queue : ∀ other, after.queueOf other = state.queueOf other := by
    intro other
    refine (freed.queueOf_modifyLease lease other clear).trans ?_
    by_cases same : other = lease
    · rw [if_pos same, same, unwaited]
    · rw [if_neg same]
      exact state.queueOf_freed token lease now other
  change after.Invariant
  constructor
  · exact inv.registered
  · intro other allocated held given
    rw [holder] at given
    split at given
    · cases given
    rename_i different
    have still : held ≠ token := by
      rintro rfl
      exact different (inv.holder_unique below holds allocated given)
    rw [released, if_neg still, session]
    exact inv.held other allocated held given
  · intro held granted open_
    rw [released] at open_
    split at open_
    · cases open_
    rename_i different
    obtain ⟨other, at_, given⟩ := inv.holding held granted open_
    refine ⟨other, ?_, ?_⟩
    · rw [session]
      exact at_
    · rw [holder, if_neg]
      · exact given
      · rintro rfl
        exact different (Option.some.inj (given.symm.trans holds))
  · intro other allocated waiting
    rw [queue, waits]
    exact inv.queued other allocated waiting
  · intro waiting other waited
    rw [waits] at waited
    obtain ⟨allocated, at_, busy⟩ := inv.waiting waiting other waited
    have different : other ≠ lease := by
      rintro rfl
      have listed := (inv.queued other allocated waiting).mpr waited
      rw [unwaited] at listed
      cases listed
    rw [session, holder, if_neg different]
    exact ⟨allocated, at_, busy⟩
  · intro waiting other waited
    rw [waits] at waited
    obtain ⟨earlier, unended, open_⟩ := inv.pending waiting other waited
    have different : waiting ≠ token := by
      rintro rfl
      exact unended (inv.held lease below waiting holds).1.ended
    rw [released, if_neg different]
    exact ⟨earlier, unended, open_⟩
  · intro other allocated
    have grants := waiterGrants_congr (fun earlier _ => queuedOn earlier) other
    rw [queue]
    change (state.settlements.filterMap (after.waiterGrant other) ++ _).Pairwise _
    rw [grants]
    exact inv.order other allocated
  · intro other on queued
    rw [queuedOn] at queued
    exact inv.queuedBelow other on queued
  · exact inv.endedOnce
  · exact inv.endedBelow

theorem Invariant.passOn {token lease next : Nat} {rest : List Nat}
    (below : lease < state.objects.fresh) (holds : state.holderOf lease = some token)
    (queued : state.queueOf lease = next :: rest) (releasedAt grantedAt : Int) :
    Invariant ((((state.freed token lease releasedAt).markSettled next).modifyLease lease
      fun _ => { holder := some next, waiters := rest, lastUsed := grantedAt }).finish
        (.granted next)) := by
  let freed := state.freed token lease releasedAt
  let settled := freed.markSettled next
  let pass : SessionLease → SessionLease := fun _ =>
    { holder := some next, waiters := rest, lastUsed := grantedAt }
  let after := (settled.modifyLease lease pass).finish (.granted next)
  have waiting : state.waitsFor next = some lease :=
    (inv.queued lease below next).mp (queued ▸ mem_cons_self)
  obtain ⟨-, found, -⟩ := inv.waiting next lease waiting
  obtain ⟨made, unended, unreleased⟩ := inv.pending next lease waiting
  obtain ⟨granted_, -, -⟩ := inv.held lease below token holds
  have different : next ≠ token := by
    rintro rfl
    exact unended granted_.ended
  have session : ∀ other, after.sessionOf other = state.sessionOf other := fun other =>
    (freed.sessionOf_markSettled next other).trans
      (state.sessionOf_freed token lease releasedAt other)
  have released : ∀ other, after.releasedToken other =
      if other = token then true else state.releasedToken other := fun other =>
    (freed.releasedToken_markSettled next other).trans
      (state.releasedToken_freed token lease releasedAt other)
  have waits : ∀ other, after.waitsFor other =
      if other = next then none else state.waitsFor other := by
    intro other
    rw [← state.waitsFor_freed token lease releasedAt other]
    exact freed.waitsFor_markSettled next other
  have queuedOn : ∀ other, after.queuedOn other = state.queuedOn other := fun other =>
    (freed.queuedOn_markSettled next other).trans
      (state.queuedOn_freed token lease releasedAt other)
  have holder : ∀ other, after.holderOf other =
      if other = lease then some next else state.holderOf other := by
    intro other
    refine (settled.holderOf_modifyLease lease other pass).trans ?_
    by_cases same : other = lease
    · rw [if_pos same, if_pos same]
    · rw [if_neg same, if_neg same]
      exact (state.holderOf_freed token lease releasedAt other).trans (if_neg same)
  have queue : ∀ other, after.queueOf other =
      if other = lease then rest else state.queueOf other := by
    intro other
    refine (settled.queueOf_modifyLease lease other pass).trans ?_
    by_cases same : other = lease
    · rw [if_pos same, if_pos same]
    · rw [if_neg same, if_neg same]
      exact state.queueOf_freed token lease releasedAt other
  have granted : ∀ other, after.Granted other ↔ state.Granted other ∨ other = next :=
    granted_finish _ next
  have ended : after.ended = state.ended ++ [next] := ended_finish _ _
  have grants : ∀ other, after.waiterGrants other =
      state.waiterGrants other ++ if lease = other then [next] else [] := by
    intro other
    have kept := waiterGrants_congr (fun earlier _ => queuedOn earlier) other
    change (state.settlements ++ [_]).filterMap _ = _
    rw [filterMap_append, kept]
    congr 1
    have last : after.queuedOn next = some lease :=
      (queuedOn next).trans (waitsFor_eq_some state waiting)
    by_cases same : lease = other <;> simp [waiterGrant, last, same]
  have distinct : (next :: rest).Nodup :=
    queued ▸ (pairwise_append.mp (inv.order lease below)).2.1.imp ne_of_lt
  change after.Invariant
  constructor
  · exact inv.registered
  · intro other allocated held given
    rw [holder] at given
    rw [granted, released, session]
    split at given
    · rename_i same
      obtain rfl := Option.some.inj given
      rw [if_neg different, same]
      exact ⟨Or.inr rfl, unreleased, found⟩
    rename_i another
    have still : held ≠ token := by
      rintro rfl
      exact another (inv.holder_unique below holds allocated given)
    obtain ⟨before, open_, at_⟩ := inv.held other allocated held given
    rw [if_neg still]
    exact ⟨Or.inl before, open_, at_⟩
  · intro held before open_
    rw [granted] at before
    rw [released] at open_
    split at open_
    · cases open_
    rename_i still
    rw [session]
    rcases before with before | rfl
    · obtain ⟨other, at_, given⟩ := inv.holding held before open_
      refine ⟨other, at_, ?_⟩
      rw [holder, if_neg, given]
      rintro rfl
      exact still (Option.some.inj (given.symm.trans holds))
    · refine ⟨lease, found, ?_⟩
      rw [holder, if_pos rfl]
  · intro other allocated waited
    rw [queue, waits]
    have listed := inv.queued other allocated waited
    by_cases same : other = lease
    · rw [same, queued, mem_cons] at listed
      rw [if_pos same, same]
      by_cases first : waited = next
      · rw [if_pos first, first]
        exact iff_of_false (nodup_cons.mp distinct).1 (by simp)
      · rw [if_neg first, ← listed, or_iff_right first]
    · rw [if_neg same]
      by_cases first : waited = next
      · rw [if_pos first, listed, first, waiting]
        exact iff_of_false (fun equal => same (Option.some.inj equal).symm) (by simp)
      · rw [if_neg first]
        exact listed
  · intro waited other still
    rw [waits] at still
    split at still
    · cases still
    obtain ⟨allocated, at_, busy⟩ := inv.waiting waited other still
    rw [session, holder]
    refine ⟨allocated, at_, ?_⟩
    split
    · exact Option.some_ne_none next
    · exact busy
  · intro waited other still
    rw [waits] at still
    split at still
    · cases still
    rename_i later
    obtain ⟨earlier, open_, kept⟩ := inv.pending waited other still
    have another : waited ≠ token := by
      rintro rfl
      exact open_ granted_.ended
    rw [released, if_neg another, ended, mem_append, mem_singleton]
    exact ⟨earlier, not_or.mpr ⟨open_, later⟩, kept⟩
  · intro other allocated
    rw [grants, queue]
    have ordered := inv.order other allocated
    by_cases same : other = lease
    · rw [same, queued] at ordered
      rw [if_pos same, if_pos same.symm, same, append_assoc]
      exact ordered
    · rw [if_neg same, if_neg fun equal => same equal.symm, append_nil]
      exact ordered
  · intro other on listed
    rw [queuedOn] at listed
    exact inv.queuedBelow other on listed
  · rw [ended]
    exact inv.endedOnce.append (nodup_singleton next) (disjoint_singleton.mpr unended)
  · intro other before
    rw [ended, mem_append, mem_singleton] at before
    rcases before with before | rfl
    · exact inv.endedBelow other before
    · exact made

theorem Invariant.moveToken {newSessionId : String}
    (below : lease < state.objects.fresh) (holds : state.holderOf lease = some token)
    (found : state.leases.get? newSessionId = some lease) :
    (state.modifyToken token fun token =>
      { token with sessionId := newSessionId }).Invariant := by
  let move : SessionTurnLeaseToken → SessionTurnLeaseToken := fun token =>
    { token with sessionId := newSessionId }
  let after := state.modifyToken token move
  have session : ∀ other, after.sessionOf other =
      if other = token then newSessionId else state.sessionOf other :=
    fun other => state.sessionOf_modifyToken token other move
  have released : ∀ other, after.releasedToken other = state.releasedToken other := by
    intro other
    refine (state.releasedToken_modifyToken token other move).trans (ite_eq_right_iff.mpr ?_)
    rintro rfl
    rfl
  have waits : ∀ other, after.waitsFor other = state.waitsFor other :=
    fun other => state.waitsFor_modifyToken token other move
  have queuedOn : ∀ other, after.queuedOn other = state.queuedOn other :=
    fun other => state.queuedOn_modifyToken token other move
  change after.Invariant
  constructor
  · exact inv.registered
  · intro other allocated held given
    obtain ⟨granted, open_, at_⟩ := inv.held other allocated held given
    rw [released, session]
    refine ⟨granted, open_, ?_⟩
    split
    · rename_i same
      rw [inv.holder_unique below holds allocated (same ▸ given)]
      exact found
    · exact at_
  · intro held granted open_
    rw [released] at open_
    obtain ⟨other, at_, given⟩ := inv.holding held granted open_
    rw [session]
    split
    · rename_i same
      exact ⟨lease, found, same ▸ holds⟩
    · exact ⟨other, at_, given⟩
  · intro other allocated waiting
    rw [waits]
    exact inv.queued other allocated waiting
  · intro waiting other waited
    rw [waits] at waited
    have different : waiting ≠ token := by
      rintro rfl
      exact (inv.pending waiting other waited).2.1 (inv.held lease below waiting holds).1.ended
    rw [session, if_neg different]
    exact inv.waiting waiting other waited
  · intro waiting other waited
    rw [waits] at waited
    rw [released]
    exact inv.pending waiting other waited
  · intro other allocated
    have grants := waiterGrants_congr (fun earlier _ => queuedOn earlier) other
    change (state.settlements.filterMap (after.waiterGrant other) ++ _).Pairwise _
    rw [grants]
    exact inv.order other allocated
  · intro other on queued
    rw [queuedOn] at queued
    exact inv.queuedBelow other on queued
  · exact inv.endedOnce
  · exact inv.endedBelow

end

end Steps

end TurnLeases
end Recode.Orchestrator

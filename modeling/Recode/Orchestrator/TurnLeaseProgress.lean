import Recode.Orchestrator.TurnLeaseRuns

/-! # What a call of the registry does to tokens

Every call is described by what it does to the tokens: which of them are
granted, which still wait and which were released. -/

namespace Recode.Orchestrator

open List Option
namespace SessionTurnLeaseRegistry

open TurnLeases

/-- A call ended or granted some waits and made no token. -/
structure Progress (state after : TurnLeases) : Prop where
  fresh : after.acquisitions.fresh = state.acquisitions.fresh
  granted : ∀ token, state.Granted token → after.Granted token
  waits : ∀ token, after.waitsFor token ≠ none → state.waitsFor token ≠ none
  newly : ∀ token, after.Granted token → state.Granted token ∨ state.waitsFor token ≠ none

theorem Progress.refl (state : TurnLeases) : Progress state state :=
  ⟨rfl, fun _ => id, fun _ => id, fun _ => Or.inl⟩

theorem Progress.trans {state middle after : TurnLeases} (first : Progress state middle)
    (second : Progress middle after) : Progress state after where
  fresh := second.fresh.trans first.fresh
  granted token := second.granted token ∘ first.granted token
  waits token := first.waits token ∘ second.waits token
  newly token granted := by
    rcases second.newly token granted with old | waiting
    · exact first.newly token old
    · exact Or.inr (first.waits token waiting)

variable (state : TurnLeases) (token : Nat)

theorem progress_modifyToken (change : SessionTurnLeaseToken → SessionTurnLeaseToken) :
    Progress state (state.modifyToken token change) where
  fresh := rfl
  granted _ := id
  waits other waiting := by
    rw [waitsFor_modifyToken] at waiting
    exact waiting
  newly _ := Or.inl

theorem progress_modifyLease (lease : Nat) (change : SessionLease → SessionLease) :
    Progress state (state.modifyLease lease change) :=
  ⟨rfl, fun _ => id, fun _ => id, fun _ => Or.inl⟩

theorem progress_leases (leases : InsertionMap String Nat) :
    Progress state { state with leases := leases } :=
  ⟨rfl, fun _ => id, fun _ => id, fun _ => Or.inl⟩

theorem progress_markSettled : Progress state (state.markSettled token) where
  fresh := rfl
  granted _ := id
  waits other waiting := by
    rw [waitsFor_markSettled] at waiting
    split at waiting
    · exact (waiting rfl).elim
    · exact waiting
  newly _ := Or.inl

theorem progress_grantFirst (lease : Nat) (now : Int) (tokens : List Nat) :
    Progress state (grantFirst state lease now tokens) := by
  induction tokens with
  | nil => exact progress_modifyLease state lease _
  | cons token rest ih =>
    rw [grantFirst]
    split
    · rename_i waiting
      let take : SessionLease → SessionLease := fun _ =>
        { holder := some token, waiters := rest, lastUsed := now }
      have marked := (progress_markSettled state token).trans
        (progress_modifyLease _ lease take)
      constructor
      · exact marked.fresh
      · intro other granted
        exact mem_append_left _ (marked.granted other granted)
      · exact marked.waits
      · intro other granted
        rcases mem_append.mp granted with old | new
        · exact marked.newly other old
        · obtain rfl := Settlement.granted.inj (mem_singleton.mp new)
          exact Or.inr (isSome_iff_ne_none.mp waiting)
    · exact ih

theorem releasedToken_grantFirst (lease : Nat) (now : Int) (tokens : List Nat) (token : Nat) :
    (grantFirst state lease now tokens).releasedToken token = state.releasedToken token := by
  induction tokens with
  | nil => rfl
  | cons first rest ih =>
    rw [grantFirst]
    split
    · exact releasedToken_markSettled state first token
    · exact ih

theorem progress_release (releasedAt grantedAt : Int) :
    Progress state (release state (some token) releasedAt grantedAt).2 := by
  rw [release]
  have marked := progress_modifyToken state token fun token => { token with released := true }
  split
  · exact .refl state
  dsimp only
  split
  · exact marked
  split
  · exact marked
  · exact (marked.trans (progress_modifyLease _ _ _)).trans (progress_grantFirst _ _ _ _)

/-- Releasing a token releases it, and no other. -/
theorem releasedToken_release (token other : Nat) (releasedAt grantedAt : Int) :
    (release state (some token) releasedAt grantedAt).2.releasedToken other =
      (decide (other = token) || state.releasedToken other) := by
  have marked : (state.modifyToken token fun token =>
      { token with released := true }).releasedToken other =
        (decide (other = token) || state.releasedToken other) := by
    rw [releasedToken_modifyToken]
    split
    · rename_i same
      simp [same]
    · rename_i different
      simp [different]
  rw [release]
  split
  · rename_i already
    by_cases same : other = token
    · simp [same, already]
    · simp [same]
  dsimp only
  split
  · exact marked
  split
  · exact marked
  · rw [grantNext, releasedToken_grantFirst]
    exact marked

/-- A granted token is over once it is released. -/
theorem over_release (registry : SessionTurnLeaseRegistry) {token : Nat}
    (granted : state.Granted token) (releasedAt grantedAt : Int) :
    Over (registry.step state (.release (some token) releasedAt grantedAt)) token := by
  have extends_ := extends_step registry state (.release (some token) releasedAt grantedAt)
  refine Or.inr ⟨extends_.settlements.subset granted, ?_⟩
  rw [step, if_pos (by simpa using granted), releasedToken_release, decide_eq_true rfl,
    Bool.true_or]

theorem progress_expire : Progress state (expire state token) := by
  rw [expire]
  split
  · exact .refl state
  split
  · exact .refl state
  rename_i waiter _ _
  have removed := (progress_markSettled state token).trans (progress_modifyLease _ waiter.lease
    fun lease => { lease with waiters := lease.waiters.erase token })
  constructor
  · exact removed.fresh
  · intro other granted
    exact mem_append_left _ (removed.granted other granted)
  · exact removed.waits
  · intro other granted
    rcases mem_append.mp granted with old | new
    · exact removed.newly other old
    · cases mem_singleton.mp new

theorem waitsFor_expire : (expire state token).waitsFor token = none := by
  rw [expire]
  split
  · rename_i absent
    rw [waitsFor, absent, bind_none]
  split
  · rename_i waiter present settled
    rw [waitsFor, present, bind_some, if_pos settled]
  · exact (waitsFor_markSettled state token token).trans (if_pos rfl)

theorem granted_expire (token other : Nat) :
    (expire state token).Granted other ↔ state.Granted other := by
  rw [expire]
  split
  · rfl
  split
  · rfl
  · simp [Granted, finish, markSettled, modifyLease]

theorem releasedToken_expire (token other : Nat) :
    (expire state token).releasedToken other = state.releasedToken other := by
  rw [expire]
  split
  · rfl
  split
  · rfl
  · exact releasedToken_markSettled state token other

section Rebind

variable {state} {token : Nat} {newSessionId : String} {now : Int} {result : Bool × TurnLeases}

section

variable (done : rebind state (some token) newSessionId now = .ok result)
include done

theorem rebind_eq :
    result.2 = state ∨ ∃ lease, result.2 = bindLease state token lease newSessionId now := by
  simp only [rebind] at done
  split at done
  · rw [← Except.ok.inj done]
    exact Or.inl rfl
  obtain ⟨checked, -, done⟩ := Procedure.bind_eq_ok done
  split at done
  · rw [← Except.ok.inj done]
    exact Or.inl rfl
  rename_i lease found
  split at done
  · rw [← Except.ok.inj done]
    exact Or.inl rfl
  split at done
  · rw [← Except.ok.inj done]
    exact Or.inl rfl
  rw [← Except.ok.inj done]
  exact Or.inr ⟨lease, rfl⟩

theorem progress_rebind :
    Progress state result.2 := by
  rcases rebind_eq done with same | ⟨lease, bound⟩
  · rw [same]
    exact .refl state
  · rw [bound, bindLease]
    apply (progress_leases state _).trans
    exact (progress_modifyLease _ _ _).trans (progress_modifyToken _ _ _)

theorem releasedToken_rebind
    (other : Nat) : result.2.releasedToken other = state.releasedToken other := by
  rcases rebind_eq done with same | ⟨lease, bound⟩
  · rw [same]
  rw [bound, bindLease]
  refine (releasedToken_modifyToken _ _ _ _).trans ?_
  split
  · rename_i same
    rw [same]
    rfl
  · rfl

end

end Rebind

/-- A call made a token, and nothing else changed for the others. -/
structure Asked (state after : TurnLeases) : Prop where
  fresh : after.acquisitions.fresh = state.acquisitions.fresh + 1
  released : ∀ token, token ≠ state.acquisitions.fresh →
    after.releasedToken token = state.releasedToken token
  waits : ∀ token, token ≠ state.acquisitions.fresh → after.waitsFor token = state.waitsFor token
  granted : ∀ token, state.Granted token → after.Granted token
  newly : ∀ token, token ≠ state.acquisitions.fresh → after.Granted token → state.Granted token

theorem asked_addAcquisition (acquisition : Acquisition) :
    Asked state (state.addAcquisition acquisition) where
  fresh := rfl
  released token other := by rw [releasedToken_addAcquisition, if_neg other]
  waits token other := by rw [waitsFor_addAcquisition, if_neg other]
  granted _ := id
  newly _ _ := id

variable {state}

theorem acquisitions_getOrCreate (registry : SessionTurnLeaseRegistry) (sessionId : String)
    (now : Int) :
    (registry.getOrCreate state sessionId now).1.acquisitions = state.acquisitions ∧
      (registry.getOrCreate state sessionId now).1.settlements = state.settlements := by
  rw [getOrCreate]
  cases state.leases.get? sessionId with
  | some existing => exact ⟨rfl, rfl⟩
  | none => exact ⟨rfl, rfl⟩

theorem Asked.of_opened {opened after : TurnLeases}
    (same : opened.acquisitions = state.acquisitions ∧ opened.settlements = state.settlements)
    (asked : Asked opened after) : Asked state after where
  fresh := by rw [← same.1, asked.fresh]
  released token other := by
    rw [← same.1] at other
    rw [asked.released token other, releasedToken, same.1, releasedToken]
  waits token other := by
    rw [← same.1] at other
    rw [asked.waits token other, waitsFor, same.1, waitsFor]
  granted token granted := asked.granted token (by rw [Granted, same.2]; exact granted)
  newly token other granted := by
    rw [← same.1] at other
    have old := asked.newly token other granted
    rw [Granted, same.2] at old
    exact old

theorem asked_of_acquire {sessionId ownerId : String} {generation : Int} {timeoutMs : Option ℚ}
    {registry : SessionTurnLeaseRegistry} {openedAt grantedAt : Int} {after : TurnLeases}
    (done : registry.acquire state sessionId ownerId generation timeoutMs openedAt grantedAt =
      .ok after) : Asked state after := by
  obtain ⟨checked, -, entered⟩ := Procedure.bind_eq_ok done
  apply Asked.of_opened (acquisitions_getOrCreate registry sessionId openedAt)
  dsimp only at entered
  split at entered
  · rw [← Except.ok.inj entered]
    have made := asked_addAcquisition (registry.getOrCreate state sessionId openedAt).1
      ⟨⟨sessionId, ownerId, generation, false⟩, none⟩
    constructor
    · exact made.fresh
    · exact made.released
    · exact made.waits
    · intro token granted
      exact mem_append_left _ granted
    · intro token other granted
      rcases mem_append.mp granted with old | new
      · exact old
      · exact (other (Settlement.granted.inj (mem_singleton.mp new))).elim
  · rw [← Except.ok.inj entered]
    have made := asked_addAcquisition (registry.getOrCreate state sessionId openedAt).1
      ⟨⟨sessionId, ownerId, generation, false⟩, some ⟨false,
        (registry.getOrCreate state sessionId openedAt).2,
        ⟨sessionId, ownerId, timeoutMs.getD registry.defaultTimeoutMs⟩⟩⟩
    exact ⟨made.fresh, made.released, made.waits, made.granted, made.newly⟩

end SessionTurnLeaseRegistry
end Recode.Orchestrator

import Recode.Session.ConcurrentAppends

/-! # Runs of interleaved appends

What a step of one caller does, and what every run keeps: the storage in memory
is what publishing the resolved entries makes of it, and a parent is the leaf
after the entries that were published when the leaf was read. -/

open List

namespace Recode

open Option

namespace AppendPhase

def parent? : AppendPhase → Option (Option EntryId)
  | .linked _ _ parentId => some parentId
  | .written entry => some entry.parentId
  | .resolved entry => some entry.parentId
  | _ => none

def id? : AppendPhase → Option EntryId
  | .identified _ id => some id
  | .linked _ id _ => some id
  | .written entry => some entry.id
  | .resolved entry => some entry.id
  | _ => none

def body? : AppendPhase → Option EntryBody
  | .called body => some body
  | .identified body _ => some body
  | .linked body _ _ => some body
  | .written entry => some entry.body
  | .resolved entry => some entry.body
  | _ => none

def beforeReading : AppendPhase → Bool
  | .idle => true
  | .called _ => true
  | .identified _ _ => true
  | _ => false

end AppendPhase

namespace Appends

@[simp] theorem advance_self (appends : Appends) (caller : Nat) (phase : AppendPhase) :
    (appends.advance caller phase).phase caller = phase := Function.update_self ..

theorem advance_of_ne (appends : Appends) {caller other : Nat} (phase : AppendPhase)
    (different : other ≠ caller) :
    (appends.advance caller phase).phase other = appends.phase other :=
  Function.update_of_ne different ..

/-- What a step of a caller does. -/
inductive Takes (appends : Appends) : AppendStep → Appends → Prop
  | call (caller : Nat) (call : SessionCall) (body : EntryBody)
      (idle : appends.phase caller = .idle) (named : call.body? = some body) :
      Takes appends (.call caller call) (appends.advance caller (.called body))
  | refuse (caller : Nat) (call : SessionCall) (idle : appends.phase caller = .idle) :
      Takes appends (.call caller call) (appends.advance caller .rejected)
  | createEntryId (caller : Nat) (id : EntryId) (body : EntryBody)
      (called : appends.phase caller = .called body)
      (new : appends.storage.byId.contains id = false) :
      Takes appends (.createEntryId caller id) (appends.advance caller (.identified body id))
  | getLeafId (caller : Nat) (body : EntryBody) (id : EntryId) (leafId : Option EntryId)
      (identified : appends.phase caller = .identified body id)
      (leaf : appends.storage.getLeafId = .ok leafId) :
      Takes appends (.getLeafId caller) (appends.advance caller (.linked body id leafId))
  | dangling (caller : Nat) (body : EntryBody) (id : EntryId)
      (identified : appends.phase caller = .identified body id) :
      Takes appends (.getLeafId caller) (appends.advance caller .rejected)
  | write (caller timestamp : Nat) (body : EntryBody) (id : EntryId) (parentId : Option EntryId)
      (linked : appends.phase caller = .linked body id parentId) :
      Takes appends (.appendFile caller timestamp true)
        { appends.advance caller (.written ⟨id, parentId, timestamp, body⟩) with
          storage := appends.storage.appendFile ⟨id, parentId, timestamp, body⟩ }
  | fail (caller timestamp : Nat) (body : EntryBody) (id : EntryId) (parentId : Option EntryId)
      (linked : appends.phase caller = .linked body id parentId) :
      Takes appends (.appendFile caller timestamp false) (appends.advance caller .rejected)
  | publish (caller : Nat) (entry : SessionTreeEntry)
      (written : appends.phase caller = .written entry) :
      Takes appends (.publish caller)
        { appends.advance caller (.resolved entry) with
          storage := appends.storage.publish entry
          resolved := appends.resolved ++ [(caller, entry)] }

theorem takes_of_step {appends next : Appends} {step : AppendStep}
    (taken : appends.step step = some next) : appends.Takes step next := by
  cases step with
  | call caller call =>
    simp only [Appends.step] at taken
    split at taken
    · next body idle named =>
        cases taken
        split
        · exact Takes.refuse caller call idle
        · exact Takes.call caller call body idle named
    · cases taken
  | createEntryId caller id =>
    simp only [Appends.step] at taken
    split at taken
    · next body called =>
        split at taken
        · cases taken
        · next new =>
            cases taken
            exact Takes.createEntryId caller id body called (Bool.not_eq_true _ ▸ new)
    · cases taken
  | getLeafId caller =>
    simp only [Appends.step] at taken
    split at taken
    · next body id identified =>
        split at taken
        · next leafId leaf =>
            cases taken
            exact Takes.getLeafId caller body id leafId identified leaf
        · cases taken
          exact Takes.dangling caller body id identified
    · cases taken
  | appendFile caller timestamp succeeds =>
    simp only [Appends.step] at taken
    split at taken
    · next body id parentId linked =>
        cases succeeds with
        | true =>
          cases taken
          exact Takes.write caller timestamp body id parentId linked
        | false =>
          cases taken
          exact Takes.fail caller timestamp body id parentId linked
    · cases taken
  | publish caller =>
    simp only [Appends.step] at taken
    split at taken
    · next entry written =>
        cases taken
        exact Takes.publish caller entry written
    · cases taken

/-- The runs from a storage at rest. -/
inductive Ran (storage : JsonlSessionStorage) : List AppendStep → Appends → Prop
  | start : Ran storage [] (start storage)
  | step {steps : List AppendStep} {step : AppendStep} {before after : Appends}
      (ran : Ran storage steps before) (taken : before.Takes step after) :
      Ran storage (steps ++ [step]) after

variable {storage : JsonlSessionStorage}

theorem ran_of_run {done steps : List AppendStep} {appends final : Appends}
    (ran : Ran storage done appends) (runs : appends.run steps = some final) :
    Ran storage (done ++ steps) final := by
  induction steps generalizing done appends with
  | nil =>
    cases runs
    rwa [append_nil]
  | cons step steps ih =>
    obtain ⟨next, taken, runs⟩ := bind_eq_some_iff.mp runs
    rw [← singleton_append, ← append_assoc]
    exact ih (ran.step (takes_of_step taken)) runs

/-- The caller of a step. -/
def callerOf : AppendStep → Nat
  | .call caller _ => caller
  | .createEntryId caller _ => caller
  | .getLeafId caller => caller
  | .appendFile caller _ _ => caller
  | .publish caller => caller

theorem Takes.phase_of_ne {appends next : Appends} {step : AppendStep}
    (taken : appends.Takes step next) {other : Nat} (different : other ≠ callerOf step) :
    next.phase other = appends.phase other := by
  cases taken <;> exact Function.update_of_ne different ..

variable {steps : List AppendStep} {appends : Appends}

theorem Ran.publish_mem_iff (ran : Ran storage steps appends) (caller : Nat) :
    .publish caller ∈ steps ↔ ∃ entry, appends.phase caller = .resolved entry := by
  induction ran with
  | start => simp [Appends.start]
  | @step steps step before after ran taken ih =>
    rw [mem_append, mem_singleton, ih]
    by_cases other : caller = callerOf step
    · cases taken <;> cases other <;> simp_all [callerOf]
    rw [taken.phase_of_ne other]
    constructor
    · rintro (known | rfl)
      · exact known
      · exact absurd rfl other
    · exact Or.inl

theorem Ran.not_beforeReading (ran : Ran storage steps appends) {caller : Nat}
    (read : .getLeafId caller ∈ steps) : (appends.phase caller).beforeReading = false := by
  induction ran with
  | start => cases read
  | @step steps step before after ran taken ih =>
    rw [mem_append, mem_singleton] at read
    by_cases other : caller = callerOf step
    · cases taken <;> cases other <;>
        simp_all [callerOf, AppendPhase.beforeReading]
    · rw [taken.phase_of_ne other]
      rcases read with read | rfl
      · exact ih read
      · exact absurd rfl other

theorem Ran.unread {before after : List AppendStep} {reader : Nat} {final : Appends}
    (ran : Ran storage (before ++ .getLeafId reader :: after) final) :
    ∃ appends, Ran storage before appends ∧ (appends.phase reader).beforeReading = true := by
  generalize whole : before ++ .getLeafId reader :: after = steps at ran
  induction ran generalizing after with
  | start => simp at whole
  | @step steps step earlier later ran taken ih =>
    rcases after.eq_nil_or_concat' with rfl | ⟨after, last, rfl⟩
    · obtain ⟨rfl, same⟩ := append_inj' whole rfl
      obtain rfl := singleton_inj.mp same
      refine ⟨earlier, ran, ?_⟩
      cases taken with
      | getLeafId _ body id leafId identified leaf => rw [identified]; rfl
      | dangling _ body id identified => rw [identified]; rfl
    · rw [← cons_append, ← append_assoc] at whole
      exact ih (append_inj' whole rfl).1

theorem Ran.mem_resolved_iff
    (ran : Ran storage steps appends) (caller : Nat) (entry : SessionTreeEntry) :
    (caller, entry) ∈ appends.resolved ↔ appends.phase caller = .resolved entry := by
  induction ran with
  | start => simp [Appends.start]
  | @step steps step before after ran taken ih =>
    by_cases other : caller = callerOf step
    · cases taken with
      | publish publisher published written =>
        cases other
        simp only [callerOf] at ih ⊢
        rw [mem_append, ih, written, mem_singleton, Prod.mk.injEq]
        simp [advance, eq_comm]
      | _ =>
        cases other
        simp_all [callerOf, advance]
    · rw [taken.phase_of_ne other, ← ih]
      cases taken <;> simp_all [callerOf, advance]

theorem Ran.callers_nodup
    (ran : Ran storage steps appends) : (appends.resolved.map Prod.fst).Nodup := by
  induction ran with
  | start => exact nodup_nil
  | @step steps step before after ran taken ih =>
    cases taken with
    | publish caller entry written =>
      rw [map_append, nodup_append]
      refine ⟨ih, by simp, ?_⟩
      rintro other member _ only rfl
      obtain ⟨⟨publisher, published⟩, listed, rfl⟩ := mem_map.mp member
      rw [map_singleton, mem_singleton] at only
      have resolved := (ran.mem_resolved_iff publisher published).mp listed
      rw [show publisher = caller from only, written] at resolved
      cases resolved
    | _ => exact ih

theorem Ran.noLeaf (ran : Ran storage steps appends) (caller : Nat) {body : EntryBody}
    (named : (appends.phase caller).body? = some body) (targetId : Option EntryId) :
    body ≠ .leaf targetId := by
  induction ran with
  | start => cases named
  | @step steps step before after ran taken ih =>
    by_cases other : caller = callerOf step
    · cases taken with
      | call caller call body idle named' =>
        cases other
        simp only [callerOf, advance_self, AppendPhase.body?, some.injEq] at named
        rw [← named]
        intro same
        subst same
        cases call <;> cases named'
      | _ =>
        cases other
        simp_all [callerOf, advance, AppendPhase.body?]
    · rw [taken.phase_of_ne other] at named
      exact ih named

section Opened

variable {entries : List SessionTreeEntry} {steps : List AppendStep} {appends : Appends}

section

variable (ran : Ran (.loadJsonlStorage entries) steps appends)
include ran

theorem Ran.memory :
    appends.storage.toInMemorySessionStorage = .afterAppending (entries ++ appends.appended) := by
  induction ran with
  | start =>
    rw [appended, Appends.start, map_nil, append_nil]
    rfl
  | @step steps step before after ran taken ih =>
    cases taken with
    | publish caller entry written =>
      change before.storage.toInMemorySessionStorage.appendEntry entry = _
      rw [ih, InMemorySessionStorage.afterAppending_append_singleton, appended, appended,
        map_append, append_assoc]
      rfl
    | _ => exact ih

theorem Ran.id_new (caller : Nat) {id : EntryId}
    (named : (appends.phase caller).id? = some id) : id ∉ entries.map SessionTreeEntry.id := by
  induction ran with
  | start => cases named
  | @step steps step before after ran taken ih =>
    by_cases other : caller = callerOf step
    · cases taken with
      | createEntryId caller drawn body called new =>
        cases other
        simp only [callerOf, advance_self, AppendPhase.id?, some.injEq] at named
        subst named
        intro known
        rw [ran.memory, InsertionMap.contains, isSome_eq_false_iff] at new
        have found := (InsertionMap.isSome_get?_indexBy SessionTreeEntry.id
          (entries ++ before.appended) drawn).mpr
            (map_append ▸ mem_append_left _ known)
        rw [isSome_iff_ne_none] at found
        exact found (isNone_iff_eq_none.mp new)
      | _ =>
        cases other
        simp_all [callerOf, advance, AppendPhase.id?]
    · rw [taken.phase_of_ne other] at named
      exact ih named

theorem Ran.read {caller : Nat} {parentId : Option EntryId}
    (read : (appends.phase caller).parent? = some parentId) :
    ∃ before seen after, steps = before ++ .getLeafId caller :: after ∧
      Ran (.loadJsonlStorage entries) before seen ∧ (seen.phase caller).beforeReading = true ∧
      parentId = leafIdAfter (entries ++ seen.appended) ∧
      seen.resolved <+: appends.resolved := by
  induction ran with
  | start => cases read
  | @step steps step before after ran taken ih =>
    have further : (before.phase caller).parent? = some parentId →
        before.resolved <+: after.resolved → ∃ earlier seen later,
          steps ++ [step] = earlier ++ .getLeafId caller :: later ∧
          Ran (.loadJsonlStorage entries) earlier seen ∧
          (seen.phase caller).beforeReading = true ∧
          parentId = leafIdAfter (entries ++ seen.appended) ∧
          seen.resolved <+: after.resolved := by
      intro read grows
      obtain ⟨earlier, seen, later, rfl, reached, fresh, leaf, kept⟩ := ih read
      exact ⟨earlier, seen, later ++ [step], by simp, reached, fresh, leaf, kept.trans grows⟩
    have grows : before.resolved <+: after.resolved := by
      cases taken with
      | publish caller entry written => exact prefix_append _ _
      | _ => exact prefix_rfl
    by_cases other : caller = callerOf step
    · cases taken with
      | getLeafId caller body id leafId identified leaf =>
        cases other
        simp only [callerOf, advance_self, AppendPhase.parent?, some.injEq] at read
        subst read
        refine ⟨steps, before, [], rfl, ran, by rw [callerOf, identified]; rfl, ?_, grows⟩
        rw [ran.memory, InMemorySessionStorage.getLeafId] at leaf
        split at leaf
        · cases leaf
        · cases leaf
          rfl
      | write =>
        cases other
        simp only [callerOf, advance_self, AppendPhase.parent?] at read
        refine further ?_ grows
        simp_all [callerOf, AppendPhase.parent?]
      | publish =>
        cases other
        simp only [callerOf, advance_self, AppendPhase.parent?] at read
        refine further ?_ grows
        simp_all [callerOf, AppendPhase.parent?]
      | _ =>
        cases other
        simp [callerOf, AppendPhase.parent?] at read
    · rw [taken.phase_of_ne other] at read
      exact further read grows

end

end Opened

theorem publish_mem_of_written {appends final : Appends} {steps : List AppendStep}
    (runs : appends.run steps = some final) (settled : final.Settled) {caller : Nat}
    {entry : SessionTreeEntry} (written : appends.phase caller = .written entry) :
    .publish caller ∈ steps := by
  induction steps generalizing appends with
  | nil =>
    cases runs
    rcases settled caller with idle | ⟨published, resolved⟩ | rejected
    · rw [written] at idle
      cases idle
    · rw [written] at resolved
      cases resolved
    · rw [written] at rejected
      cases rejected
  | cons step steps ih =>
    obtain ⟨next, taken, runs⟩ := bind_eq_some_iff.mp runs
    have taken := takes_of_step taken
    by_cases other : caller = callerOf step
    · cases taken with
      | publish publisher published written' =>
        cases other
        exact mem_cons_self
      | _ =>
        cases other
        simp_all [callerOf]
    · rw [← taken.phase_of_ne other] at written
      exact mem_cons_of_mem _ (ih runs written)

/-- Before a caller that has not published read the leaf, every caller that read it until now has
published, when reads come after publications. -/
theorem published_before {total before after later : List AppendStep} {reader other : Nat}
    (ordered : ReadsAfterPublication total)
    (whole : total = before ++ .getLeafId reader :: after ++ later)
    (resolves : .publish reader ∈ total)
    (unpublished : .publish reader ∉ before ++ .getLeafId reader :: after)
    (different : other ≠ reader) (read : .getLeafId other ∈ before ++ .getLeafId reader :: after)
    (resolves' : .publish other ∈ total) : .publish other ∈ before := by
  rcases mem_append.mp read with read | read
  · exact ordered before reader (after ++ later) (by simpa using whole) resolves other read
      resolves'
  rcases mem_cons.mp read with same | read
  · cases same
    exact absurd rfl different
  obtain ⟨between, rest, rfl⟩ := append_of_mem read
  have published := ordered (before ++ .getLeafId reader :: between) other (rest ++ later)
    (by simpa using whole) resolves' reader (by simp) resolves
  refine absurd ?_ unpublished
  rw [← cons_append, ← append_assoc]
  exact mem_append_left _ published

end Appends
end Recode

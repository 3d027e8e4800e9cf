import Recode.SessionV4.State

/-! # Applying mutations

What one mutation does: it passes all its checks and changes the state in one
way, or it reports an error and leaves the state as it was. -/

namespace Recode.SessionV4
namespace SessionState

def Accepts (state : SessionState) : SessionMutation → Prop
  | .entry lane entry => entry.seq = state.sequence + 1 ∧ entry.id ∉ state.usedIds ∧
      (∀ name, lane = some name → state.lanes.get? name = some entry.parentId) ∧
      ∀ parentId, entry.parentId = some parentId → state.entriesById.contains parentId = true
  | .record record => record.seq = state.sequence + 1 ∧
      state.lanes.contains record.lane = true ∧ record.id ∉ state.usedIds
  | .lane seq _ leafId => seq = state.sequence + 1 ∧
      ∀ id, leafId = some id → state.entriesById.contains id = true
  | .fact seq (.name _) => seq = state.sequence + 1
  | .fact seq (.label targetId _) => seq = state.sequence + 1 ∧
      state.entriesById.contains targetId = true

/-- The state after a mutation that passes its checks. -/
def applied (state : SessionState) : SessionMutation → SessionState
  | .entry lane entry =>
    { state with
      sequence := entry.seq
      usedIds := state.usedIds ++ [entry.id]
      entries := state.entries ++ [entry]
      entriesById := state.entriesById.insert entry.id entry
      lanes := lane.elim state.lanes fun name => state.lanes.insert name (some entry.id)
      log := state.log ++ [.entry entry.seq entry]
      stats := countEntry state.stats entry }
  | .record record =>
    { state with
      sequence := record.seq
      usedIds := state.usedIds ++ [record.id]
      records := state.records ++ [record]
      openOperationsByLane := trackOperation state.openOperationsByLane record
      log := state.log ++ [.record record.seq record]
      stats := countRecord state.stats record }
  | .lane seq lane leafId =>
    { state with
      sequence := seq
      lanes := state.lanes.insert lane leafId
      log := state.log ++ [.lane seq lane leafId] }
  | .fact seq (.name name) =>
    { state with sequence := seq, name := some name, log := state.log ++ [.fact seq (.name name)] }
  | .fact seq (.label targetId label) =>
    { state with
      sequence := seq
      labels := setLabel state.labels targetId label
      log := state.log ++ [.fact seq (.label targetId label)] }

variable (invalid : String → SessionError) {mutation : SessionMutation}

theorem applyMutation_accepted {state : SessionState} (accepted : state.Accepts mutation) :
    (applyMutation invalid mutation).perform state = (.ok (), state.applied mutation) := by
  cases mutation with
  | entry lane entry =>
    obtain ⟨consecutive, fresh, chained, known⟩ := accepted
    cases lane with
    | none =>
      cases link : entry.parentId with
      | none => simp [applyMutation, SessionMutation.seq, consecutive, fresh, link, applied]
      | some parentId =>
        simp [applyMutation, SessionMutation.seq, consecutive, fresh, link,
          known parentId link, applied]
    | some name =>
      have leaf := chained name rfl
      cases link : entry.parentId with
      | none =>
        simp [applyMutation, SessionMutation.seq, consecutive, fresh, link, leaf, applied]
      | some parentId =>
        simp [applyMutation, SessionMutation.seq, consecutive, fresh, link, leaf,
          known parentId link, applied]
  | record record =>
    obtain ⟨consecutive, lane, fresh⟩ := accepted
    simp [applyMutation, SessionMutation.seq, consecutive, lane, fresh, applied]
  | lane seq lane leafId =>
    obtain ⟨consecutive, known⟩ := accepted
    cases leafId with
    | none => simp [applyMutation, SessionMutation.seq, consecutive, applied]
    | some leafId => simp [applyMutation, SessionMutation.seq, consecutive, known leafId rfl,
        applied]
  | fact seq fact =>
    cases fact with
    | name name =>
      have consecutive : seq = state.sequence + 1 := accepted
      simp [applyMutation, SessionMutation.seq, consecutive, applied]
    | label targetId label =>
      obtain ⟨consecutive, known⟩ := accepted
      simp [applyMutation, SessionMutation.seq, consecutive, known, applied]

/-- A mutation that fails a check is reported and changes nothing. -/
theorem applyMutation_rejected {state : SessionState} (refused : ¬ state.Accepts mutation) :
    ∃ error, (applyMutation invalid mutation).perform state = (.error error, state) := by
  by_cases consecutive : mutation.seq = state.sequence + 1
  swap
  · simp [applyMutation, consecutive]
  cases mutation with
  | entry lane entry =>
    have sequence : entry.seq = state.sequence + 1 := consecutive
    by_cases fresh : entry.id ∈ state.usedIds
    · simp [applyMutation, consecutive, fresh]
    have dangling : (∃ name, lane = some name ∧ state.lanes.get? name ≠ some entry.parentId) ∨
        ∃ parentId, entry.parentId = some parentId ∧
          state.entriesById.contains parentId = false := by
      by_contra connected
      simp only [not_or, not_exists, not_and, not_not, Bool.not_eq_false] at connected
      exact refused ⟨sequence, fresh, connected⟩
    cases lane with
    | none =>
      obtain ⟨parentId, link, missing⟩ := dangling.resolve_left (by simp)
      simp [applyMutation, consecutive, fresh, link, missing]
    | some name =>
      cases found : state.lanes.get? name with
      | none => simp [applyMutation, consecutive, fresh, found]
      | some leafId =>
        by_cases chained : entry.parentId = leafId
        · obtain ⟨parentId, link, missing⟩ :=
            dangling.resolve_left (by simp [found, chained])
          simp [applyMutation, consecutive, fresh, found, ← chained, link, missing]
        · simp [applyMutation, consecutive, fresh, found, chained]
  | record record =>
    have sequence : record.seq = state.sequence + 1 := consecutive
    cases lane : state.lanes.contains record.lane with
    | false => simp [applyMutation, consecutive, lane]
    | true =>
      have used : record.id ∈ state.usedIds := by
        by_contra fresh
        exact refused ⟨sequence, lane, fresh⟩
      simp [applyMutation, consecutive, lane, used]
  | lane seq lane leafId =>
    cases leafId with
    | none => exact absurd ⟨consecutive, by simp⟩ refused
    | some leafId =>
      cases known : state.entriesById.contains leafId with
      | false => simp [applyMutation, consecutive, known]
      | true => exact absurd ⟨consecutive, by simpa using known⟩ refused
  | fact seq fact =>
    cases fact with
    | name name => exact absurd consecutive refused
    | label targetId label =>
      cases known : state.entriesById.contains targetId with
      | false => simp [applyMutation, consecutive, known]
      | true => exact absurd ⟨consecutive, known⟩ refused

theorem applyMutation_error {state after : SessionState} {error : SessionError}
    (failed : (applyMutation invalid mutation).perform state = (.error error, after)) :
    after = state := by
  by_cases accepted : state.Accepts mutation
  · rw [applyMutation_accepted invalid accepted] at failed
    cases failed
  · obtain ⟨reported, rejected⟩ := applyMutation_rejected invalid accepted
    rw [rejected] at failed
    cases failed
    rfl

def attempt (state : SessionState) (mutation : SessionMutation) : SessionState :=
  ((applyMutation invalid mutation).perform state).2

def attemptAll (state : SessionState) (mutations : List SessionMutation) : SessionState :=
  mutations.foldl (attempt invalid) state

theorem attempt_cases (state : SessionState) (mutation : SessionMutation) :
    (state.Accepts mutation ∧ state.attempt invalid mutation = state.applied mutation) ∨
      (¬ state.Accepts mutation ∧ state.attempt invalid mutation = state) := by
  by_cases accepted : state.Accepts mutation
  · left
    exact ⟨accepted, by rw [attempt, applyMutation_accepted invalid accepted]⟩
  · obtain ⟨error, rejected⟩ := applyMutation_rejected invalid accepted
    right
    exact ⟨accepted, by rw [attempt, rejected]⟩

theorem attemptAll_induction {invariant : SessionState → Prop} {state : SessionState}
    (start : invariant state)
    (preserved : ∀ {state mutation}, invariant state → state.Accepts mutation →
      invariant (state.applied mutation))
    (mutations : List SessionMutation) : invariant (state.attemptAll invalid mutations) := by
  induction mutations generalizing state with
  | nil => exact start
  | cons mutation mutations ih =>
    apply ih
    rcases attempt_cases invalid state mutation with ⟨accepted, same⟩ | ⟨-, same⟩
    · rw [same]
      exact preserved start accepted
    · rw [same]
      exact start

end SessionState
end Recode.SessionV4

import Recode.SessionV4.WellFormed

/-! # Replaying a fork

The mutations of a fork copy a selection of entries that keeps their parents,
then name lanes, the session and labels among the copied entries. An empty state
accepts each of them. -/

namespace Recode.SessionV4

open List
open Option hiding sequence

def renumberFrom : Nat → List Entry → List Entry
  | _, [] => []
  | sequence, entry :: entries =>
    { entry with seq := sequence } :: renumberFrom (sequence + 1) entries

theorem renumberFrom_ids (sequence : Nat) (entries : List Entry) :
    (renumberFrom sequence entries).map (·.id) = entries.map (·.id) := by
  induction entries generalizing sequence with
  | nil => rfl
  | cons entry entries ih => rw [renumberFrom, map_cons, map_cons, ih]

namespace SessionState

/-- Apply mutations in order until one is rejected. -/
def replay (invalid : String → SessionError) : List SessionMutation → StateAction Unit
  | [] => pure ()
  | mutation :: mutations => do
    applyMutation invalid mutation
    replay invalid mutations

def AcceptsAll : SessionState → List SessionMutation → Prop
  | _, [] => True
  | state, mutation :: mutations =>
    state.Accepts mutation ∧ AcceptsAll (state.applied mutation) mutations

def appliedAll (state : SessionState) (mutations : List SessionMutation) : SessionState :=
  mutations.foldl applied state

theorem replay_accepted (invalid : String → SessionError) {state : SessionState}
    {mutations : List SessionMutation} (accepted : state.AcceptsAll mutations) :
    (replay invalid mutations).perform state = (.ok (), state.appliedAll mutations) := by
  induction mutations generalizing state with
  | nil => rfl
  | cons mutation mutations ih =>
    have first := applyMutation_accepted invalid accepted.1
    rw [replay, Procedure.perform_bind_ok first]
    exact ih accepted.2

theorem acceptsAll_append (state : SessionState) (mutations more : List SessionMutation) :
    state.AcceptsAll (mutations ++ more) ↔
      state.AcceptsAll mutations ∧ (state.appliedAll mutations).AcceptsAll more := by
  induction mutations generalizing state with
  | nil => simp [AcceptsAll, appliedAll]
  | cons mutation mutations ih =>
    rw [cons_append, AcceptsAll, ih, AcceptsAll, and_assoc]
    rfl

theorem appliedAll_append (state : SessionState) (mutations more : List SessionMutation) :
    state.appliedAll (mutations ++ more) = (state.appliedAll mutations).appliedAll more :=
  foldl_append

variable {state : SessionState}

theorem Projected.appliedAll {mutations : List SessionMutation} (projected : state.Projected)
    (accepted : state.AcceptsAll mutations) : (state.appliedAll mutations).Projected := by
  induction mutations generalizing state with
  | nil => exact projected
  | cons mutation mutations ih => exact ih (projected.applied accepted.1) accepted.2

/-- Mutations numbered from the next sequence number on are accepted and lead to a state. -/
structure Replays (state : SessionState) (mutations : List (Nat → SessionMutation))
    (after : SessionState) : Prop where
  accepted : state.AcceptsAll (numbered (state.sequence + 1) mutations)
  leads : state.appliedAll (numbered (state.sequence + 1) mutations) = after
  sequence : after.sequence = state.sequence + mutations.length

theorem numbered_append (sequence : Nat) (mutations more : List (Nat → SessionMutation)) :
    numbered sequence (mutations ++ more) =
      numbered sequence mutations ++ numbered (sequence + mutations.length) more := by
  induction mutations generalizing sequence with
  | nil => rfl
  | cons mutation mutations ih =>
    rw [cons_append, numbered, numbered, ih, cons_append, length_cons,
      Nat.add_comm mutations.length, Nat.add_assoc]

namespace Replays

theorem nil (state : SessionState) : state.Replays [] state :=
  ⟨trivial, rfl, rfl⟩

theorem append {state middle after : SessionState}
    {mutations more : List (Nat → SessionMutation)} (first : state.Replays mutations middle)
    (second : middle.Replays more after) : state.Replays (mutations ++ more) after := by
  have split : numbered (state.sequence + 1) (mutations ++ more) =
      numbered (state.sequence + 1) mutations ++ numbered (middle.sequence + 1) more := by
    rw [numbered_append, first.sequence, Nat.add_right_comm]
  constructor
  · rw [split, acceptsAll_append, first.leads]
    exact ⟨first.accepted, second.accepted⟩
  · rw [split, appliedAll_append, first.leads, second.leads]
  · rw [second.sequence, first.sequence, length_append, Nat.add_assoc]

theorem cons {state after : SessionState} {mutation : Nat → SessionMutation}
    {mutations : List (Nat → SessionMutation)}
    (accepted : state.Accepts (mutation (state.sequence + 1)))
    (rest : (state.applied (mutation (state.sequence + 1))).Replays mutations after) :
    state.Replays (mutation :: mutations) after := by
  have first : state.Replays [mutation] (state.applied (mutation (state.sequence + 1))) := by
    refine ⟨⟨accepted, trivial⟩, rfl, ?_⟩
    rw [applied_sequence, accepted.consecutive]
    rfl
  exact first.append rest

theorem projected {state after : SessionState} {mutations : List (Nat → SessionMutation)}
    (replays : state.Replays mutations after) (start : state.Projected) : after.Projected :=
  replays.leads ▸ start.appliedAll replays.accepted

end Replays

/-- A state after a phase of a fork that leaves the records as they were. -/
structure Reached (state after : SessionState) (entries : List Entry)
    (lanes : InsertionMap String (Option String)) (name : Option String)
    (labels : InsertionMap String String) : Prop where
  records : after.records = state.records
  entries : after.entries = entries
  lanes : after.lanes = lanes
  name : after.name = name
  labels : after.labels = labels

theorem reached_self (state : SessionState) :
    state.Reached state state.entries state.lanes state.name state.labels :=
  ⟨rfl, rfl, rfl, rfl, rfl⟩

/-- Without records, the identifiers in use are those of the entries. -/
theorem Projected.mem_usedIds (projected : state.Projected) (noRecords : state.records = [])
    (id : String) : id ∈ state.usedIds ↔ id ∈ state.entries.map (·.id) := by
  rw [projected.usedIds, (ids_perm state.log).mem_iff, ← projected.entries, ← projected.records,
    noRecords, map_nil, append_nil]

theorem copies_entries (projected : state.Projected)
    (noRecords : state.records = []) {copied : List Entry}
    (grows : GrownTree.GrowsFrom (fun entry : Entry => entry.id) Entry.parentId
      (state.entries.map (·.id)) copied) :
    ∃ after, state.Replays (copied.map fun entry seq => .entry none { entry with seq }) after ∧
      state.Reached after (state.entries ++ renumberFrom (state.sequence + 1) copied) state.lanes
        state.name state.labels := by
  induction copied generalizing state with
  | nil =>
    refine ⟨state, .nil state, ?_⟩
    rw [renumberFrom, append_nil]
    exact reached_self state
  | cons entry copied ih =>
    obtain ⟨fresh, known, rest⟩ := grows
    have accepted : state.Accepts (.entry none { entry with seq := state.sequence + 1 }) := by
      refine ⟨rfl, fun used => fresh ((projected.mem_usedIds noRecords _).mp used), by simp, ?_⟩
      intro parentId link
      rw [projected.contains_iff]
      change entry.parentId = some parentId at link
      simpa [link] using known
    obtain ⟨after, replays, reached⟩ := ih (projected.applied accepted) noRecords (by
      change GrownTree.GrowsFrom _ _ ((state.entries ++ [_]).map _) copied
      rwa [map_append])
    refine ⟨after, .cons accepted replays, reached.records, ?_, reached.lanes, reached.name,
      reached.labels⟩
    exact reached.entries.trans (append_assoc _ _ _)

theorem names_lanes (projected : state.Projected) {lanes : List LanePointer}
    (stored : ∀ pointer ∈ lanes, ∀ id, pointer.leafId = some id → id ∈ state.entries.map (·.id)) :
    ∃ after, state.Replays
        (lanes.map fun pointer seq => .lane seq pointer.lane pointer.leafId) after ∧
      state.Reached after state.entries
        (lanes.foldl (fun named pointer => named.insert pointer.lane pointer.leafId) state.lanes)
        state.name state.labels := by
  induction lanes generalizing state with
  | nil => exact ⟨state, .nil state, reached_self state⟩
  | cons pointer lanes ih =>
    have accepted : state.Accepts (.lane (state.sequence + 1) pointer.lane pointer.leafId) := by
      refine ⟨rfl, fun id leaf => ?_⟩
      rw [projected.contains_iff]
      exact stored pointer mem_cons_self id leaf
    obtain ⟨after, replays, reached⟩ := ih (projected.applied accepted)
      fun other member => stored other (mem_cons_of_mem _ member)
    exact ⟨after, .cons accepted replays, reached.records, reached.entries, reached.lanes,
      reached.name, reached.labels⟩

theorem names_session (state : SessionState) (name : Option String) :
    ∃ after, state.Replays (name.toList.map fun name seq => .fact seq (.name name)) after ∧
      state.Reached after state.entries state.lanes (name.or state.name) state.labels := by
  cases name with
  | none => exact ⟨state, .nil state, reached_self state⟩
  | some name => exact ⟨_, .cons rfl (.nil _), rfl, rfl, rfl, rfl, rfl⟩

theorem labels_entries (projected : state.Projected)
    (labels : InsertionMap String String) {copied : List Entry}
    (stored : ∀ entry ∈ copied, entry.id ∈ state.entries.map (·.id)) :
    ∃ after, state.Replays (copied.filterMap fun entry => (labels.get? entry.id).map
        fun label seq => .fact seq (.label entry.id (some label))) after ∧
      state.Reached after state.entries state.lanes state.name (copied.foldl (fun named entry =>
        (labels.get? entry.id).elim named fun label => named.insert entry.id label)
          state.labels) := by
  induction copied generalizing state with
  | nil => exact ⟨state, .nil state, reached_self state⟩
  | cons entry copied ih =>
    have others := fun other member => stored other (mem_cons_of_mem entry member)
    cases found : labels.get? entry.id with
    | none =>
      have later := ih projected others
      simpa only [filterMap_cons, foldl_cons, found, map_none,
        elim_none] using later
    | some label =>
      have accepted : state.Accepts
          (.fact (state.sequence + 1) (.label entry.id (some label))) := by
        refine ⟨rfl, ?_⟩
        rw [projected.contains_iff]
        exact stored entry mem_cons_self
      obtain ⟨after, replays, reached⟩ := ih (projected.applied accepted) others
      simp only [filterMap_cons, foldl_cons, found, map_some, elim_some]
      exact ⟨after, .cons accepted replays, reached.records, reached.entries, reached.lanes,
        reached.name, reached.labels⟩

end SessionState
end Recode.SessionV4

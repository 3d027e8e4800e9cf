import Recode.Delegation.WorkerDirectory

/-! # The records and the runs of a worker directory

What ties the records of a directory to the turns under way, and what each change of
the directory leaves of it. -/

namespace Recode.Delegation

open WorkerDirectory Function List

variable {directory : WorkerDirectory} {state after : State}

/-- The records, the turns and the one-shot tasks of a directory belong together. -/
structure Linked (state : State) : Prop where
  named : ∀ id record, state.conversations.get? id = some record →
    (state.records record).conversationId = id
  made : ∀ record ∈ state.held, record < state.made
  turnsMade : ∀ turn ∈ state.turns, turn.record < state.made
  identity : ∀ turn ∈ state.turns,
    turn.conversationId = (state.records turn.record).conversationId ∧
      turn.workerId = (state.records turn.record).worker.id
  /-- The record of a turn is running while the directory holds it. -/
  running : ∀ turn ∈ state.turns, turn.record ∈ state.held → state.isRunning turn.record = true
  /-- The directory holds the record of an active turn. -/
  active : ∀ turn ∈ state.turns, turn.active = true → turn.record ∈ state.held
  single : (state.turns.map Turn.record).Nodup
  oneShots : ∀ workerId, state.activeOneShotsOf workerId =
    (state.oneShots.filter fun oneShot => oneShot.workerId = workerId).length
  total : state.activeOneShots = state.oneShots.length
  /-- The directory holds the records of a start call that has not returned. -/
  awaited : ∀ call ∈ state.starts, ∀ record ∈ call.records, record ∈ state.held

variable {record : Nat}

theorem mem_held_iff :
    record ∈ state.held ↔ ∃ id, state.conversations.get? id = some record := by
  rw [State.held, mem_map]
  constructor
  · rintro ⟨⟨id, _⟩, member, rfl⟩
    exact ⟨id, (state.conversations.get?_eq_some_iff id _).mpr member⟩
  · rintro ⟨id, found⟩
    exact ⟨(id, record), (state.conversations.get?_eq_some_iff id record).mp found, rfl⟩

theorem Linked.get?_of_held (linked : Linked state) (member : record ∈ state.held) :
    state.conversations.get? (state.records record).conversationId = some record := by
  obtain ⟨id, found⟩ := mem_held_iff.mp member
  rw [linked.named id record found, found]

theorem Linked.held_nodup (linked : Linked state) : state.held.Nodup := by
  apply List.Nodup.of_map fun record => (state.records record).conversationId
  have same : state.held.map (fun record => (state.records record).conversationId) =
      state.conversations.entries.map Prod.fst := by
    rw [State.held, map_map]
    apply map_congr_left
    rintro ⟨id, record⟩ member
    exact linked.named id record ((state.conversations.get?_eq_some_iff id record).mpr member)
  rw [same]
  exact state.conversations.keys_nodup

theorem Linked.initial : Linked {} where
  named _ _ found := nomatch found
  made _ member := nomatch member
  turnsMade _ member := nomatch member
  identity _ member := nomatch member
  running _ member := nomatch member
  active _ member := nomatch member
  single := nodup_nil
  oneShots _ := rfl
  total := rfl
  awaited _ member := nomatch member

/-- A record that is not running has no turn while the directory holds it. -/
theorem Linked.no_turn (linked : Linked state) (member : record ∈ state.held)
    (idle : state.isRunning record = false) : ∀ turn ∈ state.turns, turn.record ≠ record := by
  rintro turn inside rfl
  rw [linked.running turn inside member] at idle
  cases idle

theorem Linked.restrict (linked : Linked state) (conversations : InsertionMap String Nat)
    (fewer : ∀ id record, conversations.get? id = some record →
      state.conversations.get? id = some record)
    (active : ∀ turn ∈ state.turns, turn.active = true →
      turn.record ∈ ({ state with conversations := conversations } : State).held)
    (awaited : ∀ call ∈ state.starts, ∀ record ∈ call.records,
      record ∈ ({ state with conversations := conversations } : State).held) :
    Linked { state with conversations := conversations } := by
  have held : ∀ record ∈ ({ state with conversations := conversations } : State).held,
      record ∈ state.held := by
    intro record member
    obtain ⟨id, found⟩ := mem_held_iff.mp member
    exact mem_held_iff.mpr ⟨id, fewer id record found⟩
  exact
    { named := fun id record found => linked.named id record (fewer id record found)
      made := fun record member => linked.made record (held record member)
      turnsMade := linked.turnsMade
      identity := linked.identity
      running := fun turn member inside => linked.running turn member (held _ inside)
      active := active
      single := linked.single
      oneShots := linked.oneShots
      total := linked.total
      awaited := awaited }

/-- A record may change when it keeps its names, and keeps running under a turn. -/
theorem Linked.modify (linked : Linked state) (record : Nat)
    (change : WorkerConversationRecord → WorkerConversationRecord)
    (sameId : (change (state.records record)).conversationId =
      (state.records record).conversationId)
    (sameWorker : (change (state.records record)).worker = (state.records record).worker)
    (running : (∃ turn ∈ state.turns, turn.record = record) → record ∈ state.held →
      (change (state.records record)).status = .running) : Linked (state.modify record change) := by
  have names (other : Nat) :
      ((state.modify record change).records other).conversationId =
          (state.records other).conversationId ∧
        ((state.modify record change).records other).worker = (state.records other).worker := by
    by_cases same : other = record
    · subst same
      rw [State.records_modify_self]
      exact ⟨sameId, sameWorker⟩
    · rw [State.records_modify_of_ne _ _ same]
      exact ⟨rfl, rfl⟩
  refine ⟨?_, linked.made, linked.turnsMade, ?_, ?_, linked.active, linked.single, linked.oneShots,
    linked.total, linked.awaited⟩
  · intro id other found
    rw [(names other).1]
    exact linked.named id other found
  · intro turn member
    rw [(names turn.record).1, (names turn.record).2]
    exact linked.identity turn member
  · intro turn member inside
    by_cases same : turn.record = record
    · have now := running ⟨turn, member, same⟩ (same ▸ inside)
      rw [State.isRunning, same, State.records_modify_self, now]
      rfl
    · rw [State.isRunning, State.records_modify_of_ne _ _ same]
      exact linked.running turn member inside

theorem Linked.beginTurn (linked : Linked state) (startedAt : Rat) (runs : Bool)
    (member : record ∈ state.held) (idle : state.isRunning record = false) :
    Linked (beginTurn state record startedAt runs) := by
  have none := linked.no_turn member idle
  have changed := linked.modify record
    (fun old =>
      { old with
        status := .running
        updatedAt := startedAt
        abortController := some state.controllers }) rfl rfl fun _ _ => rfl
  have own : (state.modify record fun old =>
      { old with
        status := .running
        updatedAt := startedAt
        abortController := some state.controllers }).isRunning record = true := by
    rw [State.isRunning, State.records_modify_self]
    rfl
  refine ⟨changed.named, changed.made, ?_, ?_, ?_, ?_, ?_, changed.oneShots, changed.total,
    changed.awaited⟩
  · intro turn inside
    rcases mem_append.mp inside with inside | inside
    · exact changed.turnsMade turn inside
    · obtain rfl := mem_singleton.mp inside
      exact linked.made record member
  · intro turn inside
    rcases mem_append.mp inside with inside | inside
    · exact changed.identity turn inside
    obtain rfl := mem_singleton.mp inside
    change _ = (update state.records record _ record).conversationId ∧
      _ = (update state.records record _ record).worker.id
    rw [update_self]
    exact ⟨rfl, rfl⟩
  · intro turn inside here
    rcases mem_append.mp inside with inside | inside
    · exact changed.running turn inside here
    · obtain rfl := mem_singleton.mp inside
      exact own
  · intro turn inside active
    rcases mem_append.mp inside with inside | inside
    · exact changed.active turn inside active
    · obtain rfl := mem_singleton.mp inside
      exact member
  · change ((state.turns ++ [_]).map Turn.record).Nodup
    rw [map_append, nodup_append]
    refine ⟨linked.single, nodup_singleton _, ?_⟩
    intro old before new single same
    obtain ⟨turn, inside, rfl⟩ := mem_map.mp before
    rw [map_singleton, mem_singleton] at single
    exact none turn inside (same.trans single)

theorem held_addRecord {record : WorkerConversationRecord}
    (fresh : state.conversations.get? record.conversationId = none) :
    (addRecord state record).held = state.held ++ [state.made] := by
  rw [State.held, addRecord, InsertionMap.entries_insert_of_absent
    ((state.conversations.get?_eq_none_iff _).mp fresh), map_append]
  rfl

theorem Linked.addRecord (linked : Linked state) {record : WorkerConversationRecord}
    (fresh : state.conversations.get? record.conversationId = none) :
    Linked (addRecord state record) := by
  have held := held_addRecord fresh
  have others {other : Nat} (old : other < state.made) :
      (WorkerDirectory.addRecord state record).records other = state.records other :=
    update_of_ne (Nat.ne_of_lt old) _ _
  have own : (WorkerDirectory.addRecord state record).records state.made = record :=
    update_self _ _ _
  refine ⟨?_, ?_, ?_, ?_, ?_, ?_, linked.single, linked.oneShots, linked.total, ?_⟩
  · intro id other found
    rw [WorkerDirectory.addRecord, InsertionMap.get?_insert] at found
    split at found
    · rename_i same
      obtain rfl := Option.some.inj found
      rw [own, same]
    · rw [others (linked.made other (mem_held_iff.mpr ⟨id, found⟩))]
      exact linked.named id other found
  · intro other member
    rw [held, mem_append, mem_singleton] at member
    rcases member with member | rfl
    · exact Nat.lt_succ_of_lt (linked.made other member)
    · exact Nat.lt_succ_self _
  · exact fun turn member => Nat.lt_succ_of_lt (linked.turnsMade turn member)
  · intro turn member
    rw [others (linked.turnsMade turn member)]
    exact linked.identity turn member
  · intro turn member inside
    have old := linked.turnsMade turn member
    rw [held, mem_append, mem_singleton] at inside
    rcases inside with inside | same
    · rw [State.isRunning, others old]
      exact linked.running turn member inside
    · omega
  · intro turn member active
    rw [held]
    exact mem_append_left _ (linked.active turn member active)
  · intro call member other inside
    rw [held]
    exact mem_append_left _ (linked.awaited call member other inside)

end Recode.Delegation

import Recode.Delegation.WorkerActivity

/-! # Starting conversations

A start call makes room, adds its records and begins their first turns, all at once. -/

namespace Recode.Delegation

open WorkerDirectory List WorkerConversationRecord

variable {directory : WorkerDirectory} {state after : State}

theorem prepareRequests_ok {requests : List StartRequest}
    {prepared : List (StartRequest × NamedWorkerDefinition)}
    (done : directory.prepareRequests requests = .ok prepared) :
    prepared.map Prod.fst = requests ∧ ∀ one ∈ prepared, Text.trim one.1.message ≠ "" := by
  induction requests generalizing prepared with
  | nil =>
    cases done
    exact ⟨rfl, fun _ member => nomatch member⟩
  | cons request requests ih =>
    rw [prepareRequests] at done
    split at done
    · cases done
    rename_i first prepareFirst
    split at done
    · cases done
    rename_i rest prepareRest
    cases done
    obtain ⟨names, messages⟩ := ih prepareRest
    rw [prepareRequest] at prepareFirst
    split at prepareFirst
    · cases prepareFirst
    rename_i present
    split at prepareFirst
    · cases prepareFirst
    split at prepareFirst
    · cases prepareFirst
    cases prepareFirst
    refine ⟨by rw [map_cons, names], ?_⟩
    intro one member
    rcases mem_cons.mp member with rfl | member
    · exact present
    · exact messages one member

/-- What adding some records does. -/
structure Added (records : List WorkerConversationRecord) (state after : State) : Prop where
  linked : Linked after
  held : after.held = state.held ++ range' state.made records.length
  old : ∀ record, record < state.made → after.records record = state.records record
  new : ∀ index record, records[index]? = some record → after.records (state.made + index) = record
  turns : after.turns = state.turns
  oneShots : after.oneShots = state.oneShots
  activeOneShotsByWorker : after.activeOneShotsByWorker = state.activeOneShotsByWorker
  starts : after.starts = state.starts
  controllers : after.controllers = state.controllers

theorem addRecords_added {records : List WorkerConversationRecord} (linked : Linked state)
    (distinct : (records.map conversationId).Nodup)
    (fresh : ∀ record ∈ records, state.conversations.get? record.conversationId = none) :
    Added records state (addRecords records state) := by
  induction records generalizing state with
  | nil =>
    exact ⟨linked, by simp [addRecords], fun _ _ => rfl, fun _ _ found => (nomatch found),
      rfl, rfl, rfl, rfl, rfl⟩
  | cons first records ih =>
    rw [map_cons, nodup_cons] at distinct
    have freshFirst := fresh first mem_cons_self
    have rest := ih (linked.addRecord freshFirst) distinct.2
      fun record member => by
        rw [addRecord, InsertionMap.get?_insert, if_neg]
        · exact fresh record (mem_cons_of_mem first member)
        · intro same
          exact distinct.1 (same ▸ mem_map_of_mem member)
    refine ⟨rest.linked, ?_, ?_, ?_, rest.turns, rest.oneShots, rest.activeOneShotsByWorker,
      rest.starts, rest.controllers⟩
    · rw [addRecords, rest.held, held_addRecord freshFirst, append_assoc,
        length_cons, range'_succ]
      rfl
    · intro record old
      rw [addRecords, rest.old record (Nat.lt_succ_of_lt old)]
      exact Function.update_of_ne (Nat.ne_of_lt old) _ _
    · intro index record found
      cases index with
      | zero =>
        obtain rfl := Option.some.inj found
        rw [addRecords, Nat.add_zero, rest.old state.made (Nat.lt_succ_self _)]
        exact Function.update_self _ _ _
      | succ index =>
        have later := rest.new index record found
        rw [addRecords, ← later]
        congr 1
        change state.made + (index + 1) = state.made + 1 + index
        omega

/-- What beginning the first turns of some records does. -/
structure Begun (prepared : List (StartRequest × NamedWorkerDefinition))
    (state after : State) : Prop where
  linked : Linked after
  conversations : after.conversations = state.conversations
  turns : ∃ fresh, after.turns = state.turns ++ fresh ∧
    fresh.map Turn.workerId = prepared.map fun one => one.2.id
  oneShots : after.oneShots = state.oneShots
  starts : after.starts = state.starts

theorem beginTurns_begun (prepared : List (StartRequest × NamedWorkerDefinition)) (record : Nat)
    (linked : Linked state)
    (ready : ∀ index one, prepared[index]? = some one → Text.trim one.1.message ≠ "" ∧
      record + index ∈ state.held ∧ state.isRunning (record + index) = false ∧
        (state.records (record + index)).worker = one.2) :
    Begun prepared state (beginTurns prepared record state) := by
  induction prepared generalizing state record with
  | nil => exact ⟨linked, rfl, ⟨[], (append_nil _).symm, rfl⟩, rfl, rfl⟩
  | cons one prepared ih =>
    obtain ⟨present, held, idle, worker⟩ := ready 0 one rfl
    rw [Nat.add_zero] at held idle worker
    have begun : (executeConversationTurn state record one.1.message one.1.startedAt
        one.1.runs).1 = beginTurn state record one.1.startedAt one.1.runs := by
      rw [executeConversationTurn, if_neg present, if_neg (ne_true_of_eq_false idle)]
    have rest := ih (record + 1) (linked.beginTurn one.1.startedAt one.1.runs held idle)
      fun index other found => by
        have later := ready (index + 1) other found
        have place : record + (index + 1) = record + 1 + index := by omega
        have different : record + 1 + index ≠ record := by omega
        rw [place] at later
        rw [State.isRunning, beginTurn, State.records_modify_of_ne _ _ different]
        exact later
    rw [beginTurns, begun]
    obtain ⟨fresh, turns, workers⟩ := rest.turns
    refine ⟨rest.linked, rest.conversations, ⟨newTurn state record one.1.runs :: fresh, ?_, ?_⟩,
      rest.oneShots, rest.starts⟩
    · rw [turns, append_cons]
      rfl
    · rw [map_cons, workers, map_cons, ← worker]
      rfl

/-- When the turns of some workers begin, so many runs may be executing more. -/
theorem activeRuns_append (state after : State) (fresh : List Turn)
    (turns : after.turns = state.turns ++ fresh) (oneShots : after.oneShots = state.oneShots) :
    after.activeRuns ≤ state.activeRuns + fresh.length ∧
      ∀ workerId, after.activeRunsOf workerId ≤ state.activeRunsOf workerId +
        ((fresh.map Turn.workerId).filter fun candidate => candidate = workerId).length := by
  constructor
  · have bound := length_filter_le Turn.active fresh
    rw [State.activeRuns, State.activeRuns, turns, oneShots, filter_append, length_append]
    omega
  · intro workerId
    have bound : (fresh.filter fun turn => turn.active && turn.workerId = workerId).length ≤
        ((fresh.map Turn.workerId).filter fun candidate => candidate = workerId).length := by
      rw [filter_map, length_map, ← filter_filter]
      exact length_filter_le _ _
    rw [State.activeRunsOf, State.activeRunsOf, turns, oneShots, filter_append,
      length_append]
    omega

theorem Safe.makeRoom {requiredSlots : Nat} (linked : Linked state) (safe : Safe directory state)
    (linkedAfter : Linked (directory.makeRoom state requiredSlots).1) :
    Safe directory (directory.makeRoom state requiredSlots).1 := by
  have length := (makeRoom_madeRoom directory linked requiredSlots).length
  have size := safe.size
  exact safe.fewer linkedAfter (Nat.le_refl _) (fun _ => Nat.le_refl _) (by omega)

/-- Room is made for some conversations without touching a start call that has not
returned, and not in vain. -/
structure Roomy (directory : WorkerDirectory) (state : State) (requiredSlots : Nat) : Prop where
  enough : directory.excess state requiredSlots ≤ state.removable.length ∨ state.removable = []
  settled : ∀ record ∈ directory.dropped state requiredSlots, ∀ call ∈ state.starts,
    record ∉ call.records

/-- Slots are ensured: when they are not, nothing was dropped. -/
theorem ensureConversationSlots_spec {requiredSlots : Nat} (linked : Linked state)
    (safe : Safe directory state)
    (roomy : requiredSlots ≤ directory.maxConversations → Roomy directory state requiredSlots) :
    ∃ conversations, (directory.ensureConversationSlots state requiredSlots).1 =
        { state with conversations := conversations } ∧
      Linked (directory.ensureConversationSlots state requiredSlots).1 ∧
      Safe directory (directory.ensureConversationSlots state requiredSlots).1 ∧
      (∀ id record, conversations.get? id = some record →
        state.conversations.get? id = some record) ∧
      ((directory.ensureConversationSlots state requiredSlots).2 = none →
        conversations.entries.length + requiredSlots ≤ directory.maxConversations) ∧
      (∀ error, (directory.ensureConversationSlots state requiredSlots).2 = some error →
        conversations = state.conversations) := by
  rw [ensureConversationSlots]
  split
  · exact ⟨state.conversations, rfl, linked, safe, fun _ _ found => found,
      fun passed => (by cases passed), fun _ _ => rfl⟩
  rename_i fits
  obtain ⟨enough, settled⟩ := roomy (Nat.le_of_not_lt fits)
  have room := makeRoom_madeRoom directory linked requiredSlots
  have linkedAfter := linked.makeRoom directory requiredSlots settled
  refine ⟨(directory.makeRoom state requiredSlots).1.conversations, rfl, linkedAfter,
    Safe.makeRoom linked safe linkedAfter,
      fun id record found => ((room.kept id record).mp found).1,
    ?_, ?_⟩
  · intro passed
    rw [makeRoom] at passed
    dsimp only at passed
    split at passed
    · cases passed
    · rename_i done
      exact Nat.le_of_not_lt done
  · intro error failed
    rw [makeRoom] at failed
    dsimp only at failed
    split at failed
    · rename_i exceeds
      rcases enough with enough | none
      · have length := room.length
        rw [Nat.min_eq_right enough] at length
        rw [excess] at length
        change (directory.makeRoom state requiredSlots).1.conversations.entries.length +
          requiredSlots > _ at exceeds
        omega
      · rw [makeRoom, none]
        rfl
    · cases failed

theorem Linked.await (linked : Linked state) (call : StartCall)
    (held : ∀ record ∈ call.records, record ∈ state.held) :
    Linked { state with starts := state.starts ++ [call] } where
  named := linked.named
  made := linked.made
  turnsMade := linked.turnsMade
  identity := linked.identity
  running := linked.running
  active := linked.active
  single := linked.single
  oneShots := linked.oneShots
  total := linked.total
  awaited other member record inside := by
    rcases mem_append.mp member with member | member
    · exact linked.awaited other member record inside
    · obtain rfl := mem_singleton.mp member
      exact held record inside

/-- What a start call leaves, and that its conversations are there when it gives back its
promise. -/
theorem startConversations_kept {requests : List StartRequest} (linked : Linked state)
    (safe : Safe directory state) (distinct : (requests.map StartRequest.conversationId).Nodup)
    (fresh : ∀ request ∈ requests, state.conversations.get? request.conversationId = none)
    (roomy : ∀ prepared, directory.prepareRequests requests = .ok prepared →
      directory.assertCanStartWorkerIds state (prepared.map fun one => one.2.id) = .ok () →
        prepared.length ≤ directory.maxConversations → Roomy directory state prepared.length) :
    CallKept directory state (directory.startConversations state requests).1
        (directory.startConversations state requests).2 ∧
      ((directory.startConversations state requests).2 = .pending → ∀ request ∈ requests,
        ((directory.startConversations state requests).1.conversations.get?
          request.conversationId).isSome = true) := by
  rw [startConversations]
  split
  · exact ⟨.refl linked safe _, fun pending => by cases pending⟩
  split
  · exact ⟨.refl linked safe _, fun pending => by cases pending⟩
  rename_i prepared preparation
  obtain ⟨names, messages⟩ := prepareRequests_ok preparation
  split
  · exact ⟨.refl linked safe _, fun pending => by cases pending⟩
  rename_i passed
  obtain ⟨conversations, room, linkedRoom, safeRoom, fewer, fits, whole⟩ :=
    ensureConversationSlots_spec linked safe (roomy prepared preparation passed)
  split
  · rename_i ensured error slots
    rw [slots] at room linkedRoom safeRoom whole
    dsimp only at room linkedRoom safeRoom whole
    subst room
    exact ⟨⟨linkedRoom, safeRoom, fun _ _ => whole error rfl⟩, fun pending => by cases pending⟩
  · rename_i ensured slots
    rw [slots] at room linkedRoom fits
    dsimp only at room linkedRoom fits
    let records := prepared.map fun one => newRecord one.1 one.2
    let filled := addRecords records ensured
    have ids : records.map conversationId = requests.map StartRequest.conversationId := by
      rw [← names, map_map, map_map]
      rfl
    have added := addRecords_added linkedRoom (ids ▸ distinct) fun record member => by
      obtain ⟨one, inside, rfl⟩ := mem_map.mp member
      have absent := fresh one.1 (names ▸ mem_map_of_mem inside)
      cases found : ensured.conversations.get? one.1.conversationId with
      | none => exact found
      | some record =>
        rw [room] at found
        rw [fewer _ record found] at absent
        cases absent
    have place (index : Nat) (one : StartRequest × NamedWorkerDefinition)
        (found : prepared[index]? = some one) :
        ensured.made + index ∈ filled.held ∧
          filled.records (ensured.made + index) = newRecord one.1 one.2 := by
      constructor
      · obtain ⟨inside, -⟩ := List.getElem?_eq_some_iff.mp found
        rw [added.held, mem_append, mem_range'_1, length_map]
        omega
      · exact added.new index _ (by rw [List.getElem?_map, found]; rfl)
    have begun := beginTurns_begun prepared ensured.made
      added.linked fun index one found => by
        obtain ⟨held, record⟩ := place index one found
        refine ⟨messages one (mem_of_getElem? found), held, ?_, ?_⟩
        · rw [State.isRunning, record]
          rfl
        · rw [record]
          rfl
    obtain ⟨begunTurns, turns, workers⟩ := begun.turns
    have oldTurns : ensured.turns = state.turns := by rw [room]
    have oldOneShots : ensured.oneShots = state.oneShots := by rw [room]
    have held (record : Nat) :
        record ∈ (beginTurns prepared ensured.made filled).held ↔ record ∈ filled.held := by
      rw [State.held, State.held, begun.conversations]
    have linkedAfter := begun.linked.await
      { records := List.range' ensured.made prepared.length
        turns := List.range' ensured.controllers prepared.length }
      fun record member => by
        rw [held, added.held, mem_append, length_map]
        exact Or.inr member
    refine ⟨⟨linkedAfter, ?_, fun _ threw => by cases threw⟩, ?_⟩
    · have runs := activeRuns_append state (beginTurns prepared ensured.made filled) begunTurns
        (by rw [turns, added.turns, oldTurns])
        (by rw [begun.oneShots, added.oneShots, oldOneShots])
      rw [workers] at runs
      refine safe.started linked linkedAfter passed ?_ runs.2 ?_
      · rw [← workers, length_map]
        exact runs.1
      · have size : filled.held.length = ensured.held.length + prepared.length := by
          rw [added.held, length_append, length_range', length_map]
        rw [State.held, State.held, length_map, length_map] at size
        have bound := fits rfl
        dsimp only
        rw [begun.conversations, size, room]
        exact bound
    · intro _ request member
      rw [← names] at member
      obtain ⟨one, inside, rfl⟩ := mem_map.mp member
      obtain ⟨index, found⟩ := mem_iff_getElem?.mp inside
      obtain ⟨present, record⟩ := place index one found
      have known := added.linked.get?_of_held present
      rw [record] at known
      dsimp only
      rw [begun.conversations]
      exact Option.isSome_iff_exists.mpr ⟨_, known⟩

end Recode.Delegation

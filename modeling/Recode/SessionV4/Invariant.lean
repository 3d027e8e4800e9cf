import Recode.SessionV4.Replay
import Recode.Lib.GrownTree

/-! # The representation invariant of the session state

The seven structures a session state keeps are projections of its log. After any
mutations, accepted or rejected, the log is numbered without gaps, no identifier
occurs twice, entries grow a tree, and the indexes, totals and open operations
are those of the log. -/

open List

namespace Recode.SessionV4

open InsertionMap LaneRecord

namespace LogItem

def entry? : LogItem → Option Entry
  | .entry _ placed => some placed
  | _ => none

def record? : LogItem → Option LaneRecord
  | .record _ placed => some placed
  | _ => none

def id? : LogItem → Option String
  | .entry _ placed => some placed.id
  | .record _ placed => some placed.id
  | _ => none

/-- What an item stores carries the item's number. -/
def Numbered : LogItem → Prop
  | .entry seq placed => placed.seq = seq
  | .record seq placed => placed.seq = seq
  | _ => True

def finishes (lane runId : String) (item : LogItem) : Bool :=
  item.record?.any fun record =>
    record.lane = lane && decide (record.content = .operationFinished runId)

def count (stats : SessionStats) : LogItem → SessionStats
  | .entry _ placed => SessionState.countEntry stats placed
  | .record _ placed => SessionState.countRecord stats placed
  | _ => stats

def starts (lane : String) (item : LogItem) : Option LaneRecord :=
  item.record?.filter fun record => record.isStart && record.lane = lane

theorem starts_record (lane : String) (seq : Nat) (placed : LaneRecord) :
    (LogItem.record seq placed).starts lane =
      if placed.isStart && decide (placed.lane = lane) then some placed else none :=
  Option.filter_some

end LogItem

def openOperations (lane : String) : List LogItem → List LaneRecord
  | [] => []
  | item :: later =>
    match item.starts lane with
    | none => openOperations lane later
    | some record =>
      if later.any (·.finishes lane record.id) then openOperations lane later
      else record :: openOperations lane later

variable (lane : String) (log : List LogItem)

theorem mem_openOperations_iff (record : LaneRecord) :
    record ∈ openOperations lane log ↔ ∃ earlier item later, log = earlier ++ item :: later ∧
      item.starts lane = some record ∧ later.any (·.finishes lane record.id) = false := by
  induction log with
  | nil => simp [openOperations]
  | cons first rest ih =>
    have split : (∃ earlier item later, first :: rest = earlier ++ item :: later ∧
        item.starts lane = some record ∧ later.any (·.finishes lane record.id) = false) ↔
        (first.starts lane = some record ∧ rest.any (·.finishes lane record.id) = false) ∨
          record ∈ openOperations lane rest := by
      rw [ih]
      constructor
      · rintro ⟨earlier, item, later, same, facts⟩
        cases earlier with
        | nil =>
          cases same
          exact .inl facts
        | cons head earlier =>
          cases same
          exact .inr ⟨earlier, item, later, rfl, facts⟩
      · rintro (facts | ⟨earlier, item, later, rfl, facts⟩)
        · exact ⟨[], first, rest, rfl, facts⟩
        · exact ⟨first :: earlier, item, later, rfl, facts⟩
    rw [split, openOperations]
    cases started : first.starts lane with
    | none => simp
    | some opened =>
      cases finished : rest.any (·.finishes lane opened.id) with
      | true =>
        have kept : ¬ (opened = record ∧ rest.any (·.finishes lane record.id) = false) := by
          rintro ⟨rfl, unfinished⟩
          rw [finished] at unfinished
          cases unfinished
        simp only [Option.some.injEq, kept, false_or, finished, ↓reduceIte]
      | false =>
        have kept : opened = record ∧ rest.any (·.finishes lane record.id) = false ↔
            record = opened := by
          constructor
          · exact fun facts => facts.1.symm
          · rintro rfl
            exact ⟨rfl, finished⟩
        simp only [Option.some.injEq, kept, finished, Bool.false_eq_true, ↓reduceIte, mem_cons]

theorem openOperations_append_singleton (item : LogItem) :
    openOperations lane (log ++ [item]) =
      (openOperations lane log).filter (fun record => !item.finishes lane record.id) ++
        (item.starts lane).toList := by
  induction log with
  | nil => cases started : item.starts lane <;> simp [openOperations, started]
  | cons first rest ih =>
    rw [cons_append, openOperations, ih, openOperations]
    cases first.starts lane with
    | none => rfl
    | some record =>
      cases finished : rest.any (·.finishes lane record.id) with
      | true => simp only [any_append, finished, Bool.true_or, ↓reduceIte]
      | false =>
        cases last : item.finishes lane record.id <;>
          simp [any_append, finished, last]

theorem openOperations_append_other {item : LogItem} (other : item.record? = none) :
    openOperations lane (log ++ [item]) = openOperations lane log := by
  have silent : ∀ runId, item.finishes lane runId = false := by
    intro runId
    rw [LogItem.finishes, other, Option.any_none]
  have idle : item.starts lane = none := by
    rw [LogItem.starts, other, Option.filter_none]
  rw [openOperations_append_singleton, idle, Option.toList_none, append_nil, filter_eq_self]
  intro record _
  rw [silent, Bool.not_false]

def SessionMutation.item : SessionMutation → LogItem
  | .entry _ placed => .entry placed.seq placed
  | .record placed => .record placed.seq placed
  | .lane seq name leafId => .lane seq name leafId
  | .fact seq stated => .fact seq stated

namespace SessionState

def openedIn (openOperationsByLane : InsertionMap String (InsertionMap String LaneRecord))
    (lane : String) : InsertionMap String LaneRecord :=
  (openOperationsByLane.get? lane).getD .empty

/-- A state is a projection of its log. -/
structure Projected (state : SessionState) : Prop where
  numbered : ∀ item ∈ state.log, item.Numbered
  sequence : state.log.map LogItem.seq = range' 1 state.sequence
  entries : state.entries = state.log.filterMap LogItem.entry?
  records : state.records = state.log.filterMap LogItem.record?
  usedIds : state.usedIds = state.log.filterMap LogItem.id?
  distinct : state.usedIds.Nodup
  indexed : state.entriesById = indexBy (fun entry => entry.id) state.entries
  grows : GrownTree.Grows (fun entry => entry.id) Entry.parentId state.entries
  leaves : ∀ lane id, state.lanes.get? lane = some (some id) → id ∈ state.entries.map (·.id)
  mainLane : ∃ leaf others, state.lanes.entries = ("main", leaf) :: others
  targets : ∀ id, (state.labels.get? id).isSome → id ∈ state.entries.map (·.id)
  stats : state.stats = state.log.foldl LogItem.count ⟨0, 0, 0, 0, 0⟩
  opened : ∀ lane, (openedIn state.openOperationsByLane lane).entries =
    (openOperations lane state.log).map fun record => (record.id, record)

theorem projected_initial : initial.Projected where
  numbered := by simp [initial]
  sequence := rfl
  entries := rfl
  records := rfl
  usedIds := rfl
  distinct := nodup_nil
  indexed := rfl
  grows := GrownTree.Grows.nil
  leaves := by
    intro lane id leaf
    rw [initial, get?_insert] at leaf
    split at leaf <;> simp at leaf
  mainLane := ⟨none, [], rfl⟩
  targets := by simp [initial]
  stats := rfl
  opened lane := rfl

/-! What a mutation adds to each structure. -/

variable (state : SessionState) (mutation : SessionMutation) {record : LaneRecord}

theorem applied_log : (state.applied mutation).log = state.log ++ [mutation.item] := by
  cases mutation with
  | fact seq fact => cases fact <;> rfl
  | _ => rfl

theorem applied_sequence : (state.applied mutation).sequence = mutation.item.seq := by
  cases mutation with
  | fact seq fact => cases fact <;> rfl
  | _ => rfl

theorem applied_entries :
    (state.applied mutation).entries = state.entries ++ mutation.item.entry?.toList := by
  cases mutation with
  | entry lane placed => rfl
  | fact seq fact => cases fact <;> exact (append_nil _).symm
  | _ => exact (append_nil _).symm

theorem applied_records :
    (state.applied mutation).records = state.records ++ mutation.item.record?.toList := by
  cases mutation with
  | record placed => rfl
  | fact seq fact => cases fact <;> exact (append_nil _).symm
  | _ => exact (append_nil _).symm

theorem applied_usedIds :
    (state.applied mutation).usedIds = state.usedIds ++ mutation.item.id?.toList := by
  cases mutation with
  | entry lane placed => rfl
  | record placed => rfl
  | fact seq fact => cases fact <;> exact (append_nil _).symm
  | lane => exact (append_nil _).symm

theorem applied_stats : (state.applied mutation).stats = mutation.item.count state.stats := by
  cases mutation with
  | fact seq fact => cases fact <;> rfl
  | _ => rfl

theorem applied_entriesById :
    (state.applied mutation).entriesById = mutation.item.entry?.elim state.entriesById
        fun entry => state.entriesById.insert entry.id entry := by
  cases mutation with
  | fact seq fact => cases fact <;> rfl
  | _ => rfl

theorem applied_openOperationsByLane :
    (state.applied mutation).openOperationsByLane =
      mutation.item.record?.elim state.openOperationsByLane
        (trackOperation state.openOperationsByLane) := by
  cases mutation with
  | fact seq fact => cases fact <;> rfl
  | _ => rfl

variable (openOperationsByLane : InsertionMap String (InsertionMap String LaneRecord))
  {state : SessionState} {mutation : SessionMutation}

theorem Accepts.consecutive
    (accepted : state.Accepts mutation) : mutation.item.seq = state.sequence + 1 := by
  cases mutation with
  | fact seq fact =>
    cases fact with
    | name name => exact accepted
    | label targetId label => exact accepted.1
  | _ => exact accepted.1

theorem Accepts.fresh {id : String} (accepted : state.Accepts mutation)
    (uses : mutation.item.id? = some id) : id ∉ state.usedIds := by
  cases mutation with
  | entry lane placed =>
    cases uses
    exact accepted.2.1
  | record placed =>
    cases uses
    exact accepted.2.2
  | _ => cases uses

theorem openedIn_insert (changed lane : String) (opened : InsertionMap String LaneRecord) :
    openedIn (openOperationsByLane.insert changed opened) lane =
      if lane = changed then opened else openedIn openOperationsByLane lane := by
  rw [openedIn, get?_insert]
  split
  · rfl
  · rfl

theorem trackOperation_started {intent : OperationKind}
    (content : record.content = .operationStarted intent) :
    trackOperation openOperationsByLane record = openOperationsByLane.insert record.lane
      ((openedIn openOperationsByLane record.lane).insert record.id record) := by
  rw [trackOperation, content, openedIn]

theorem openedIn_trackOperation_finished {runId : String}
    (content : record.content = .operationFinished runId) (lane : String) :
    openedIn (trackOperation openOperationsByLane record) lane =
      if lane = record.lane then (openedIn openOperationsByLane lane).erase runId
      else openedIn openOperationsByLane lane := by
  cases found : openOperationsByLane.get? record.lane with
  | none =>
    have untouched : trackOperation openOperationsByLane record = openOperationsByLane := by
      simp only [trackOperation, content, found]
    rw [untouched]
    split
    · rename_i same
      subst same
      simp only [openedIn, found, Option.getD_none]
      rfl
    · rfl
  | some opened =>
    have erased : trackOperation openOperationsByLane record =
        openOperationsByLane.insert record.lane (opened.erase runId) := by
      simp only [trackOperation, content, found]
    rw [erased, openedIn_insert]
    split
    · rename_i same
      subst same
      simp only [openedIn, found, Option.getD_some]
    · rfl

/-- A record finishes an operation of its lane or starts one. -/
theorem openedIn_trackOperation (seq : Nat) (record : LaneRecord) (lane : String)
    (fresh : record.id ∉ (openedIn openOperationsByLane lane).entries.map Prod.fst) :
    (openedIn (trackOperation openOperationsByLane record) lane).entries =
      (openedIn openOperationsByLane lane).entries.filter
          (fun entry => !(LogItem.record seq record).finishes lane entry.1) ++
        ((LogItem.record seq record).starts lane).toList.map fun record => (record.id, record) := by
  have unrelated (silent : ∀ runId, record.content ≠ .operationFinished runId) :
      (openedIn openOperationsByLane lane).entries.filter
          (fun entry => !(LogItem.record seq record).finishes lane entry.1) =
        (openedIn openOperationsByLane lane).entries := by
    rw [filter_eq_self]
    intro entry _
    simp [LogItem.finishes, LogItem.record?, silent]
  cases content : record.content with
  | operationStarted intent =>
    rw [unrelated (by simp [content]), trackOperation_started _ content, openedIn_insert]
    by_cases same : lane = record.lane
    · subst same
      rw [if_pos rfl, entries_insert_of_absent fresh]
      simp [LogItem.starts_record, isStart, operationKind, content]
    · simp [same, LogItem.starts_record, Ne.symm same]
  | operationFinished runId =>
    rw [openedIn_trackOperation_finished _ content]
    have starts : (LogItem.record seq record).starts lane = none := by
      simp [LogItem.starts_record, isStart, operationKind, content]
    rw [starts, Option.toList_none, map_nil, append_nil]
    by_cases same : lane = record.lane
    · subst same
      rw [if_pos rfl, erase]
      simp [LogItem.finishes, LogItem.record?, content, eq_comm]
    · rw [if_neg same, eq_comm, filter_eq_self]
      intro entry _
      simp [LogItem.finishes, LogItem.record?, Ne.symm same]
  | _ =>
    rw [unrelated (by simp [content]), trackOperation, content]
    simp [LogItem.starts_record, isStart, operationKind, content]

theorem mem_log_of_opened {lane : String} {log : List LogItem}
    (opened : record ∈ openOperations lane log) : record.id ∈ log.filterMap LogItem.id? := by
  obtain ⟨earlier, item, later, rfl, started, -⟩ := (mem_openOperations_iff _ _ _).mp opened
  refine mem_filterMap.mpr ⟨item, by simp, ?_⟩
  cases item with
  | record seq placed =>
    rw [LogItem.starts_record, Option.ite_none_right_eq_some, Option.some.injEq] at started
    rw [← started.2]
    rfl
  | _ => cases started

theorem Projected.fresh_in_opened (projected : state.Projected)
    {id : String} (fresh : id ∉ state.usedIds) (lane : String) :
    id ∉ (openedIn state.openOperationsByLane lane).entries.map Prod.fst := by
  rw [projected.opened, map_map]
  intro member
  obtain ⟨record, opened, rfl⟩ := mem_map.mp member
  exact fresh (projected.usedIds ▸ mem_log_of_opened opened)

theorem Projected.contains_iff (projected : state.Projected) (id : String) :
    state.entriesById.contains id = true ↔ id ∈ state.entries.map (·.id) := by
  rw [InsertionMap.contains, projected.indexed, isSome_get?_indexBy]

theorem Projected.entry_id_used (projected : state.Projected)
    {id : String} (stored : id ∈ state.entries.map (·.id)) : id ∈ state.usedIds := by
  rw [projected.entries] at stored
  obtain ⟨entry, present, rfl⟩ := mem_map.mp stored
  obtain ⟨item, logged, stores⟩ := mem_filterMap.mp present
  rw [projected.usedIds]
  refine mem_filterMap.mpr ⟨item, logged, ?_⟩
  cases item with
  | entry seq placed =>
    cases stores
    rfl
  | _ => cases stores

theorem filterMap_log_append {Part : Type} (part : LogItem → Option Part) (log : List LogItem)
    (item : LogItem) :
    (log ++ [item]).filterMap part = log.filterMap part ++ (part item).toList := by
  rw [filterMap_append]
  cases held : part item <;> simp [held]

section

variable (projected : state.Projected) (accepted : state.Accepts mutation)
include projected accepted

theorem Projected.applied_grows :
    GrownTree.Grows (fun entry => entry.id) Entry.parentId (state.applied mutation).entries := by
  rw [applied_entries]
  cases mutation with
  | entry lane placed =>
    obtain ⟨-, fresh, -, known⟩ := accepted
    change GrownTree.Grows _ _ (state.entries ++ [placed])
    rw [GrownTree.grows_append_singleton]
    refine ⟨projected.grows, fun stored => fresh (projected.entry_id_used stored), ?_⟩
    intro above link
    exact (projected.contains_iff above).mp (known above link)
  | _ =>
    change GrownTree.Grows _ _ (state.entries ++ [])
    rw [append_nil]
    exact projected.grows

theorem Projected.applied_leaves (lane id : String)
    (leaf : (state.applied mutation).lanes.get? lane = some (some id)) :
    id ∈ (state.applied mutation).entries.map (·.id) := by
  rw [applied_entries, map_append, mem_append]
  have kept (unchanged : state.lanes.get? lane = some (some id)) :
      id ∈ state.entries.map (·.id) := projected.leaves lane id unchanged
  cases mutation with
  | entry named placed =>
    cases named with
    | none => exact .inl (kept leaf)
    | some named =>
      change (state.lanes.insert named (some placed.id)).get? lane = some (some id) at leaf
      rw [get?_insert] at leaf
      split at leaf
      · cases leaf
        exact .inr (mem_singleton_self _)
      · exact .inl (kept leaf)
  | lane seq named leafId =>
    change (state.lanes.insert named leafId).get? lane = some (some id) at leaf
    rw [get?_insert] at leaf
    split at leaf
    · cases leaf
      exact .inl ((projected.contains_iff id).mp (accepted.2 id rfl))
    · exact .inl (kept leaf)
  | record placed => exact .inl (kept leaf)
  | fact seq fact => cases fact <;> exact .inl (kept leaf)

theorem Projected.applied_targets (id : String)
    (labelled : ((state.applied mutation).labels.get? id).isSome = true) :
    id ∈ (state.applied mutation).entries.map (·.id) := by
  rw [applied_entries, map_append, mem_append]
  left
  cases mutation with
  | fact seq fact =>
    cases fact with
    | name name => exact projected.targets id labelled
    | label targetId label =>
      change ((setLabel state.labels targetId label).get? id).isSome = true at labelled
      by_cases same : id = targetId
      · rw [same]
        exact (projected.contains_iff targetId).mp accepted.2
      · apply projected.targets id
        cases label with
        | none => rwa [setLabel, get?_erase_of_ne _ same] at labelled
        | some label => rwa [setLabel, get?_insert, if_neg same] at labelled
  | _ => exact projected.targets id labelled

end

theorem insert_mainLane {lanes : InsertionMap String (Option String)}
    (mainLane : ∃ leaf others, lanes.entries = ("main", leaf) :: others) (lane : String)
    (leafId : Option String) :
    ∃ leaf others, (lanes.insert lane leafId).entries = ("main", leaf) :: others := by
  obtain ⟨leaf, others, first⟩ := mainLane
  by_cases present : lane ∈ lanes.entries.map Prod.fst
  · rw [entries_insert_of_present present, first, map_cons]
    by_cases main : "main" = lane
    · rw [if_pos main, ← main]
      exact ⟨_, _, rfl⟩
    · rw [if_neg main]
      exact ⟨_, _, rfl⟩
  · rw [entries_insert_of_absent present, first]
    exact ⟨leaf, _, rfl⟩

theorem Projected.applied_opened
    (projected : state.Projected) (accepted : state.Accepts mutation) (lane : String) :
    (openedIn (state.applied mutation).openOperationsByLane lane).entries =
      (openOperations lane (state.applied mutation).log).map fun record => (record.id, record) := by
  rw [applied_openOperationsByLane, applied_log]
  cases mutation with
  | record placed =>
    rw [openOperations_append_singleton]
    have fresh := projected.fresh_in_opened (accepted.fresh rfl) lane
    refine (openedIn_trackOperation _ placed.seq placed lane fresh).trans ?_
    rw [projected.opened, map_append, filter_map]
    rfl
  | _ =>
    rw [openOperations_append_other lane _ rfl]
    exact projected.opened lane

theorem Projected.applied (projected : state.Projected) (accepted : state.Accepts mutation) :
    (state.applied mutation).Projected where
  numbered := by
    rw [applied_log]
    intro item logged
    rcases mem_append.mp logged with earlier | last
    · exact projected.numbered item earlier
    · rw [mem_singleton.mp last]
      cases mutation <;> first | exact rfl | exact trivial
  sequence := by
    rw [applied_log, applied_sequence, accepted.consecutive, map_append,
      projected.sequence, range'_1_concat, map_singleton, accepted.consecutive,
      Nat.add_comm 1]
  entries := by
    rw [applied_log, applied_entries, filterMap_log_append, ← projected.entries]
  records := by
    rw [applied_log, applied_records, filterMap_log_append, ← projected.records]
  usedIds := by
    rw [applied_log, applied_usedIds, filterMap_log_append, ← projected.usedIds]
  distinct := by
    rw [applied_usedIds, nodup_append]
    refine ⟨projected.distinct, by cases mutation.item.id? <;> simp, ?_⟩
    intro old used new added same
    exact accepted.fresh (Option.mem_toList.mp added) (same ▸ used)
  indexed := by
    rw [applied_entries, applied_entriesById, projected.indexed]
    cases mutation.item.entry? with
    | none => rw [Option.toList_none, append_nil, Option.elim_none]
    | some entry =>
      rw [Option.toList_some, indexBy_append_singleton, Option.elim_some]
  grows := projected.applied_grows accepted
  leaves := projected.applied_leaves accepted
  mainLane := by
    cases mutation with
    | entry lane placed =>
      cases lane with
      | none => exact projected.mainLane
      | some lane => exact insert_mainLane projected.mainLane lane _
    | lane seq lane leafId => exact insert_mainLane projected.mainLane lane leafId
    | record placed => exact projected.mainLane
    | fact seq fact => cases fact <;> exact projected.mainLane
  targets := projected.applied_targets accepted
  stats := by
    rw [applied_log, applied_stats, foldl_append, ← projected.stats]
    rfl
  opened := projected.applied_opened accepted

end SessionState
end Recode.SessionV4

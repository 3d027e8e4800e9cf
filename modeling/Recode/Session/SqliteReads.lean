import Recode.Session.SqliteBranch
import Recode.Session.Truncation

/-! # What the two storages read

After the same appends both storages have the same leaf, entries, labels, name and
statistics. They differ in two reads. With a limit the SQLite storage lists the entries
before a sequence number and not those after it. And at the current leaf it loads the
rows of the active branch, so that it finds the first kept entry of a compaction where
the climb does not, and does not find it when it is a leaf entry. -/

namespace Recode

open List SessionMaterializedState InMemorySessionStorage Text SessionTreeEntry

section Summary

variable (entries : List SessionTreeEntry) (state : SessionMaterializedState)
  (entry : SessionTreeEntry)

theorem materializedAfter_append_singleton : materializedAfter (entries ++ [entry]) =
      applyEntryToMaterializedState (materializedAfter entries) entry := by
  unfold materializedAfter
  rw [foldl_append, foldl_cons, foldl_nil]

theorem labelsById_applyEntry :
    (applyEntryToMaterializedState state entry).labelsById =
      updateLabelCache state.labelsById entry := by
  obtain ⟨id, parentId, timestamp, body⟩ := entry
  unfold applyEntryToMaterializedState updateLabelCache
  cases body with
  | label targetId label =>
    simp only
    cases truthy (label.map trim) <;> rfl
  | message message => cases message <;> rfl
  | compaction data => cases used : data.usage <;> simp [addUsage, used]
  | branchSummary data => cases used : data.usage <;> simp [addUsage, used]
  | _ => rfl

theorem stats_applyEntry :
    (applyEntryToMaterializedState state entry).toSessionStats =
      statsStep state.toSessionStats entry := by
  obtain ⟨id, parentId, timestamp, body⟩ := entry
  unfold applyEntryToMaterializedState statsStep
  cases body with
  | label targetId label =>
    simp only
    cases truthy (label.map trim) <;> rfl
  | message message => cases message <;> rfl
  | compaction data =>
    cases used : data.usage <;>
      simp [addUsage, message?,
        usage?, used]
  | branchSummary data =>
    cases used : data.usage <;>
      simp [addUsage, message?,
        usage?, used]
  | _ => rfl

def nameAfter (name : Option String) (entry : SessionTreeEntry) : Option String :=
  match entry.body with
  | .sessionInfo name => truthy (name.map trim)
  | _ => name

theorem name_applyEntry :
    (applyEntryToMaterializedState state entry).name = nameAfter state.name entry := by
  obtain ⟨id, parentId, timestamp, body⟩ := entry
  unfold applyEntryToMaterializedState nameAfter
  cases body with
  | label targetId label =>
    simp only
    cases truthy (label.map trim) <;> rfl
  | message message => cases message <;> rfl
  | compaction data => cases used : data.usage <;> simp [addUsage, used]
  | branchSummary data => cases used : data.usage <;> simp [addUsage, used]
  | _ => rfl

theorem materializedAfter_labelsById :
    (materializedAfter entries).labelsById = buildLabelsById entries := by
  induction entries using reverseRecOn with
  | nil => rfl
  | append_singleton entries entry ih =>
    rw [materializedAfter_append_singleton, labelsById_applyEntry, ih, buildLabelsById,
      buildLabelsById, foldl_append]
    rfl

theorem materializedAfter_stats :
    (materializedAfter entries).toSessionStats = entries.foldl statsStep .zero := by
  induction entries using reverseRecOn with
  | nil => rfl
  | append_singleton entries entry ih =>
    rw [materializedAfter_append_singleton, stats_applyEntry, ih, foldl_append]
    rfl

theorem materializedAfter_name :
    (materializedAfter entries).name =
      (afterAppending entries).getSessionName := by
  induction entries using reverseRecOn with
  | nil => rfl
  | append_singleton entries entry ih =>
    rw [materializedAfter_append_singleton, name_applyEntry, ih]
    obtain ⟨id, parentId, timestamp, body⟩ := entry
    unfold getSessionName findEntries
      afterAppending nameAfter
    rw [filter_append]
    cases body with
    | sessionInfo name => simp [EntryBody.type]
    | _ => simp [EntryBody.type]

end Summary

namespace SqliteSessionStorage

/-- The reads that always agree. -/
structure SameReads (memory : InMemorySessionStorage) (sqlite : SqliteSessionStorage) : Prop where
  getLeafId : sqlite.getLeafId = memory.getLeafId
  getEntry : ∀ id, sqlite.getEntry id = memory.getEntry id
  findEntries : ∀ type, sqlite.findEntries type = memory.findEntries type
  getLabel : ∀ id, sqlite.getLabel id = memory.getLabel id
  getSessionName : sqlite.getSessionName = memory.getSessionName
  getSessionStats : sqlite.getSessionStats = memory.getSessionStats

section Reads

variable {entries : List SessionTreeEntry} {storage : SqliteSessionStorage}

theorem sameReads_of_tables (tables : Tables entries storage) (appended : Appended entries) :
    SameReads (.afterAppending entries) storage where
  getLeafId := by
    rw [getLeafId_afterAppending appended, SqliteSessionStorage.getLeafId,
      tables.leafId]
  getEntry := fun id => congrFun tables.getEntry_eq id
  findEntries := by
    intro type
    unfold SqliteSessionStorage.findEntries
    rw [tables.orderedRows_eq appended, filter_map,
      tables.decode_rows fun entry member => mem_of_mem_filter member]
    rfl
  getLabel := by
    intro id
    unfold SqliteSessionStorage.getLabel
    rw [tables.materialized, materializedAfter_labelsById]
    rfl
  getSessionName := by
    unfold SqliteSessionStorage.getSessionName
    rw [tables.materialized, materializedAfter_name]
  getSessionStats := by
    unfold SqliteSessionStorage.getSessionStats
    rw [tables.materialized, materializedAfter_stats]
    rfl

/-- What the SQLite storage lists: everything, or the last entries up to a sequence
number. -/
theorem getEntries_eq (tables : Tables entries storage) (appended : Appended entries)
    (options : SessionEntryCursorOptions) :
    storage.getEntries options =
      match options.limit with
      | none => entries
      | some limit =>
        ((entries.take (options.afterEntrySeq.getD entries.length)).reverse.take
            limit).reverse := by
  have distinct := appended.grows.keys_nodup
  unfold SqliteSessionStorage.getEntries
  cases options.limit with
  | none => simp only [tables.orderedRows_eq appended, tables.decode_rows fun _ member => member]
  | some limit =>
    simp only [tables.orderedRows_eq appended]
    have upTo : ∀ bound, decodeEntryRows (((entries.map (entryRow entries)).filter fun row =>
        row.entrySeq ≤ bound).reverse.take limit) = (entries.take bound).reverse.take limit := by
      intro bound
      have rows : (entries.map (entryRow entries)).filter (fun row => row.entrySeq ≤ bound) =
          (entries.take bound).map (entryRow entries) := by
        rw [filter_map, ← filter_seqOf_le distinct bound]
        rfl
      rw [rows, ← map_reverse, ← map_take, tables.decode_rows]
      intro entry member
      exact mem_of_mem_take (mem_reverse.mp (mem_of_mem_take member))
    cases options.afterEntrySeq with
    | some bound => simp only [Option.some_or, upTo, Option.getD_some]
    | none =>
      rw [Option.none_or, Option.getD_none, getLast?_map]
      rcases entries.eq_nil_or_concat' with rfl | ⟨front, last, rfl⟩
      · simp
      rw [getLast?_concat]
      simp only [Option.map_some, upTo]
      have number : (entryRow (front ++ [last]) last).entrySeq =
          (front ++ [last]).length := by
        have fresh := appended.last_fresh
        rw [length_append]
        exact seqOf_last fresh
      rw [number]

/-- The options with which both storages list the same entries. -/
def PagesAgree (count : Nat) (options : SessionEntryCursorOptions) : Prop :=
  count = 0 ∨
    match options.limit with
    | none => options.afterEntrySeq.getD 0 = 0
    | some limit => limit = 0 ∨ (options.afterEntrySeq = none ∧ count ≤ limit)

/-- The last entries up to a place are the first ones from it on only when there are
none. -/
theorem page_eq_iff {Item : Type} {items : List Item} (distinct : items.Nodup)
    (occupied : items ≠ []) (after limit : Nat) :
    ((items.take after).reverse.take limit).reverse = (items.drop after).take limit ↔
      limit = 0 := by
  constructor
  · intro same
    by_contra positive
    have apart : ∀ item, item ∉ (items.drop after).take limit := by
      intro item later
      have earlier := same ▸ later
      have before : item ∈ items.take after := mem_reverse.mp
        (mem_of_mem_take (mem_reverse.mp earlier))
      have split := take_append_drop after items
      rw [← split, nodup_append] at distinct
      exact distinct.2.2 item before item (mem_of_mem_take later) rfl
    have none : (items.drop after).take limit = [] := eq_nil_iff_forall_not_mem.mpr apart
    have left : (items.take after).reverse.take limit = [] := by
      rw [none, reverse_eq_nil_iff] at same
      exact same
    rw [take_eq_nil_iff] at none left
    have ahead : items.length ≤ after :=
      drop_eq_nil_iff.mp (none.resolve_left positive)
    have behind := reverse_eq_nil_iff.mp (left.resolve_left positive)
    rw [take_of_length_le ahead] at behind
    exact occupied behind
  · rintro rfl
    simp

/-- The last entries are the first ones only when there are none or all. -/
theorem lastPage_eq_iff {Item : Type} {items : List Item} (distinct : items.Nodup) (limit : Nat) :
    (items.reverse.take limit).reverse = items.take limit ↔ limit = 0 ∨ items.length ≤ limit := by
  constructor
  · intro same
    by_cases short : limit < items.length
    · left
      rw [take_reverse, reverse_reverse] at same
      by_contra positive
      have heads := congrArg (fun page => page[0]?) same
      simp only [getElem?_drop, getElem?_take] at heads
      rw [if_pos (by omega)] at heads
      have place := (getElem?_inj (by omega) distinct).mp heads
      omega
    · exact .inr (by omega)
  · rintro (rfl | long)
    · simp
    · rw [take_of_length_le (by simpa using long), reverse_reverse, take_of_length_le long]

theorem getEntries_agree_iff (tables : Tables entries storage) (appended : Appended entries)
    (options : SessionEntryCursorOptions) :
    storage.getEntries options =
        (afterAppending entries).getEntries options ↔
      PagesAgree entries.length options := by
  have distinct : entries.Nodup := appended.grows.keys_nodup.of_map
  rw [getEntries_eq tables appended]
  unfold InMemorySessionStorage.getEntries PagesAgree
  change _ = (match options.limit with
    | none => entries.drop (options.afterEntrySeq.getD 0)
    | some limit => (entries.drop (options.afterEntrySeq.getD 0)).take limit) ↔ _
  by_cases empty : entries = []
  · subst empty
    cases options.limit <;> simp
  have counted : entries.length ≠ 0 := by simpa using empty
  cases options.limit with
  | none =>
    simp only [counted, false_or]
    constructor
    · intro same
      have lengths := congrArg length same
      rw [length_drop] at lengths
      omega
    · intro start
      rw [start, drop_zero]
  | some limit =>
    simp only [counted, false_or]
    cases after : options.afterEntrySeq with
    | some start =>
      simp only [Option.getD_some, reduceCtorEq, false_and, or_false]
      exact page_eq_iff distinct empty start limit
    | none =>
      simp only [Option.getD_none, take_length, drop_zero, true_and]
      exact lastPage_eq_iff distinct limit

end Reads
end SqliteSessionStorage

section Context

variable {entry : SessionTreeEntry}

theorem entryMessages_of_leafEntry (leaf : isLeafEntry entry = true) :
    entryMessages entry = [] ∧ entry.compaction? = none := by
  obtain ⟨id, parentId, timestamp, body⟩ := entry
  cases body <;> first | exact ⟨rfl, rfl⟩ | cases leaf

theorem flatMap_withoutLeafEntries (entries : List SessionTreeEntry) :
    (withoutLeafEntries entries).flatMap entryMessages = entries.flatMap entryMessages := by
  induction entries with
  | nil => rfl
  | cons entry entries ih =>
    unfold withoutLeafEntries at ih ⊢
    rw [filter_cons, flatMap_cons]
    cases leaf : isLeafEntry entry with
    | true => simp [ih, (entryMessages_of_leafEntry leaf).1]
    | false => simp [ih]

theorem mem_of_mem_withoutLeafEntries {entries : List SessionTreeEntry}
    (member : entry ∈ withoutLeafEntries entries) : entry ∈ entries :=
  mem_of_mem_filter member

theorem withoutLeafEntries_append (entries more : List SessionTreeEntry) :
    withoutLeafEntries (entries ++ more) = withoutLeafEntries entries ++ withoutLeafEntries more :=
  filter_append _ _

theorem withoutLeafEntries_cons_of_plain
    (plain : isLeafEntry entry = false) (entries : List SessionTreeEntry) :
    withoutLeafEntries (entry :: entries) = entry :: withoutLeafEntries entries := by
  unfold withoutLeafEntries
  rw [filter_cons, plain]
  rfl

/-- What a path keeps from an entry on shows the same without leaf entries, unless the
entry is one itself. -/
theorem keptEntries_withoutLeafEntries {front between : List SessionTreeEntry}
    {kept : SessionTreeEntry}
    (distinct : ((front ++ kept :: between).map SessionTreeEntry.id).Nodup) :
    (keptEntries (some kept.id) (withoutLeafEntries (front ++ kept :: between))).flatMap
        entryMessages =
      if isLeafEntry kept then [] else (kept :: between).flatMap entryMessages := by
  obtain ⟨before, after⟩ := id_ne_of_nodup distinct
  rw [withoutLeafEntries_append]
  cases leaf : isLeafEntry kept with
  | true =>
    have left : withoutLeafEntries (kept :: between) = withoutLeafEntries between := by
      unfold withoutLeafEntries
      rw [filter_cons, leaf]
      rfl
    rw [if_pos rfl, left, keptEntries_of_not_mem, flatMap_nil]
    intro other member
    rcases mem_append.mp member with member | member
    · exact before other (mem_of_mem_withoutLeafEntries member)
    · exact after other (mem_of_mem_withoutLeafEntries member)
  | false =>
    rw [if_neg Bool.false_ne_true, withoutLeafEntries_cons_of_plain leaf,
      keptEntries_of_mem fun other member => before other (mem_of_mem_withoutLeafEntries member),
      flatMap_cons, flatMap_withoutLeafEntries, flatMap_cons]

/-- The climb over a path finds the first kept entry of the newest compaction exactly when
it is held elsewhere, unless that compaction carries its retained messages or the kept
entries contribute none. -/
def KeptFoundAlike (path : List SessionTreeEntry) (held : SessionTreeEntry → Prop) : Prop :=
  ∀ older kept between compaction newer data,
    path = older ++ kept :: between ++ compaction :: newer →
    compaction.compaction? = some data → (∀ entry ∈ newer, entry.compaction? = none) →
    data.retainedTail = none → data.firstKeptEntryId = some kept.id →
      (ClimbPasses (between ++ compaction :: newer) ↔ held kept) ∨
        ∀ entry ∈ kept :: between, entryMessages entry = []

theorem keptFoundAlike_congr {path : List SessionTreeEntry} {held held' : SessionTreeEntry → Prop}
    (same : ∀ entry ∈ path, held entry ↔ held' entry) :
    KeptFoundAlike path held ↔ KeptFoundAlike path held' := by
  unfold KeptFoundAlike
  constructor
  · rintro alike older kept between compaction newer data rfl found newest untailed keeps
    rw [← same kept (by simp)]
    exact alike older kept between compaction newer data rfl found newest untailed keeps
  · rintro alike older kept between compaction newer data rfl found newest untailed keeps
    rw [same kept (by simp)]
    exact alike older kept between compaction newer data rfl found newest untailed keeps

/-- The end of a path keeps from an entry on what the path keeps, if it holds the entry. -/
theorem keptEntries_rows {hidden rows front between : List SessionTreeEntry}
    {kept : SessionTreeEntry} (distinct : ((hidden ++ rows).map SessionTreeEntry.id).Nodup)
    (same : hidden ++ rows = front ++ kept :: between) :
    (kept ∈ withoutLeafEntries rows →
      (keptEntries (some kept.id) (withoutLeafEntries rows)).flatMap entryMessages =
        (kept :: between).flatMap entryMessages) ∧ (kept ∉ withoutLeafEntries rows →
      (keptEntries (some kept.id) (withoutLeafEntries rows)).flatMap entryMessages = []) := by
  constructor
  · intro member
    have plain : isLeafEntry kept = false := by simpa using (mem_filter.mp member).2
    obtain ⟨front', between', rfl⟩ := append_of_mem (mem_of_mem_withoutLeafEntries member)
    have inside : ((front' ++ kept :: between').map SessionTreeEntry.id).Nodup :=
      distinct.sublist ((sublist_append_right ..).map _)
    rw [← append_assoc] at same distinct
    obtain ⟨-, -, rfl⟩ := split_unique_of_ids distinct same rfl
    rw [keptEntries_withoutLeafEntries inside, plain, if_neg Bool.false_ne_true]
  · intro absent
    rw [keptEntries_of_not_mem, flatMap_nil]
    intro other member named
    have there := mem_of_mem_withoutLeafEntries member
    obtain ⟨front', between', split⟩ := append_of_mem there
    rw [split, ← append_assoc] at same distinct
    obtain ⟨-, rfl, -⟩ := split_unique_of_ids distinct same named
    exact absent member

/-- The rows of a branch show what the climb loads exactly when both find the first kept
entry of the newest compaction. -/
theorem messages_rows_iff {path shown : List SessionTreeEntry}
    (distinct : (path.map SessionTreeEntry.id).Nodup) (holds : HoldsClimb path shown) :
    (buildSessionContext (withoutLeafEntries shown)).messages =
        (buildSessionContext (loadedPath path)).messages ↔
      KeptFoundAlike path fun entry => entry ∈ withoutLeafEntries shown := by
  rcases none_or_newest path with none | ⟨older, compaction, newer, data, rfl, found, newest⟩
  · have whole : path = shown := by
      obtain ⟨hidden, rfl, rfl | blocked⟩ := holds
      · rfl
      · exact (blocked (climbPasses_of_no_compaction fun entry member =>
          none entry (mem_append_right hidden member))).elim
    subst whole
    rw [loadedPath_of_no_compaction none]
    refine iff_of_true ?_ ?_
    · rw [buildSessionContext_messages, buildSessionContext_messages,
        defaultContextEntryTransform_of_none none, defaultContextEntryTransform_of_none
          fun entry member => none entry (mem_of_mem_withoutLeafEntries member),
        flatMap_withoutLeafEntries]
    · intro older kept between compaction newer data equal found
      rw [none compaction (by simp [equal])] at found
      cases found
  · have passes := climbPasses_of_no_compaction newest
    obtain ⟨hidden, rows, rfl, rfl⟩ : ∃ hidden rows, older = hidden ++ rows ∧
        shown = rows ++ compaction :: newer := by
      obtain ⟨hidden, same, ends⟩ := holds
      rcases append_eq_append_iff.mp same with ⟨more, rfl, rest⟩ | ⟨more, rfl, rest⟩
      · cases more with
        | nil => exact ⟨older, [], by simp, by simpa using rest.symm⟩
        | cons first more =>
          obtain ⟨rfl, rfl⟩ := cons.inj rest
          rcases ends with none | blocked
          · simp at none
          · exact (blocked (passes.of_append more)).elim
      · exact ⟨hidden, more, rfl, rest⟩
    obtain ⟨above, loaded, parts, loads⟩ := loadedPath_of_passes (hidden ++ rows) compaction passes
    have plain : isLeafEntry compaction = false := by
      cases leaf : isLeafEntry compaction with
      | false => rfl
      | true =>
        rw [(entryMessages_of_leafEntry leaf).2] at found
        cases found
    have split : withoutLeafEntries (rows ++ compaction :: newer) =
        withoutLeafEntries rows ++ compaction :: withoutLeafEntries newer := by
      rw [withoutLeafEntries_append, withoutLeafEntries_cons_of_plain plain]
    have distinctLoaded : ((loaded ++ compaction :: newer).map SessionTreeEntry.id).Nodup :=
      (parts ▸ distinct).sublist (((sublist_append_right ..).append_right _).map _)
    have distinctRows : ((withoutLeafEntries rows ++ compaction ::
        withoutLeafEntries newer).map SessionTreeEntry.id).Nodup :=
      split ▸ distinct.sublist
        ((filter_sublist.trans ((sublist_append_right ..).append_right _)).map _)
    have distinctOlder : ((hidden ++ rows).map SessionTreeEntry.id).Nodup :=
      distinct.sublist ((sublist_append_left ..).map _)
    have foundAlike : KeptFoundAlike (hidden ++ rows ++ compaction :: newer)
          (fun entry => entry ∈ withoutLeafEntries rows ++ compaction ::
            withoutLeafEntries newer) ↔
        (data.retainedTail = none → ∀ front kept between,
          hidden ++ rows = front ++ kept :: between → data.firstKeptEntryId = some kept.id →
            (ClimbPasses (between ++ compaction :: newer) ↔ kept ∈ withoutLeafEntries rows ++
              compaction :: withoutLeafEntries newer) ∨
              ∀ entry ∈ kept :: between, entryMessages entry = []) :=
      forall_keptRange_iff found newest
    rw [loads, split, contextMessages_of_split found newest distinctLoaded,
      contextMessages_of_split found
        (fun entry member => newest entry (mem_of_mem_withoutLeafEntries member)) distinctRows,
      append_cancel_left_eq, flatMap_withoutLeafEntries, append_cancel_right_eq, foundAlike]
    cases data.retainedTail with
    | some tail => exact iff_of_true rfl nofun
    | none =>
      cases keeps : data.firstKeptEntryId with
      | none => exact iff_of_true rfl fun _ _ _ _ _ => nofun
      | some keptId =>
        simp only [Option.isSome_none, Bool.false_eq_true, if_false, true_implies]
        by_cases present : keptId ∈ (hidden ++ rows).map SessionTreeEntry.id
        · obtain ⟨kept, member, rfl⟩ := mem_map.mp present
          obtain ⟨front, between, here⟩ := append_of_mem member
          have loadedKept : keptEntries (some kept.id) loaded =
              if ClimbPasses (between ++ compaction :: newer) then kept :: between else [] :=
            keptEntries_loaded (here ▸ distinctOlder) passes (here ▸ loads)
          have inRows : kept ∈ withoutLeafEntries rows ++ compaction ::
              withoutLeafEntries newer ↔ kept ∈ withoutLeafEntries rows := by
            rw [mem_append, or_iff_left]
            intro later
            rw [← withoutLeafEntries_cons_of_plain plain] at later
            rw [map_append, nodup_append] at distinct
            exact distinct.2.2 _ present _
              (mem_map_of_mem (mem_of_mem_withoutLeafEntries later)) rfl
          obtain ⟨shows, hides⟩ := keptEntries_rows distinctOlder here
          rw [here, forall_kept_iff (here ▸ distinctOlder), inRows, loadedKept]
          by_cases reaches : ClimbPasses (between ++ compaction :: newer)
          · by_cases held : kept ∈ withoutLeafEntries rows
            · simp [reaches, held, shows held]
            · simp only [reaches, held, hides held, if_true, iff_false, not_true, false_or]
              rw [eq_comm, flatMap_eq_nil_iff]
          · by_cases held : kept ∈ withoutLeafEntries rows
            · simp only [reaches, held, shows held, if_false, iff_true, false_or, flatMap_nil]
              rw [flatMap_eq_nil_iff]
            · simp [reaches, held, hides held]
        · have absent : ∀ entry ∈ hidden ++ rows, entry.id ≠ keptId :=
            fun entry member same => present (same ▸ mem_map_of_mem member)
          rw [keptEntries_of_not_mem fun entry member =>
              absent entry (mem_append_right _ (mem_of_mem_withoutLeafEntries member)),
            keptEntries_of_not_mem fun entry member =>
              absent entry (parts ▸ mem_append_right above member)]
          refine iff_of_true rfl ?_
          rintro front kept between parts ⟨⟩
          exact (absent kept (by rw [parts]; simp) rfl).elim

end Context
end Recode

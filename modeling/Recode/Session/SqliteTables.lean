import Recode.Session.SqliteStorage

/-! # The tables after appending

The tables, the summary and the cache of the SQLite storage are functions of the entries
that were appended, in the order of appending. Reading through them gives what the
in-memory storage gives. -/

namespace Recode

open List InsertionMap SqliteDatabase InMemorySessionStorage

/-- The sequence number of an entry: its place in the order of appending, from one. -/
def seqOf (entries : List SessionTreeEntry) (entry : SessionTreeEntry) : Nat :=
  (entries.map SessionTreeEntry.id).idxOf entry.id + 1

def entryRow (entries : List SessionTreeEntry) (entry : SessionTreeEntry) : SessionEntryRow :=
  ⟨entry.id, seqOf entries entry, entry.parentId, entry.timestamp, entry.body⟩

def branchRow (entries : List SessionTreeEntry) (branchId : Nat) (entry : SessionTreeEntry) :
    BranchEntryRow :=
  ⟨branchId, entry.id, seqOf entries entry⟩

def materializedAfter (entries : List SessionTreeEntry) : SessionMaterializedState :=
  entries.foldl applyEntryToMaterializedState .empty

section Sequence

variable {entries : List SessionTreeEntry} {entry : SessionTreeEntry}

theorem seqOf_append_of_mem (member : entry ∈ entries) (more : List SessionTreeEntry) :
    seqOf (entries ++ more) entry = seqOf entries entry := by
  unfold seqOf
  rw [map_append, idxOf_append_of_mem (mem_map_of_mem member)]

theorem seqOf_last (fresh : entry.id ∉ entries.map SessionTreeEntry.id) :
    seqOf (entries ++ [entry]) entry = entries.length + 1 := by
  unfold seqOf
  rw [map_append, idxOf_append_of_notMem fresh]
  simp

theorem seqOf_le (member : entry ∈ entries) : seqOf entries entry ≤ entries.length := by
  have inside := idxOf_lt_length_of_mem (mem_map_of_mem (f := SessionTreeEntry.id) member)
  rw [length_map] at inside
  exact inside

theorem seqOf_increases (distinct : (entries.map SessionTreeEntry.id).Nodup) :
    entries.Pairwise fun older newer => seqOf entries older < seqOf entries newer := by
  induction entries using reverseRecOn with
  | nil => exact .nil
  | append_singleton entries last ih =>
    rw [map_append, nodup_append] at distinct
    obtain ⟨earlier, -, apart⟩ := distinct
    have fresh : last.id ∉ entries.map SessionTreeEntry.id :=
      fun repeated => apart _ repeated _ (by simp) rfl
    rw [pairwise_append]
    refine ⟨?_, pairwise_singleton _ _, ?_⟩
    · refine (ih earlier).imp_of_mem fun {older newer} older' newer' before => ?_
      rwa [seqOf_append_of_mem older', seqOf_append_of_mem newer']
    · intro older member newer single
      rw [mem_singleton] at single
      rw [single, seqOf_append_of_mem member, seqOf_last fresh]
      exact Nat.lt_succ_of_le (seqOf_le member)

/-- The entries up to a sequence number are the first ones. -/
theorem filter_seqOf_le (distinct : (entries.map SessionTreeEntry.id).Nodup) (bound : Nat) :
    entries.filter (fun entry => seqOf entries entry ≤ bound) = entries.take bound := by
  induction entries using reverseRecOn with
  | nil => simp
  | append_singleton entries last ih =>
    rw [map_append, nodup_append] at distinct
    obtain ⟨earlier, -, apart⟩ := distinct
    have fresh : last.id ∉ entries.map SessionTreeEntry.id :=
      fun repeated => apart _ repeated _ (by simp) rfl
    have before : entries.filter (fun entry => seqOf (entries ++ [last]) entry ≤ bound) =
        entries.filter fun entry => seqOf entries entry ≤ bound :=
      filter_congr fun entry member => by rw [seqOf_append_of_mem member]
    rw [filter_append, before, ih earlier, filter_singleton, seqOf_last fresh, take_append]
    by_cases within : entries.length + 1 ≤ bound
    · rw [decide_eq_true within, take_of_length_le (show [last].length ≤ _ by
        simp; omega)]
      rfl
    · rw [decide_eq_false within, Nat.sub_eq_zero_of_le (by omega)]
      rfl

end Sequence

namespace SqliteSessionStorage

/-- Everything but the active branch is as the entries say. -/
structure Tables (entries : List SessionTreeEntry) (storage : SqliteSessionStorage) : Prop where
  valid : ∀ entry ∈ entries, encodeEntry entry = .ok entry.body
  rows : storage.db.sessionEntries = entries.map (entryRow entries)
  nextSeq : storage.db.nextSeq = entries.length + 1
  byId : storage.byId = indexBy SessionTreeEntry.id entries
  materialized : storage.materializedState = materializedAfter entries
  leafId : storage.currentLeafId = leafIdAfter entries
  branchIds : ∀ row ∈ storage.db.branchEntries, row.branchId < storage.nextBranchId

theorem tables_create (sessionId : String) : Tables [] (create sessionId) where
  valid := by simp
  rows := rfl
  nextSeq := rfl
  byId := rfl
  materialized := rfl
  leafId := rfl
  branchIds := by simp [create]

namespace Tables

variable {entries : List SessionTreeEntry} {storage : SqliteSessionStorage}

section

variable (tables : Tables entries storage)
include tables

theorem decode_row {entry : SessionTreeEntry}
    (member : entry ∈ entries) : decodeEntry (entryRow entries entry) = .ok entry := by
  unfold decodeEntry
  change ((encodeEntry entry).map fun body => _) = _
  rw [tables.valid entry member]
  rfl

theorem decode_rows {some' : List SessionTreeEntry} (inside : ∀ entry ∈ some', entry ∈ entries) :
    decodeEntryRows (some'.map (entryRow entries)) = some' := by
  unfold decodeEntryRows
  rw [filterMap_map]
  have each : ∀ entry ∈ some',
      ((fun row => (decodeEntry row).toOption) ∘ entryRow entries) entry = some entry := by
    intro entry member
    rw [Function.comp_apply, tables.decode_row (inside entry member)]
    rfl
  rw [filterMap_congr each]
  exact filterMap_some

/-- The rows are ordered as they were written. -/
theorem orderedRows_eq (appended : Appended entries) :
    storage.db.orderedRows = entries.map (entryRow entries) := by
  unfold orderedRows
  rw [tables.rows]
  apply List.Pairwise.insertionSort_eq
  rw [pairwise_map]
  exact (seqOf_increases appended.grows.keys_nodup).imp fun before => le_of_lt before

theorem findRow_of_mem (appended : Appended entries) {entry : SessionTreeEntry}
    (member : entry ∈ entries) : storage.db.findRow entry.id = some (entryRow entries entry) := by
  unfold findRow
  rw [tables.rows, find?_map]
  have found : entries.find? (fun other => other.id = entry.id) = some entry := by
    obtain ⟨front, rest, rfl⟩ := append_of_mem member
    have distinct := appended.grows.keys_nodup
    rw [map_append, nodup_append] at distinct
    have missing : front.find? (fun other => other.id = entry.id) = none := by
      rw [find?_eq_none]
      intro other there
      simpa using distinct.2.2 _ (mem_map_of_mem there) entry.id (by simp)
    rw [find?_append, missing, Option.none_or, find?_cons_of_pos (by simp)]
  have same : ((fun row : SessionEntryRow => decide (row.id = entry.id)) ∘ entryRow entries) =
      fun other => decide (other.id = entry.id) := rfl
  rw [same, found]
  rfl

theorem getEntry_eq :
    storage.getEntry = (afterAppending entries).getEntry := by
  funext id
  unfold getEntry InMemorySessionStorage.getEntry afterAppending
  rw [tables.byId]
  cases found : (indexBy SessionTreeEntry.id entries).get? id with
  | some entry => rfl
  | none =>
    have absent : storage.db.findRow id = none := by
      unfold findRow
      rw [tables.rows, find?_map, find?_eq_none.mpr]
      · rfl
      · intro entry member
        have missing := mt (isSome_get?_indexBy SessionTreeEntry.id entries id).mpr
          (by rw [found]; exact Bool.false_ne_true)
        intro same
        rw [Function.comp_apply, decide_eq_true_eq] at same
        exact missing (mem_map.mpr ⟨entry, member, same⟩)
    rw [absent]
    rfl

/-- A climb over the rows loads what a climb over the in-memory index loads. -/
theorem getPathToRootOrCompactionEntries_eq
    (appended : Appended entries) {leafId : Option EntryId} {path : List SessionTreeEntry}
    (complete : CompletePath (indexBy SessionTreeEntry.id entries) leafId path) :
    storage.getPathToRootOrCompactionEntries leafId = .ok (loadedPath path) := by
  cases leafId with
  | none =>
    cases complete
    rfl
  | some id =>
    obtain ⟨entry, found, chain⟩ := complete
    have finds : storage.getEntry id = some entry := by
      rw [tables.getEntry_eq]
      exact found
    have member := ((appended.grows.find_iff id entry).mp found).1
    have short := appended.grows.chain_length_le member chain
    unfold getPathToRootOrCompactionEntries
    simp only [finds]
    have getEntry : storage.getEntry =
        (indexBy SessionTreeEntry.id entries).get? := tables.getEntry_eq
    have enough : entries.length = storage.db.sessionEntries.length := by
      rw [tables.rows, length_map]
    rw [getEntry, climb_of_chain chain (by rw [← enough]; omega), front_visitEntry,
      reverse_reverse, append_nil]

theorem getPathToRootOrCompactionEntries_absent {id : EntryId}
    (absent : (indexBy SessionTreeEntry.id entries).get? id = none) :
    storage.getPathToRootOrCompactionEntries (some id) = .error (.entryNotFound id) := by
  have missing : storage.getEntry id = none := by
    rw [tables.getEntry_eq]
    exact absent
  simp only [getPathToRootOrCompactionEntries, missing]

end

end Tables
end SqliteSessionStorage
end Recode

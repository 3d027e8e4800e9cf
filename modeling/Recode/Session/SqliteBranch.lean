import Recode.Session.SqliteTables

/-! # The active branch

The rows of the active branch begin where the climb ended when the branch was made active,
and end at the leaf. Appending extends them and never shortens them again, so they can
hold more than the climb loads. -/

namespace Recode

open InsertionMap List SqliteDatabase EntryBody

/-- The end of a path that holds everything the climb loads: the whole path, or a part of
it in which the climb ends. -/
def HoldsClimb (path shown : List SessionTreeEntry) : Prop :=
  ∃ hidden, path = hidden ++ shown ∧ (hidden = [] ∨ ¬ ClimbPasses shown)

theorem climbPasses_of_append_left (path : List SessionTreeEntry) {more : List SessionTreeEntry}
    (passes : ClimbPasses (path ++ more)) : ClimbPasses path := by
  induction path with
  | nil => trivial
  | cons entry newer ih =>
    refine ⟨?_, ih passes.2⟩
    rintro (retains | boundary)
    · exact passes.1 (.inl retains)
    · have kept : keptBoundary (newer ++ more) = some entry.id := by
        obtain ⟨data, found, first⟩ := Option.bind_eq_some_iff.mp boundary
        unfold keptBoundary
        rw [findSome?_append, found, Option.some_or, Option.bind_some, first]
      exact passes.1 (.inr kept)

theorem holdsClimb_loadedPath (path : List SessionTreeEntry) :
    HoldsClimb path (loadedPath path) := by
  induction path with
  | nil => exact ⟨[], rfl, .inl rfl⟩
  | cons entry newer ih =>
    rw [loadedPath]
    by_cases passes : ClimbPasses newer
    · rw [if_pos passes]
      exact ⟨[], rfl, .inl rfl⟩
    rw [if_neg passes]
    obtain ⟨hidden, same, ends⟩ := ih
    refine ⟨entry :: hidden, congrArg (entry :: ·) same, .inr ?_⟩
    rcases ends with rfl | blocked
    · rwa [← show newer = loadedPath newer from same]
    · exact blocked

namespace HoldsClimb

variable {path shown : List SessionTreeEntry}

theorem append (holds : HoldsClimb path shown) (more : List SessionTreeEntry) :
    HoldsClimb (path ++ more) (shown ++ more) := by
  obtain ⟨hidden, rfl, ends⟩ := holds
  refine ⟨hidden, append_assoc _ _ _, ends.imp_right fun blocked passes => ?_⟩
  exact blocked (climbPasses_of_append_left shown passes)

end HoldsClimb

def isLeafEntry (entry : SessionTreeEntry) : Bool := entry.body.type = .leaf

def withoutLeafEntries (entries : List SessionTreeEntry) : List SessionTreeEntry :=
  entries.filter fun entry => !isLeafEntry entry

namespace SqliteSessionStorage

def HasRows (entries : List SessionTreeEntry) (storage : SqliteSessionStorage) (branchId : Nat)
    (rows : List SessionTreeEntry) : Prop :=
  storage.db.branchEntries.filter (fun row => row.branchId = branchId) =
    rows.map (branchRow entries branchId)

/-- The active branch holds, leaf entries aside, the end of the path to the leaf in which
the climb ends. -/
structure ActiveBranch (entries : List SessionTreeEntry) (storage : SqliteSessionStorage)
    (branchId : Nat) (rows : List SessionTreeEntry) : Prop where
  active : storage.activeBranchId = some branchId
  used : branchId < storage.nextBranchId
  table : HasRows entries storage branchId rows
  ordered : rows.Sublist entries
  path : ∃ path shown, CompletePath (indexBy SessionTreeEntry.id entries)
      (leafIdAfter entries) path ∧
    HoldsClimb path shown ∧ withoutLeafEntries rows = withoutLeafEntries shown

/-- The storage is as the entries say, and there is an active branch from the first entry
on. -/
structure Holds (entries : List SessionTreeEntry) (storage : SqliteSessionStorage) : Prop extends
    Tables entries storage where
  branch : (entries = [] ∧ storage.activeBranchId = none) ∨
    ∃ branchId rows, ActiveBranch entries storage branchId rows

section Insert

variable {entries : List SessionTreeEntry} {storage : SqliteSessionStorage}
  {entry : SessionTreeEntry}

theorem hasRows_append_singleton {branchId : Nat} {rows : List SessionTreeEntry}
    (ordered : rows.Sublist entries) (table : HasRows entries storage branchId rows) :
    HasRows (entries ++ [entry]) storage branchId rows := by
  unfold HasRows at table ⊢
  rw [table]
  refine map_congr_left fun row member => ?_
  unfold branchRow
  rw [seqOf_append_of_mem (ordered.subset member)]

/-- Inserting a new entry brings everything but the active branch up to date. -/
theorem insertEntry_eq (tables : Tables entries storage)
    (fresh : entry.id ∉ entries.map SessionTreeEntry.id)
    (valid : encodeEntry entry = .ok entry.body) :
    ∃ inserted, storage.insertEntry entry entry.body = .ok inserted ∧
      Tables (entries ++ [entry]) inserted ∧ inserted.db.branchEntries = storage.db.branchEntries ∧
      inserted.activeBranchId = storage.activeBranchId ∧
      inserted.nextBranchId = storage.nextBranchId := by
  have old : ∀ other ∈ entries,
      entryRow (entries ++ [entry]) other = entryRow entries other := by
    intro other member
    unfold entryRow
    rw [seqOf_append_of_mem member]
  have row : (⟨entry.id, storage.db.nextSeq, entry.parentId, entry.timestamp, entry.body⟩ :
      SessionEntryRow) = entryRow (entries ++ [entry]) entry := by
    unfold entryRow
    rw [tables.nextSeq, seqOf_last fresh]
  have unique : storage.db.sessionEntries.any (fun other => other.id =
      (entryRow (entries ++ [entry]) entry).id ∨ other.entrySeq =
        (entryRow (entries ++ [entry]) entry).entrySeq) = false := by
    rw [tables.rows, any_eq_false]
    intro other member
    obtain ⟨present, inside, rfl⟩ := mem_map.mp member
    have early := seqOf_le inside
    have different : present.id ≠ entry.id :=
      fun same => fresh (same ▸ mem_map_of_mem inside)
    simp only [entryRow, seqOf_last fresh, decide_eq_true_eq, not_or]
    exact ⟨different, by omega⟩
  have inserts : storage.db.insertEntryRow (entryRow (entries ++ [entry]) entry) =
      .ok { storage.db with sessionEntries :=
        storage.db.sessionEntries ++ [entryRow (entries ++ [entry]) entry] } := by
    unfold insertEntryRow
    rw [unique]
    rfl
  have start : storage.insertEntry entry entry.body =
      (storage.db.insertEntryRow (entryRow (entries ++ [entry]) entry) >>= fun db =>
        .ok { storage with
          db := { db with nextSeq := storage.db.nextSeq + 1 }
          byId := storage.byId.insert entry.id entry
          materializedState := applyEntryToMaterializedState storage.materializedState entry
          currentLeafId := leafIdAfterEntry entry }) := by
    rw [← row]
    rfl
  rw [start, inserts]
  refine ⟨_, rfl, ⟨?_, ?_, ?_, ?_, ?_, ?_, tables.branchIds⟩, rfl, rfl, rfl⟩
  · intro other member
    rcases mem_append.mp member with before | last
    · exact tables.valid other before
    · rw [mem_singleton] at last
      exact last ▸ valid
  · change storage.db.sessionEntries ++ [_] = _
    rw [tables.rows, map_append, map_congr_left old]
    rfl
  · change storage.db.nextSeq + 1 = _
    rw [tables.nextSeq, length_append]
    rfl
  · change storage.byId.insert entry.id entry = _
    rw [tables.byId, indexBy_append_singleton]
  · change applyEntryToMaterializedState storage.materializedState entry = _
    rw [tables.materialized]
    unfold materializedAfter
    rw [foldl_append]
    rfl
  · exact (Appended.leafIdAfter_append_singleton entries entry).symm

theorem foldlM_insertBranchRow {branchId : Nat} (path : List SessionTreeEntry)
    (found : ∀ entry ∈ path, storage.db.findRow entry.id = some (entryRow entries entry))
    (distinct : (path.map SessionTreeEntry.id).Nodup) (db : SqliteDatabase)
    (new : ∀ row ∈ db.branchEntries, row.branchId = branchId →
      row.entryId ∉ path.map SessionTreeEntry.id) :
    path.foldlM (storage.insertBranchEntry branchId) db =
      .ok { db with
        branchEntries := db.branchEntries ++ path.map (branchRow entries branchId) } := by
  induction path generalizing db with
  | nil =>
    rw [map_nil, append_nil]
    rfl
  | cons entry path ih =>
    have unique : db.branchEntries.any (fun other => other.branchId = branchId ∧
        other.entryId = entry.id) = false := by
      rw [any_eq_false]
      intro row member same
      rw [decide_eq_true_eq] at same
      exact new row member same.1 (by rw [same.2]; exact mem_cons_self)
    have first : storage.insertBranchEntry branchId db entry = .ok { db with
        branchEntries := db.branchEntries ++ [branchRow entries branchId entry] } := by
      simp only [insertBranchEntry, found entry mem_cons_self,
        insertBranchRow, unique, Bool.false_eq_true, if_false]
      rfl
    rw [map_cons, nodup_cons] at distinct
    rw [foldlM_cons, first]
    change foldlM _ _ path = _
    rw [ih (fun other member => found other (mem_cons_of_mem _ member)) distinct.2]
    · rw [map_cons, append_assoc]
      rfl
    · intro row member same repeated
      rcases mem_append.mp member with before | last
      · exact new row before same (mem_cons_of_mem _ repeated)
      · rw [mem_singleton] at last
        rw [last] at repeated
        exact distinct.1 repeated

end Insert

section Activate

variable {entries : List SessionTreeEntry} {storage : SqliteSessionStorage}
  {entry : SessionTreeEntry}

/-- An entry is in the tables, and a branch with the rows of older entries is active. -/
structure Ready (entries : List SessionTreeEntry) (entry : SessionTreeEntry)
    (storage : SqliteSessionStorage) (branchId : Nat) (rows : List SessionTreeEntry) : Prop where
  tables : Tables (entries ++ [entry]) storage
  active : storage.activeBranchId = some branchId
  used : branchId < storage.nextBranchId
  table : HasRows (entries ++ [entry]) storage branchId rows
  ordered : rows.Sublist entries

variable {path : List SessionTreeEntry} {leafId : Option EntryId}

/-- A complete path stays complete when an entry is appended. -/
theorem completePath_append_singleton (appended : Appended (entries ++ [entry]))
    (complete : CompletePath (indexBy SessionTreeEntry.id entries) leafId path) :
    CompletePath (indexBy SessionTreeEntry.id (entries ++ [entry])) leafId path := by
  cases leafId with
  | none => exact complete
  | some id =>
    obtain ⟨last, found, chain⟩ := complete
    obtain ⟨member, rfl⟩ := (appended.grows.of_append.find_iff id last).mp found
    exact ⟨last, appended.grows.find_self (mem_append_left _ member),
      appended.grows.chain_append_singleton member chain⟩

/-- Read from the root, a complete path visits entries in the order of their appending. -/
theorem completePath_sublist (appended : Appended entries)
    (complete : CompletePath (indexBy SessionTreeEntry.id entries) leafId path) :
    path.Sublist entries := by
  cases leafId with
  | none =>
    cases complete
    exact nil_sublist entries
  | some id =>
    obtain ⟨last, found, chain⟩ := complete
    have member := ((appended.grows.find_iff id last).mp found).1
    simpa using appended.grows.chain_sublist member chain

theorem completePath_of_parent (appended : Appended (entries ++ [entry]))
    (complete : CompletePath (indexBy SessionTreeEntry.id entries)
      entry.parentId path) :
    CompletePath (indexBy SessionTreeEntry.id (entries ++ [entry]))
      (some entry.id) (path ++ [entry]) := by
  refine ⟨entry, appended.grows.find_self (by simp), ?_⟩
  rw [reverse_append]
  cases link : entry.parentId with
  | none =>
    rw [link] at complete
    cases complete
    exact .root link
  | some above =>
    rw [link] at complete
    obtain ⟨parent, found, chain⟩ := complete
    obtain ⟨member, rfl⟩ := (appended.grows.of_append.find_iff above parent).mp found
    exact appended.grows.chain_of_parent member link chain

/-- A branch that is made active has the rows of what the climb loads. -/
theorem ready_materializeBranch (tables : Tables (entries ++ [entry]) storage)
    (appended : Appended (entries ++ [entry]))
    (complete : CompletePath (indexBy SessionTreeEntry.id entries) leafId path) :
    ∃ ready, storage.materializeBranch leafId = .ok ready ∧
      Ready entries entry ready storage.nextBranchId (loadedPath path) := by
  have earlier : Appended entries := appended.of_append_singleton
  obtain ⟨hidden, same, -⟩ := holdsClimb_loadedPath path
  have loaded : (loadedPath path).Sublist entries := by
    refine List.Sublist.trans ?_ (completePath_sublist earlier complete)
    conv_rhs => rw [same]
    exact sublist_append_right hidden (loadedPath path)
  have climbs := tables.getPathToRootOrCompactionEntries_eq appended
    (completePath_append_singleton appended complete)
  have new : ∀ row ∈ storage.db.branchEntries, row.branchId = storage.nextBranchId →
      row.entryId ∉ (loadedPath path).map SessionTreeEntry.id := by
    intro row member same
    have below := tables.branchIds row member
    omega
  have inserts := foldlM_insertBranchRow (loadedPath path)
    (fun other member => tables.findRow_of_mem appended (mem_append_left _ (loaded.subset member)))
    (earlier.grows.keys_nodup.sublist (loaded.map _)) storage.db new
  have start : storage.materializeBranch leafId =
      ((loadedPath path).foldlM (storage.insertBranchEntry storage.nextBranchId) storage.db >>=
        fun db => .ok { storage with
          db
          activeBranchId := some storage.nextBranchId
          nextBranchId := storage.nextBranchId + 1 }) := by
    unfold materializeBranch
    rw [climbs]
    rfl
  rw [start, inserts]
  refine ⟨_, rfl, ⟨{ tables with branchIds := ?_ }, rfl, Nat.lt_succ_self _, ?_, loaded⟩⟩
  · intro row member
    rcases mem_append.mp member with before | last
    · exact Nat.lt_succ_of_lt (tables.branchIds row before)
    · obtain ⟨other, -, rfl⟩ := mem_map.mp last
      exact Nat.lt_succ_self _
  · unfold HasRows
    rw [filter_append, filter_eq_nil_iff.mpr, nil_append, filter_eq_self.mpr]
    · intro row member
      obtain ⟨other, -, rfl⟩ := mem_map.mp member
      exact decide_eq_true rfl
    · intro row member same
      have below := tables.branchIds row member
      rw [decide_eq_true_eq] at same
      omega

theorem Ready.appendToActiveBranch {branchId : Nat} {rows : List SessionTreeEntry}
    (ready : Ready entries entry storage branchId rows) (appended : Appended (entries ++ [entry]))
    (parentId : Option EntryId) :
    ∃ next, storage.appendToActiveBranch entry.id parentId = .ok next ∧
      Tables (entries ++ [entry]) next ∧ next.activeBranchId = some branchId ∧
      branchId < next.nextBranchId ∧
      HasRows (entries ++ [entry]) next branchId (rows ++ [entry]) := by
  obtain ⟨tables, active, used, table, ordered⟩ := ready
  have found := tables.findRow_of_mem appended (mem_append_right entries mem_cons_self)
  have fresh := appended.last_fresh
  have unique : storage.db.branchEntries.any (fun other => other.branchId = branchId ∧
      other.entryId = entry.id) = false := by
    rw [any_eq_false]
    intro row member same
    rw [decide_eq_true_eq] at same
    have inBranch : row ∈ storage.db.branchEntries.filter fun row => row.branchId = branchId :=
      mem_filter.mpr ⟨member, decide_eq_true same.1⟩
    rw [table] at inBranch
    obtain ⟨other, inside, rfl⟩ := mem_map.mp inBranch
    exact fresh (same.2 ▸ mem_map_of_mem (ordered.subset inside))
  have inserts : storage.db.insertBranchRow ⟨branchId, entry.id,
      (entryRow (entries ++ [entry]) entry).entrySeq⟩ = .ok { storage.db with branchEntries :=
        storage.db.branchEntries ++ [branchRow (entries ++ [entry]) branchId entry] } := by
    simp only [insertBranchRow, unique, Bool.false_eq_true, if_false]
    rfl
  have appends : storage.appendToActiveBranch entry.id parentId =
      (storage.db.insertBranchRow ⟨branchId, entry.id,
        (entryRow (entries ++ [entry]) entry).entrySeq⟩ >>= fun db =>
          .ok { storage with db }) := by
    simp only [SqliteSessionStorage.appendToActiveBranch, active, found, Option.isSome_some,
      if_true, bind, Except.bind]
    rfl
  rw [appends, inserts]
  refine ⟨_, rfl, { tables with branchIds := ?_ }, active, used, ?_⟩
  · intro row member
    rcases mem_append.mp member with before | last
    · exact tables.branchIds row before
    · rw [mem_singleton] at last
      rw [last]
      exact used
  · unfold HasRows at table ⊢
    change (storage.db.branchEntries ++ [_]).filter _ = _
    rw [filter_append, table, map_append, filter_singleton]
    simp [branchRow]

end Activate

section Append

variable {entries : List SessionTreeEntry} {storage : SqliteSessionStorage}
  {entry : SessionTreeEntry}

theorem activateBranch_leaf (tables : Tables (entries ++ [entry]) storage)
    (appended : Appended (entries ++ [entry])) {targetId : Option EntryId}
    (body : entry.body = .leaf targetId) (existingChild : Bool) :
    ∃ ready branchId rows path, storage.activateBranch entry existingChild = .ok ready ∧
      Ready entries entry ready branchId rows ∧
      CompletePath (indexBy SessionTreeEntry.id entries) targetId path ∧
      rows = loadedPath path := by
  have known : ∀ id, targetId = some id →
      ((indexBy SessionTreeEntry.id entries).get? id).isSome := by
    rintro id rfl
    rw [isSome_get?_indexBy]
    exact appended.targets entries entry [] id rfl body
  obtain ⟨path, complete⟩ :=
    (EntryTree.ofGrown entries appended.grows.of_append).exists_completePath known
  obtain ⟨ready, materializes, readied⟩ :=
    ready_materializeBranch ({ tables with } : Tables (entries ++ [entry])
      { storage with activeBranchId := none }) appended complete
  refine ⟨ready, _, _, path, ?_, readied, complete, rfl⟩
  unfold activateBranch
  rw [body]
  exact materializes

/-- An inserted entry that does not move the leaf extends the active branch, or begins one
with the path to its parent. -/
theorem activateBranch_plain (tables : Tables (entries ++ [entry]) storage)
    (appended : Appended (entries ++ [entry])) (plain : isLeafEntry entry = false)
    {branchId : Nat} {rows path shown : List SessionTreeEntry}
    (active : storage.activeBranchId = some branchId) (used : branchId < storage.nextBranchId)
    (table : HasRows (entries ++ [entry]) storage branchId rows) (ordered : rows.Sublist entries)
    (complete : CompletePath (indexBy SessionTreeEntry.id entries)
      entry.parentId path)
    (holds : HoldsClimb path shown) (same : withoutLeafEntries rows = withoutLeafEntries shown)
    (existingChild : Bool) :
    ∃ ready branchId rows shown, storage.activateBranch entry existingChild = .ok ready ∧
      Ready entries entry ready branchId rows ∧ HoldsClimb path shown ∧
      withoutLeafEntries rows = withoutLeafEntries shown := by
  have activates : storage.activateBranch entry existingChild =
      if existingChild then storage.materializeBranch entry.parentId else .ok storage := by
    unfold activateBranch
    cases body : entry.body with
    | leaf targetId => simp [isLeafEntry, body, type] at plain
    | _ => rfl
  rw [activates]
  cases existingChild with
  | false => exact ⟨storage, branchId, rows, shown, rfl, ⟨tables, active, used, table, ordered⟩,
      holds, same⟩
  | true =>
    obtain ⟨ready, materializes, readied⟩ := ready_materializeBranch tables appended complete
    exact ⟨ready, _, _, _, materializes, readied, holdsClimb_loadedPath path, rfl⟩

theorem sessionId_materializeBranch {ready : SqliteSessionStorage} {leafId : Option EntryId}
    (materializes : storage.materializeBranch leafId = .ok ready) :
    ready.sessionId = storage.sessionId := by
  unfold materializeBranch at materializes
  cases climbs : storage.getPathToRootOrCompactionEntries leafId with
  | error error =>
    rw [climbs] at materializes
    cases materializes
  | ok path =>
    rw [climbs] at materializes
    change (path.foldlM (storage.insertBranchEntry storage.nextBranchId) storage.db >>=
      fun db => _) = _ at materializes
    cases inserts : path.foldlM (storage.insertBranchEntry storage.nextBranchId) storage.db with
    | error rollback =>
      rw [inserts] at materializes
      cases materializes
    | ok db =>
      rw [inserts] at materializes
      cases materializes
      rfl

theorem appendToActiveBranch_of_inactive {ready : SqliteSessionStorage} {branchId : Nat}
    {parentId : Option EntryId} (inactive : storage.activeBranchId = none)
    (materializes : storage.materializeBranch parentId = .ok ready)
    (active : ready.activeBranchId = some branchId) (id : EntryId) :
    storage.appendToActiveBranch id parentId = ready.appendToActiveBranch id parentId := by
  simp only [appendToActiveBranch, inactive, active, materializes, Option.isSome_none,
    Option.isSome_some, Bool.false_eq_true, if_false, if_true, bind, Except.bind,
    missingEntryRow, sessionId_materializeBranch materializes]

/-- The step of an append: a transaction succeeds and keeps everything as the entries say. -/
theorem holds_appendEntry (holds : Holds entries storage) (appended : Appended (entries ++ [entry]))
    (parent : entry.parentId = leafIdAfter entries) (valid : encodeEntry entry = .ok entry.body) :
    ∃ next, storage.appendEntry entry = .ok next ∧ Holds (entries ++ [entry]) next := by
  have earlier : Appended entries := appended.of_append_singleton
  have fresh : entry.id ∉ entries.map SessionTreeEntry.id := appended.last_fresh
  obtain ⟨inserted, inserts, tables, branchEntries, activeId, nextId⟩ :=
    insertEntry_eq holds.toTables fresh valid
  let existingChild := storage.db.hasExistingChild entry.parentId
  have transaction : storage.appendTransaction entry entry.body =
      (inserted.activateBranch entry existingChild >>= fun active =>
        active.appendToActiveBranch entry.id entry.parentId) := by
    unfold appendTransaction
    rw [inserts]
    rfl
  suffices readies : ∃ ready branchId rows path shown, storage.appendTransaction entry entry.body =
        ready.appendToActiveBranch entry.id entry.parentId ∧
      Ready entries entry ready branchId rows ∧
      CompletePath (indexBy SessionTreeEntry.id (entries ++ [entry]))
        (leafIdAfter (entries ++ [entry])) path ∧ HoldsClimb path shown ∧
      withoutLeafEntries (rows ++ [entry]) = withoutLeafEntries shown by
    obtain ⟨ready, branchId, rows, path, shown, appends, readied, complete, climbs, same⟩ := readies
    obtain ⟨next, done, tables, active, used, table⟩ :=
      readied.appendToActiveBranch appended entry.parentId
    refine ⟨next, ?_, { tables with
      branch := .inr ⟨branchId, rows ++ [entry], active, used, table,
        readied.ordered.append_right [entry], path, shown, complete, climbs, same⟩ }⟩
    simp only [appendEntry, valid, bind, Except.bind, appends, done]
  rw [Appended.leafIdAfter_append_singleton]
  cases moves : isLeafEntry entry with
  | true =>
    obtain ⟨targetId, body⟩ : ∃ targetId, entry.body = .leaf targetId := by
      unfold isLeafEntry at moves
      cases body : entry.body with
      | leaf targetId => exact ⟨targetId, rfl⟩
      | _ => simp [body, type] at moves
    obtain ⟨ready, branchId, rows, path, activates, readied, complete, rfl⟩ :=
      activateBranch_leaf tables appended body existingChild
    have leaf : leafIdAfterEntry entry = targetId := by
      unfold leafIdAfterEntry
      rw [body]
    refine ⟨ready, branchId, _, path, loadedPath path, ?_, readied, ?_,
      holdsClimb_loadedPath path, ?_⟩
    · rw [transaction, activates]
      rfl
    · rw [leaf]
      exact completePath_append_singleton appended complete
    · unfold withoutLeafEntries
      rw [filter_append, filter_singleton, moves]
      exact append_nil _
  | false =>
    have leaf : leafIdAfterEntry entry = some entry.id := by
      unfold leafIdAfterEntry
      cases body : entry.body with
      | leaf targetId => simp [isLeafEntry, body, type] at moves
      | _ => rfl
    have known : ∀ id, entry.parentId = some id →
        ((indexBy SessionTreeEntry.id entries).get? id).isSome := by
      intro id named
      rw [isSome_get?_indexBy]
      exact earlier.leaf_mem (parent ▸ named)
    obtain ⟨path, complete⟩ :=
      (EntryTree.ofGrown entries earlier.grows).exists_completePath known
    rw [leaf]
    have continues := completePath_of_parent appended complete
    have last : ∀ {rows shown : List SessionTreeEntry},
        withoutLeafEntries rows = withoutLeafEntries shown →
          withoutLeafEntries (rows ++ [entry]) = withoutLeafEntries (shown ++ [entry]) := by
      intro rows shown same
      unfold withoutLeafEntries at same ⊢
      rw [filter_append, filter_append, same]
    rcases holds.branch with ⟨rfl, inactive⟩ | ⟨branchId, rows, branch⟩
    · obtain ⟨ready, materializes, readied⟩ := ready_materializeBranch tables appended complete
      refine ⟨ready, _, _, _, _, ?_, readied, continues,
        (holdsClimb_loadedPath path).append [entry], last rfl⟩
      have childless : existingChild = false := by
        change storage.db.hasExistingChild entry.parentId = false
        unfold hasExistingChild
        rw [holds.rows]
        rfl
      have activates : inserted.activateBranch entry existingChild = .ok inserted := by
        rw [childless]
        unfold activateBranch
        cases body : entry.body with
        | leaf targetId => simp [isLeafEntry, body, type] at moves
        | _ => rfl
      rw [transaction, activates]
      exact appendToActiveBranch_of_inactive (activeId.trans inactive) materializes
        readied.active entry.id
    · obtain ⟨path', shown, complete', climbs, same⟩ := branch.path
      rw [← parent] at complete'
      obtain rfl := completePath_unique complete complete'
      have table : HasRows (entries ++ [entry]) inserted branchId rows := by
        have rowsThere : HasRows (entries ++ [entry]) storage branchId rows :=
          hasRows_append_singleton branch.ordered branch.table
        unfold HasRows at rowsThere ⊢
        rw [branchEntries, rowsThere]
      obtain ⟨ready, branchId', rows', shown', activates, readied, climbs', same'⟩ :=
        activateBranch_plain tables appended moves (activeId.trans branch.active)
          (nextId ▸ branch.used) table branch.ordered complete climbs same existingChild
      refine ⟨ready, branchId', rows', _, _, ?_, readied, continues, climbs'.append [entry],
        last same'⟩
      rw [transaction, activates]
      rfl

end Append
end SqliteSessionStorage
end Recode

import Recode.Session.SqliteReads
import Recode.Session.JsonlStorage

/-! # Sessions over either storage

The same calls lead the in-memory storage and the SQLite storage to the same entries, with
one exception: SQLite rejects a compaction that names no first kept entry. -/

namespace Recode

open InMemorySessionStorage List Option Session JsonlSessionStorage

def SessionCall.NamesFirstKept : SessionCall → Prop
  | .appendCompaction data => data.firstKeptEntryId ≠ none
  | _ => True

namespace Session

variable {Storage : Type} [SessionStorage Storage]

def outcomes (storage : Storage) : List (Stamp × SessionCall) → List (Option SessionError)
  | [] => []
  | (stamp, call) :: calls =>
    (perform storage stamp call).2 :: outcomes (perform storage stamp call).1 calls

def contextMessages (storage : Storage) (leafId : Option EntryId) :
    Except SessionError (List AgentMessage) :=
  (SessionStorage.getPathToRootOrCompaction storage leafId).map fun path =>
    (buildSessionContext path).messages

end Session

namespace SqliteSessionStorage

def Shows (storage : SqliteSessionStorage) (entry : SessionTreeEntry) : Prop :=
  isLeafEntry entry = false ∧ ∃ branchId, storage.activeBranchId = some branchId ∧
    ∃ row ∈ storage.db.branchEntries, row.branchId = branchId ∧ row.entryId = entry.id

def Agrees (memory : InMemorySessionStorage) (sqlite : SqliteSessionStorage) : Prop :=
  ∃ entries, Appended entries ∧ memory = .afterAppending entries ∧ Holds entries sqlite

theorem agrees_create (sessionId : String) : Agrees .empty (create sessionId) :=
  ⟨[], .nil, rfl, { tables_create sessionId with branch := .inl ⟨rfl, rfl⟩ }⟩

section Context

variable {entries : List SessionTreeEntry} {sqlite : SqliteSessionStorage}

theorem getMaterializedBranchPathOrCompaction_eq (tables : Tables entries sqlite)
    (appended : Appended entries) {branchId : Nat} {rows : List SessionTreeEntry}
    (ordered : rows.Sublist entries) (table : HasRows entries sqlite branchId rows) :
    sqlite.getMaterializedBranchPathOrCompaction branchId = .ok (withoutLeafEntries rows) := by
  have sorted : sqlite.db.branchRows branchId = rows.map (branchRow entries branchId) := by
    unfold SqliteDatabase.branchRows
    rw [table]
    apply List.Pairwise.insertionSort_eq
    rw [pairwise_map]
    exact ((seqOf_increases appended.grows.keys_nodup).sublist ordered).imp
      fun before => le_of_lt before
  have cached : ∀ row ∈ rows, sqlite.byId.get? row.id = some row := by
    intro row member
    rw [tables.byId]
    exact appended.grows.find_self (ordered.subset member)
  unfold getMaterializedBranchPathOrCompaction
  rw [sorted]
  have reads : (rows.map (branchRow entries branchId)).mapM sqlite.branchEntry = .ok rows := by
    clear sorted table ordered
    induction rows with
    | nil => rfl
    | cons row rows ih =>
      have here : sqlite.branchEntry (branchRow entries branchId row) = .ok row := by
        unfold branchEntry
        rw [show sqlite.byId.get? (branchRow entries branchId row).entryId = some row from
          cached row mem_cons_self]
      rw [map_cons, mapM_cons, here,
        ih fun other member => cached other (mem_cons_of_mem row member)]
      rfl
  rw [reads]
  change Except.ok (rows.filter fun entry => entry.body.type ≠ .leaf) = _
  unfold withoutLeafEntries isLeafEntry
  simp only [ne_eq, decide_not]

theorem shows_iff (appended : Appended entries) {branchId : Nat} {rows : List SessionTreeEntry}
    (branch : ActiveBranch entries sqlite branchId rows) {entry : SessionTreeEntry}
    (member : entry ∈ entries) : sqlite.Shows entry ↔ entry ∈ withoutLeafEntries rows := by
  have inRows : (∃ row ∈ sqlite.db.branchEntries, row.branchId = branchId ∧
      row.entryId = entry.id) ↔ entry ∈ rows := by
    constructor
    · rintro ⟨row, inside, same, named⟩
      have there : row ∈ sqlite.db.branchEntries.filter fun row => row.branchId = branchId :=
        mem_filter.mpr ⟨inside, decide_eq_true same⟩
      rw [branch.table] at there
      obtain ⟨other, held, rfl⟩ := mem_map.mp there
      have found := appended.grows.find_self (branch.ordered.subset held)
      change other.id = entry.id at named
      rw [named, appended.grows.find_self member, some.injEq] at found
      exact found ▸ held
    · intro held
      have there : branchRow entries branchId entry ∈
          sqlite.db.branchEntries.filter fun row => row.branchId = branchId :=
        branch.table ▸ mem_map_of_mem held
      exact ⟨_, mem_of_mem_filter there, rfl, rfl⟩
  unfold Shows withoutLeafEntries
  rw [mem_filter, ← inRows, branch.active]
  simp only [some.injEq, exists_eq_left', Bool.not_eq_true', and_comm]

/-- The contexts at a leaf agree, at the current leaf exactly when the rows of the active
branch hold the first kept entry of the newest compaction as the climb finds it. -/
theorem contextMessages_agree_iff (holds : Holds entries sqlite) (appended : Appended entries)
    (leafId : Option EntryId) :
    Session.contextMessages sqlite leafId =
        Session.contextMessages (afterAppending entries) leafId ↔
      (leafId = sqlite.currentLeafId → ∀ path,
        CompletePath (InsertionMap.indexBy SessionTreeEntry.id entries) leafId path →
          KeptFoundAlike path sqlite.Shows) := by
  have memory : ∀ path, CompletePath (InsertionMap.indexBy SessionTreeEntry.id entries) leafId path
      →
      SessionStorage.getPathToRootOrCompaction (afterAppending entries)
        leafId = .ok (loadedPath path) := fun path complete =>
    (EntryTree.ofGrown entries appended.grows).getPathToRootOrCompaction_of_completePath complete
  cases leafId with
  | none =>
    refine iff_of_true rfl ?_
    rintro - path rfl older kept between compaction newer data same
    simp at same
  | some id =>
    by_cases here : some id = sqlite.currentLeafId
    · have leaf : leafIdAfter entries = some id := by rw [← holds.leafId, ← here]
      rcases holds.branch with ⟨rfl, -⟩ | ⟨branchId, rows, branch⟩
      · cases leaf
      obtain ⟨path, shown, complete, climbs, same⟩ := branch.path
      rw [leaf] at complete
      have inside : ∀ entry ∈ path, entry ∈ entries :=
        fun entry member => (completePath_sublist appended complete).subset member
      have distinct : (path.map SessionTreeEntry.id).Nodup :=
        appended.grows.keys_nodup.sublist ((completePath_sublist appended complete).map _)
      have reads : SessionStorage.getPathToRootOrCompaction sqlite (some id) =
          .ok (withoutLeafEntries shown) := by
        change sqlite.getPathToRootOrCompaction (some id) = _
        unfold getPathToRootOrCompaction
        simp only [if_pos here, branch.active]
        rw [getMaterializedBranchPathOrCompaction_eq holds.toTables appended branch.ordered
          branch.table, same]
      have only : (∀ path, CompletePath (InsertionMap.indexBy SessionTreeEntry.id entries)
          (some id) path → KeptFoundAlike path sqlite.Shows) ↔
            KeptFoundAlike path sqlite.Shows := by
        constructor
        · exact fun all => all path complete
        · intro alike other complete'
          rwa [← completePath_unique complete complete']
      unfold Session.contextMessages
      rw [reads, memory path complete]
      change Except.ok _ = Except.ok _ ↔ _
      rw [Except.ok.injEq, messages_rows_iff distinct climbs, forall_prop_of_true here, only]
      refine keptFoundAlike_congr fun entry member => ?_
      rw [shows_iff appended branch (inside entry member), same]
    · refine iff_of_true ?_ fun same => (here same).elim
      have climbs : SessionStorage.getPathToRootOrCompaction sqlite (some id) =
          sqlite.getPathToRootOrCompactionEntries (some id) := if_neg here
      unfold Session.contextMessages
      rw [climbs]
      cases found : (InsertionMap.indexBy SessionTreeEntry.id entries).get? id with
      | some entry =>
        have present : ∀ wanted, some id = some wanted →
            ((InsertionMap.indexBy SessionTreeEntry.id entries).get? wanted).isSome := by
          rintro wanted ⟨⟩
          rw [found]
          rfl
        obtain ⟨path, complete⟩ :=
          (EntryTree.ofGrown entries appended.grows).exists_completePath present
        rw [memory path complete,
          holds.toTables.getPathToRootOrCompactionEntries_eq appended complete]
      | none =>
        have missing : SessionStorage.getPathToRootOrCompaction
            (afterAppending entries) (some id) =
              .error (.entryNotFound id) := by
          have absent : (afterAppending entries).byId.get? id = none :=
            found
          simp only [SessionStorage.getPathToRootOrCompaction, Recode.getPathToRootOrCompaction,
            absent]
        rw [missing, holds.toTables.getPathToRootOrCompactionEntries_absent found]

end Context

section Run

variable {memory : InMemorySessionStorage} {sqlite : SqliteSessionStorage}

theorem encodeEntry_eq {entry : SessionTreeEntry}
    (named : ∀ data, entry.body = .compaction data → data.firstKeptEntryId ≠ none) :
    encodeEntry entry = .ok entry.body := by
  obtain ⟨id, parentId, timestamp, body⟩ := entry
  unfold encodeEntry validateSessionTreeEntry
  cases body with
  | compaction data =>
    cases keeps : data.firstKeptEntryId with
    | none => exact (named data rfl keeps).elim
    | some kept => simp only [keeps, isNone_some, Bool.false_eq_true, if_false]
  | _ => rfl

variable {stamp : Stamp}

section

variable (agrees : Agrees memory sqlite)
include agrees

theorem agrees_appendTypedEntry (fresh : SessionStorage.getEntry memory stamp.id = none)
    (body : EntryBody) (plain : ∀ targetId, body ≠ .leaf targetId)
    (named : ∀ data, body = .compaction data → data.firstKeptEntryId ≠ none) :
    (settle sqlite (appendTypedEntry sqlite stamp body)).2 =
        (settle memory (appendTypedEntry memory stamp body)).2 ∧
      Agrees (settle memory (appendTypedEntry memory stamp body)).1
        (settle sqlite (appendTypedEntry sqlite stamp body)).1 := by
  obtain ⟨entries, appended, rfl, holds⟩ := agrees
  have new := (getEntry_eq_none_iff appended stamp.id).mp fresh
  have appendedToo := appended_at_leaf appended stamp body new
    fun id same => (plain _ same).elim
  obtain ⟨next, appends, holdsToo⟩ :=
    holds_appendEntry holds appendedToo rfl (encodeEntry_eq named)
  have done : appendTypedEntry sqlite stamp body = .ok next := by
    change sqlite.appendEntry ⟨stamp.id, sqlite.currentLeafId, stamp.timestamp, body⟩ = _
    rw [holds.leafId]
    exact appends
  rw [done, appendTypedEntry_afterAppending appended]
  exact ⟨rfl, _, appendedToo, rfl, holdsToo⟩

/-- Moving the leaf keeps both storages in agreement. -/
theorem agrees_moveTo {entryId : Option EntryId} {summary : Option (Stamp × MoveSummary)}
    (fresh : Session.Fresh memory stamp (.moveTo entryId summary)) :
    (Session.moveTo sqlite stamp entryId summary).2 =
        (Session.moveTo memory stamp entryId summary).2 ∧
      Agrees (Session.moveTo memory stamp entryId summary).1
        (Session.moveTo sqlite stamp entryId summary).1 := by
  obtain ⟨entries, appended, rfl, holds⟩ := agrees
  have getEntry : sqlite.getEntry = (afterAppending entries).getEntry :=
    holds.toTables.getEntry_eq
  have present : ∀ id, (sqlite.getEntry id).isSome = true ↔
      id ∈ entries.map SessionTreeEntry.id := by
    intro id
    rw [getEntry, isSome_iff_ne_none, ne_eq]
    exact not_iff_comm.mp (getEntry_eq_none_iff appended id).symm
  rcases moveTo_afterAppending appended stamp entryId summary with
    ⟨missing, rfl, absent, failed⟩ | ⟨known, moved⟩
  · have unknown : unknown? (fun id => (SessionStorage.getEntry sqlite id).isSome)
        (some missing) = some missing := by
      change Option.filter (fun id => !(sqlite.getEntry id).isSome) (some missing) = _
      rw [filter_some_pos]
      simpa using mt (present missing).mp absent
    have failedToo : Session.moveTo sqlite stamp (some missing) summary =
        (sqlite, some (.entryNotFound missing)) := by
      unfold Session.moveTo
      rw [unknown]
    rw [failed, failedToo]
    exact ⟨rfl, entries, appended, rfl, holds⟩
  · have appendedToo := appended_move appended fresh known
    have unknown : unknown? (fun id => (SessionStorage.getEntry sqlite id).isSome) entryId =
        none := (unknown?_eq_none_iff _ _).mpr fun id same => (present id).mpr (known id same)
    have new := (getEntry_eq_none_iff appended stamp.id).mp fresh.1
    have appendedMarker := appended_at_leaf appended stamp (.leaf entryId)
      new fun id same => known id (by cases same; rfl)
    obtain ⟨marked, marks, holdsMarked⟩ := holds_appendEntry holds appendedMarker rfl
      (encodeEntry_eq (by rintro data ⟨⟩))
    have sets : SessionStorage.setLeafId sqlite stamp entryId = .ok marked := by
      have unknownToo : unknown? (fun id => (sqlite.getEntry id).isSome) entryId = none := unknown
      change sqlite.setLeafId stamp entryId = _
      rw [setLeafId, unknownToo, holds.leafId]
      exact marks
    cases summary with
    | none =>
      have movedToo : Session.moveTo sqlite stamp entryId none = (marked, none) := by
        simp only [Session.moveTo, unknown, sets]
      rw [moved, movedToo]
      exact ⟨rfl, _, appendedMarker, rfl, holdsMarked⟩
    | some pair =>
      obtain ⟨summaryStamp, summary⟩ := pair
      simp only [map_some, toList_some] at appendedToo moved
      rw [append_cons] at appendedToo moved
      have atTarget : entryId = leafIdAfter
          (entries ++ [⟨stamp.id, leafIdAfter entries, stamp.timestamp, .leaf entryId⟩]) := by
        rw [Appended.leafIdAfter_append_singleton]
        rfl
      obtain ⟨summarized, summarizes, holdsSummarized⟩ := holds_appendEntry holdsMarked
        appendedToo atTarget (encodeEntry_eq (by rintro data ⟨⟩))
      have movedToo : Session.moveTo sqlite stamp entryId (some (summaryStamp, summary)) =
          (summarized, none) := by
        have appends : SessionStorage.appendEntry marked
            (branchSummaryEntry summaryStamp entryId summary) = .ok summarized :=
          summarizes
        simp only [Session.moveTo, unknown, sets, appends]
      rw [moved, movedToo]
      exact ⟨rfl, _, appendedToo, rfl, holdsSummarized⟩

/-- A call with new identifiers throws the same on both storages and keeps them in
agreement. -/
theorem agrees_perform {call : SessionCall}
    (fresh : Session.Fresh memory stamp call) (named : call.NamesFirstKept) :
    (Session.perform sqlite stamp call).2 = (Session.perform memory stamp call).2 ∧
      Agrees (Session.perform memory stamp call).1 (Session.perform sqlite stamp call).1 := by
  have appends := agrees_appendTypedEntry agrees fresh.1
  cases call with
  | moveTo entryId summary => exact agrees_moveTo agrees fresh
  | appendCompaction data =>
    refine appends _ (by rintro targetId ⟨⟩) fun data' same => ?_
    cases same
    exact named
  | appendLabel targetId label =>
    obtain ⟨entries, appended, rfl, holds⟩ := id agrees
    have getEntry : SessionStorage.getEntry sqlite targetId =
        SessionStorage.getEntry (afterAppending entries) targetId :=
      congrFun holds.toTables.getEntry_eq targetId
    simp only [Session.perform, Session.appendLabel, getEntry]
    cases SessionStorage.getEntry (afterAppending entries) targetId with
    | none => exact ⟨rfl, entries, appended, rfl, holds⟩
    | some entry => exact appends _ (by rintro targetId ⟨⟩) (by rintro data ⟨⟩)
  | _ => exact appends _ (by rintro targetId ⟨⟩) (by rintro data ⟨⟩)

theorem perform_unnamed (stamp : Stamp) {data : CompactionData}
    (unnamed : data.firstKeptEntryId = none) :
    (Session.perform memory stamp (.appendCompaction data)).2 = none ∧
      (Session.perform sqlite stamp (.appendCompaction data)).2 ≠ none := by
  obtain ⟨entries, appended, rfl, holds⟩ := agrees
  constructor
  · simp only [Session.perform, appendTypedEntry_afterAppending appended]
    rfl
  · have rejects : appendTypedEntry sqlite stamp (.compaction data) =
        .error (.invalidSqliteEntry
          ("entry " ++ stamp.id.text ++ " has invalid compaction payload")) := by
      change sqlite.appendEntry ⟨stamp.id, sqlite.currentLeafId, stamp.timestamp,
          .compaction data⟩ = _
      unfold appendEntry encodeEntry validateSessionTreeEntry
      simp only [unnamed, isNone_none, if_true]
      rfl
    simp only [Session.perform, rejects, settle, ne_eq, reduceCtorEq, not_false_eq_true]

/-- The storages throw the same exactly while every compaction names its first kept entry,
and then they hold the same entries. -/
theorem outcomes_agree_iff {calls : List (Stamp × SessionCall)}
    (fresh : Session.FreshAll memory calls) :
    (Session.outcomes sqlite calls = Session.outcomes memory calls ↔
        ∀ call ∈ calls, call.2.NamesFirstKept) ∧ ((∀ call ∈ calls, call.2.NamesFirstKept) →
        Agrees (performAll memory calls) (performAll sqlite calls)) := by
  induction calls generalizing memory sqlite with
  | nil => exact ⟨by simp [Session.outcomes], fun _ => agrees⟩
  | cons next calls ih =>
    obtain ⟨stamp, call⟩ := next
    by_cases named : call.NamesFirstKept
    · obtain ⟨same, agreesToo⟩ := agrees_perform agrees fresh.1 named
      obtain ⟨rest, agreesLast⟩ := ih agreesToo fresh.2
      simp only [Session.outcomes, cons.injEq, same, true_and, rest, forall_mem_cons,
        named]
      exact agreesLast
    · obtain ⟨data, rfl, unnamed⟩ : ∃ data, call = .appendCompaction data ∧
          data.firstKeptEntryId = none := by
        cases call with
        | appendCompaction data => exact ⟨data, rfl, not_not.mp named⟩
        | _ => exact (named trivial).elim
      obtain ⟨accepts, rejects⟩ := perform_unnamed agrees stamp unnamed
      have notAll : ¬ ∀ call ∈ (stamp, SessionCall.appendCompaction data) :: calls,
          call.2.NamesFirstKept := fun all => named (all _ mem_cons_self)
      refine ⟨iff_of_false ?_ notAll, fun all => (notAll all).elim⟩
      intro same
      rw [Session.outcomes, Session.outcomes, cons.injEq, accepts] at same
      exact rejects same.1

end

/-- Over every run of calls with new identifiers, the storages accept the same calls
exactly when every compaction names its first kept entry. Then all reads agree but two:
pages agree exactly for some options, and the context at the current leaf agrees exactly
when the rows of the active branch hold the first kept entry of the newest compaction as
the climb finds it. -/
theorem storages_agree_iff (sessionId : String) {calls : List (Stamp × SessionCall)}
    (fresh : Session.FreshAll empty calls) :
    (Session.outcomes (create sessionId) calls =
        Session.outcomes empty calls ↔
          ∀ call ∈ calls, call.2.NamesFirstKept) ∧ ((∀ call ∈ calls, call.2.NamesFirstKept) →
        ∃ memory sqlite, memory = Session.performAll empty calls ∧
          sqlite = Session.performAll (create sessionId) calls ∧ SameReads memory sqlite ∧
          (∀ options, sqlite.getEntries options = memory.getEntries options ↔
            PagesAgree memory.entries.length options) ∧
          ∀ leafId, Session.contextMessages sqlite leafId = Session.contextMessages memory leafId ↔
            (leafId = sqlite.currentLeafId → ∀ path, CompletePath memory.byId leafId path →
              KeptFoundAlike path sqlite.Shows)) := by
  obtain ⟨outcomes, agree⟩ := outcomes_agree_iff (agrees_create sessionId) fresh
  refine ⟨outcomes, fun named => ?_⟩
  obtain ⟨entries, appended, same, holds⟩ := agree named
  refine ⟨_, _, rfl, rfl, ?_, ?_, ?_⟩
  all_goals rw [same]
  · exact sameReads_of_tables holds.toTables appended
  · exact getEntries_agree_iff holds.toTables appended
  · exact contextMessages_agree_iff holds appended

end Run

section Example

/-- A message, a compaction that carries it, and a compaction that keeps it as an entry. -/
def twiceCompacted : List (Stamp × SessionCall) :=
  [(⟨.nth 'm' 1, 1⟩, .appendMessage (.user (.text "hello") 1)), (⟨.nth 'c' 1, 2⟩, .appendCompaction
      ⟨"first", some (.nth 'm' 1), 1, some [.user (.text "hello") 1], none, none, none⟩),
    (⟨.nth 'c' 2, 3⟩, .appendCompaction ⟨"second", some (.nth 'm' 1), 1, none, none, none, none⟩)]

theorem twiceCompacted_fresh :
    Session.FreshAll empty twiceCompacted :=
  ⟨⟨rfl, trivial⟩, ⟨rfl, trivial⟩, ⟨rfl, trivial⟩, trivial⟩

theorem twiceCompacted_named : ∀ call ∈ twiceCompacted, call.2.NamesFirstKept := by
  intro call member
  simp only [twiceCompacted, mem_cons, not_mem_nil, or_false] at member
  rcases member with rfl | rfl | rfl
  · trivial
  · exact some_ne_none _
  · exact some_ne_none _

/-- Both storages accept the calls. The entries after the first one are all entries for
SQLite, and its context shows the message that the second compaction keeps. -/
theorem twiceCompacted_reads_differ :
    Session.FreshAll empty twiceCompacted ∧
      ((Session.performAll (create "s") twiceCompacted).getEntries ⟨some 1, none⟩).length = 3 ∧
      ((Session.performAll empty twiceCompacted).getEntries
        ⟨some 1, none⟩).length = 2 ∧
      (Session.contextMessages (Session.performAll (create "s") twiceCompacted)
        (some (.nth 'c' 2))).map length = .ok 4 ∧
      (Session.contextMessages (Session.performAll empty twiceCompacted)
        (some (.nth 'c' 2))).map length = .ok 1 := by
  refine ⟨twiceCompacted_fresh, rfl, rfl, rfl, rfl⟩

theorem storages_agree_iff_twiceCompacted :
    (Session.outcomes (create "s") twiceCompacted =
        Session.outcomes empty twiceCompacted) ∧
      ∃ memory sqlite, memory = Session.performAll empty twiceCompacted ∧
        sqlite = Session.performAll (create "s") twiceCompacted ∧ SameReads memory sqlite := by
  obtain ⟨outcomes, reads⟩ := storages_agree_iff "s" twiceCompacted_fresh
  obtain ⟨memory, sqlite, performed, performedToo, same, -⟩ := reads twiceCompacted_named
  exact ⟨outcomes.mpr twiceCompacted_named, memory, sqlite, performed, performedToo, same⟩

/-- A SQLite session can be opened from its rows alone, in memory or as a file, and is then what the
same calls lead to in memory. What SQLite keeps beside its rows is computed from them. -/
theorem rows_reopened (sessionId : String) {calls : List (Stamp × SessionCall)}
    (fresh : Session.FreshAll empty calls) (named : ∀ call ∈ calls, call.2.NamesFirstKept) :
    let sqlite := performAll (create sessionId) calls
    let rows := decodeEntryRows sqlite.db.orderedRows
    ofEntries rows = .ok (performAll empty calls) ∧
      loadJsonlStorage rows = ⟨performAll empty calls, rows⟩ ∧
      sqlite.materializedState = materializedAfter rows ∧ sqlite.currentLeafId =
          leafIdAfter rows := by
  intro sqlite rows
  obtain ⟨entries, appended, same, holds⟩ :=
    (outcomes_agree_iff (agrees_create sessionId) fresh).2 named
  have tables := holds.toTables
  have decoded := tables.decode_rows fun _ => id
  rw [← tables.orderedRows_eq appended] at decoded
  obtain rfl : rows = entries := decoded
  refine ⟨?_, by rw [same, loadJsonlStorage_eq], tables.materialized, tables.leafId⟩
  have known := unknown?_afterAppending appended fun _ leaf => appended.leaf_mem leaf
  rw [same, ofEntries]
  simp only [leafIdAfter, afterAppending] at known ⊢
  rw [known]

theorem rows_reopened_twiceCompacted :
    ofEntries (decodeEntryRows (performAll (create "s") twiceCompacted).db.orderedRows) =
      .ok (performAll empty twiceCompacted) :=
  (rows_reopened "s" twiceCompacted_fresh twiceCompacted_named).1

end Example
end SqliteSessionStorage
end Recode

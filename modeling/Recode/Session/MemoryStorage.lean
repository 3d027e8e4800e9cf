import Recode.Session.Session

/-! # The in-memory storage

Entries in the order of their appending, with an index by identifier, the labels
in force and the current leaf. The file-backed storage keeps the same four, and
writes each entry to its file before it changes them. -/

namespace Recode

open List Option Session InsertionMap Text

/-- Statistics of a session. -/
structure SessionStats where
  messageCount : Nat
  cachedTokens : Nat
  uncachedTokens : Nat
  totalTokens : Nat
  costTotal : Decimal
deriving DecidableEq

namespace SessionStats

/-- The statistics of an empty session. -/
def zero : SessionStats := ⟨0, 0, 0, 0, 0⟩

def addUsage (stats : SessionStats) (usage : Usage) : SessionStats :=
  { stats with
    cachedTokens := stats.cachedTokens + usage.cacheRead
    uncachedTokens := stats.uncachedTokens + (usage.input + usage.cacheWrite)
    totalTokens := stats.totalTokens +
      (usage.input + usage.output + usage.cacheRead + usage.cacheWrite)
    costTotal := stats.costTotal + usage.cost.total }

end SessionStats

def SessionTreeEntry.usage? (entry : SessionTreeEntry) : Option Usage :=
  match entry.body with
  | .message (.assistant message) => some message.usage
  | .compaction data => data.usage
  | .branchSummary data => data.usage
  | _ => none

def statsStep (stats : SessionStats) (entry : SessionTreeEntry) : SessionStats :=
  let counted := if entry.message?.isSome
    then { stats with messageCount := stats.messageCount + 1 } else stats
  match entry.usage? with
  | none => counted
  | some usage => counted.addUsage usage

/-- Labels in force, by the entry they name. -/
abbrev LabelMap := InsertionMap EntryId String

/-- Bring the labels up to date with an entry. A blank label removes one. -/
def updateLabelCache (labelsById : LabelMap) (entry : SessionTreeEntry) : LabelMap :=
  match entry.body with
  | .label targetId label =>
    match truthy (label.map trim) with
    | some label => labelsById.insert targetId label
    | none => labelsById.erase targetId
  | _ => labelsById

def buildLabelsById (entries : List SessionTreeEntry) : LabelMap :=
  entries.foldl updateLabelCache empty

/-- The storage that keeps a session in memory. -/
structure InMemorySessionStorage where
  entries : List SessionTreeEntry
  byId : EntryMap
  labelsById : LabelMap
  leafId : Option EntryId

namespace InMemorySessionStorage

/-- A storage without entries. -/
def empty : InMemorySessionStorage := ⟨[], .empty, .empty, none⟩

def ofEntries (entries : List SessionTreeEntry) : Except SessionError InMemorySessionStorage :=
  let byId := indexBy SessionTreeEntry.id entries
  let leafId := entries.foldl (fun _ entry => leafIdAfterEntry entry) none
  match unknown? byId.contains leafId with
  | some missing => .error (.danglingEntry missing)
  | none => .ok ⟨entries, byId, buildLabelsById entries, leafId⟩

variable (storage : InMemorySessionStorage)

def getLeafId : Except SessionError (Option EntryId) :=
  match unknown? storage.byId.contains storage.leafId with
  | some missing => .error (.danglingEntry missing)
  | none => .ok storage.leafId

def setLeafId (stamp : Stamp) (leafId : Option EntryId) :
    Except SessionError InMemorySessionStorage :=
  match unknown? storage.byId.contains leafId with
  | some missing => .error (.entryNotFound missing)
  | none =>
    let entry : SessionTreeEntry := ⟨stamp.id, storage.leafId, stamp.timestamp, .leaf leafId⟩
    .ok { storage with
      entries := storage.entries ++ [entry]
      byId := storage.byId.insert entry.id entry
      leafId := leafId }

def appendEntry (entry : SessionTreeEntry) : InMemorySessionStorage where
  entries := storage.entries ++ [entry]
  byId := storage.byId.insert entry.id entry
  labelsById := updateLabelCache storage.labelsById entry
  leafId := leafIdAfterEntry entry

def getEntry (id : EntryId) : Option SessionTreeEntry := storage.byId.get? id

def findEntries (type : EntryType) : List SessionTreeEntry :=
  storage.entries.filter fun entry => entry.body.type = type

def getLabel (id : EntryId) : Option String := storage.labelsById.get? id

def getSessionName : Option String :=
  match (storage.findEntries .sessionInfo).getLast? with
  | some ⟨_, _, _, .sessionInfo name⟩ => truthy (name.map trim)
  | _ => none

def getSessionStats : SessionStats := storage.entries.foldl statsStep .zero

def getEntries (options : SessionEntryCursorOptions) : List SessionTreeEntry :=
  let start := options.afterEntrySeq.getD 0
  match options.limit with
  | none => storage.entries.drop start
  | some limit => (storage.entries.drop start).take limit

instance : SessionStorage InMemorySessionStorage where
  getLeafId := getLeafId
  setLeafId := setLeafId
  appendEntry := fun storage entry => .ok (storage.appendEntry entry)
  getEntry := getEntry
  getPathToRootOrCompaction := fun storage leafId =>
    Recode.getPathToRootOrCompaction storage.byId leafId
  getEntries := getEntries

theorem setLeafId_eq (stamp : Stamp) (leafId : Option EntryId) :
    storage.setLeafId stamp leafId =
      match unknown? storage.byId.contains leafId with
      | some missing => .error (.entryNotFound missing)
      | none => .ok (storage.appendEntry
          ⟨stamp.id, storage.leafId, stamp.timestamp, .leaf leafId⟩) := rfl

end InMemorySessionStorage

def leafIdAfter (entries : List SessionTreeEntry) : Option EntryId :=
  entries.foldl (fun _ entry => leafIdAfterEntry entry) none

/-- A list of entries that a session appends: every entry is new, its parent is an
earlier entry, and so is the target of a leaf entry. -/
structure Appended (entries : List SessionTreeEntry) : Prop where
  grows : GrownTree.Grows SessionTreeEntry.id SessionTreeEntry.parentId entries
  targets : ∀ older entry newer targetId, entries = older ++ entry :: newer →
    entry.body = .leaf (some targetId) → targetId ∈ older.map SessionTreeEntry.id

namespace Appended

variable {entries : List SessionTreeEntry}

theorem nil : Appended [] :=
  ⟨.nil, by intro older entry newer targetId same; simp at same⟩

/-- A session may append a new entry under an earlier one. -/
theorem append_singleton (appended : Appended entries) (entry : SessionTreeEntry)
    (fresh : entry.id ∉ entries.map SessionTreeEntry.id)
    (parent : ∀ id, entry.parentId = some id → id ∈ entries.map SessionTreeEntry.id)
    (target : ∀ id, entry.body = .leaf (some id) → id ∈ entries.map SessionTreeEntry.id) :
    Appended (entries ++ [entry]) where
  grows := (GrownTree.grows_append_singleton entries entry).mpr
    ⟨appended.grows, fresh, parent⟩
  targets := by
    intro older other newer targetId same leaf
    rcases newer.eq_nil_or_concat' with rfl | ⟨newer, last, rfl⟩
    · obtain ⟨rfl, lasts⟩ := append_inj' same rfl
      rw [singleton_inj] at lasts
      exact target targetId (lasts ▸ leaf)
    · rw [← cons_append, ← append_assoc] at same
      exact appended.targets older other newer targetId (append_inj' same rfl).1 leaf

theorem of_append_singleton {entry : SessionTreeEntry} (appended : Appended (entries ++ [entry])) :
    Appended entries where
  grows := appended.grows.of_append
  targets := by
    rintro older other newer targetId rfl leaf
    exact appended.targets older other (newer ++ [entry]) targetId (by simp) leaf

theorem last_fresh {entry : SessionTreeEntry} (appended : Appended (entries ++ [entry])) :
    entry.id ∉ entries.map SessionTreeEntry.id :=
  ((GrownTree.grows_append_singleton entries entry).mp appended.grows).2.1

theorem leafIdAfter_append_singleton (entries : List SessionTreeEntry) (entry : SessionTreeEntry) :
    leafIdAfter (entries ++ [entry]) = leafIdAfterEntry entry := by
  simp [leafIdAfter, foldl_append]

theorem leaf_mem (appended : Appended entries) {id : EntryId}
    (leaf : leafIdAfter entries = some id) : id ∈ entries.map SessionTreeEntry.id := by
  rcases entries.eq_nil_or_concat' with rfl | ⟨older, last, rfl⟩
  · cases leaf
  rw [leafIdAfter_append_singleton] at leaf
  unfold leafIdAfterEntry at leaf
  split at leaf
  next targetId body =>
    have earlier := appended.targets older last [] id (by simp) (by rw [body, leaf])
    rw [map_append]
    exact mem_append_left _ earlier
  next => simp_all

end Appended

namespace InMemorySessionStorage

def afterAppending (entries : List SessionTreeEntry) : InMemorySessionStorage where
  entries := entries
  byId := indexBy SessionTreeEntry.id entries
  labelsById := buildLabelsById entries
  leafId := leafIdAfter entries

theorem afterAppending_append_singleton (entries : List SessionTreeEntry)
    (entry : SessionTreeEntry) :
    (afterAppending entries).appendEntry entry = afterAppending (entries ++ [entry]) := by
  simp only [afterAppending, appendEntry, indexBy_append_singleton,
    buildLabelsById, foldl_append, foldl_cons, foldl_nil,
    Appended.leafIdAfter_append_singleton]

theorem foldl_appendEntry (entries : List SessionTreeEntry) :
    entries.foldl appendEntry empty = afterAppending entries := by
  induction entries using reverseRecOn with
  | nil => rfl
  | append_singleton entries entry ih =>
    rw [foldl_append, ih, foldl_cons, foldl_nil, afterAppending_append_singleton]

section Appended

variable {entries : List SessionTreeEntry} (appended : Appended entries)
include appended

theorem contains_afterAppending (id : EntryId) :
    (afterAppending entries).byId.contains id = true ↔ id ∈ entries.map SessionTreeEntry.id := by
  rw [InsertionMap.contains_iff]
  constructor
  · rintro ⟨entry, found⟩
    exact (appended.grows.inside id entry found).2
  · intro member
    obtain ⟨entry, _, _, found⟩ := GrownTree.Grows.find_of_mem_keys member appended.grows
    exact ⟨entry, found⟩

theorem getEntry_eq_none_iff (id : EntryId) :
    (afterAppending entries).getEntry id = none ↔ id ∉ entries.map SessionTreeEntry.id := by
  rw [← contains_afterAppending appended, InsertionMap.contains_iff, getEntry]
  cases (afterAppending entries).byId.get? id <;> simp

/-- Known identifiers pass the check that an operation makes on its argument. -/
theorem unknown?_afterAppending {id : Option EntryId}
    (known : ∀ present, id = some present → present ∈ entries.map SessionTreeEntry.id) :
    unknown? (afterAppending entries).byId.contains id = none := by
  rw [unknown?_eq_none_iff]
  exact fun present same => (contains_afterAppending appended present).mpr (known present same)

theorem getLeafId_afterAppending :
    (afterAppending entries).getLeafId = .ok (leafIdAfter entries) := by
  have known : unknown? (afterAppending entries).byId.contains (afterAppending entries).leafId =
      none := unknown?_afterAppending appended fun _ leaf => appended.leaf_mem leaf
  rw [getLeafId, known]
  rfl

variable (stamp : Stamp)

theorem appendTypedEntry_afterAppending (body : EntryBody) :
    appendTypedEntry (afterAppending entries) stamp body = .ok (afterAppending
        (entries ++ [⟨stamp.id, leafIdAfter entries, stamp.timestamp, body⟩])) := by
  change (getLeafId (afterAppending entries) >>= fun leafId => _) = _
  rw [getLeafId_afterAppending appended]
  exact congrArg Except.ok (afterAppending_append_singleton _ _)

theorem appended_at_leaf (body : EntryBody) (fresh : stamp.id ∉ entries.map SessionTreeEntry.id)
    (target : ∀ id, body = .leaf (some id) → id ∈ entries.map SessionTreeEntry.id) :
    Appended (entries ++ [⟨stamp.id, leafIdAfter entries, stamp.timestamp, body⟩]) :=
  appended.append_singleton _ fresh (fun _ leaf => appended.leaf_mem leaf) target

/-- A move to an unknown entry fails; otherwise it appends a leaf entry, and then
possibly a summary under its target. -/
theorem moveTo_afterAppending (entryId : Option EntryId) (summary : Option (Stamp × MoveSummary)) :
    (∃ missing, entryId = some missing ∧ missing ∉ entries.map SessionTreeEntry.id ∧
      moveTo (afterAppending entries) stamp entryId summary =
        (afterAppending entries, some (.entryNotFound missing))) ∨
    ((∀ id, entryId = some id → id ∈ entries.map SessionTreeEntry.id) ∧
      moveTo (afterAppending entries) stamp entryId summary = (afterAppending (entries ++
          ⟨stamp.id, leafIdAfter entries, stamp.timestamp, .leaf entryId⟩ ::
            (summary.map fun (summaryStamp, summary) =>
              branchSummaryEntry summaryStamp entryId summary).toList), none)) := by
  have present : ∀ id, (SessionStorage.getEntry (afterAppending entries) id).isSome = true ↔
      id ∈ entries.map SessionTreeEntry.id := by
    intro id
    rw [isSome_iff_ne_none, ne_eq]
    exact not_iff_comm.mp (getEntry_eq_none_iff appended id).symm
  unfold moveTo
  cases unknown : unknown?
      (fun id => (SessionStorage.getEntry (afterAppending entries) id).isSome) entryId with
  | some missing =>
    obtain ⟨same, absent⟩ := filter_eq_some_iff.mp unknown
    refine .inl ⟨missing, same, ?_, rfl⟩
    rw [← present missing]
    simpa using absent
  | none =>
    have known : ∀ id, entryId = some id → id ∈ entries.map SessionTreeEntry.id :=
      fun id same => (present id).mp ((unknown?_eq_none_iff _ _).mp unknown id same)
    have moved : SessionStorage.setLeafId (afterAppending entries) stamp entryId =
        .ok (afterAppending (entries ++
          [⟨stamp.id, leafIdAfter entries, stamp.timestamp, .leaf entryId⟩])) := by
      change (afterAppending entries).setLeafId stamp entryId = _
      rw [setLeafId_eq, unknown?_afterAppending appended known, afterAppending_append_singleton]
      rfl
    refine .inr ⟨known, ?_⟩
    simp only [moved]
    cases summary with
    | none => rfl
    | some pair =>
      simp only [SessionStorage.appendEntry, map_some, toList_some]
      rw [afterAppending_append_singleton]
      simp

theorem appended_move {stamp : Stamp} {entryId : Option EntryId}
    {summary : Option (Stamp × MoveSummary)}
    (fresh : Session.Fresh (afterAppending entries) stamp (.moveTo entryId summary))
    (known : ∀ id, entryId = some id → id ∈ entries.map SessionTreeEntry.id) :
    Appended (entries ++ ⟨stamp.id, leafIdAfter entries, stamp.timestamp, .leaf entryId⟩ ::
      (summary.map fun (summaryStamp, summary) =>
        branchSummaryEntry summaryStamp entryId summary).toList) := by
  have new := (getEntry_eq_none_iff appended stamp.id).mp fresh.1
  have moved := appended_at_leaf appended stamp (.leaf entryId) new
    fun id same => known id (by cases same; rfl)
  cases summary with
  | none => exact moved
  | some pair =>
    obtain ⟨summaryStamp, summary⟩ := pair
    have newToo := (getEntry_eq_none_iff appended summaryStamp.id).mp fresh.2.1
    have summarized := moved.append_singleton
      (branchSummaryEntry summaryStamp entryId summary)
      (by
        rw [map_append, mem_append]
        rintro (old | same)
        · exact newToo old
        · exact fresh.2.2 (mem_singleton.mp same))
      (by
        rintro id rfl
        rw [map_append]
        exact mem_append_left _ (known id rfl))
      (by intro id same; cases same)
    rwa [append_assoc] at summarized

end Appended

theorem appended_of_reachable {storage : InMemorySessionStorage}
    (reachable : Session.Reachable empty storage) :
    ∃ entries, Appended entries ∧ storage = afterAppending entries := by
  induction reachable with
  | start => exact ⟨[], .nil, rfl⟩
  | perform _ stamp call fresh ih =>
    obtain ⟨entries, appended, rfl⟩ := ih
    have new := (getEntry_eq_none_iff appended stamp.id).mp fresh.1
    rcases perform_cases (afterAppending entries) stamp call with
      ⟨body, -, noLeaf, ⟨error, failed, -⟩ | performed⟩ | ⟨entryId, summary, rfl⟩
    · exact ⟨entries, appended, by rw [failed]⟩
    · rw [performed, appendTypedEntry_afterAppending appended]
      exact ⟨_, appended_at_leaf appended stamp body new fun id same => (noLeaf _ same).elim, rfl⟩
    · rcases moveTo_afterAppending appended stamp entryId summary with
        ⟨missing, -, -, failed⟩ | ⟨known, moved⟩
      · exact ⟨entries, appended, congrArg Prod.fst failed⟩
      · exact ⟨_, appended_move appended fresh known, congrArg Prod.fst moved⟩

end InMemorySessionStorage
end Recode

import Recode.CodingAgent.Context
import Recode.Session.Session

/-! # The session manager

The coding agent's session is a list of file entries with three indexes and a leaf.
Appending changes these first and then writes to the session file: nothing while no
assistant has answered, the whole session at the first answer, and one line for every
entry from then on. The manager reads few fields of an entry; its entries are those of
any type that has these fields. -/

namespace Recode.CodingAgent

open Recode List Option InsertionMap GrownTree

/-- What the session manager reads of an entry. -/
class FileEntry (Entry : Type) (Time : outParam Type) where
  id : Entry → EntryId
  parentId : Entry → Option EntryId
  timestamp : Entry → Time
  /-- Where a leaf marker moves the leaf. -/
  leafTarget? : Entry → Option (Option EntryId)
  /-- The target of a label and its text. -/
  label? : Entry → Option (EntryId × Option String)
  /-- The entry records an assistant's answer. -/
  isAssistantMessage : Entry → Bool

/-- The first line of a session file. -/
structure SessionHeader (Time : Type) where
  version : Nat
  id : String
  timestamp : Time
  cwd : String
  parentSession : Option String

def currentSessionVersion : Nat := 3

/-- The state of a session manager. The header comes before the file entries. -/
structure SessionManager (Entry Time : Type) where
  header : SessionHeader Time
  sessionFile : Option String
  cwd : String
  persist : Bool
  flushed : Bool
  fileEntries : List Entry
  byId : InsertionMap EntryId Entry
  labelsById : InsertionMap EntryId String
  labelTimestampsById : InsertionMap EntryId Time
  leafId : Option EntryId

/-- What one append writes to the session file. -/
inductive SessionWrite (Entry : Type) where
  | nothing
  /-- Create the file, which must not exist, with the header and these entries. -/
  | create (entries : List Entry)
  | append (entry : Entry)

/-- The identifier, the time and the file of a new session. -/
structure NewSession (Time : Type) where
  id : String
  timestamp : Time
  file : String

namespace SessionManager

variable {Entry Time : Type} [FileEntry Entry Time]

open FileEntry

/-- A new session. -/
def newSession (cwd : String) (persist : Bool) (parentSession : Option String)
    (stamp : NewSession Time) : SessionManager Entry Time where
  header := ⟨currentSessionVersion, stamp.id, stamp.timestamp, cwd, parentSession⟩
  sessionFile := if persist then some stamp.file else none
  cwd := cwd
  persist := persist
  flushed := false
  fileEntries := []
  byId := .empty
  labelsById := .empty
  labelTimestampsById := .empty
  leafId := none

def leafIdAfter (entry : Entry) : Option EntryId :=
  (leafTarget? entry).getD (some (id entry))

/-- The labels after an entry. An absent or empty text removes a label. -/
def updateLabels (labelsById : InsertionMap EntryId String) (entry : Entry) :
    InsertionMap EntryId String :=
  match label? entry with
  | none => labelsById
  | some (targetId, label) =>
    match Text.truthy label with
    | some label => labelsById.insert targetId label
    | none => labelsById.erase targetId

def updateLabelTimestamps (labelTimestampsById : InsertionMap EntryId Time) (entry : Entry) :
    InsertionMap EntryId Time :=
  match label? entry with
  | none => labelTimestampsById
  | some (targetId, label) =>
    match Text.truthy label with
    | some _ => labelTimestampsById.insert targetId (timestamp entry)
    | none => labelTimestampsById.erase targetId

def indexEntry (manager : SessionManager Entry Time) (entry : Entry) : SessionManager Entry Time :=
  { manager with
    byId := manager.byId.insert (id entry) entry
    leafId := leafIdAfter entry
    labelsById := updateLabels manager.labelsById entry
    labelTimestampsById := updateLabelTimestamps manager.labelTimestampsById entry }

def buildIndex (manager : SessionManager Entry Time) : SessionManager Entry Time :=
  manager.fileEntries.foldl indexEntry
    { manager with
      byId := .empty
      labelsById := .empty
      labelTimestampsById := .empty
      leafId := none }

/-- The changes that appending an entry makes before it writes. -/
def record (manager : SessionManager Entry Time) (entry : Entry) : SessionManager Entry Time :=
  { manager.indexEntry entry with fileEntries := manager.fileEntries ++ [entry] }

def persistWrite (manager : SessionManager Entry Time) (entry : Entry) : SessionWrite Entry :=
  if manager.persist then
    if manager.fileEntries.any isAssistantMessage then
      if manager.flushed then .append entry else .create manager.fileEntries
    else if manager.flushed then .append entry else .nothing
  else .nothing

def appendWritten (manager : SessionManager Entry Time) (entry : Entry) :
    SessionManager Entry Time :=
  let recorded := manager.record entry
  match recorded.persistWrite entry with
  | .create _ => { recorded with flushed := true }
  | _ => recorded

def getLabel (manager : SessionManager Entry Time) (id : EntryId) : Option String :=
  manager.labelsById.get? id

/-- The path to an entry, or to the leaf. On a tree no climb meets more entries than the
index holds. -/
def getBranch (manager : SessionManager Entry Time) (fromId : Option EntryId := none) :
    List Entry :=
  (ParentChain.climb parentId manager.byId.get? manager.byId.entries.length
    ((fromId.or manager.leafId).bind manager.byId.get?)).reverse

end SessionManager

instance : FileEntry SessionTreeEntry Nat where
  id := SessionTreeEntry.id
  parentId := SessionTreeEntry.parentId
  timestamp := SessionTreeEntry.timestamp
  leafTarget? := fun entry =>
    match entry.body with
    | .leaf targetId => some targetId
    | _ => none
  label? := fun entry =>
    match entry.body with
    | .label targetId label => some (targetId, label)
    | _ => none
  isAssistantMessage := fun entry => entry.message?.any AgentMessage.isAssistant

/-- The calls that change a session. -/
inductive ManagerCall where
  | appendMessage (message : AgentMessage)
  | appendThinkingLevelChange (thinkingLevel : String)
  | appendModelChange (provider modelId : String)
  | appendCompaction (summary : String) (firstKeptEntryId : Option EntryId) (tokensBefore : Nat)
      (details : Option Json) (fromHook : Option Bool)
  | appendCustomEntry (customType : String) (data : Option Json)
  | appendSessionInfo (name : String)
  | appendCustomMessageEntry (customType : String) (content : InputContent) (display : Bool)
      (details : Option Json)
  | appendLabelChange (targetId : EntryId) (label : Option String)
  | appendEntry (entry : SessionTreeEntry)
  | branch (branchFromId : EntryId)
  | resetLeaf
  | branchWithSummary (branchFromId : Option EntryId) (summary : String) (details : Option Json)
      (fromHook : Option Bool) (usage : Option Usage)

/-- The coding agent's session manager. -/
abbrev Manager := SessionManager SessionTreeEntry Nat

namespace SessionManager

def entryNotFound (id : EntryId) : String := "Entry " ++ id.text ++ " not found"

/-- What a call does before it appends: its checks, where it moves the leaf, and the entry
it appends. An error leaves the session as it is. -/
def request (manager : Manager) (stamp : Stamp) :
    ManagerCall → Except String (Manager × Option SessionTreeEntry)
  | .appendMessage message => .ok (manager, some (atLeaf (.message message)))
  | .appendThinkingLevelChange thinkingLevel =>
    .ok (manager, some (atLeaf (.thinkingLevelChange thinkingLevel)))
  | .appendModelChange provider modelId =>
    .ok (manager, some (atLeaf (.modelChange provider modelId)))
  | .appendCompaction summary firstKeptEntryId tokensBefore details fromHook =>
    .ok (manager, some (atLeaf (.compaction
      ⟨summary, firstKeptEntryId, tokensBefore, none, details, none, fromHook⟩)))
  | .appendCustomEntry customType data =>
    .ok (manager, some (atLeaf (.custom customType data)))
  | .appendSessionInfo name =>
    .ok (manager, some (atLeaf (.sessionInfo (some (Session.sanitizedName name)))))
  | .appendCustomMessageEntry customType content display details =>
    .ok (manager, some (atLeaf (.customMessage customType content display details)))
  | .appendLabelChange targetId label =>
    -- The method sets the label once more after the append, to the same text.
    if manager.byId.contains targetId then
      .ok (manager, some (atLeaf (.label targetId label)))
    else .error (entryNotFound targetId)
  | .appendEntry entry =>
    if manager.byId.contains entry.id then
      .error ("Entry " ++ entry.id.text ++ " already exists")
    else
      match unknown? manager.byId.contains entry.parentId with
      | some missing => .error ("Parent entry " ++ missing.text ++ " not found")
      | none =>
        match unknown? manager.byId.contains ((FileEntry.leafTarget? entry).getD none) with
        | some missing => .error (entryNotFound missing)
        | none => .ok (manager, some entry)
  | .branch branchFromId =>
    if manager.byId.contains branchFromId then
      .ok ({ manager with leafId := some branchFromId }, none)
    else .error (entryNotFound branchFromId)
  | .resetLeaf => .ok ({ manager with leafId := none }, none)
  | .branchWithSummary branchFromId summary details fromHook usage =>
    match unknown? manager.byId.contains branchFromId with
    | some missing => .error (entryNotFound missing)
    | none =>
      .ok ({ manager with leafId := branchFromId },
        some ⟨stamp.id, branchFromId, stamp.timestamp, .branchSummary
          ⟨(branchFromId.map EntryId.text).getD "root", summary, details, usage, fromHook⟩⟩)
where
  /-- An entry with this content under the leaf. -/
  atLeaf (body : EntryBody) : SessionTreeEntry :=
    ⟨stamp.id, manager.leafId, stamp.timestamp, body⟩

def perform (manager : Manager) (stamp : Stamp) (call : ManagerCall) : Manager × Option String :=
  match manager.request stamp call with
  | .error message => (manager, some message)
  | .ok (moved, none) => (moved, none)
  | .ok (moved, some entry) => (moved.appendWritten entry, none)

/-- A generated identifier is new. -/
def Fresh (manager : Manager) (stamp : Stamp) : Prop := manager.byId.get? stamp.id = none

end SessionManager

section Indexed

open FileEntry hiding id
open SessionManager

variable {Entry Time : Type} [FileEntry Entry Time]

def labelsAfter (entries : List Entry) : InsertionMap EntryId String :=
  entries.foldl updateLabels .empty

def labelTimestampsAfter (entries : List Entry) : InsertionMap EntryId Time :=
  entries.foldl updateLabelTimestamps .empty

def leafIdAfterAll (entries : List Entry) : Option EntryId := entries.getLast?.bind leafIdAfter

theorem buildIndex_eq (manager : SessionManager Entry Time) :
    manager.buildIndex =
      { manager with
        byId := InsertionMap.indexBy FileEntry.id manager.fileEntries
        labelsById := labelsAfter manager.fileEntries
        labelTimestampsById := labelTimestampsAfter manager.fileEntries
        leafId := leafIdAfterAll manager.fileEntries } := by
  suffices fold : ∀ entries : List Entry, entries.foldl indexEntry
      { manager with
        byId := .empty
        labelsById := .empty
        labelTimestampsById := .empty
        leafId := none } =
      { manager with
        byId := InsertionMap.indexBy FileEntry.id entries
        labelsById := labelsAfter entries
        labelTimestampsById := labelTimestampsAfter entries
        leafId := leafIdAfterAll entries } from fold manager.fileEntries
  intro entries
  induction entries using List.reverseRecOn with
  | nil => rfl
  | append_singleton entries entry ih =>
    rw [foldl_append, ih, indexBy_append_singleton]
    simp [labelsAfter, labelTimestampsAfter, leafIdAfterAll, indexEntry]

/-- The file entries grow a tree, the indexes are those of the file entries, and the leaf
and the leaf markers name entries. -/
structure Indexed (manager : SessionManager Entry Time) : Prop where
  grows : GrownTree.Grows FileEntry.id parentId manager.fileEntries
  byId : manager.byId = InsertionMap.indexBy FileEntry.id manager.fileEntries
  labels : manager.labelsById = labelsAfter manager.fileEntries
  labelTimestamps : manager.labelTimestampsById = labelTimestampsAfter manager.fileEntries
  leaf : ∀ target, manager.leafId = some target → target ∈ manager.fileEntries.map FileEntry.id
  markers : ∀ entry ∈ manager.fileEntries, ∀ moved, leafTarget? entry = some (some moved) →
    moved ∈ manager.fileEntries.map FileEntry.id

/-- The entry is new, and its parent and the target of a leaf marker are known. -/
structure Appendable (manager : SessionManager Entry Time) (entry : Entry) : Prop where
  fresh : FileEntry.id entry ∉ manager.fileEntries.map FileEntry.id
  parent : ∀ above, parentId entry = some above → above ∈ manager.fileEntries.map FileEntry.id
  target : ∀ moved, leafTarget? entry = some (some moved) →
    moved ∈ manager.fileEntries.map FileEntry.id

namespace Indexed

variable {manager : SessionManager Entry Time}

theorem newSession (cwd : String) (persist : Bool) (parentSession : Option String)
    (stamp : NewSession Time) :
    Indexed (SessionManager.newSession cwd persist parentSession stamp :
      SessionManager Entry Time) where
  grows := trivial
  byId := rfl
  labels := rfl
  labelTimestamps := rfl
  leaf := by
    intro target named
    cases named
  markers := by
    intro entry member
    cases member

theorem get?_eq_none_iff (indexed : Indexed manager) (wanted : EntryId) :
    manager.byId.get? wanted = none ↔ wanted ∉ manager.fileEntries.map FileEntry.id := by
  rw [indexed.byId, ← not_isSome_iff_eq_none, isSome_get?_indexBy]

theorem contains_iff (indexed : Indexed manager) (wanted : EntryId) :
    manager.byId.contains wanted = true ↔ wanted ∈ manager.fileEntries.map FileEntry.id := by
  rw [indexed.byId]
  exact isSome_get?_indexBy _ _ _

/-- Moving the leaf to an entry changes nothing else. -/
theorem move (indexed : Indexed manager) {leafId : Option EntryId}
    (known : ∀ target, leafId = some target → target ∈ manager.fileEntries.map FileEntry.id) :
    Indexed { manager with leafId } :=
  { indexed with leaf := known }

variable {entry : Entry}

section

variable (indexed : Indexed manager)
include indexed

theorem record (valid : Appendable manager entry) :
    Indexed (manager.record entry) where
  grows := (grows_append_singleton _ _).mpr
    ⟨indexed.grows, valid.fresh, valid.parent⟩
  byId := by
    change manager.byId.insert (FileEntry.id entry) entry = _
    rw [indexed.byId]
    exact (indexBy_append_singleton _ _ _).symm
  labels := by
    change updateLabels manager.labelsById entry = labelsAfter (manager.fileEntries ++ [entry])
    rw [indexed.labels, labelsAfter, labelsAfter, foldl_append]
    rfl
  labelTimestamps := by
    change updateLabelTimestamps manager.labelTimestampsById entry =
      labelTimestampsAfter (manager.fileEntries ++ [entry])
    rw [indexed.labelTimestamps, labelTimestampsAfter, labelTimestampsAfter, foldl_append]
    rfl
  leaf := by
    change ∀ moved, leafIdAfter entry = some moved →
      moved ∈ (manager.fileEntries ++ [entry]).map FileEntry.id
    intro moved named
    rw [map_append, mem_append]
    unfold leafIdAfter at named
    cases marker : leafTarget? entry with
    | none =>
      rw [marker, getD_none, Option.some.injEq] at named
      exact .inr (by simp [named])
    | some destination =>
      rw [marker, getD_some] at named
      exact .inl (valid.target moved (named ▸ marker))
  markers := by
    change ∀ other ∈ manager.fileEntries ++ [entry], ∀ moved,
      leafTarget? other = some (some moved) →
      moved ∈ (manager.fileEntries ++ [entry]).map FileEntry.id
    intro other member moved marker
    rw [map_append, mem_append]
    rcases mem_append.mp member with old | new
    · exact .inl (indexed.markers other old moved marker)
    · rw [mem_singleton] at new
      exact .inl (valid.target moved (new ▸ marker))

theorem buildIndex : Indexed manager.buildIndex := by
  rw [buildIndex_eq]
  refine ⟨indexed.grows, rfl, rfl, rfl, ?_, indexed.markers⟩
  change ∀ target, leafIdAfterAll manager.fileEntries = some target →
    target ∈ manager.fileEntries.map FileEntry.id
  intro target named
  obtain ⟨last, ends, leaf⟩ := bind_eq_some_iff.mp named
  have member := mem_of_getLast? ends
  unfold leafIdAfter at leaf
  cases marker : leafTarget? last with
  | none =>
    rw [marker, getD_none, Option.some.injEq] at leaf
    exact mem_map.mpr ⟨last, member, leaf⟩
  | some destination =>
    rw [marker, getD_some] at leaf
    exact indexed.markers last member target (leaf ▸ marker)

theorem getBranch_of_mem (member : entry ∈ manager.fileEntries) :
    ∃ path, ParentChain.Chain parentId (find FileEntry.id manager.fileEntries) entry
        path.reverse ∧ manager.getBranch (some (FileEntry.id entry)) = path := by
  obtain ⟨chain, climbs⟩ := indexed.grows.exists_chain member
  refine ⟨chain.reverse, by rwa [reverse_reverse], ?_⟩
  unfold getBranch
  rw [indexed.byId, some_or, bind_some]
  have found := indexed.grows.find_self member
  unfold find at found
  rw [found, indexed.grows.climb_eq member climbs]

/-- A write that succeeds changes neither the entries nor the indexes. -/
theorem appendWritten
    (valid : Appendable manager entry) : Indexed (manager.appendWritten entry) := by
  have recorded := indexed.record valid
  unfold SessionManager.appendWritten
  simp only []
  split
  · exact { recorded with }
  · exact recorded

end

end Indexed
end Indexed

namespace SessionManager

variable {manager moved : Manager} {stamp : Stamp} {call : ManagerCall}
  {added : Option SessionTreeEntry}

section

variable (indexed : Indexed manager)
include indexed

/-- An entry under the leaf with a new identifier can be appended. -/
theorem appendable_atLeaf (fresh : manager.Fresh stamp)
    {body : EntryBody} (plain : ∀ target, body ≠ .leaf target) :
    Appendable manager ⟨stamp.id, manager.leafId, stamp.timestamp, body⟩ where
  fresh := (indexed.get?_eq_none_iff _).mp fresh
  parent := indexed.leaf
  target := by
    intro target marker
    cases body with
    | leaf targetId => exact (plain targetId rfl).elim
    | _ => cases marker

/-- A call that passes its checks at most moves the leaf to a known entry before it
appends. -/
theorem request_moves (done : manager.request stamp call = .ok (moved, added)) :
    ∃ leafId, moved = { manager with leafId } ∧
      ∀ target, leafId = some target → target ∈ manager.fileEntries.map SessionTreeEntry.id := by
  cases call with
  | appendLabelChange targetId label =>
    simp only [request] at done
    split at done
    · cases done
      exact ⟨manager.leafId, rfl, indexed.leaf⟩
    · cases done
  | appendEntry entry =>
    simp only [request] at done
    split at done
    · cases done
    split at done
    · cases done
    split at done
    · cases done
    · cases done
      exact ⟨manager.leafId, rfl, indexed.leaf⟩
  | branch branchFromId =>
    simp only [request] at done
    split at done
    next known =>
      cases done
      refine ⟨_, rfl, ?_⟩
      rintro target ⟨⟩
      exact (indexed.contains_iff _).mp known
    next => cases done
  | resetLeaf =>
    cases done
    exact ⟨none, rfl, by simp⟩
  | branchWithSummary branchFromId summary details fromHook usage =>
    simp only [request] at done
    split at done
    · cases done
    next known =>
      cases done
      refine ⟨_, rfl, fun target named => (indexed.contains_iff _).mp ?_⟩
      exact (unknown?_eq_none_iff _ _).mp known target named
  | _ =>
    cases done
    exact ⟨manager.leafId, rfl, indexed.leaf⟩

theorem request_appendable (fresh : manager.Fresh stamp) {entry : SessionTreeEntry}
    (done : manager.request stamp call = .ok (moved, some entry)) : Appendable moved entry := by
  cases call with
  | appendLabelChange targetId label =>
    simp only [request] at done
    split at done
    · cases done
      exact appendable_atLeaf indexed fresh (by simp)
    · cases done
  | appendEntry given =>
    simp only [request] at done
    split at done
    · cases done
    next unknown =>
      split at done
      · cases done
      next parent =>
        split at done
        · cases done
        next target =>
          cases done
          rw [unknown?_eq_none_iff] at parent target
          refine ⟨fun member => unknown ((indexed.contains_iff _).mpr member), ?_, ?_⟩
          · exact fun above named => (indexed.contains_iff _).mp (parent above named)
          · exact fun moved marker => (indexed.contains_iff _).mp
              (target moved (by rw [marker]; rfl))
  | branch branchFromId =>
    simp only [request] at done
    split at done
    · cases done
    · cases done
  | resetLeaf => cases done
  | branchWithSummary branchFromId summary details fromHook usage =>
    simp only [request] at done
    split at done
    · cases done
    next known =>
      cases done
      have there := indexed.move fun target named => (indexed.contains_iff _).mp
        ((unknown?_eq_none_iff _ _).mp known target named)
      exact appendable_atLeaf there fresh (by simp)
  | _ =>
    cases done
    exact appendable_atLeaf indexed fresh (by simp)

theorem indexed_perform (fresh : manager.Fresh stamp) : Indexed (manager.perform stamp call).1 := by
  unfold perform
  cases done : manager.request stamp call with
  | error message => exact indexed
  | ok result =>
    obtain ⟨moved, added⟩ := result
    obtain ⟨leafId, rfl, known⟩ := request_moves indexed done
    cases added with
    | none => exact indexed.move known
    | some entry => exact (indexed.move known).appendWritten (request_appendable indexed fresh done)

end

end SessionManager

end Recode.CodingAgent

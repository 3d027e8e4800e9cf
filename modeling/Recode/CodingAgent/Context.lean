import Recode.Session.BranchWalk

/-! # The model context in the coding agent

The coding agent builds contexts from complete paths. It climbs from a leaf as far
as parents are found, and represents the newest compaction by its summary, the
entries it kept, and everything appended since. -/

namespace Recode.CodingAgent

open Recode List

/-- The path from an entry, oldest entry first. On a tree no climb meets more entries than
the index holds. -/
def pathFrom (byId : EntryMap) (start : Option SessionTreeEntry) : List SessionTreeEntry :=
  (ParentChain.climb SessionTreeEntry.parentId byId.get? byId.entries.length start).reverse

/-- Which leaf a context is built for: the last entry, no entry, or a given one. -/
inductive LeafChoice where
  | unspecified
  | null
  | entry (id : EntryId)
deriving DecidableEq

/-- The path to a leaf. The last entry stands in for a leaf that is not found. -/
def buildSessionPath (entries : List SessionTreeEntry) (leafId : LeafChoice)
    (byId : EntryMap) : List SessionTreeEntry :=
  match leafId with
  | .null => []
  | .unspecified => pathFrom byId entries.getLast?
  | .entry id => pathFrom byId ((byId.get? id).or entries.getLast?)

def buildEntryIndex (entries : List SessionTreeEntry) : EntryMap :=
  InsertionMap.indexBy SessionTreeEntry.id entries

/-- The settings and messages of a context. -/
structure SessionContext where
  messages : List AgentMessage
  thinkingLevel : String
  model : Option ModelRef

/-- The thinking level and the model a path leaves in force. -/
def getSessionContextSettings (path : List SessionTreeEntry) : String × Option ModelRef :=
  path.foldl (fun settings entry =>
    match entry.body with
    | .thinkingLevelChange level => (level, settings.2)
    | .modelChange provider modelId => (settings.1, some ⟨provider, modelId⟩)
    | .message (.assistant message) => (settings.1, some ⟨message.provider, message.model⟩)
    | _ => settings) ("off", none)

def sessionEntryToContextMessages (entry : SessionTreeEntry) : List AgentMessage :=
  match entry.body with
  | .message message => [message]
  | .customMessage customType content display details =>
    [.custom customType content display details entry.timestamp]
  | .branchSummary data =>
    if data.summary ≠ "" then [.branchSummary data.summary data.fromId entry.timestamp] else []
  | .compaction data => [.compactionSummary data.summary data.tokensBefore entry.timestamp]
  | _ => []

def contextEntriesOfPath (path : List SessionTreeEntry) : List SessionTreeEntry :=
  match newestCompaction path with
  | none => path
  | some (compaction, data) =>
    let compactionIdx := path.findIdx fun entry => entry.id = compaction.id
    compaction :: keptEntries data.firstKeptEntryId (path.take compactionIdx) ++
      path.drop (compactionIdx + 1)

def buildContextEntries (entries : List SessionTreeEntry) (leafId : LeafChoice)
    (byId : EntryMap) : List SessionTreeEntry :=
  contextEntriesOfPath (buildSessionPath entries leafId byId)

def buildSessionContext (entries : List SessionTreeEntry) (leafId : LeafChoice)
    (byId : EntryMap) : SessionContext :=
  let settings := getSessionContextSettings (buildSessionPath entries leafId byId)
  { messages := (buildContextEntries entries leafId byId).flatMap sessionEntryToContextMessages
    thinkingLevel := settings.1
    model := settings.2 }

theorem contextEntriesOfPath_of_split {older newer : List SessionTreeEntry}
    {compaction : SessionTreeEntry} {data : CompactionData}
    (found : compaction.compaction? = some data)
    (newest : ∀ entry ∈ newer, entry.compaction? = none)
    (fresh : ∀ entry ∈ older, entry.id ≠ compaction.id) :
    contextEntriesOfPath (older ++ compaction :: newer) =
      compaction :: keptEntries data.firstKeptEntryId older ++ newer := by
  have named : newestCompaction (older ++ compaction :: newer) = some (compaction, data) :=
    (newestCompaction_eq_some_iff _ _ _).mpr ⟨older, newer, rfl, found, newest⟩
  have index : (older ++ compaction :: newer).findIdx
      (fun entry => entry.id = compaction.id) = older.length := by
    rw [findIdx_append, findIdx_eq_length_of_false]
    · simp [findIdx_cons]
    · intro entry member
      simp [fresh entry member]
  simp only [contextEntriesOfPath, named, index]
  have after : (older ++ compaction :: newer).drop (older.length + 1) = newer := by
    rw [drop_append]
    simp
  have before : (older ++ compaction :: newer).take older.length = older := by simp
  rw [after, before]

theorem contextEntriesOfPath_of_none {path : List SessionTreeEntry}
    (none : ∀ entry ∈ path, entry.compaction? = none) : contextEntriesOfPath path = path := by
  rw [← newestCompaction_eq_none_iff] at none
  rw [contextEntriesOfPath, none]

end Recode.CodingAgent

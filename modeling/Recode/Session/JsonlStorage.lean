import Recode.Session.MemoryStorage

/-! # The file-backed storage

The lines of a session file hold one entry each, in the order of their writing.
In memory the storage keeps what the in-memory storage keeps, and an entry is
written to the file before it is published there. -/

namespace Recode

open EntryTree

/-- A storage that writes each entry to a file. Its header line is left out. -/
structure JsonlSessionStorage extends InMemorySessionStorage where
  file : List SessionTreeEntry

namespace JsonlSessionStorage

/-- Read a storage from the entries of its file. -/
def loadJsonlStorage (file : List SessionTreeEntry) : JsonlSessionStorage where
  entries := file
  byId := InsertionMap.indexBy SessionTreeEntry.id file
  labelsById := buildLabelsById file
  leafId := file.foldl (fun _ entry => leafIdAfterEntry entry) none
  file := file

variable (storage : JsonlSessionStorage)

def appendFile (entry : SessionTreeEntry) : JsonlSessionStorage :=
  { storage with file := storage.file ++ [entry] }

/-- Publish a written entry, and move the leaf. -/
def publish (entry : SessionTreeEntry) : JsonlSessionStorage :=
  { storage with toInMemorySessionStorage := storage.toInMemorySessionStorage.appendEntry entry }

def appendEntry (entry : SessionTreeEntry) : JsonlSessionStorage :=
  (storage.appendFile entry).publish entry

def setLeafId (stamp : Stamp) (leafId : Option EntryId) : Except SessionError JsonlSessionStorage :=
  match unknown? storage.byId.contains leafId with
  | some missing => .error (.entryNotFound missing)
  | none => .ok (storage.appendEntry ⟨stamp.id, storage.leafId, stamp.timestamp, .leaf leafId⟩)

instance : SessionStorage JsonlSessionStorage where
  getLeafId := fun storage => storage.toInMemorySessionStorage.getLeafId
  setLeafId := setLeafId
  appendEntry := fun storage entry => .ok (storage.appendEntry entry)
  getEntry := fun storage => storage.toInMemorySessionStorage.getEntry
  getPathToRootOrCompaction := fun storage leafId =>
    Recode.getPathToRootOrCompaction storage.byId leafId
  getEntries := fun storage => storage.toInMemorySessionStorage.getEntries

theorem loadJsonlStorage_eq (file : List SessionTreeEntry) :
    loadJsonlStorage file = ⟨.afterAppending file, file⟩ := rfl

theorem exists_getBranch {storage : JsonlSessionStorage} {entries : List SessionTreeEntry}
    (appended : Appended entries)
    (memory : storage.toInMemorySessionStorage = .afterAppending entries) :
    ∃ path, CompletePath (InsertionMap.indexBy SessionTreeEntry.id entries)
        (leafIdAfter entries) path ∧
      Session.getBranch storage = .ok (loadedPath path) := by
  have known : ∀ id, leafIdAfter entries = some id →
      ((ofGrown entries appended.grows).byId.get? id).isSome := by
    intro id leaf
    obtain ⟨entry, -, -, found⟩ := GrownTree.Grows.find_of_mem_keys (appended.leaf_mem leaf)
      appended.grows
    rw [show (ofGrown entries appended.grows).byId.get? id = some entry from found]
    rfl
  obtain ⟨path, complete⟩ := (ofGrown entries appended.grows).exists_completePath known
  refine ⟨path, complete, ?_⟩
  change (storage.toInMemorySessionStorage.getLeafId >>= fun leafId =>
    Recode.getPathToRootOrCompaction storage.byId leafId) = _
  rw [memory, InMemorySessionStorage.getLeafId_afterAppending appended]
  exact (ofGrown entries appended.grows).getPathToRootOrCompaction_of_completePath
    complete

end JsonlSessionStorage
end Recode

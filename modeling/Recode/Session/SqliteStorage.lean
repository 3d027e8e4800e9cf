import Recode.Session.MemoryStorage

/-! # The SQLite storage

The tables of one session, its summary and its cache. The rows of a branch are written
when the branch becomes the active one, and from then on one row for every entry appended
to it. Statements have their relational meaning, and a transaction that fails leaves
nothing behind. The payload of a row stands for the JSON text of the fields that have no
column; reading the row gives them back. -/

namespace Recode

/-- A row of the table of entries. -/
structure SessionEntryRow where
  id : EntryId
  entrySeq : Nat
  parentId : Option EntryId
  timestamp : Nat
  payload : EntryBody

/-- A row of the table of branches. -/
structure BranchEntryRow where
  branchId : Nat
  entryId : EntryId
  entrySeq : Nat
deriving DecidableEq

/-- The tables of a session. -/
structure SqliteDatabase where
  sessionEntries : List SessionEntryRow
  branchEntries : List BranchEntryRow
  nextSeq : Nat

/-- Why a transaction is rolled back. -/
inductive Rollback where
  | session (error : SessionError)
  /-- A statement fails, such as one that violates a primary key. -/
  | database

namespace SessionError

def invalidSqliteSession (message : String) : SessionError :=
  ⟨.invalidSession, "Invalid SQLite session: " ++ message⟩

def invalidSqliteEntry (message : String) : SessionError :=
  ⟨.invalidEntry, "Invalid SQLite session entry: " ++ message⟩

end SessionError

open SessionError

/-- Check the content of an entry or a row. Of the checks only that of a compaction can
fail on typed content. -/
def validateSessionTreeEntry (id : EntryId) (body : EntryBody) : Except SessionError EntryBody :=
  match body with
  | .compaction data =>
    if data.firstKeptEntryId.isNone then
      .error (invalidSqliteEntry ("entry " ++ id.text ++ " has invalid compaction payload"))
    else .ok body
  | _ => .ok body

def encodeEntry (entry : SessionTreeEntry) : Except SessionError EntryBody :=
  validateSessionTreeEntry entry.id entry.body

def decodeEntry (row : SessionEntryRow) : Except SessionError SessionTreeEntry :=
  (validateSessionTreeEntry row.id row.payload).map fun body =>
    ⟨row.id, row.parentId, row.timestamp, body⟩

def decodeEntryRows (rows : List SessionEntryRow) : List SessionTreeEntry :=
  rows.filterMap fun row => (decodeEntry row).toOption

namespace SqliteDatabase

variable (db : SqliteDatabase)

def findRow (id : EntryId) : Option SessionEntryRow :=
  db.sessionEntries.find? fun row => row.id = id

/-- The rows of the entries in the order of their sequence numbers. -/
def orderedRows : List SessionEntryRow :=
  db.sessionEntries.insertionSort fun row other => row.entrySeq ≤ other.entrySeq

/-- The rows of a branch in the order of their sequence numbers. -/
def branchRows (branchId : Nat) : List BranchEntryRow :=
  (db.branchEntries.filter fun row => row.branchId = branchId).insertionSort
    fun row other => row.entrySeq ≤ other.entrySeq

def hasExistingChild (parentId : Option EntryId) : Bool :=
  db.sessionEntries.any fun row => row.parentId = parentId

/-- Insert a row for an entry. Identifiers and sequence numbers are unique. -/
def insertEntryRow (row : SessionEntryRow) : Except Rollback SqliteDatabase :=
  if db.sessionEntries.any fun other => other.id = row.id ∨ other.entrySeq = row.entrySeq then
    .error .database
  else .ok { db with sessionEntries := db.sessionEntries ++ [row] }

/-- Insert a row for a branch, which holds an entry at most once. -/
def insertBranchRow (row : BranchEntryRow) : Except Rollback SqliteDatabase :=
  if db.branchEntries.any fun other =>
      other.branchId = row.branchId ∧ other.entryId = row.entryId then
    .error .database
  else .ok { db with branchEntries := db.branchEntries ++ [row] }

end SqliteDatabase

/-- The summary of a session that is kept up to date with every entry. -/
structure SessionMaterializedState extends SessionStats where
  name : Option String
  labelsById : LabelMap

namespace SessionMaterializedState

/-- The summary of an empty session. -/
def empty : SessionMaterializedState :=
  { SessionStats.zero with name := none, labelsById := .empty }

def addUsage (state : SessionMaterializedState) : Option Usage → SessionMaterializedState
  | none => state
  | some usage => { state with toSessionStats := state.toSessionStats.addUsage usage }

end SessionMaterializedState

/-- Bring the summary up to date with an entry. -/
def applyEntryToMaterializedState (state : SessionMaterializedState) (entry : SessionTreeEntry) :
    SessionMaterializedState :=
  match entry.body with
  | .sessionInfo name => { state with name := Text.truthy (name.map Text.trim) }
  | .label targetId label =>
    match Text.truthy (label.map Text.trim) with
    | some label => { state with labelsById := state.labelsById.insert targetId label }
    | none => { state with labelsById := state.labelsById.erase targetId }
  | .message message =>
    let counted := { state with messageCount := state.messageCount + 1 }
    match message with
    | .assistant message => counted.addUsage (some message.usage)
    | _ => counted
  | .compaction data => state.addUsage data.usage
  | .branchSummary data => state.addUsage data.usage
  | _ => state

/-- The storage that keeps a session in SQLite. Generated branch identifiers never repeat;
here they are numbered. -/
structure SqliteSessionStorage where
  sessionId : String
  db : SqliteDatabase
  byId : EntryMap
  materializedState : SessionMaterializedState
  currentLeafId : Option EntryId
  activeBranchId : Option Nat
  nextBranchId : Nat

namespace SqliteSessionStorage

/-- A storage for a new session. -/
def create (sessionId : String) : SqliteSessionStorage where
  sessionId := sessionId
  db := ⟨[], [], 1⟩
  byId := .empty
  materializedState := .empty
  currentLeafId := none
  activeBranchId := none
  nextBranchId := 0

variable (storage : SqliteSessionStorage)

def getEntry (id : EntryId) : Option SessionTreeEntry :=
  (storage.byId.get? id).or ((storage.db.findRow id).bind fun row => (decodeEntry row).toOption)

/-- Climb from a leaf. A climb that meets more than twice the number of entries has met one
of them twice with the same boundary. -/
def getPathToRootOrCompactionEntries (leafId : Option EntryId) :
    Except SessionError (List SessionTreeEntry) :=
  match leafId with
  | none => .ok []
  | some id =>
    match storage.getEntry id with
    | none => .error (.entryNotFound id)
    | some current =>
      climb storage.getEntry
        (2 * (storage.byId.entries.length + storage.db.sessionEntries.length) + 1) none current []

def missingEntryRow (id : EntryId) : Rollback :=
  .session (invalidSqliteSession
    ("missing entry row for session " ++ storage.sessionId ++ " entry " ++ id.text))

def insertBranchEntry (branchId : Nat) (db : SqliteDatabase) (entry : SessionTreeEntry) :
    Except Rollback SqliteDatabase :=
  match storage.db.findRow entry.id with
  | none => .error (storage.missingEntryRow entry.id)
  | some row => db.insertBranchRow ⟨branchId, entry.id, row.entrySeq⟩

/-- Write the rows of the branch of a leaf, and make the branch the active one. -/
def materializeBranch (leafId : Option EntryId) : Except Rollback SqliteSessionStorage := do
  let branchId := storage.nextBranchId
  let path ← (storage.getPathToRootOrCompactionEntries leafId).mapError .session
  let db ← path.foldlM (storage.insertBranchEntry branchId) storage.db
  return { storage with db, activeBranchId := some branchId, nextBranchId := branchId + 1 }

/-- Write the row of an entry at the end of the active branch. -/
def appendToActiveBranch (entryId : EntryId) (parentId : Option EntryId) :
    Except Rollback SqliteSessionStorage := do
  let active ← if storage.activeBranchId.isSome then .ok storage
    else storage.materializeBranch parentId
  match active.activeBranchId with
  | none => .error (.session (invalidSqliteSession
      ("active branch missing for session " ++ storage.sessionId)))
  | some branchId =>
    match active.db.findRow entryId with
    | none => .error (storage.missingEntryRow entryId)
    | some row =>
      let db ← active.db.insertBranchRow ⟨branchId, entryId, row.entrySeq⟩
      return { active with db }

/-- The storage with an entry in its tables, its summary and its cache, before the entry
is in the active branch. -/
def insertEntry (entry : SessionTreeEntry) (payload : EntryBody) :
    Except Rollback SqliteSessionStorage := do
  let nextSeq := storage.db.nextSeq
  let db ← storage.db.insertEntryRow
    ⟨entry.id, nextSeq, entry.parentId, entry.timestamp, payload⟩
  return { storage with
    db := { db with nextSeq := nextSeq + 1 }
    byId := storage.byId.insert entry.id entry
    materializedState := applyEntryToMaterializedState storage.materializedState entry
    currentLeafId := leafIdAfterEntry entry }

/-- Make the branch active that an inserted entry extends. A leaf entry switches the branch,
and an entry under a parent with a child begins one. -/
def activateBranch (entry : SessionTreeEntry) (parentHadExistingChild : Bool) :
    Except Rollback SqliteSessionStorage :=
  match entry.body with
  | .leaf targetId => materializeBranch { storage with activeBranchId := none } targetId
  | _ =>
    if parentHadExistingChild then storage.materializeBranch entry.parentId else .ok storage

def appendTransaction (entry : SessionTreeEntry) (payload : EntryBody) :
    Except Rollback SqliteSessionStorage := do
  let parentHadExistingChild := storage.db.hasExistingChild entry.parentId
  let inserted ← storage.insertEntry entry payload
  let active ← inserted.activateBranch entry parentHadExistingChild
  active.appendToActiveBranch entry.id entry.parentId

def appendEntry (entry : SessionTreeEntry) : Except SessionError SqliteSessionStorage := do
  let payload ← encodeEntry entry
  match storage.appendTransaction entry payload with
  | .ok next => .ok next
  | .error (.session error) => .error error
  | .error .database =>
    .error ⟨.storage, "Failed to append SQLite session entry " ++ entry.id.text⟩

def getLeafId : Except SessionError (Option EntryId) := .ok storage.currentLeafId

def setLeafId (stamp : Stamp) (leafId : Option EntryId) :
    Except SessionError SqliteSessionStorage :=
  match unknown? (fun id => (storage.getEntry id).isSome) leafId with
  | some missing => .error (.entryNotFound missing)
  | none => storage.appendEntry
      ⟨stamp.id, storage.currentLeafId, stamp.timestamp, .leaf leafId⟩

def findEntries (type : EntryType) : List SessionTreeEntry :=
  decodeEntryRows (storage.db.orderedRows.filter fun row => row.payload.type = type)

def getLabel (id : EntryId) : Option String := storage.materializedState.labelsById.get? id

def getSessionName : Option String := storage.materializedState.name

def getSessionStats : SessionStats := storage.materializedState.toSessionStats

def branchEntry (row : BranchEntryRow) : Except SessionError SessionTreeEntry :=
  match storage.byId.get? row.entryId with
  | some cached => .ok cached
  | none =>
    match storage.db.findRow row.entryId with
    | none => .error (invalidSqliteSession
        ("missing entry row for branch entry " ++ row.entryId.text))
    | some entryRow =>
      (decodeEntry entryRow).mapError fun _ => invalidSqliteSession
        ("invalid entry row for branch entry " ++ row.entryId.text)

def getMaterializedBranchPathOrCompaction (branchId : Nat) :
    Except SessionError (List SessionTreeEntry) := do
  let entries ← (storage.db.branchRows branchId).mapM storage.branchEntry
  return entries.filter fun entry => entry.body.type ≠ .leaf

def getPathToRootOrCompaction (leafId : Option EntryId) :
    Except SessionError (List SessionTreeEntry) :=
  match leafId with
  | none => .ok []
  | some id =>
    if leafId = storage.currentLeafId then
      match storage.activeBranchId with
      | none => .error (invalidSqliteSession
          ("missing active branch for session " ++ storage.sessionId ++ " leaf " ++ id.text))
      | some branchId => storage.getMaterializedBranchPathOrCompaction branchId
    else storage.getPathToRootOrCompactionEntries leafId

/-- All entries, or the last ones up to a sequence number when there is a limit. -/
def getEntries (options : SessionEntryCursorOptions) : List SessionTreeEntry :=
  match options.limit with
  | none => decodeEntryRows storage.db.orderedRows
  | some limit =>
    match options.afterEntrySeq.or
      (storage.db.orderedRows.getLast?.map SessionEntryRow.entrySeq) with
    | none => []
    | some beforeOrAtEntrySeq =>
      (decodeEntryRows ((storage.db.orderedRows.filter fun row =>
        row.entrySeq ≤ beforeOrAtEntrySeq).reverse.take limit)).reverse

instance : SessionStorage SqliteSessionStorage where
  getLeafId := getLeafId
  setLeafId := setLeafId
  appendEntry := appendEntry
  getEntry := getEntry
  getPathToRootOrCompaction := getPathToRootOrCompaction
  getEntries := getEntries

end SqliteSessionStorage
end Recode

import Recode.MemoryIndex.Chunker

/-! # The tables of the memory index

Documents, their chunks, and the rows of the full-text search. The statements mean
what they mean over the tables; a transaction takes effect as a whole or not at all.
The link from a chunk to its document is enforced by some engines only. -/

namespace Recode.MemoryIndex

structure RecodeMemoryDocument where
  id : String
  scope : RecodeMemoryScope
  path : String
  hash : String
  mtimeMs : Rat
deriving DecidableEq

/-- A row of `recode_memory_documents`. -/
structure DocumentRow where
  document : RecodeMemoryDocument
  updatedAt : Int
deriving DecidableEq

/-- A row of `recode_memory_chunks`. -/
structure ChunkRow where
  chunk : RecodeMemoryChunk
  updatedAt : Int
deriving DecidableEq

/-- A row of `recode_memory_fts`. -/
structure FtsRow where
  id : String
  path : String
  text : String
deriving DecidableEq

structure Database where
  foreignKeys : Bool
  documents : List DocumentRow := []
  chunks : List ChunkRow := []
  fts : List FtsRow := []

/-- What a transaction leaves: the tables, and the error it was rolled back for. -/
abbrev Outcome := Database × Option String

namespace Database

def getDocument (db : Database) (path : String) : Option RecodeMemoryDocument :=
  (db.documents.find? fun row => row.document.path = path).map DocumentRow.document

def chunksOf (db : Database) (documentId : String) : List ChunkRow :=
  db.chunks.filter fun row => row.chunk.documentId = documentId

def deleteFts (db : Database) (id : String) : Database :=
  { db with fts := db.fts.filter fun row => row.id ≠ id }

def deleteChunks (db : Database) (documentId : String) : Database :=
  { db with chunks := db.chunks.filter fun row => row.chunk.documentId ≠ documentId }

def deleteDocument (db : Database) (id : String) : Database :=
  { db with documents := db.documents.filter fun row => row.document.id ≠ id }

def deleteChunksOf (db : Database) (documentId : String) : Database :=
  ((db.chunksOf documentId).foldl (fun db row => db.deleteFts row.chunk.id) db).deleteChunks
    documentId

/-- Inserts a document, or updates the one with its path. An update changes the id as
well, which no chunk may refer to when links are enforced. -/
def upsertDocument (db : Database) (row : DocumentRow) : Except String Database :=
  match db.getDocument row.document.path with
  | some old =>
    if db.documents.any fun other =>
        other.document.id = row.document.id && other.document.path ≠ row.document.path then
      .error "UNIQUE constraint failed: recode_memory_documents.id"
    else if db.foreignKeys && old.id ≠ row.document.id && !(db.chunksOf old.id).isEmpty then
      .error "FOREIGN KEY constraint failed"
    else
      .ok
        { db with
          documents := db.documents.map fun other =>
            if other.document.path = row.document.path then row else other }
  | none =>
    if db.documents.any fun other => other.document.id = row.document.id then
      .error "UNIQUE constraint failed: recode_memory_documents.id"
    else .ok { db with documents := db.documents ++ [row] }

def insertChunk (db : Database) (row : ChunkRow) : Except String Database :=
  if db.chunks.any fun other => other.chunk.id = row.chunk.id then
    .error "UNIQUE constraint failed: recode_memory_chunks.id"
  else if db.foreignKeys &&
      !(db.documents.any fun document => document.document.id = row.chunk.documentId) then
    .error "FOREIGN KEY constraint failed"
  else .ok { db with chunks := db.chunks ++ [row] }

def insertFts (db : Database) (row : FtsRow) : Database :=
  { db with fts := db.fts ++ [row] }

def ftsRow (chunk : RecodeMemoryChunk) : FtsRow :=
  { id := chunk.id, path := chunk.path, text := chunk.text }

def insertChunks (db : Database) (now : Int) : List RecodeMemoryChunk → Except String Database
  | [] => .ok db
  | chunk :: chunks =>
    match db.insertChunk { chunk := chunk, updatedAt := now } with
    | .ok db => (db.insertFts (ftsRow chunk)).insertChunks now chunks
    | .error error => .error error

def replaceStatements (db : Database) (document : RecodeMemoryDocument)
    (chunks : List RecodeMemoryChunk) (now : Int) : Except String Database :=
  match (db.deleteChunksOf document.id).upsertDocument
      { document := document, updatedAt := now } with
  | .ok db => db.insertChunks now chunks
  | .error error => .error error

/-- A transaction is rolled back for an error of its statements, or for a fault of the
engine at any of them. -/
def transaction (db : Database) (fault : Option String) (statements : Except String Database) :
    Outcome :=
  match statements, fault with
  | .error error, _ => (db, some error)
  | .ok _, some error => (db, some error)
  | .ok after, none => (after, none)

def replaceDocument (db : Database) (document : RecodeMemoryDocument)
    (chunks : List RecodeMemoryChunk) (now : Int) (fault : Option String) : Outcome :=
  db.transaction fault (db.replaceStatements document chunks now)

/-- What the platform says about paths: whether it is Windows, and the lower case of a
text. -/
structure Platform where
  win32 : Bool
  toLowerCase : String → String

/-- A path is a root or below it. -/
def isManaged (platform : Platform) (managedRoots : List String) (path : String) : Bool :=
  let comparable := fun text => if platform.win32 then platform.toLowerCase text else text
  managedRoots.any fun root =>
    comparable path = comparable root ||
      (comparable root ++ if platform.win32 then "\\" else "/").toList.isPrefixOf
        (comparable path).toList

def removeDocument (db : Database) (documentId : String) (fault : Option String) : Outcome :=
  db.transaction fault (.ok ((db.deleteChunksOf documentId).deleteDocument documentId))

def removeRows (platform : Platform) (paths managedRoots : List String)
    (faults : String → Option String) : List DocumentRow → Database → Outcome
  | [], db => (db, none)
  | row :: rows, db =>
    if isManaged platform managedRoots row.document.path && row.document.path ∉ paths then
      match db.removeDocument row.document.id (faults row.document.id) with
      | (db, some error) => (db, some error)
      | (db, none) => removeRows platform paths managedRoots faults rows db
    else removeRows platform paths managedRoots faults rows db

def removeMissing (db : Database) (platform : Platform) (paths managedRoots : List String)
    (faults : String → Option String) : Outcome :=
  removeRows platform paths managedRoots faults db.documents db

end Database

end Recode.MemoryIndex

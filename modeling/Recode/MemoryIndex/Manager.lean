import Recode.MemoryIndex.Store

/-! # Synchronizing the memory index

A sync lists the memory files of its roots, indexes those that changed, and removes
the documents of files that are gone. What it finds on the disk is given to it, with
the faults that its transactions meet. -/

namespace Recode.MemoryIndex

def RECODE_MEMORY_INDEX_VERSION : String := "entry-v2"

/-- A file that a root was found to hold: its path, what reading it gives, with the time
of its last change, and what its transaction meets. -/
structure FoundFile where
  path : String
  read : Except String (String × Rat)
  now : Int
  fault : Option String

structure MemoryFile where
  scope : RecodeMemoryScope
  found : FoundFile

/-- A sync with what it finds under its roots. -/
structure Sync where
  globalRoot : String
  projectRoot : String
  includeProject : Bool
  globalFiles : List FoundFile
  projectFiles : List FoundFile
  removalFaults : String → Option String

/-- The files of a sync in the order of their indexing. -/
def Sync.files (sync : Sync) : List MemoryFile :=
  sync.globalFiles.map (MemoryFile.mk .global) ++
    if sync.includeProject then sync.projectFiles.map (MemoryFile.mk .project) else []

def Sync.managedRoots (sync : Sync) : List String :=
  if sync.includeProject then [sync.globalRoot, sync.projectRoot] else [sync.globalRoot]

variable (digest : Digest)

def contentText (content : String) : String :=
  RECODE_MEMORY_INDEX_VERSION ++ "\x00" ++ content

def contentHash (content : String) : String :=
  digest.sha256 (contentText content)

def isUnchanged (previous : Option RecodeMemoryDocument) (content : String) (mtimeMs : Rat) :
    Bool :=
  match previous with
  | some document => document.hash = contentHash digest content && document.mtimeMs = mtimeMs
  | none => false

def documentOf (file : MemoryFile) (content : String) (mtimeMs : Rat) : RecodeMemoryDocument :=
  { id := recodeMemoryDocumentId digest file.scope file.found.path
    scope := file.scope
    path := file.found.path
    hash := contentHash digest content
    mtimeMs := mtimeMs }

def chunksOfFile (file : MemoryFile) (content : String) : List RecodeMemoryChunk :=
  chunkRecodeMemory digest (recodeMemoryDocumentId digest file.scope file.found.path) file.scope
    file.found.path content

def indexFile (db : Database) (file : MemoryFile) : Database × Except String Bool :=
  match file.found.read with
  | .error error => (db, .error error)
  | .ok (content, mtimeMs) =>
    if isUnchanged digest (db.getDocument file.found.path) content mtimeMs then (db, .ok false)
    else
      match db.replaceDocument (documentOf digest file content mtimeMs)
          (chunksOfFile digest file content) file.found.now file.found.fault with
      | (db, some error) => (db, .error error)
      | (db, none) => (db, .ok true)

/-- How many files were indexed and how many were unchanged. -/
structure SyncCounts where
  indexed : Nat := 0
  unchanged : Nat := 0
deriving DecidableEq

/-- Indexes the files one after the other, up to the first error. -/
def indexFiles : List MemoryFile → SyncCounts → Database → Database × Except String SyncCounts
  | [], counts, db => (db, .ok counts)
  | file :: files, counts, db =>
    match indexFile digest db file with
    | (db, .error error) => (db, .error error)
    | (db, .ok true) => indexFiles files { counts with indexed := counts.indexed + 1 } db
    | (db, .ok false) => indexFiles files { counts with unchanged := counts.unchanged + 1 } db

def performSync (platform : Database.Platform) (db : Database) (sync : Sync) :
    Database × Except String SyncCounts :=
  match indexFiles digest sync.files {} db with
  | (db, .error error) => (db, .error error)
  | (db, .ok counts) =>
    match db.removeMissing platform (sync.files.map fun file => file.found.path)
        sync.managedRoots sync.removalFaults with
    | (db, some error) => (db, .error error)
    | (db, none) => (db, .ok counts)

/-- The databases reached by syncs that are all admitted, from an empty one. -/
inductive Reached (platform : Database.Platform) (admits : Database → Sync → Prop) :
    Database → Prop
  | empty (foreignKeys : Bool) : Reached platform admits { foreignKeys := foreignKeys }
  | sync {db : Database} {sync : Sync} :
      Reached platform admits db → admits db sync →
        Reached platform admits (performSync digest platform db sync).1

end Recode.MemoryIndex

import Recode.Lib.Interruption
import Recode.Lib.Json.Indented
import Recode.Lib.Utf8

/-! # State files of the orchestrator

A state file is replaced by renaming a temporary file that was written completely, and the
value that it held before is kept in a backup next to it. Each call to the file system works,
throws or is the last thing the process does. -/

namespace Recode.Orchestrator.Storage

open Function Procedure Stop

/-- The files next to each other: the state file, its backup and the temporary files. -/
inductive FileName where
  | current
  | backup
  | temporary (serial : Nat)
deriving DecidableEq, Repr

inductive StorageDiagnosticCode where
  | backupInvalid
  | backupRecovered
  | currentInvalid
  | stateUnrecoverable
deriving DecidableEq, Repr

structure StorageDiagnostic where
  code : StorageDiagnosticCode
  path : FileName
deriving DecidableEq, Repr

/-- What the functions throw. -/
inductive StorageError where
  | orchestratorStorage (path : FileName) (message : String)
  | syntaxError
  | fileSystem
deriving DecidableEq, Repr

/-- The file system, the process that uses it and what comes of its next calls. When none is
left, all calls work. -/
structure World where
  files : FileName → Option (List UInt8) := fun _ => none
  orchestratorDir : Bool := false
  serial : Nat := 0
  descriptor : Bool := false
  directoryDescriptor : Bool := false
  storageDiagnostics : List StorageDiagnostic := []
  outcomes : List Outcome := []

abbrev Calls (Result : Type) := Procedure World (Stop StorageError) Result

/-- The most diagnostics that are kept. -/
def diagnosticLimit : Nat := 100

def recordDiagnostic (code : StorageDiagnosticCode) (path : FileName) : Calls Unit :=
  modify fun world =>
    let recorded := world.storageDiagnostics ++ [⟨code, path⟩]
    { world with storageDiagnostics := recorded.drop (recorded.length - diagnosticLimit) }

/-! ## The file system -/

def call (change : World → World) (partly : Nat → World → World) : Calls Unit := do
  let world ← get
  let next : World → World := fun after => { after with outcomes := world.outcomes.tail }
  match world.outcomes.headD .works with
  | .works => set (next (change world))
  | .throws part => do
    set (next (partly part world))
    throw (threw .fileSystem)
  | .crashes part => do
    set (next (partly part world))
    throw crashed

/-- A call that does its work at once. When it does not work, it may have done it or not. -/
def atomically (change : World → World) : Calls Unit :=
  call change fun part world => if part = 0 then world else change world

def World.write (world : World) (name : FileName) (bytes : List UInt8) : World :=
  { world with files := update world.files name (some bytes) }

def World.remove (world : World) (name : FileName) : World :=
  { world with files := update world.files name none }

def World.rename (world : World) (source target : FileName) : World :=
  let moved := update world.files target (world.files source)
  { world with files := update moved source none }

variable (world : World)

@[simp] theorem files_write (name other : FileName) (bytes : List UInt8) :
    (world.write name bytes).files other =
      if other = name then some bytes else world.files other :=
  update_apply ..

@[simp] theorem files_remove (name other : FileName) :
    (world.remove name).files other = if other = name then none else world.files other :=
  update_apply ..

@[simp] theorem files_rename (source target other : FileName) :
    (world.rename source target).files other = if other = source then none
      else if other = target then world.files source else world.files other := by
  simp only [World.rename, update_apply]

def existsSync (name : FileName) : Calls Bool := do
  return ((← get).files name).isSome

/-- Open a file that must not exist yet. -/
def openSync (name : FileName) : Calls Unit := do
  let world ← get
  if world.orchestratorDir && (world.files name).isNone then
    atomically (·.write name [])
  else throw (threw .fileSystem)

def openDirectorySync : Calls Unit := do
  if (← get).orchestratorDir then atomically id else throw (threw .fileSystem)

def writeFileSync (name : FileName) (bytes : List UInt8) : Calls Unit :=
  call (·.write name bytes) fun part world => world.write name (bytes.take part)

def fsyncSync : Calls Unit := atomically id

def closeSync : Calls Unit := atomically id

def renameSync (source target : FileName) : Calls Unit := do
  if ((← get).files source).isSome then atomically (·.rename source target)
  else throw (threw .fileSystem)

def rmSync (name : FileName) : Calls Unit := atomically (·.remove name)

def mkdirSync : Calls Unit := atomically fun world => { world with orchestratorDir := true }

def readFileSync (name : FileName) : Calls (List UInt8) := do
  atomically id
  match (← get).files name with
  | some bytes => return bytes
  | none => throw (threw .fileSystem)

/-! ## Saving and loading -/

def ensureOrchestratorDir : Calls Unit := do
  if !(← get).orchestratorDir then mkdirSync

def savedText (value : Json) : List Char := value.indented 0 ++ ['\n']

/-- What a state file holds when a value was saved in it. -/
def persisted (value : Json) : List UInt8 := Utf8.encode (savedText value)

def parseValidated (validate : Json → Bool) (path : FileName) : Calls Json := do
  let bytes ← readFileSync path
  match Json.parse (Utf8.decode bytes) with
  | none => throw (threw .syntaxError)
  | some value =>
    if validate value then return value
    else throw (threw (.orchestratorStorage path
      "Persisted state failed schema or bounds validation"))

def readCurrent (validate : Json → Bool) : Calls (Option Json) := do
  if ← existsSync .current then
    attempt (some <$> parseValidated validate .current) fun _ => do
      recordDiagnostic .currentInvalid .current
      return none
  else return none

def recoverBackup (validate : Json → Bool) : Calls (Option Json) := do
  if ← existsSync .backup then
    attempt (do
      let recovered ← parseValidated validate .backup
      recordDiagnostic .backupRecovered .backup
      return some recovered) fun _ => do
        recordDiagnostic .backupInvalid .backup
        return none
  else return none

def unrecoverable : StorageError :=
  .orchestratorStorage .current "Persisted state and backup are unavailable or invalid"

def loadValidated (validate : Json → Bool) (fallback : Option Json) : Calls (Option Json) := do
  if let some value ← readCurrent validate then return some value
  if let some recovered ← recoverBackup validate then return some recovered
  if !(← existsSync .current) then return fallback
  recordDiagnostic .stateUnrecoverable .current
  throw (threw unrecoverable)

/-- A directory that cannot be flushed is left as it is, but closing it may throw. -/
def flushDirectory : Calls Unit := do
  modify fun world => { world with directoryDescriptor := false }
  ensuring
    (attempt (do
      openDirectorySync
      modify fun world => { world with directoryDescriptor := true }
      fsyncSync) fun _ => return ())
    (do if (← get).directoryDescriptor then closeSync)

def replaceThrough (temporaryPath path : FileName) (text : List Char) : Calls Unit := do
  openSync temporaryPath
  modify fun world => { world with descriptor := true }
  writeFileSync temporaryPath (Utf8.encode text)
  fsyncSync
  closeSync
  modify fun world => { world with descriptor := false }
  renameSync temporaryPath path
  flushDirectory

def discard (temporaryPath : FileName) : Calls Unit := do
  if (← get).descriptor then closeSync
  if ← existsSync temporaryPath then rmSync temporaryPath

def atomicWriteText (path : FileName) (text : List Char) : Calls Unit := do
  let serial := (← get).serial
  modify fun world => { world with serial := world.serial + 1, descriptor := false }
  ensuring (replaceThrough (.temporary serial) path text) (discard (.temporary serial))

/-- The value of the current file becomes the backup before the new value takes its place.
What goes wrong with the backup is recorded and does not stop the save. -/
def saveValidated (validate : Json → Bool) (value : Json) : Calls Unit := do
  if !validate value then
    throw (threw (.orchestratorStorage .current
      "Refusing to persist state that violates schema or bounds"))
  ensureOrchestratorDir
  if ← existsSync .current then
    attempt (do
      let current ← parseValidated validate .current
      atomicWriteText .backup (savedText current)) fun _ =>
        recordDiagnostic .currentInvalid .current
  atomicWriteText .current (savedText value)

end Recode.Orchestrator.Storage

import Recode.Lib.FileTree
import Recode.Lib.Procedure
import Recode.Lib.Utf8

/-! # Workspace edits inside a project

A server asks for changes of texts and of files. In project-only mode all their paths are checked
before the first change; the changes are then applied one after the other, each by some operations
of the file system. -/

namespace Recode.Lsp

open Procedure

/-- An operation that changes the file system, with its paths. -/
inductive FileOperation
  | writeFile (path : List String)
  | mkdir (path : List String)
  | rm (path : List String)
  | rename (oldPath newPath : List String)
deriving DecidableEq

/-- The file system, the places that were created, written, renamed or removed, and the operations
that were performed, each with the tree it met. -/
structure FileSystem where
  tree : FileTree
  touched : List (List String) := []
  performed : List (FileTree × FileOperation) := []

/-- An edit throws an error of its own, or the system refuses an operation. -/
inductive EditError
  | thrown (message : String)
  | system
deriving DecidableEq

abbrev EditProcedure (Result : Type) := Procedure FileSystem EditError Result

inductive ResourceChange
  | create (path : List String) (overwrite ignoreIfExists : Bool)
  | rename (oldPath newPath : List String) (overwrite ignoreIfExists : Bool)
  | delete (path : List String) (recursive ignoreIfNotExists : Bool)
deriving DecidableEq

inductive DocumentChange (Edit : Type)
  | text (path : List String) (edits : List Edit)
  | resource (change : ResourceChange)

structure WorkspaceEdit (Edit : Type) where
  changes : Option (List (List String × List Edit)) := none
  documentChanges : Option (List (DocumentChange Edit)) := none

/-- A path as it is written. -/
def pathText (path : List String) : String := "/" ++ String.intercalate "/" path.reverse

def isWithin (root candidate : List String) : Bool := root.isSuffixOf candidate

def displayPath (filePath cwd : List String) : String :=
  let relative := String.intercalate "/" (filePath.take (filePath.length - cwd.length)).reverse
  if isWithin cwd filePath && relative ≠ "" && !relative.startsWith ".." then relative
  else pathText filePath

section Paths

variable (links : Nat) (tree : FileTree)

def realpath (path : List String) : Option (List String) := (tree.resolve links path).place?

def exists_ (path : List String) : Bool := (realpath links tree path).isSome

def nearestExistingPath : List String → List String
  | [] => []
  | name :: parent =>
    if exists_ links tree (name :: parent) then name :: parent else nearestExistingPath parent

def assertLspPathInProject (filePath cwd : List String) : Except EditError Unit :=
  if !isWithin cwd filePath then
    .error (.thrown
      ("LSP project-only mode blocked path outside the project: " ++ pathText filePath))
  else
    match realpath links tree cwd,
        realpath links tree (nearestExistingPath links tree filePath) with
    | some realRoot, some realAncestor =>
      if isWithin realRoot realAncestor then .ok ()
      else .error (.thrown
        ("LSP project-only mode blocked path through a symlink outside the project: " ++
          pathText filePath))
    | _, _ => .error .system

end Paths

def ResourceChange.paths : ResourceChange → List (List String)
  | .create path _ _ => [path]
  | .rename oldPath newPath _ _ => [oldPath, newPath]
  | .delete path _ _ => [path]

def DocumentChange.paths {Edit : Type} : DocumentChange Edit → List (List String)
  | .text path _ => [path]
  | .resource change => change.paths

def WorkspaceEdit.paths {Edit : Type} (edit : WorkspaceEdit Edit) : List (List String) :=
  (edit.changes.getD []).map Prod.fst ++ (edit.documentChanges.getD []).flatMap DocumentChange.paths

def validateLspWorkspaceEditProjectBoundary {Edit : Type} (links : Nat) (tree : FileTree)
    (edit : WorkspaceEdit Edit) (cwd : List String) : Except EditError Unit :=
  edit.paths.forM fun path => assertLspPathInProject links tree path cwd

def operate (operation : FileOperation)
    (run : FileTree → Option (FileTree × List (List String))) : EditProcedure Unit :=
  ExceptT.mk fun state =>
    let performed := state.performed ++ [(state.tree, operation)]
    match run state.tree with
    | none => (.error .system, { state with performed := performed })
    | some (tree, touched) =>
      (.ok (), { tree := tree, touched := state.touched ++ touched, performed := performed })

section Operations

variable (links : Nat)

def writeFile (path : List String) (content : List UInt8) : EditProcedure Unit :=
  operate (.writeFile path) fun tree =>
    (tree.writeFile links path content).map fun (next, place) => (next, [place])

def mkdir (path : List String) : EditProcedure Unit :=
  operate (.mkdir path) fun tree =>
    (tree.makeDirectories links path).map fun (next, _, made) => (next, made)

def rm (path : List String) (recursive force : Bool) : EditProcedure Unit :=
  operate (.rm path) fun tree => tree.removeEntry links path recursive force

def rename (oldPath newPath : List String) : EditProcedure Unit :=
  operate (.rename oldPath newPath) fun tree => tree.rename links oldPath newPath

def existsNow (path : List String) : EditProcedure Bool := do
  return exists_ links (← get).tree path

/-- What is at the target of a rename gives way. -/
def removeExisting (there : Bool) (path : List String) : EditProcedure Unit :=
  if there then rm links path true true else pure ()

def applyResourceChange (cwd : List String) : ResourceChange → EditProcedure String
  | .create filePath overwrite ignoreIfExists => do
    let there ← existsNow links filePath
    if there && ignoreIfExists then return "Skipped existing " ++ displayPath filePath cwd
    else if there && !overwrite then
      throw (.thrown ("Cannot create existing file: " ++ displayPath filePath cwd))
    else
      mkdir links filePath.tail
      writeFile links filePath []
      return "Created " ++ displayPath filePath cwd
  | .rename oldPath newPath overwrite ignoreIfExists => do
    let there ← existsNow links newPath
    if there && ignoreIfExists then return "Skipped existing " ++ displayPath newPath cwd
    else if there && !overwrite then
      throw (.thrown ("Cannot overwrite existing file: " ++ displayPath newPath cwd))
    else
      removeExisting links there newPath
      mkdir links newPath.tail
      rename links oldPath newPath
      return "Renamed " ++ displayPath oldPath cwd ++ " -> " ++ displayPath newPath cwd
  | .delete filePath recursive ignoreIfNotExists => do
    let there ← existsNow links filePath
    if !there && ignoreIfNotExists then return "Skipped missing " ++ displayPath filePath cwd
    else
      rm links filePath recursive false
      return "Deleted " ++ displayPath filePath cwd

end Operations

section Edits

variable {Edit : Type} (links : Nat)
variable (sortAndValidateTextEdits : List Edit → Except String (List Edit))
variable (applyTextEditsToString : String → List Edit → Except String String)

/-- A file is read as a text and written again. What is not UTF-8 in it is lost. -/
def applyTextEdits (filePath : List String) (edits : List Edit) : EditProcedure Unit := do
  match (← get).tree.readFile links filePath with
  | none => throw .system
  | some content =>
    match applyTextEditsToString (String.ofList (Utf8.decode content)) edits with
    | .error message => throw (.thrown message)
    | .ok text => writeFile links filePath (Utf8.encode text.toList)

/-- Apply the edits of a text and tell how many there are. -/
def applyToText (cwd filePath : List String) (edits : List Edit) : EditProcedure String := do
  applyTextEdits links applyTextEditsToString filePath edits
  return "Applied " ++ toString edits.length ++ " edit(s) to " ++ displayPath filePath cwd

def applyDocumentChange (cwd : List String) : DocumentChange Edit → EditProcedure String
  | .text filePath edits => applyToText links applyTextEditsToString cwd filePath edits
  | .resource change => applyResourceChange links cwd change

def applyDocumentChanges (cwd : List String) :
    List (DocumentChange Edit) → EditProcedure (List String)
  | [] => pure []
  | change :: changes => do
    let applied ← applyDocumentChange links applyTextEditsToString cwd change
    let others ← applyDocumentChanges cwd changes
    return applied :: others

def applyChanges (cwd : List String) :
    List (List String × List Edit) → EditProcedure (List String)
  | [] => pure []
  | (filePath, edits) :: changes => do
    if edits.isEmpty then applyChanges cwd changes
    else
      let applied ← applyToText links applyTextEditsToString cwd filePath edits
      let others ← applyChanges cwd changes
      return applied :: others

/-- The edits of each text are ones that can be applied together. -/
def validateEdits (edits : List (List Edit)) : Except EditError Unit :=
  edits.forM fun edits =>
    match sortAndValidateTextEdits edits with
    | .error message => .error (.thrown message)
    | .ok _ => .ok ()

def DocumentChange.edits? : DocumentChange Edit → Option (List Edit)
  | .text _ edits => some edits
  | .resource _ => none

def applyWorkspaceEdit (edit : WorkspaceEdit Edit) (cwd : List String) (projectOnly : Bool) :
    EditProcedure (List String) := do
  let tree := (← get).tree
  check (if projectOnly then
    validateLspWorkspaceEditProjectBoundary links tree edit cwd else .ok ())
  match edit.documentChanges with
  | some changes =>
    check
      (validateEdits sortAndValidateTextEdits (changes.filterMap DocumentChange.edits?))
    applyDocumentChanges links applyTextEditsToString cwd changes
  | none =>
    let changes := edit.changes.getD []
    check (validateEdits sortAndValidateTextEdits (changes.map Prod.snd))
    applyChanges links applyTextEditsToString cwd changes

end Edits

end Recode.Lsp

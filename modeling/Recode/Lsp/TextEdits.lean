import Recode.Lib.Lines
import Recode.Lib.Utf16
import Recode.Lsp.BoundaryGuarantees
import Mathlib.Data.List.Sort

/-! # Text edits of a language server

The edits of a text are sorted so that the last one comes first, and applied one after the other
to the lines of the text, which are strings of UTF-16 code units. A workspace edit of texts is
applied one text after the other, and what was written stays written when a later text fails. -/

namespace Recode.Lsp

open Option Procedure List FileTree

/-- A position in a text. Both numbers begin at 0, if a server keeps to that. -/
structure LspPosition where
  line : Int
  character : Int
deriving DecidableEq

structure LspRange where
  start : LspPosition
  end_ : LspPosition
deriving DecidableEq

structure LspTextEdit where
  range : LspRange
  newText : String
deriving DecidableEq

def comparePosition (left right : LspPosition) : Int :=
  if left.line = right.line then left.character - right.character else left.line - right.line

def formatRange (range : LspRange) : String :=
  s!"{range.start.line + 1}:{range.start.character + 1}-" ++
    s!"{range.end_.line + 1}:{range.end_.character + 1}"

/-- The comparator of the sort: the last start is first, and of equal starts the last edit. -/
def compareEdits (left right : LspTextEdit × Nat) : Int :=
  let lineDifference := right.1.range.start.line - left.1.range.start.line
  let characterDifference := right.1.range.start.character - left.1.range.start.character
  if lineDifference ≠ 0 then lineDifference
  else if characterDifference ≠ 0 then characterDifference else right.2 - left.2

def unique : Option LspTextEdit → List LspTextEdit → List LspTextEdit
  | _, [] => []
  | previous, edit :: edits =>
    if edit.range.start ≠ edit.range.end_ ∧ previous = some edit then unique previous edits
    else edit :: unique (some edit) edits

def checkOverlaps : List LspTextEdit → Except String Unit
  | later :: earlier :: edits =>
    if 0 < comparePosition earlier.range.end_ later.range.start then
      .error ("Overlapping LSP edits: " ++ formatRange earlier.range ++ " conflicts with " ++
        formatRange later.range)
    else checkOverlaps (earlier :: edits)
  | _ => .ok ()

def sortAndValidateTextEdits (edits : List LspTextEdit) : Except String (List LspTextEdit) := do
  let sorted := edits.zipIdx.insertionSort fun left right => compareEdits left right ≤ 0
  let kept := unique none (sorted.map Prod.fst)
  checkOverlaps kept
  return kept

def sliceIndex (length : Nat) (argument : Int) : Nat :=
  if argument < 0 then (length + argument).toNat else min argument.toNat length

def newline : UInt16 := 10

def applyTextEdit (lines : List (List UInt16)) (edit : LspTextEdit) :
    Except String (List (List UInt16)) :=
  let start := edit.range.start
  let end_ := edit.range.end_
  if start.line < 0 ∨ end_.line < start.line ∨ lines.length ≤ end_.line then
    .error ("LSP edit range is outside the document: " ++ formatRange edit.range)
  else
    let startLine := lines.getD start.line.toNat []
    let endLine := lines.getD end_.line.toNat []
    if startLine.length < start.character ∨ endLine.length < end_.character then
      .error ("LSP edit character is outside the document: " ++ formatRange edit.range)
    else
      let replacement := startLine.take (sliceIndex startLine.length start.character) ++
        Utf16.encode edit.newText.toList ++
        endLine.drop (sliceIndex endLine.length end_.character)
      .ok (lines.take start.line.toNat ++ replacement.splitOn newline ++
        lines.drop (end_.line.toNat + 1))

def applyTextEditsToString (content : String) (edits : List LspTextEdit) :
    Except String String := do
  let sorted ← sortAndValidateTextEdits edits
  let lines ← sorted.foldlM applyTextEdit ((Utf16.encode content.toList).splitOn newline)
  return String.ofList (Utf16.decode (Lines.joined newline lines))

/-! ## Edits of texts only -/

abbrev TextChange (Edit : Type) := List String × List Edit

def WorkspaceEdit.ofTexts {Edit : Type}
    (changes documentChanges : Option (List (TextChange Edit))) :
    WorkspaceEdit Edit where
  changes := changes
  documentChanges := documentChanges.map (map fun change => .text change.1 change.2)

def textChanges {Edit : Type} (changes documentChanges : Option (List (TextChange Edit))) :
    List (TextChange Edit) :=
  documentChanges.getD ((changes.getD []).filter fun change => !change.2.isEmpty)

section Turns

variable {Edit : Type} (links : Nat) (applies : String → List Edit → Except String String)

/-- What edits make of the bytes of a file, which are read as a text and written again. -/
def rewrite (content : List UInt8) (edits : List Edit) : Option (List UInt8) :=
  (applies (String.ofList (Utf8.decode content)) edits).toOption.map fun text =>
    Utf8.encode text.toList

/-- What the changes for the file of a path make of its bytes, one after the other, if all fit. -/
def contentAfter (tree : FileTree) (path : List String) (changes : List (TextChange Edit))
    (content : List UInt8) : Option (List UInt8) :=
  (changes.filter fun change => tree.resolve links change.1 = tree.resolve links path).foldlM
    (fun content change => rewrite applies content change.2) content

/-- The file of a change is there, and its edits fit the text that earlier changes make of it. -/
def FitsFile (tree : FileTree) (earlier : List (TextChange Edit))
    (change : TextChange Edit) : Prop :=
  ∃ content, tree.readFile links change.1 = some content ∧
    (contentAfter links applies tree change.1 (earlier ++ [change]) content).isSome = true

def AllFit (tree : FileTree) (changes : List (TextChange Edit)) : Prop :=
  ∀ earlier change later, changes = earlier ++ change :: later →
    FitsFile links applies tree earlier change

/-- Changes that bring every file which they name back to its bytes. -/
def Unaltered (tree : FileTree) (changes : List (TextChange Edit)) : Prop :=
  ∀ change ∈ changes, ∀ content, tree.readFile links change.1 = some content →
    contentAfter links applies tree change.1 changes content = some content

/-- The first change that does not fit comes after changes that leave every file as it is. -/
def FailsFirst (tree : FileTree) (changes : List (TextChange Edit)) : Prop :=
  ∀ earlier change later, changes = earlier ++ change :: later →
    AllFit links applies tree earlier → ¬ FitsFile links applies tree earlier change →
      Unaltered links applies tree earlier

/-- Every file that a change names is UTF-8, so that no byte is lost beside the edits. -/
def NamesTexts (tree : FileTree) (changes : List (TextChange Edit)) : Prop :=
  ∀ change ∈ changes, ∀ content, tree.readFile links change.1 = some content →
    Utf8.encode (Utf8.decode content) = content

/-- A run that fails changes no file, and one that does not gives every text its edits. -/
structure AllOrNothing (tree : FileTree) (changes : List (TextChange Edit))
    (run : Except EditError (List String) × FileSystem) : Prop where
  nothing : ∀ error, run.1 = .error error →
    run.2.tree.readFile links = tree.readFile links
  all : ∀ applied, run.1 = .ok applied → NamesTexts links tree changes ∧
    ∀ path, (run.2.tree.readFile links path).map some =
      (tree.readFile links path).map (contentAfter links applies tree path changes)

/-- The files of a tree after some changes. -/
structure Edited (tree : FileTree) (done : List (TextChange Edit)) (after : FileTree) : Prop where
  resolve : after.resolve links = tree.resolve links
  contents : ∀ path, (after.readFile links path).map some =
    (tree.readFile links path).map (contentAfter links applies tree path done)

variable {links applies} {tree : FileTree} {done : List (TextChange Edit)} {state : FileSystem}
  {change : TextChange Edit}

theorem contentAfter_append (path : List String) (content : List UInt8) :
    contentAfter links applies tree path (done ++ [change]) content =
      (contentAfter links applies tree path done content).bind fun content =>
        if tree.resolve links change.1 = tree.resolve links path then
          rewrite applies content change.2
        else some content := by
  rw [contentAfter, filter_append, foldlM_append, contentAfter]
  refine congrArg (bind _) (funext fun content => ?_)
  by_cases same : tree.resolve links change.1 = tree.resolve links path
  · rw [filter_cons_of_pos (by simpa using same), if_pos same, filter_nil,
      foldlM_cons]
    exact bind_pure _
  · rw [filter_cons_of_neg (by simpa using same), if_neg same]
    rfl

/-- A change whose file is there and whose edits fit is written. -/
theorem perform_applyToText {content next : List UInt8} (cwd : List String)
    (read : state.tree.readFile links change.1 = some content)
    (fits : rewrite applies content change.2 = some next) : ∃ place message after,
      state.tree.resolve links change.1 = .file place ∧
      state.tree.node place = some (.file content) ∧
      (applyToText links applies cwd change.1 change.2).perform state = (.ok message, after) ∧
      after.tree = state.tree.put place (.file next) := by
  obtain ⟨place, arrives, there⟩ := readFile_eq_some.mp read
  have written : (applyTextEdits links applies change.1 change.2).perform state =
      (writeFile links change.1 next).perform state := by
    rw [applyTextEdits, perform_get, read]
    rw [rewrite] at fits
    dsimp only
    cases applied : applies (String.ofList (Utf8.decode content)) change.2 with
    | error message =>
      rw [applied] at fits
      cases fits
    | ok text =>
      rw [applied] at fits
      cases fits
      rfl
  have ran : (state.tree.writeFile links change.1 next).map (fun made => (made.1, [made.2])) =
      some (state.tree.put place (.file next), [place]) := by
    rw [FileTree.writeFile, arrives]
    rfl
  exact ⟨place, _, _, arrives, there,
    perform_bind_ok (written.trans (perform_operate_of_some ran)) _, rfl⟩

theorem perform_applyToText_error {content : List UInt8} (cwd : List String)
    (read : state.tree.readFile links change.1 = some content)
    (misfit : rewrite applies content change.2 = none) : ∃ error,
      (applyToText links applies cwd change.1 change.2).perform state = (.error error, state) := by
  rw [rewrite] at misfit
  cases applied : applies (String.ofList (Utf8.decode content)) change.2 with
  | error message =>
    refine ⟨.thrown message, perform_bind_error ?_ _⟩
    rw [applyTextEdits, perform_get, read]
    dsimp only
    rw [applied]
    rfl
  | ok text =>
    rw [applied] at misfit
    cases misfit

theorem Edited.apply (edited : Edited links applies tree done state.tree)
    (change : TextChange Edit) (cwd : List String) :
    (FitsFile links applies tree done change → ∃ applied after,
      (applyToText links applies cwd change.1 change.2).perform state = (.ok applied, after) ∧
        Edited links applies tree (done ++ [change]) after.tree) ∧
    (¬ FitsFile links applies tree done change → ∃ error,
      (applyToText links applies cwd change.1 change.2).perform state = (.error error, state)) := by
  have here := edited.contents change.1
  constructor
  · rintro ⟨content, before, fits⟩
    simp only [contentAfter_append, ↓reduceIte, isSome_iff_exists, bind_eq_some_iff] at fits
    obtain ⟨next, current, known, fits⟩ := fits
    rw [before, map_some, known, map_eq_some_iff] at here
    obtain ⟨_, read, ⟨⟩⟩ := here
    obtain ⟨place, message, after, arrives, there, performs, wrote⟩ :=
      perform_applyToText cwd read fits
    obtain ⟨same, reads⟩ := put_file links there next
    refine ⟨message, after, performs, wrote ▸ same.trans edited.resolve, fun path => ?_⟩
    rw [wrote, reads, ← arrives, edited.resolve]
    by_cases own : tree.resolve links change.1 = tree.resolve links path
    · have file : tree.readFile links path = some content := by
        rw [readFile, ← own]
        exact before
      have own_content : contentAfter links applies tree path done content = some current := by
        rw [contentAfter, ← own]
        exact known
      rw [if_pos own.symm, file, map_some, map_some, contentAfter_append, own_content]
      simp only [own, ↓reduceIte, bind_some, fits]
    · rw [if_neg (Ne.symm own), edited.contents path]
      congr 1
      funext old
      simp only [contentAfter_append, own, ↓reduceIte, bind_fun_some]
  · intro misfit
    cases read : state.tree.readFile links change.1 with
    | none =>
      refine ⟨.system, perform_bind_error ?_ _⟩
      rw [applyTextEdits, perform_get, read]
      rfl
    | some current =>
      refine perform_applyToText_error cwd read ?_
      rw [read, map_some, eq_comm, map_eq_some_iff] at here
      obtain ⟨content, before, known⟩ := here
      rw [← not_isSome_iff_eq_none]
      intro fits
      refine misfit ⟨content, before, ?_⟩
      simpa only [contentAfter_append, known, ↓reduceIte, bind_some] using fits

/-- A file that no change names keeps its bytes. -/
theorem contentAfter_of_unnamed {path : List String} (content : List UInt8)
    (unnamed : ∀ change ∈ done, tree.resolve links change.1 ≠ tree.resolve links path) :
    contentAfter links applies tree path done content = some content := by
  rw [contentAfter, filter_eq_nil_iff.mpr fun change member => by simpa using unnamed change member]
  rfl

theorem Edited.unaltered_iff {after : FileTree} (edited : Edited links applies tree done after) :
    after.readFile links = tree.readFile links ↔ Unaltered links applies tree done := by
  constructor
  · intro same change _ content read
    have contents := edited.contents change.1
    rw [same, read] at contents
    exact (some.inj contents).symm
  · intro unaltered
    funext path
    have contents := edited.contents path
    cases read : tree.readFile links path with
    | none =>
      rw [read] at contents
      exact map_eq_none_iff.mp contents
    | some content =>
      have kept : contentAfter links applies tree path done content = some content := by
        by_cases named : ∃ change ∈ done, tree.resolve links change.1 = tree.resolve links path
        · obtain ⟨change, member, same⟩ := named
          have own := unaltered change member content (by rw [readFile, same]; exact read)
          rwa [contentAfter, same] at own
        · exact contentAfter_of_unnamed content fun change member same =>
            named ⟨change, member, same⟩
      rw [read, map_some, kept, map_eq_some_iff] at contents
      obtain ⟨_, now, ⟨⟩⟩ := contents
      exact now

def applyTexts (links : Nat) (applies : String → List Edit → Except String String)
    (cwd : List String) : List (TextChange Edit) → EditProcedure (List String)
  | [] => pure []
  | change :: changes => do
    let applied ← applyToText links applies cwd change.1 change.2
    let others ← applyTexts links applies cwd changes
    return applied :: others

theorem applyDocumentChanges_texts (cwd : List String) (changes : List (TextChange Edit)) :
    applyDocumentChanges links applies cwd (changes.map fun change => .text change.1 change.2) =
      applyTexts links applies cwd changes := by
  induction changes with
  | nil => rfl
  | cons change changes ih =>
    rw [map_cons, applyDocumentChanges, ih]
    rfl

theorem applyChanges_texts (cwd : List String) (changes : List (TextChange Edit)) :
    applyChanges links applies cwd changes =
      applyTexts links applies cwd (changes.filter fun change => !change.2.isEmpty) := by
  induction changes with
  | nil => rfl
  | cons change changes ih =>
    obtain ⟨path, edits⟩ := change
    rw [applyChanges, ih]
    cases edits <;> rfl

/-- The changes that a run applies are those before the first one that does not fit. -/
theorem Edited.run (edited : Edited links applies tree done state.tree) (cwd : List String)
    (changes : List (TextChange Edit)) :
    (∃ applied after, (applyTexts links applies cwd changes).perform state = (.ok applied, after) ∧
      Edited links applies tree (done ++ changes) after.tree ∧
      ∀ earlier change later, changes = earlier ++ change :: later →
        FitsFile links applies tree (done ++ earlier) change) ∨
    ∃ error after front bad rest,
      (applyTexts links applies cwd changes).perform state = (.error error, after) ∧
      Edited links applies tree (done ++ front) after.tree ∧ changes = front ++ bad :: rest ∧
      ¬ FitsFile links applies tree (done ++ front) bad ∧
      ∀ earlier change later, front = earlier ++ change :: later →
        FitsFile links applies tree (done ++ earlier) change := by
  induction changes generalizing done state with
  | nil => exact .inl ⟨[], state, rfl, (append_nil done).symm ▸ edited, by simp⟩
  | cons change changes ih =>
    obtain ⟨goesOn, stops⟩ := edited.apply change cwd
    rw [applyTexts]
    by_cases fits : FitsFile links applies tree done change
    · obtain ⟨applied, middle, performs, edited⟩ := goesOn fits
      have front {front : List (TextChange Edit)}
          (others : ∀ earlier other later, front = earlier ++ other :: later →
            FitsFile links applies tree (done ++ [change] ++ earlier) other) :
          ∀ earlier other later, change :: front = earlier ++ other :: later →
            FitsFile links applies tree (done ++ earlier) other := by
        intro earlier other later split
        cases earlier with
        | nil =>
          cases split
          rwa [append_nil]
        | cons first earlier =>
          cases split
          rw [append_cons]
          exact others earlier other later rfl
      rw [perform_bind_ok performs]
      rcases ih edited with ⟨others, after, rest, edited, fit⟩ |
        ⟨error, after, early, bad, later, rest, edited, split, misfit, fit⟩
      · rw [append_assoc] at edited
        exact .inl ⟨applied :: others, after, perform_bind_ok rest _, edited, front fit⟩
      · rw [append_assoc] at edited misfit
        exact .inr ⟨error, after, change :: early, bad, later, perform_bind_error rest _, edited,
          congrArg _ split, misfit, front fit⟩
    · obtain ⟨error, performs⟩ := stops fits
      rw [← append_nil done] at edited fits
      exact .inr ⟨error, state, [], change, changes, perform_bind_error performs _, edited, rfl,
        fits, by simp⟩

/-- There is only one first change that does not fit. -/
theorem failsFirst_iff {front rest : List (TextChange Edit)} {bad : TextChange Edit}
    (fit : AllFit links applies tree front) (misfit : ¬ FitsFile links applies tree front bad) :
    FailsFirst links applies tree (front ++ bad :: rest) ↔ Unaltered links applies tree front := by
  refine ⟨fun first => first front bad rest rfl fit misfit, ?_⟩
  intro unaltered earlier change later split fit' misfit'
  rcases append_eq_append_iff.mp split with ⟨between, rfl, same⟩ | ⟨between, rfl, same⟩
  · cases between with
    | nil => rwa [append_nil]
    | cons first between =>
      cases same
      exact absurd (fit' front bad between rfl) misfit
  · cases between with
    | nil => rwa [append_nil] at unaltered
    | cons first between =>
      cases same
      exact absurd (fit earlier change between rfl) misfit'

def checks (links : Nat) (sorts : List Edit → Except String (List Edit)) (tree : FileTree)
    (changes documentChanges : Option (List (TextChange Edit))) (cwd : List String)
    (projectOnly : Bool) : Except EditError Unit :=
  (if projectOnly then
    validateLspWorkspaceEditProjectBoundary links tree (.ofTexts changes documentChanges) cwd
  else .ok ()) >>= fun _ =>
    validateEdits sorts ((documentChanges.getD (changes.getD [])).map Prod.snd)

theorem perform_ofTexts (sorts : List Edit → Except String (List Edit))
    (changes documentChanges : Option (List (TextChange Edit))) (cwd : List String)
    (projectOnly : Bool) :
    (applyWorkspaceEdit links sorts applies (.ofTexts changes documentChanges) cwd
      projectOnly).perform state =
        match checks links sorts state.tree changes documentChanges cwd projectOnly with
        | .error error => (.error error, state)
        | .ok _ =>
          (applyTexts links applies cwd (textChanges changes documentChanges)).perform state := by
  have goes (inside valid : Except EditError Unit) (next : EditProcedure (List String)) :
      (check inside >>= fun _ => check valid >>= fun _ => next).perform state =
        match (inside >>= fun _ => valid : Except EditError Unit) with
        | .error error => (.error error, state)
        | .ok _ => next.perform state := by
    cases inside <;> cases valid <;> rfl
  rw [applyWorkspaceEdit, perform_get]
  cases documentChanges with
  | none =>
    have applied : applyChanges links applies cwd (changes.getD []) =
        applyTexts links applies cwd (textChanges changes none) := applyChanges_texts cwd _
    rw [← applied]
    exact goes _ _ _
  | some entries =>
    have applied : applyDocumentChanges links applies cwd
        (entries.map fun change => .text change.1 change.2) =
          applyTexts links applies cwd (textChanges changes (some entries)) :=
      applyDocumentChanges_texts cwd entries
    have lists : (entries.map fun change => DocumentChange.text change.1 change.2).filterMap
        DocumentChange.edits? = entries.map Prod.snd := by
      rw [filterMap_map]
      exact congrFun (filterMap_eq_map (f := Prod.snd)) entries
    rw [← applied, checks, getD_some, ← lists]
    exact goes _ _ _

end Turns

/-- A file that holds an x, or an e with an accent in Latin-1, which is no UTF-8. -/
def loneFile (content : UInt8) : FileSystem where
  tree := ⟨[(["a"], .file [content])]⟩

/-- Some edits of the file, and something is inserted into one that is not there. -/
def twoChanges (edits : List LspTextEdit) : List (TextChange LspTextEdit) :=
  [(["a"], edits), (["b"], [⟨⟨⟨0, 0⟩, ⟨0, 0⟩⟩, "y"⟩])]

end Recode.Lsp

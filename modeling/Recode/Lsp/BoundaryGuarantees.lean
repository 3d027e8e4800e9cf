import Recode.Lsp.Boundary

/-! # Edits stay inside the project

The boundary is checked once, and every change then acts on the tree that the changes before it
have left. Nothing outside is touched as long as each operation would still pass the check, no
file is written through a link that leads nowhere, and a link that is removed or renamed is in a
directory that passes. -/

namespace Recode.Lsp

open List Procedure FileTree

variable {links : Nat} {root : List String} {tree : FileTree}

/-- The boundary check would let a path pass now. -/
def Passes (links : Nat) (root : List String) (tree : FileTree) (path : List String) : Prop :=
  ∃ place, realpath links tree (nearestExistingPath links tree path) = some place ∧
    isWithin root place = true

def IsLink (links : Nat) (tree : FileTree) (path : List String) : Prop :=
  ∃ place target, tree.entry links path = some place ∧ tree.node place = some (.link target)

/-- The entry of a path can be renamed or removed: the path passes, and if it is a link, its
directory does too. -/
def EntryPasses (links : Nat) (root : List String) (tree : FileTree) (path : List String) : Prop :=
  Passes links root tree path ∧ (IsLink links tree path → Passes links root tree path.tail)

def FileOperation.StillInside (links : Nat) (root : List String) (tree : FileTree) :
    FileOperation → Prop
  | .writeFile path => Passes links root tree path ∧
      (IsLink links tree path → exists_ links tree path = true)
  | .mkdir path => Passes links root tree path
  | .rm path => EntryPasses links root tree path
  | .rename oldPath newPath =>
    EntryPasses links root tree oldPath ∧ EntryPasses links root tree newPath

theorem within_cons {place : List String} (name : String) (inside : isWithin root place = true) :
    isWithin root (name :: place) = true := by
  rw [isWithin, isSuffixOf_iff_suffix] at inside ⊢
  exact inside.trans (suffix_cons name place)

variable {path place : List String} {next : FileTree}

theorem Passes.found (passes : Passes links root tree path)
    (leads : (tree.resolve links path).place? = some place) : isWithin root place = true := by
  obtain ⟨ancestor, real, inside⟩ := passes
  have nearest : nearestExistingPath links tree path = path := by
    cases path with
    | nil => rfl
    | cons name parent =>
      unfold nearestExistingPath
      rw [if_pos]
      rw [exists_, realpath, leads]
      rfl
  rw [nearest, realpath, leads] at real
  exact Option.some.inj real ▸ inside

theorem Passes.parent {path : List String} (passes : Passes links root tree path)
    (nowhere : (tree.resolve links path).place? = none) : Passes links root tree path.tail := by
  cases path with
  | nil => exact passes
  | cons name parent =>
    rw [Passes] at passes
    unfold nearestExistingPath at passes
    rwa [if_neg] at passes
    rw [exists_, realpath, nowhere]
    exact Bool.false_ne_true

theorem EntryPasses.inside (passes : EntryPasses links root tree path)
    (named : tree.entry links path = some place) : isWithin root place = true := by
  obtain ⟨⟨directory, arrives, above⟩, arrival⟩ := entry_spec named
  have parent (passes : Passes links root tree path.tail) : isWithin root place = true := by
    have leads : (tree.resolve links path.tail).place? = some directory := by
      rw [arrives]
      rfl
    have inside := passes.found leads
    cases place with
    | nil =>
      rw [tail_nil] at above
      exact above ▸ inside
    | cons name rest =>
      obtain rfl : rest = directory := above
      exact within_cons name inside
  cases arrival with
  | missing name directory same absent arrives =>
    exact parent (passes.1.parent (by rw [arrives]; rfl))
  | found leads => exact passes.1.found leads
  | link target linked => exact parent (passes.2 ⟨place, target, named, linked⟩)

theorem writeFile_inside {content : List UInt8}
    (still : (FileOperation.writeFile path).StillInside links root tree)
    (written : tree.writeFile links path content = some (next, place)) :
    isWithin root place = true := by
  obtain ⟨passes, leads⟩ := still
  unfold FileTree.writeFile at written
  cases arrives : tree.resolve links path with
  | directory found =>
    rw [arrives] at written
    cases written
  | nowhere =>
    rw [arrives] at written
    cases written
  | file found =>
    rw [arrives] at written
    cases written
    exact passes.found (by rw [arrives]; rfl)
  | missing directory name =>
    rw [arrives] at written
    cases written
    have nowhere : (tree.resolve links path).place? = none := by
      rw [arrives]
      rfl
    have plain : ¬ IsLink links tree path := by
      intro linked
      have found := leads linked
      rw [exists_, realpath, nowhere] at found
      cases found
    obtain ⟨place, named, rfl | ⟨target, linked⟩⟩ := entry_of_missing arrives
    · exact EntryPasses.inside ⟨passes, fun linked => (plain linked).elim⟩ named
    · exact (plain ⟨place, target, named, linked⟩).elim

theorem makeDirectories_inside {made : List (List String)} (passes : Passes links root tree path)
    (done : tree.makeDirectories links path = some (next, place, made)) :
    isWithin root place = true ∧ ∀ touched ∈ made, isWithin root touched = true := by
  induction path generalizing next place made with
  | nil =>
    cases done
    refine ⟨passes.found ?_, nofun⟩
    cases links <;> rfl
  | cons name parent hypothesis =>
    cases arrives : (tree.resolve links (name :: parent)).place? with
    | some found =>
      obtain ⟨rfl, rfl⟩ := makeDirectories_of_present arrives done
      exact ⟨passes.found arrives, nofun⟩
    | none =>
      obtain ⟨before, directory, earlier, above, rfl, rfl⟩ :=
        makeDirectories_of_absent arrives done
      obtain ⟨inside, all⟩ := hypothesis (passes.parent arrives) above
      refine ⟨within_cons name inside, fun touched member => ?_⟩
      rcases mem_append.mp member with old | new
      · exact all touched old
      · rw [mem_singleton.mp new]
        exact within_cons name inside

theorem removeEntry_inside {path : List String} {recursive force : Bool}
    {touched : List (List String)} (passes : EntryPasses links root tree path)
    (removed : tree.removeEntry links path recursive force = some (next, touched)) :
    ∀ place ∈ touched, isWithin root place = true := by
  unfold removeEntry at removed
  have none_ {place : List String} (member : place ∈ ([] : List (List String))) :
      isWithin root place = true := by cases member
  cases named : tree.entry links path with
  | none =>
    rw [named] at removed
    dsimp only at removed
    split at removed
    · cases removed
      exact fun _ => none_
    · cases removed
  | some entry =>
    have inside := passes.inside named
    have only {place : List String} (member : place ∈ [entry]) : isWithin root place = true := by
      rw [mem_singleton.mp member]
      exact inside
    rw [named] at removed
    dsimp only at removed
    split at removed
    · split at removed
      · cases removed
        exact fun _ => none_
      · cases removed
    · split at removed
      · cases removed
        exact fun _ => only
      · cases removed
    · cases removed
      exact fun _ => only

theorem rename_inside {oldPath newPath : List String} {touched : List (List String)}
    (old : EntryPasses links root tree oldPath) (new : EntryPasses links root tree newPath)
    (renamed : tree.rename links oldPath newPath = some (next, touched)) :
    ∀ place ∈ touched, isWithin root place = true := by
  unfold FileTree.rename at renamed
  cases source : tree.entry links oldPath with
  | none =>
    rw [source] at renamed
    cases renamed
  | some from_ =>
    cases target : tree.entry links newPath with
    | none =>
      rw [source, target] at renamed
      cases renamed
    | some to_ =>
      rw [source, target] at renamed
      dsimp only at renamed
      split at renamed
      · cases renamed
      split at renamed
      · cases renamed
        exact nofun
      split at renamed
      · cases renamed
      split at renamed
      · cases renamed
        intro place member
        rcases mem_cons.mp member with rfl | member
        · exact old.inside source
        · rw [mem_singleton.mp member]
          exact new.inside target
      · cases renamed

def TouchesInside (links : Nat) (root : List String) (state : FileSystem) : Prop :=
  (∀ operation ∈ state.performed, operation.2.StillInside links root operation.1) →
    ∀ place ∈ state.touched, isWithin root place = true

/-- A procedure keeps to the inside, whether it returns or throws. -/
def KeepsInside {Result : Type} (links : Nat) (root : List String)
    (procedure : EditProcedure Result) : Prop :=
  Procedure.Triple (TouchesInside links root) procedure (fun _ => TouchesInside links root)
    fun _ => TouchesInside links root

section Procedures

variable {Result Next Edit : Type}

theorem keeps_pure (result : Result) :
    KeepsInside links root (pure result : EditProcedure Result) :=
  triple_pure _ fun _ kept => kept

theorem keeps_throw (error : EditError) :
    KeepsInside links root (throw error : EditProcedure Result) :=
  triple_throw _ fun _ kept => kept

theorem keeps_bind {procedure : EditProcedure Next} {next : Next → EditProcedure Result}
    (first : KeepsInside links root procedure)
    (second : ∀ result, KeepsInside links root (next result)) :
    KeepsInside links root (procedure >>= next) :=
  triple_bind first second

theorem keeps_get {next : FileSystem → EditProcedure Result}
    (rest : ∀ state, KeepsInside links root (next state)) : KeepsInside links root (get >>= next) :=
  triple_get fun state kept => (rest state).here kept

theorem keeps_check (checked : Except EditError Result) :
    KeepsInside links root (Procedure.check checked : EditProcedure Result) := by
  intro state kept
  rw [perform_check]
  cases checked <;> exact kept

variable {run : FileTree → Option (FileTree × List (List String))} {operation : FileOperation}

theorem perform_operate_of_none {state : FileSystem} (ran : run state.tree = none) :
    Procedure.perform (operate operation run) state = (.error .system,
      { state with performed := state.performed ++ [(state.tree, operation)] }) := by
  rw [Procedure.perform, operate]
  simp only [ExceptT.run_mk, StateT.run, ran]

theorem perform_operate_of_some {state : FileSystem} {next : FileTree}
    {touched : List (List String)} (ran : run state.tree = some (next, touched)) :
    Procedure.perform (operate operation run) state = (.ok (),
      { tree := next, touched := state.touched ++ touched
        performed := state.performed ++ [(state.tree, operation)] }) := by
  rw [Procedure.perform, operate]
  simp only [ExceptT.run_mk, StateT.run, ran]

theorem keeps_operate (inside : ∀ tree next touched, operation.StillInside links root tree →
      run tree = some (next, touched) → ∀ place ∈ touched, isWithin root place = true) :
    KeepsInside links root (operate operation run) := by
  intro state kept
  cases ran : run state.tree with
  | none =>
    rw [perform_operate_of_none ran]
    exact fun still => kept fun other member => still other (mem_append_left _ member)
  | some result =>
    obtain ⟨next, touched⟩ := result
    rw [perform_operate_of_some ran]
    intro still place member
    rcases mem_append.mp member with before | now
    · exact kept (fun other member => still other (mem_append_left _ member)) place before
    · have last := still (state.tree, operation)
        (mem_append_right _ (mem_singleton_self _))
      exact inside state.tree next touched last ran place now

theorem keeps_writeFile (path : List String) (content : List UInt8) :
    KeepsInside links root (writeFile links path content) := by
  refine keeps_operate fun tree next touched still written place member => ?_
  obtain ⟨⟨after, wrote⟩, done, same⟩ := Option.map_eq_some_iff.mp written
  cases same
  rw [mem_singleton.mp member]
  exact writeFile_inside still done

theorem keeps_mkdir (path : List String) : KeepsInside links root (mkdir links path) := by
  refine keeps_operate fun tree next touched still made => ?_
  obtain ⟨⟨after, place, all⟩, done, same⟩ := Option.map_eq_some_iff.mp made
  cases same
  exact (makeDirectories_inside still done).2

theorem keeps_rm (path : List String) (recursive force : Bool) :
    KeepsInside links root (rm links path recursive force) :=
  keeps_operate fun _ _ _ still removed => removeEntry_inside still removed

theorem keeps_rename (oldPath newPath : List String) :
    KeepsInside links root (rename links oldPath newPath) :=
  keeps_operate fun _ _ _ still renamed => rename_inside still.1 still.2 renamed

theorem keeps_removeExisting (there : Bool) (path : List String) :
    KeepsInside links root (removeExisting links there path) := by
  rw [removeExisting]
  split
  · exact keeps_rm _ _ _
  · exact keeps_pure _

theorem keeps_applyResourceChange (cwd : List String) (change : ResourceChange) :
    KeepsInside links root (applyResourceChange links cwd change) := by
  cases change with
  | create path overwrite ignoreIfExists =>
    refine keeps_bind (keeps_get fun _ => keeps_pure _) fun there => ?_
    split
    · exact keeps_pure _
    · split
      · exact keeps_throw _
      · refine keeps_bind (keeps_mkdir _) fun _ => ?_
        exact keeps_bind (keeps_writeFile _ _) fun _ => keeps_pure _
  | rename oldPath newPath overwrite ignoreIfExists =>
    refine keeps_bind (keeps_get fun _ => keeps_pure _) fun there => ?_
    split
    · exact keeps_pure _
    split
    · exact keeps_throw _
    · refine keeps_bind (keeps_removeExisting _ _) fun _ => ?_
      refine keeps_bind (keeps_mkdir _) fun _ => ?_
      exact keeps_bind (keeps_rename _ _) fun _ => keeps_pure _
  | delete path recursive ignoreIfNotExists =>
    refine keeps_bind (keeps_get fun _ => keeps_pure _) fun there => ?_
    split
    · exact keeps_pure _
    · exact keeps_bind (keeps_rm _ _ _) fun _ => keeps_pure _

variable (sortAndValidateTextEdits : List Edit → Except String (List Edit))
variable (applyTextEditsToString : String → List Edit → Except String String)

theorem keeps_applyToText (cwd path : List String) (edits : List Edit) :
    KeepsInside links root (applyToText links applyTextEditsToString cwd path edits) := by
  refine keeps_bind (keeps_get fun state => ?_) fun _ => keeps_pure _
  split
  · exact keeps_throw _
  · split
    · exact keeps_throw _
    · exact keeps_writeFile _ _

theorem keeps_applyDocumentChanges (cwd : List String) (changes : List (DocumentChange Edit)) :
    KeepsInside links root
      (applyDocumentChanges links applyTextEditsToString cwd changes) := by
  induction changes with
  | nil => exact keeps_pure _
  | cons change changes hypothesis =>
    refine keeps_bind ?_ fun applied => keeps_bind hypothesis fun _ => keeps_pure _
    cases change with
    | text path edits => exact keeps_applyToText applyTextEditsToString cwd path edits
    | resource change => exact keeps_applyResourceChange cwd change

theorem keeps_applyChanges (cwd : List String) (changes : List (List String × List Edit)) :
    KeepsInside links root (applyChanges links applyTextEditsToString cwd changes) := by
  induction changes with
  | nil => exact keeps_pure _
  | cons change changes hypothesis =>
    obtain ⟨path, edits⟩ := change
    rw [applyChanges]
    split
    · exact hypothesis
    · refine keeps_bind (keeps_applyToText applyTextEditsToString cwd path edits) fun _ => ?_
      exact keeps_bind hypothesis fun _ => keeps_pure _

theorem keeps_applyWorkspaceEdit (edit : WorkspaceEdit Edit) (cwd : List String)
    (projectOnly : Bool) :
    KeepsInside links root (applyWorkspaceEdit links sortAndValidateTextEdits
      applyTextEditsToString edit cwd projectOnly) := by
  refine keeps_get fun state => keeps_bind (keeps_check _) fun _ => ?_
  split
  · exact keeps_bind (keeps_check _) fun _ =>
      keeps_applyDocumentChanges applyTextEditsToString cwd _
  · exact keeps_bind (keeps_check _) fun _ => keeps_applyChanges applyTextEditsToString cwd _

/-- An edit touches nothing outside the project, in project-only mode, as long as every operation
is still inside when it is performed. An edit that is rejected performs no operation. -/
theorem workspaceEdit_inside (tree : FileTree) (edit : WorkspaceEdit Edit) (cwd : List String)
    (_real : realpath links tree cwd = some root)
    (still : ∀ operation ∈ ((applyWorkspaceEdit links sortAndValidateTextEdits
      applyTextEditsToString edit cwd true).perform { tree := tree }).2.performed,
        operation.2.StillInside links root operation.1) :
    ∀ place ∈ ((applyWorkspaceEdit links sortAndValidateTextEdits applyTextEditsToString edit cwd
      true).perform { tree := tree }).2.touched, isWithin root place = true := by
  have keeps : KeepsInside links root (applyWorkspaceEdit links sortAndValidateTextEdits
      applyTextEditsToString edit cwd true) :=
    keeps_applyWorkspaceEdit sortAndValidateTextEdits applyTextEditsToString edit cwd true
  have kept := keeps { tree := tree } nofun
  cases ran : (applyWorkspaceEdit links sortAndValidateTextEdits applyTextEditsToString edit cwd
      true).perform { tree := tree } with
  | mk outcome final =>
    rw [ran] at kept still
    cases outcome <;> exact kept still

end Procedures

section Example

def linkedProject : FileTree where
  entries :=
    [(["project"], .directory), (["other"], .directory),
      (["link", "project"], .link ⟨true, [.name "other", .name "file"]⟩)]

def creating (path : List String) : WorkspaceEdit Unit where
  documentChanges := some [.resource (.create path false false)]

/-- A new file in the project. -/
theorem workspaceEdit_inside_created :
    ((applyWorkspaceEdit 40 (fun edits => .ok edits) (fun content _ => .ok content)
      (creating ["new", "project"]) ["project"] true).perform
        { tree := linkedProject }).2.touched ≠ [] ∧
    ∀ place ∈ ((applyWorkspaceEdit 40 (fun edits => .ok edits) (fun content _ => .ok content)
      (creating ["new", "project"]) ["project"] true).perform { tree := linkedProject }).2.touched,
        isWithin ["project"] place = true := by
  refine ⟨by decide +kernel, ?_⟩
  refine workspaceEdit_inside (fun edits => .ok edits) (fun content _ => .ok content)
    linkedProject (creating ["new", "project"]) ["project"] rfl ?_
  intro operation member
  have two : operation = (linkedProject, .mkdir ["project"]) ∨
      operation = (linkedProject, .writeFile ["new", "project"]) := by
    rcases mem_cons.mp member with same | member
    · exact .inl same
    · exact .inr (mem_singleton.mp member)
  rcases two with rfl | rfl
  · exact ⟨["project"], rfl, rfl⟩
  · refine ⟨⟨["project"], rfl, rfl⟩, ?_⟩
    rintro ⟨place, target, named, linked⟩
    cases named
    cases linked

/-- A file that is created at a link that leads nowhere is written outside. -/
theorem not_workspaceEdit_inside :
    ¬ ∀ (tree : FileTree) (edit : WorkspaceEdit Unit) (cwd root : List String),
      realpath 40 tree cwd = some root →
        validateLspWorkspaceEditProjectBoundary 40 tree edit cwd = .ok () →
          ∀ place ∈ ((applyWorkspaceEdit 40 (fun edits => .ok edits) (fun content _ => .ok content)
            edit cwd true).perform { tree := tree }).2.touched, isWithin root place = true := by
  intro inside
  have outside := inside linkedProject (creating ["link", "project"]) ["project"] ["project"] rfl
    rfl ["file", "other"] (mem_singleton_self _)
  exact absurd outside (by decide)

end Example

end Recode.Lsp

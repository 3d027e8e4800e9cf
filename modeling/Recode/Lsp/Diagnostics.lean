import Mathlib.Data.List.Induction

/-! # Background diagnostics

A check of a file begins with a new generation and completes at any later time, once, again or
never. What it has collected is shown if its generation is that of the file's snapshot.
Generations are counted in the snapshot, so clearing a workspace starts them again. -/

namespace Recode.Lsp.Diagnostics

open Function Option List

structure LspDiagnosticEntry (Diagnostic : Type) where
  filePath : String
  diagnostic : Diagnostic
  server : Option String

inductive LspSnapshotState
  | checking
  | ready
  | error
deriving DecidableEq

structure LspDiagnosticSnapshot (Diagnostic : Type) where
  cwd : String
  filePath : String
  generation : Nat
  state : LspSnapshotState
  entries : List (LspDiagnosticEntry Diagnostic)
  failures : List String
  updatedAt : Nat

/-- The snapshots of each workspace by file. A workspace that was never asked for has none. -/
abbrev Snapshots (Diagnostic : Type) : Type :=
  String → String → Option (LspDiagnosticSnapshot Diagnostic)

def set {Value : Type} (values : String → String → Value) (workspace file : String)
    (value : Value) : String → String → Value :=
  update values workspace (update (values workspace) file value)

-- `path.resolve`, by which `cwdKey` and `fileKey` name a workspace and a file.
variable {Diagnostic : Type} (resolve : String → String)

def beginLspDiagnostics (snapshots : Snapshots Diagnostic) (cwd filePath : String) (now : Nat) :
    Snapshots Diagnostic × Nat :=
  let key := resolve filePath
  let generation := ((snapshots (resolve cwd) key).map (·.generation)).getD 0 + 1
  (set snapshots (resolve cwd) key (some
    { cwd := resolve cwd, filePath := key, generation := generation, state := .checking,
      entries := [], failures := [], updatedAt := now }), generation)

def completeLspDiagnostics (snapshots : Snapshots Diagnostic) (cwd filePath : String)
    (generation : Nat) (entries : List (LspDiagnosticEntry Diagnostic)) (failures : List String)
    (now : Nat) : Snapshots Diagnostic × Bool :=
  let key := resolve filePath
  match snapshots (resolve cwd) key with
  | none => (snapshots, false)
  | some current =>
    if current.generation = generation then
      (set snapshots (resolve cwd) key (some
        { current with
          state := if failures ≠ [] ∧ entries = [] then .error else .ready
          entries := entries.map fun entry => { entry with filePath := resolve entry.filePath }
          failures := failures
          updatedAt := now }), true)
    else (snapshots, false)

def clearLspDiagnosticSnapshotsForCwd (snapshots : Snapshots Diagnostic) (cwd : String) :
    Snapshots Diagnostic :=
  update snapshots (resolve cwd) fun _ => none

def clearAllLspDiagnosticSnapshots : Snapshots Diagnostic := fun _ _ => none

/-! ## Runs -/

/-- What `createLspWritethrough` keeps of a check until it completes. -/
structure Check where
  cwd : String
  filePath : String
  generation : Nat

structure State (Diagnostic : Type) where
  snapshots : Snapshots Diagnostic
  checks : List Check

/-- What happens, in any order. A check is named by its place among those begun. -/
inductive Event (Diagnostic : Type)
  | begin (cwd filePath : String) (now : Nat)
  | complete (check : Nat) (entries : List (LspDiagnosticEntry Diagnostic))
      (failures : List String) (now : Nat)
  | clear (cwd : String)
  | clearAll

def step (state : State Diagnostic) : Event Diagnostic → State Diagnostic
  | .begin cwd filePath now =>
    let begun := beginLspDiagnostics resolve state.snapshots cwd filePath now
    ⟨begun.1, state.checks ++ [⟨cwd, filePath, begun.2⟩]⟩
  | .complete check entries failures now =>
    match state.checks[check]? with
    | none => state
    | some held =>
      { state with
        snapshots := (completeLspDiagnostics resolve state.snapshots held.cwd held.filePath
          held.generation entries failures now).1 }
  | .clear cwd =>
    { state with snapshots := clearLspDiagnosticSnapshotsForCwd resolve state.snapshots cwd }
  | .clearAll => { state with snapshots := clearAllLspDiagnosticSnapshots }

def run (events : List (Event Diagnostic)) : State Diagnostic :=
  events.foldl (step resolve) ⟨fun _ _ => none, []⟩

/-! ## What should be shown -/

/-- The check that a file's diagnostics come from, and what it has collected. -/
structure Recent (Diagnostic : Type) where
  check : Nat
  collected : Option (List (LspDiagnosticEntry Diagnostic) × List String)

/-- The history of a run, with no generations: how many checks of each file were begun since its
workspace was last cleared, the most recent of them, and the number of each check at its start. -/
structure History (Diagnostic : Type) where
  checks : List (String × String × Nat)
  begun : String → String → Nat
  recent : String → String → Option (Recent Diagnostic)

def History.next (history : History Diagnostic) : Event Diagnostic → History Diagnostic
  | .begin cwd filePath _ =>
    let number := history.begun (resolve cwd) (resolve filePath) + 1
    { checks := history.checks ++ [(resolve cwd, resolve filePath, number)]
      begun := set history.begun (resolve cwd) (resolve filePath) number
      recent := set history.recent (resolve cwd) (resolve filePath)
        (some ⟨history.checks.length, none⟩) }
  | .complete check entries failures _ =>
    match history.checks[check]? with
    | none => history
    | some (workspace, file, _) =>
      if (history.recent workspace file).map (·.check) = some check then
        { history with
          recent := set history.recent workspace file (some ⟨check, some
            (entries.map fun entry => { entry with filePath := resolve entry.filePath },
              failures)⟩) }
      else history
  | .clear cwd =>
    { history with
      begun := update history.begun (resolve cwd) fun _ => 0
      recent := update history.recent (resolve cwd) fun _ => none }
  | .clearAll => { history with begun := fun _ _ => 0, recent := fun _ _ => none }

def history (events : List (Event Diagnostic)) : History Diagnostic :=
  events.foldl (History.next resolve) ⟨[], fun _ _ => 0, fun _ _ => none⟩

/-- A snapshot shows what the most recent check has collected, if it has. -/
structure Shows (snapshot : LspDiagnosticSnapshot Diagnostic) (recent : Recent Diagnostic) :
    Prop where
  checking : recent.collected = none →
    snapshot.state = .checking ∧ snapshot.entries = [] ∧ snapshot.failures = []
  collected : ∀ entries failures, recent.collected = some (entries, failures) →
    snapshot.state = (if failures ≠ [] ∧ entries = [] then .error else .ready) ∧
      snapshot.entries = entries ∧ snapshot.failures = failures

/-- In every state of a run a file has the snapshot of its most recent check that was not cleared,
and a completion takes effect exactly when it completes that check. -/
structure Faithful (events : List (Event Diagnostic)) : Prop where
  shown : ∀ before after, events = before ++ after → ∀ workspace file,
    Option.Rel Shows ((run resolve before).snapshots workspace file)
      ((history resolve before).recent workspace file)
  taken : ∀ before check entries failures now after,
    events = before ++ .complete check entries failures now :: after →
    ∀ held, (run resolve before).checks[check]? = some held →
    ((completeLspDiagnostics resolve (run resolve before).snapshots held.cwd held.filePath
        held.generation entries failures now).2 = true ↔
      ((history resolve before).recent (resolve held.cwd) (resolve held.filePath)).map (·.check) =
        some check)

/-- A check that completes has another number than the most recent one of its file. -/
def Distinct (history : History Diagnostic) (check : Nat) : Prop :=
  ∀ workspace file number recent, history.checks[check]? = some (workspace, file, number) →
    history.recent workspace file = some recent → recent.check ≠ check →
    number ≠ history.begun workspace file

/-- No check completes while as many checks of its file have been begun since a clear as had been
when it began before the clear. -/
def Told (events : List (Event Diagnostic)) : Prop :=
  ∀ before check entries failures now after,
    events = before ++ .complete check entries failures now :: after →
    Distinct (history resolve before) check

/-! ## Simulation -/

section Set

variable {Value : Type} (values : String → String → Value) (workspace file : String)

theorem set_self (value : Value) : set values workspace file value workspace file = value := by
  rw [set, update_self, update_self]

theorem set_of_ne (value : Value) {otherWorkspace other : String}
    (apart : ¬ (otherWorkspace = workspace ∧ other = file)) :
    set values workspace file value otherWorkspace other = values otherWorkspace other := by
  rw [set]
  by_cases same : otherWorkspace = workspace
  · subst same
    rw [update_self, update_of_ne fun equal => apart ⟨rfl, equal⟩]
  · rw [update_of_ne same]

end Set

/-- The generation of a check is its number since the last clear. -/
structure Simulates (state : State Diagnostic) (history : History Diagnostic) : Prop where
  checks : state.checks.map (fun check =>
    (resolve check.cwd, resolve check.filePath, check.generation)) = history.checks
  shown : ∀ workspace file, Option.Rel Shows (state.snapshots workspace file)
    (history.recent workspace file)
  generation : ∀ workspace file, ((state.snapshots workspace file).map (·.generation)).getD 0 =
      history.begun workspace file
  recent : ∀ workspace file recent, history.recent workspace file = some recent →
    history.checks[recent.check]? = some (workspace, file, history.begun workspace file)

section Steps

variable {resolve} {state : State Diagnostic} {history : History Diagnostic}

section

variable (simulates : Simulates resolve state history)
include simulates

theorem Simulates.begin (cwd filePath : String)
    (now : Nat) : Simulates resolve (step resolve state (.begin cwd filePath now))
      (history.next resolve (.begin cwd filePath now)) := by
  have number : (beginLspDiagnostics resolve state.snapshots cwd filePath now).2 =
      history.begun (resolve cwd) (resolve filePath) + 1 := by
    rw [← simulates.generation]
    rfl
  rw [step, History.next]
  refine ⟨?_, fun workspace file => ?_, fun workspace file => ?_,
    fun workspace file recent found => ?_⟩
  · rw [map_append, simulates.checks, map_singleton, number]
  · dsimp only [beginLspDiagnostics]
    by_cases same : workspace = resolve cwd ∧ file = resolve filePath
    · rw [same.1, same.2, set_self, set_self]
      exact .some ⟨fun _ => ⟨rfl, rfl, rfl⟩, nofun⟩
    · rw [set_of_ne _ _ _ _ same, set_of_ne _ _ _ _ same]
      exact simulates.shown workspace file
  · dsimp only [beginLspDiagnostics]
    by_cases same : workspace = resolve cwd ∧ file = resolve filePath
    · rw [same.1, same.2, set_self, set_self]
      exact number
    · rw [set_of_ne _ _ _ _ same, set_of_ne _ _ _ _ same]
      exact simulates.generation workspace file
  · dsimp only at found ⊢
    by_cases same : workspace = resolve cwd ∧ file = resolve filePath
    · rw [same.1, same.2, set_self] at found
      cases found
      rw [same.1, same.2, set_self]
      exact List.getElem?_concat_length
    · rw [set_of_ne _ _ _ _ same] at found ⊢
      have earlier := simulates.recent workspace file recent found
      rw [List.getElem?_append_left (List.getElem?_eq_some_iff.mp earlier).1, earlier]

theorem Simulates.clear (cwd : String) :
    Simulates resolve (step resolve state (.clear cwd)) (history.next resolve (.clear cwd)) := by
  rw [step, History.next, clearLspDiagnosticSnapshotsForCwd]
  refine ⟨simulates.checks, fun workspace file => ?_, fun workspace file => ?_,
    fun workspace file recent found => ?_⟩
  · dsimp only
    rw [update_apply, update_apply]
    split_ifs
    · exact .none
    · exact simulates.shown workspace file
  · dsimp only
    rw [update_apply, update_apply]
    split_ifs
    · rfl
    · exact simulates.generation workspace file
  · dsimp only at found ⊢
    by_cases same : workspace = resolve cwd
    · rw [update_apply, if_pos same] at found
      cases found
    · rw [update_of_ne same] at found ⊢
      exact simulates.recent workspace file recent found

theorem Simulates.clearAll :
    Simulates resolve (step resolve state .clearAll) (history.next resolve .clearAll) :=
  ⟨simulates.checks, fun _ _ => .none, fun _ _ => rfl, nofun⟩

/-- A completion takes effect when its generation is the number of checks begun. -/
theorem Simulates.returned (held : Check)
    (entries : List (LspDiagnosticEntry Diagnostic)) (failures : List String) (now : Nat) :
    (completeLspDiagnostics resolve state.snapshots held.cwd held.filePath held.generation entries
        failures now).2 = true ↔
      (history.recent (resolve held.cwd) (resolve held.filePath)).isSome ∧
        held.generation = history.begun (resolve held.cwd) (resolve held.filePath) := by
  have shown := simulates.shown (resolve held.cwd) (resolve held.filePath)
  have generation := simulates.generation (resolve held.cwd) (resolve held.filePath)
  rw [completeLspDiagnostics]
  generalize history.recent (resolve held.cwd) (resolve held.filePath) = recent at shown ⊢
  cases found : state.snapshots (resolve held.cwd) (resolve held.filePath) with
  | none =>
    rw [found] at shown
    cases shown
    exact iff_of_false Bool.false_ne_true fun some => Bool.false_ne_true some.1
  | some current =>
    rw [found] at shown generation
    cases shown
    change current.generation = _ at generation
    rw [← generation]
    dsimp only
    by_cases same : current.generation = held.generation
    · rw [if_pos same]
      exact iff_of_true rfl ⟨rfl, same.symm⟩
    · rw [if_neg same]
      exact iff_of_false Bool.false_ne_true fun equal => same equal.2.symm

theorem Simulates.taken {check : Nat} {held : Check}
    (begun : state.checks[check]? = some held) (distinct : Distinct history check)
    (entries : List (LspDiagnosticEntry Diagnostic)) (failures : List String) (now : Nat) :
    (completeLspDiagnostics resolve state.snapshots held.cwd held.filePath held.generation entries
        failures now).2 = true ↔
      (history.recent (resolve held.cwd) (resolve held.filePath)).map (·.check) = some check := by
  have listed : history.checks[check]? =
      some (resolve held.cwd, resolve held.filePath, held.generation) := by
    rw [← simulates.checks, getElem?_map, begun]
    rfl
  rw [simulates.returned]
  cases found : history.recent (resolve held.cwd) (resolve held.filePath) with
  | none => exact iff_of_false (fun some => Bool.false_ne_true some.1) nofun
  | some recent =>
    rw [map_some, some_inj]
    constructor
    · intro equal
      by_contra other
      exact distinct _ _ _ recent listed found other equal.2
    · rintro rfl
      have same := listed.symm.trans (simulates.recent _ _ recent found)
      exact ⟨rfl, congrArg (fun triple => triple.2.2) (some.inj same)⟩

theorem Simulates.complete {check : Nat} (distinct : Distinct history check)
    (entries : List (LspDiagnosticEntry Diagnostic)) (failures : List String) (now : Nat) :
    Simulates resolve (step resolve state (.complete check entries failures now))
      (history.next resolve (.complete check entries failures now)) := by
  cases begun : state.checks[check]? with
  | none =>
    have unlisted : history.checks[check]? = none := by
      rw [← simulates.checks, getElem?_map, begun]
      rfl
    rw [step, History.next, begun, unlisted]
    exact simulates
  | some held =>
    have listed : history.checks[check]? =
        some (resolve held.cwd, resolve held.filePath, held.generation) := by
      rw [← simulates.checks, getElem?_map, begun]
      rfl
    have taken := simulates.taken begun distinct entries failures now
    rw [step, History.next, begun, listed]
    dsimp only
    rw [completeLspDiagnostics] at taken ⊢
    cases found : state.snapshots (resolve held.cwd) (resolve held.filePath) with
    | none =>
      rw [found] at taken
      rw [if_neg fun same => Bool.false_ne_true (taken.mpr same)]
      exact simulates
    | some current =>
      rw [found] at taken
      dsimp only at taken ⊢
      by_cases same : current.generation = held.generation
      · rw [if_pos same] at taken ⊢
        rw [if_pos (taken.mp rfl)]
        refine ⟨simulates.checks, fun workspace file => ?_, fun workspace file => ?_,
          fun workspace file recent recentFound => ?_⟩
        · dsimp only
          by_cases here : workspace = resolve held.cwd ∧ file = resolve held.filePath
          · rw [here.1, here.2, set_self, set_self]
            refine .some ⟨nofun, fun shown shownFailures collected => ?_⟩
            cases collected
            simp only [map_eq_nil_iff, and_self]
          · rw [set_of_ne _ _ _ _ here, set_of_ne _ _ _ _ here]
            exact simulates.shown workspace file
        · rw [← simulates.generation]
          dsimp only
          by_cases here : workspace = resolve held.cwd ∧ file = resolve held.filePath
          · rw [here.1, here.2, set_self, found]
            rfl
          · rw [set_of_ne _ _ _ _ here]
        · dsimp only at recentFound ⊢
          by_cases here : workspace = resolve held.cwd ∧ file = resolve held.filePath
          · rw [here.1, here.2, set_self] at recentFound
            cases recentFound
            obtain ⟨before, stored, place⟩ := map_eq_some_iff.mp (taken.mp rfl)
            have recent := simulates.recent _ _ before stored
            rw [place] at recent
            rw [here.1, here.2]
            exact recent
          · rw [set_of_ne _ _ _ _ here] at recentFound
            exact simulates.recent workspace file recent recentFound
      · rw [if_neg same] at taken ⊢
        rw [if_neg fun same => Bool.false_ne_true (taken.mpr same)]
        exact simulates

end

end Steps

theorem run_append (before : List (Event Diagnostic)) (event : Event Diagnostic) :
    run resolve (before ++ [event]) = step resolve (run resolve before) event := by
  rw [run, foldl_append]
  rfl

theorem history_append (before : List (Event Diagnostic)) (event : Event Diagnostic) :
    history resolve (before ++ [event]) = (history resolve before).next resolve event := by
  rw [history, foldl_append]
  rfl

theorem Told.left {before after : List (Event Diagnostic)} (told : Told resolve (before ++ after)) :
    Told resolve before := by
  rintro front check entries failures now back rfl
  exact told front check entries failures now (back ++ after) (by simp)

/-- Generations stand for checks while no check is taken for one from before a clear. -/
theorem simulates_run (events : List (Event Diagnostic)) (told : Told resolve events) :
    Simulates resolve (run resolve events) (history resolve events) := by
  induction events using reverseRecOn with
  | nil => exact ⟨rfl, fun _ _ => .none, fun _ _ => rfl, nofun⟩
  | append_singleton before event ih =>
    have simulates := ih told.left
    rw [run_append, history_append]
    cases event with
    | begin cwd filePath now => exact simulates.begin cwd filePath now
    | complete check entries failures now =>
      exact simulates.complete (told before check entries failures now [] rfl) entries failures
        now
    | clear cwd => exact simulates.clear cwd
    | clearAll => exact simulates.clearAll

theorem told_of_faithful (events : List (Event Diagnostic)) (faithful : Faithful resolve events) :
    ∀ before after, events = before ++ after → Told resolve before := by
  intro before
  induction before using reverseRecOn with
  | nil =>
    intro after _ front check entries failures now back split
    cases front <;> cases split
  | append_singleton before event ih =>
    intro after split front check entries failures now back inside
    have told := ih (event :: after) (by rw [split]; simp)
    rcases eq_nil_or_concat back with rfl | ⟨inner, last, rfl⟩
    · obtain ⟨rfl, single⟩ := append_inj' inside rfl
      cases single
      intro workspace file number recent listed found other equal
      have simulates := simulates_run resolve before told
      obtain ⟨held, begun, same⟩ : ∃ held, (run resolve before).checks[check]? = some held ∧
          (resolve held.cwd, resolve held.filePath, held.generation) =
            (workspace, file, number) := by
        rw [← simulates.checks, getElem?_map] at listed
        exact map_eq_some_iff.mp listed
      cases same
      have taken := faithful.taken before check entries failures now after
        (by rw [split]; simp) held begun
      rw [simulates.returned, found, map_some, some_inj] at taken
      exact other (taken.mp ⟨rfl, equal⟩)
    · rw [concat_eq_append, ← cons_append, ← append_assoc] at inside
      obtain ⟨rfl, -⟩ := append_inj' inside rfl
      exact told front check entries failures now inner rfl

/-- Diagnostics come from the most recent check of their file if and only if no check completes
that a clear has given the number of a later one. -/
theorem diagnostics_faithful (events : List (Event Diagnostic)) :
    Faithful resolve events ↔ Told resolve events := by
  constructor
  · exact fun faithful => told_of_faithful resolve events faithful events [] (by simp)
  · intro told
    constructor
    · rintro before after rfl
      exact (simulates_run resolve before told.left).shown
    · intro before check entries failures now after split held begun
      have distinct := told before check entries failures now after split
      subst split
      exact (simulates_run resolve before told.left).taken begun distinct entries failures now

/-- A check from before a clear fills the snapshot of a check begun after it. -/
theorem cleared_check_fills : ¬ Faithful (id : String → String) [.begin "/w" "/w/a.ts" 0,
    .clear "/w", .begin "/w" "/w/a.ts" 1, .complete 0 [⟨"/w/a.ts", (), none⟩] [] 2] := by
  intro faithful
  have taken := faithful.taken [.begin "/w" "/w/a.ts" 0, .clear "/w", .begin "/w" "/w/a.ts" 1] 0
    [⟨"/w/a.ts", (), none⟩] [] 2 [] rfl ⟨"/w", "/w/a.ts", 1⟩ rfl
  exact absurd (taken.mp rfl) (by decide)

end Recode.Lsp.Diagnostics

import Recode.Orchestrator.StorageWrites

/-! # What a state file holds after crashes

The current file and the backup always hold values that were saved, and the backup is behind
by at most one save that completed. -/

namespace Recode.Orchestrator.Storage

open Procedure List Option

/-! ## Saves one after the other -/

/-- A save of a value that can be written as JSON, and what comes of its calls. -/
structure Save where
  value : Json
  distinct : value.KeysDistinct
  outcomes : List Outcome

/-- What became of a save: whether it came to its end, whether it recorded a diagnostic, and
whether the backup then holds what the current file held before. -/
structure Attempt where
  value : Json
  completed : Bool
  reported : Bool
  refreshed : Bool

/-- The list of diagnostics is cleared before a save. -/
def Save.run (validate : Json → Bool) (save : Save) (world : World) : Attempt × World :=
  let ended := perform (saveValidated validate save.value)
    { world with outcomes := save.outcomes, storageDiagnostics := [] }
  (⟨save.value, ended.1.isOk, !ended.2.storageDiagnostics.isEmpty,
    ended.2.files .backup = world.files .current⟩, ended.2)

def runSaves (validate : Json → Bool) : List Save → World → List Attempt × World
  | [], world => ([], world)
  | save :: saves, world =>
    let (attempt, next) := save.run validate world
    let (attempts, final) := runSaves validate saves next
    (attempt :: attempts, final)

/-- The value of an attempt after which at most a number of saves completed. With the number
zero this is the last save that completed, or one that was stopped since. -/
def Within (number : Nat) (attempts : List Attempt) (value : Json) : Prop :=
  ∃ front attempt back, attempts = front ++ attempt :: back ∧ attempt.value = value ∧
    back.countP (·.completed) ≤ number

theorem within_last (attempts : List Attempt) (attempt : Attempt) :
    Within 0 (attempts ++ [attempt]) attempt.value :=
  ⟨attempts, attempt, [], rfl, rfl, Nat.le_refl 0⟩

/-- The last save that completed recorded no diagnostic, or it or one since left the backup with
what the current file held before. -/
def Fresh (attempts : List Attempt) : Prop :=
  attempts.countP (·.completed) = 0 ∨ ∃ front attempt back, attempts = front ++ attempt :: back ∧
    back.countP (·.completed) = 0 ∧
      (attempt.refreshed = true ∨ attempt.completed = true ∧ attempt.reported = false)

variable {attempts : List Attempt} {world : World}

theorem Fresh.of_snoc {attempt : Attempt} (fresh : Fresh (attempts ++ [attempt])) :
    (attempt.completed = false ∧ Fresh attempts) ∨ attempt.refreshed = true ∨
      attempt.completed = true ∧ attempt.reported = false := by
  rcases fresh with none_ | ⟨front, found, back, whole, none_, last⟩
  · rw [countP_append, Nat.add_eq_zero_iff, countP_singleton] at none_
    exact .inl ⟨by simpa using none_.2, .inl none_.1⟩
  rcases eq_nil_or_concat back with rfl | ⟨back, other, rfl⟩
  · obtain ⟨-, same⟩ := append_inj' whole rfl
    exact .inr (singleton_inj.mp same ▸ last)
  · rw [concat_eq_append] at none_ whole
    rw [← cons_append, ← append_assoc] at whole
    obtain ⟨rfl, same⟩ := append_inj' whole rfl
    obtain rfl := singleton_inj.mp same
    rw [countP_append, Nat.add_eq_zero_iff, countP_singleton] at none_
    exact .inl ⟨by simpa using none_.2, .inr ⟨front, found, back, rfl, none_.1, last⟩⟩

theorem Within.snoc {number more : Nat} {value : Json} (within : Within number attempts value)
    (attempt : Attempt) (counted : number + (if attempt.completed then 1 else 0) ≤ more) :
    Within more (attempts ++ [attempt]) value := by
  obtain ⟨front, found, back, rfl, rfl, few⟩ := within
  refine ⟨front, found, back ++ [attempt], by simp, rfl, ?_⟩
  rw [countP_append, countP_singleton]
  omega

/-- What the two files hold after some attempts. -/
structure Kept (validate : Json → Bool) (attempts : List Attempt) (world : World) : Prop where
  current : (world.files .current = none ∧ world.files .backup = none ∧
      attempts.countP (·.completed) = 0) ∨
    ∃ value, Holds validate (world.files .current) value ∧ Within 0 attempts value
  backup : world.files .backup = none ∨ ∃ value, Holds validate (world.files .backup) value ∧
    (Fresh attempts → Within 1 attempts value)
  refreshed : Fresh attempts → 2 ≤ attempts.countP (·.completed) →
    world.files .backup ≠ none

variable (validate : Json → Bool)

theorem saved_run (save : Save) (held : world.files .current = none ∨
      ∃ old, Holds validate (world.files .current) old) :
    Saved validate world.files save.value (save.run validate world).1.completed
      (save.run validate world).2 := by
  have triple : Triple (Agrees world.files []) (saveValidated validate save.value)
      (fun _ => Saved validate world.files save.value true)
      (fun _ => Saved validate world.files save.value false) :=
    triple_saveValidated save.value held
  have saved := triple { world with outcomes := save.outcomes, storageDiagnostics := [] }
    ⟨rfl, rfl, rfl⟩
  rw [Save.run]
  revert saved
  rcases perform (saveValidated validate save.value)
    { world with outcomes := save.outcomes, storageDiagnostics := [] } with ⟨error | _, final⟩
  · exact id
  · exact id

theorem Within.more {value : Json} (within : Within 0 attempts value)
    (attempt : Attempt) : Within 1 (attempts ++ [attempt]) value := by
  apply within.snoc attempt
  split <;> decide

theorem Kept.held {validate : Json → Bool} (kept : Kept validate attempts world) :
    world.files .current = none ∨ ∃ old, Holds validate (world.files .current) old := by
  rcases kept.current with absent | ⟨old, holds, -⟩
  · exact .inl absent.1
  · exact .inr ⟨old, holds⟩

/-- The diagnostics that a save leaves are the ones it recorded. -/
theorem quiet_run {validate : Json → Bool} {save : Save}
    (quiet : (save.run validate world).1.reported = false) :
    (save.run validate world).2.storageDiagnostics = [] := by
  apply List.isEmpty_iff.mp
  rw [← Bool.not_eq_false']
  exact quiet

theorem Kept.run {validate : Json → Bool} (kept : Kept validate attempts world) (save : Save) :
    Kept validate (attempts ++ [(save.run validate world).1]) (save.run validate world).2 := by
  have saved := saved_run validate save kept.held
  have quiet : (save.run validate world).1.reported = false →
      (save.run validate world).2.storageDiagnostics = [] := quiet_run
  have named : (save.run validate world).1.value = save.value := rfl
  have moves : (save.run validate world).1.refreshed = true →
      (save.run validate world).2.files .backup = world.files .current := of_decide_eq_true
  generalize (save.run validate world).1 = attempt at *
  generalize (save.run validate world).2 = final at *
  have counted : (attempts ++ [attempt]).countP (·.completed) =
      attempts.countP (·.completed) + if attempt.completed then 1 else 0 := by
    rw [countP_append, countP_singleton]
  rcases kept.current with ⟨absent, noBackup, none_⟩ | ⟨old, holds, within⟩
  · have noBackup' : final.files .backup = none :=
      saved.backup.elim (·.trans noBackup) (·.trans absent)
    refine ⟨?_, .inl noBackup', fun _ two => ?_⟩
    · rcases saved.current with ⟨landed, accepted⟩ | ⟨stopped, same⟩
      · exact .inr ⟨save.value, ⟨landed, accepted, save.distinct⟩, named ▸ within_last _ _⟩
      · refine .inl ⟨same.trans absent, noBackup', ?_⟩
        rw [counted, none_, stopped]
        rfl
    · rw [counted, none_] at two
      split at two <;> omega
  · have existed : world.files .current ≠ none := by
      rw [holds.1]
      exact some_ne_none _
    have earlier (fresh : Fresh (attempts ++ [attempt]))
        (stale : final.files .backup ≠ world.files .current) :
        attempt.completed = false ∧ Fresh attempts := by
      rcases fresh.of_snoc with earlier | moved | ⟨done, silent⟩
      · exact earlier
      · exact absurd (moves moved) stale
      · exact absurd (saved.refreshed done (quiet silent) existed) stale
    refine ⟨.inr ?_, ?_, fun fresh two => ?_⟩
    · rcases saved.current with ⟨landed, accepted⟩ | ⟨stopped, same⟩
      · exact ⟨save.value, ⟨landed, accepted, save.distinct⟩, named ▸ within_last _ _⟩
      · refine ⟨old, ⟨same.trans holds.1, holds.2⟩, within.snoc attempt ?_⟩
        rw [stopped]
        decide
    · by_cases moved : final.files .backup = world.files .current
      · exact .inr ⟨old, ⟨moved.trans holds.1, holds.2⟩, fun _ => within.more attempt⟩
      have same := saved.backup.resolve_right moved
      rcases kept.backup with noBackup | ⟨older, holds', within'⟩
      · exact .inl (same.trans noBackup)
      · refine .inr ⟨older, ⟨same.trans holds'.1, holds'.2⟩, fun fresh => ?_⟩
        obtain ⟨stopped, fresh⟩ := earlier fresh moved
        refine (within' fresh).snoc attempt ?_
        rw [stopped]
        decide
    · by_cases moved : final.files .backup = world.files .current
      · rw [moved]
        exact existed
      · rw [saved.backup.resolve_right moved]
        obtain ⟨stopped, fresh⟩ := earlier fresh moved
        apply kept.refreshed fresh
        rw [counted, stopped] at two
        exact two

theorem kept_runSaves (saves : List Save) (kept : Kept validate attempts world) :
    Kept validate (attempts ++ (runSaves validate saves world).1)
      (runSaves validate saves world).2 := by
  induction saves generalizing attempts world with
  | nil =>
    rw [runSaves, append_nil]
    exact kept
  | cons save saves ih =>
    have next := ih (kept.run save)
    rw [append_assoc] at next
    exact next

/-! ## Loading -/

/-- A process of its own on the same files, where all calls work. -/
def World.started (world : World) : World :=
  { world with outcomes := [], storageDiagnostics := [] }

def load (validate : Json → Bool) (fallback : Option Json) (world : World) :
    Except (Stop StorageError) (Option Json) :=
  (perform (loadValidated validate fallback) world.started).1

/-- The current file is replaced by other bytes. -/
def World.corrupted (world : World) (bytes : List UInt8) : World := world.write .current bytes

section Load

variable {validate : Json → Bool} {fallback : Option Json} {world : World}

theorem perform_noEffect (working : world.outcomes = []) :
    perform (atomically id) world = (.ok (), world) := by
  cases world
  cases working
  rfl

variable {bytes : List UInt8} {value : Json} {path : FileName}

section

variable (working : world.outcomes = []) (file : world.files path = some bytes)
include working file

theorem perform_readFileSync : perform (readFileSync path) world = (.ok bytes, world) := by
  rw [readFileSync, perform_bind_ok (perform_noEffect working), perform_get, file]
  rfl

theorem perform_parseValidated (accepted : readable validate bytes = some value) :
    perform (parseValidated validate path) world = (.ok value, world) := by
  obtain ⟨parsed, accepted⟩ := filter_eq_some_iff.mp accepted
  rw [parseValidated, perform_bind_ok (perform_readFileSync working file)]
  simp only [parsed, accepted, if_true]
  rfl

theorem perform_parseValidated_invalid (invalid : readable validate bytes = none) :
    ∃ error, perform (parseValidated validate path) world = (.error (.threw error), world) := by
  rw [parseValidated, perform_bind_ok (perform_readFileSync working file)]
  rcases parsed : Json.parse (Utf8.decode bytes) with - | value
  · exact ⟨_, rfl⟩
  · have refused := filter_eq_none_iff.mp invalid value parsed
    simp only [refused]
    exact ⟨_, rfl⟩

end

theorem perform_existsSync (path : FileName) :
    perform (existsSync path) world = (.ok (world.files path).isSome, world) := rfl

theorem perform_readCurrent_absent (absent : world.files .current = none) :
    perform (readCurrent validate) world = (.ok none, world) := by
  rw [readCurrent, perform_bind_ok (perform_existsSync _), absent]
  rfl

theorem perform_readCurrent_valid (working : world.outcomes = [])
    (file : world.files .current = some bytes) (accepted : readable validate bytes = some value) :
    perform (readCurrent validate) world = (.ok (some value), world) := by
  rw [readCurrent, perform_bind_ok (perform_existsSync _), file]
  have read : perform (some <$> parseValidated validate .current) world =
      (.ok (some value), world) := by
    rw [map_eq_pure_bind, perform_bind_ok (perform_parseValidated working file accepted)]
    rfl
  exact perform_attempt_ok read _

theorem perform_readCurrent_invalid (working : world.outcomes = [])
    (file : world.files .current = some bytes) (invalid : readable validate bytes = none) :
    ∃ reported, perform (readCurrent validate) world = (.ok none, reported) ∧
      reported.files = world.files ∧ reported.outcomes = [] := by
  rw [readCurrent, perform_bind_ok (perform_existsSync _), file]
  obtain ⟨error, failed⟩ := perform_parseValidated_invalid working file invalid
  have read : perform (some <$> parseValidated validate .current) world =
      (.error (.threw error), world) := by
    rw [map_eq_pure_bind, perform_bind_error failed]
  exact ⟨_, perform_attempt_threw read _, rfl, working⟩

theorem perform_recoverBackup_absent (noBackup : world.files .backup = none) :
    perform (recoverBackup validate) world = (.ok none, world) := by
  rw [recoverBackup, perform_bind_ok (perform_existsSync _), noBackup]
  rfl

theorem perform_recoverBackup_valid (working : world.outcomes = [])
    (file : world.files .backup = some bytes) (accepted : readable validate bytes = some value) :
    ∃ final, perform (recoverBackup validate) world = (.ok (some value), final) := by
  rw [recoverBackup, perform_bind_ok (perform_existsSync _), file]
  have read : perform (do
      let recovered ← parseValidated validate .backup
      recordDiagnostic .backupRecovered .backup
      return some recovered) world = _ :=
    perform_bind_ok (perform_parseValidated working file accepted) _
  exact ⟨_, perform_attempt_ok read _⟩

theorem load_current (file : world.files .current = some bytes)
    (accepted : readable validate bytes = some value) :
    load validate fallback world = .ok (some value) := by
  have present : world.started.files .current = some bytes := file
  rw [load, loadValidated, perform_bind_ok (perform_readCurrent_valid rfl present accepted)]
  rfl

theorem load_fallback (absent : world.files .current = none)
    (noBackup : world.files .backup = none) : load validate fallback world = .ok fallback := by
  have missing : world.started.files .current = none := absent
  have missingBackup : world.started.files .backup = none := noBackup
  rw [load, loadValidated, perform_bind_ok (perform_readCurrent_absent missing)]
  simp only [perform_bind_ok (perform_recoverBackup_absent missingBackup)]
  rw [perform_bind_ok (perform_existsSync _), missing]
  rfl

theorem load_backup {bytes bytes' : List UInt8} (file : world.files .current = some bytes)
    (invalid : readable validate bytes = none) (backup : world.files .backup = some bytes')
    (accepted : readable validate bytes' = some value) :
    load validate fallback world = .ok (some value) := by
  have present : world.started.files .current = some bytes := file
  obtain ⟨reported, first, same, working⟩ := perform_readCurrent_invalid rfl present invalid
  have kept : reported.files .backup = some bytes' := (congrFun same .backup).trans backup
  obtain ⟨final, second⟩ := perform_recoverBackup_valid working kept accepted
  rw [load, loadValidated, perform_bind_ok first]
  simp only [perform_bind_ok second]
  rfl

theorem load_unrecoverable (file : world.files .current = some bytes)
    (invalid : readable validate bytes = none) (noBackup : world.files .backup = none) :
    load validate fallback world = .error (.threw unrecoverable) := by
  have present : world.started.files .current = some bytes := file
  obtain ⟨reported, first, same, -⟩ := perform_readCurrent_invalid rfl present invalid
  have missing : reported.files .backup = none := (congrFun same .backup).trans noBackup
  have kept : reported.files .current = some bytes := (congrFun same .current).trans file
  rw [load, loadValidated, perform_bind_ok first]
  simp only [perform_bind_ok (perform_recoverBackup_absent missing)]
  rw [perform_bind_ok (perform_existsSync _), kept]
  rfl

end Load

/-! ## What is loaded after the saves -/

theorem kept_start (absent : world.files .current = none)
    (noBackup : world.files .backup = none) : Kept validate [] world :=
  ⟨.inl ⟨absent, noBackup, rfl⟩, .inl noBackup, fun _ two => absurd two (by decide)⟩

/-- From a directory without the files, and whatever calls of the saves throw or are their last,
the value that is loaded is that of the last save that completed or of one that was stopped since.
When the current file is then replaced by bytes that are not accepted, and the backup is fresh
since the last save that completed, the value may also be that of the save before; loading fails
only while there is no backup, and two saves that completed make one. -/
theorem load_after_saves (validate : Json → Bool) (fallback : Option Json) (saves : List Save)
    {start : World} (absent : start.files .current = none)
    (noBackup : start.files .backup = none) :
    let attempts := (runSaves validate saves start).1
    let final := (runSaves validate saves start).2
    ((load validate fallback final = .ok fallback ∧ attempts.countP (·.completed) = 0) ∨
      ∃ value, load validate fallback final = .ok (some value) ∧ Within 0 attempts value) ∧
    ∀ bytes, readable validate bytes = none → Fresh attempts →
      (∃ value, load validate fallback (final.corrupted bytes) = .ok (some value) ∧
        Within 1 attempts value) ∨
      (load validate fallback (final.corrupted bytes) = .error (.threw unrecoverable) ∧
        final.files .backup = none ∧ attempts.countP (·.completed) < 2) := by
  have kept := kept_runSaves validate saves (kept_start validate absent noBackup)
  rw [nil_append] at kept
  intro attempts final
  refine ⟨?_, fun bytes invalid fresh => ?_⟩
  · rcases kept.current with ⟨missing, missingBackup, none_⟩ |
      ⟨value, ⟨file, accepted, distinct⟩, within⟩
    · exact .inl ⟨load_fallback missing missingBackup, none_⟩
    · exact .inr ⟨value, load_current file (readable_persisted accepted distinct), within⟩
  · have current : (final.corrupted bytes).files .current = some bytes := by
      simp [World.corrupted]
    have backup : (final.corrupted bytes).files .backup = final.files .backup := by
      simp [World.corrupted]
    rcases kept.backup with missing | ⟨value, ⟨file, accepted, distinct⟩, within⟩
    · refine .inr ⟨load_unrecoverable current invalid (backup.trans missing), missing, ?_⟩
      by_contra two
      exact kept.refreshed fresh (not_lt.mp two) missing
    · exact .inl ⟨value, load_backup current invalid (backup.trans file)
        (readable_persisted accepted distinct), within fresh⟩

/-- Saves of which the second cannot refresh the backup and the last ends the process. -/
def fiveSaves : List Save :=
  [⟨.null, trivial, []⟩, ⟨.bool true, trivial, [.throws 0]⟩, ⟨.str "3", trivial, []⟩,
    ⟨.str "4", trivial, []⟩, ⟨.bool false, trivial, [.works, .crashes 3]⟩]

theorem load_after_fiveSaves :
    let attempts := (runSaves (fun _ => true) fiveSaves {}).1
    let final := (runSaves (fun _ => true) fiveSaves {}).2
    attempts.map (·.reported) = [false, true, false, false, false] ∧
    load (fun _ => true) none (final.corrupted []) = .ok (some (.str "3")) ∧
    ((∃ value, load (fun _ => true) none (final.corrupted []) = .ok (some value) ∧
        Within 1 attempts value) ∨
      (load (fun _ => true) none (final.corrupted []) = .error (.threw unrecoverable) ∧
        final.files .backup = none ∧ attempts.countP (·.completed) < 2)) := by
  have absent : ({} : World).files .current = none := rfl
  refine ⟨rfl, rfl, (load_after_saves (fun _ => true) none fiveSaves absent rfl).2 [] rfl ?_⟩
  exact .inr ⟨[_, _, _], _, [_], rfl, rfl, .inr ⟨rfl, rfl⟩⟩

/-- After a first save that completed there is no backup to recover, and after one that could not
refresh the backup it is older than the save before. -/
theorem load_after_oneSave :
    ((runSaves (fun _ => true) [⟨.null, trivial, []⟩] {}).1.map (·.completed) = [true] ∧
      readable (fun _ => true) [] = none ∧ load (fun _ => true) none
        ((runSaves (fun _ => true) [⟨.null, trivial, []⟩] {}).2.corrupted []) =
        .error (.threw unrecoverable)) ∧
    let saves : List Save := [⟨.null, trivial, []⟩, ⟨.bool true, trivial, []⟩,
      ⟨.bool false, trivial, [.throws 0]⟩]
    (runSaves (fun _ => true) saves {}).1.map (·.completed) = [true, true, true] ∧
      load (fun _ => true) none ((runSaves (fun _ => true) saves {}).2.corrupted []) =
        .ok (some .null) :=
  ⟨⟨rfl, rfl, rfl⟩, rfl, rfl⟩

end Recode.Orchestrator.Storage

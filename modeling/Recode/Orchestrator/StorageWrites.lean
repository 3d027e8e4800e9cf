import Recode.Orchestrator.Storage

/-! # What a save writes

Temporary files aside, a write changes one file, and changes it at once, whatever its calls
throw. A save first brings the backup to what the current file holds. -/

namespace Recode.Orchestrator.Storage

open Procedure Function Utf8 List

/-! ## Single writes -/

/-- The files that are not temporary, and the diagnostics. -/
structure Agrees (files : FileName → Option (List UInt8)) (diagnostics : List StorageDiagnostic)
    (world : World) : Prop where
  current : world.files .current = files .current
  backup : world.files .backup = files .backup
  diagnostics : world.storageDiagnostics = diagnostics

section Calls

variable {files : FileName → Option (List UInt8)} {diagnostics : List StorageDiagnostic}
  {before : World → Prop} {failed : Stop StorageError → World → Prop}

theorem triple_call {change : World → World} {partly : Nat → World → World} {after : World → Prop}
    (done : ∀ world rest, before world → after { change world with outcomes := rest })
    (stopped : ∀ world part rest stop, before world →
      failed stop { partly part world with outcomes := rest }) :
    Triple before (call change partly) (fun _ => after) failed := by
  intro world known
  unfold call
  rw [perform_get]
  cases world.outcomes.headD .works with
  | works => exact done world _ known
  | throws part => exact stopped world part _ _ known
  | crashes part => exact stopped world part _ _ known

theorem triple_atomically {change : World → World} {after : World → Prop}
    (done : ∀ world rest, before world → after { change world with outcomes := rest })
    (stopped : ∀ world rest stop, before world → failed stop { world with outcomes := rest })
    (late : ∀ world rest stop, before world → failed stop { change world with outcomes := rest }) :
    Triple before (atomically change) (fun _ => after) failed := by
  refine triple_call done fun world part rest stop known => ?_
  by_cases nothing : part = 0
  · rw [if_pos nothing]
    exact stopped world rest stop known
  · rw [if_neg nothing]
    exact late world rest stop known

end Calls

/-- What is known does not depend on the temporary files and the open descriptors. -/
def Steady (invariant : World → Prop) : Prop :=
  ∀ ⦃world other⦄, invariant world → Agrees world.files world.storageDiagnostics other →
    invariant other

section Kept

variable {files : FileName → Option (List UInt8)} {diagnostics : List StorageDiagnostic}
  {invariant : World → Prop}

theorem steady_agrees : Steady (Agrees files diagnostics) := by
  intro world other agrees same
  exact ⟨same.current.trans agrees.current, same.backup.trans agrees.backup,
    same.diagnostics.trans agrees.diagnostics⟩

section

variable (steady : Steady invariant)
include steady

theorem Steady.or {invariant' : World → Prop}
    (steady' : Steady invariant') : Steady fun world => invariant world ∨ invariant' world :=
  fun _ _ known same => known.imp (steady · same) (steady' · same)

theorem triple_kept {change : World → World}
    (kept : ∀ world, Agrees world.files world.storageDiagnostics (change world)) :
    Triple invariant (atomically change) (fun _ => invariant) (fun _ => invariant) := by
  have changed (world : World) (rest : List Outcome) (known : invariant world) :
      invariant { change world with outcomes := rest } :=
    steady known ⟨(kept world).current, (kept world).backup, (kept world).diagnostics⟩
  exact triple_atomically changed (fun _ _ _ known => steady known ⟨rfl, rfl, rfl⟩)
    fun world rest _ => changed world rest

theorem triple_noEffect :
    Triple invariant (atomically id) (fun _ => invariant) (fun _ => invariant) :=
  triple_kept steady fun _ => ⟨rfl, rfl, rfl⟩

theorem triple_variables {failed : Stop StorageError → World → Prop} {change : World → World}
    (kept : ∀ world, Agrees world.files world.storageDiagnostics (change world)) :
    Triple invariant (modify change : Calls Unit) (fun _ => invariant) failed :=
  triple_modify fun world known => steady known (kept world)

end

theorem agrees_write_temporary (world : World) (serial : Nat) (bytes : List UInt8) :
    Agrees world.files world.storageDiagnostics (world.write (.temporary serial) bytes) :=
  ⟨by simp, by simp, rfl⟩

theorem agrees_remove_temporary (world : World) (serial : Nat) :
    Agrees world.files world.storageDiagnostics (world.remove (.temporary serial)) :=
  ⟨by simp, by simp, rfl⟩

theorem triple_openSync (steady : Steady invariant) (serial : Nat) :
    Triple invariant (openSync (.temporary serial)) (fun _ => invariant) (fun _ => invariant) := by
  refine triple_get fun world known => ?_
  split
  · exact (triple_kept steady (agrees_write_temporary · serial [])).here known
  · exact triple_throw _ fun state same => same ▸ known

theorem triple_flushDirectory (steady : Steady invariant) :
    Triple invariant flushDirectory (fun _ => invariant) (fun _ => invariant) := by
  unfold flushDirectory
  refine triple_bind (triple_variables steady fun _ => ⟨rfl, rfl, rfl⟩) fun _ => ?_
  have opening : Triple invariant openDirectorySync (fun _ => invariant) (fun _ => invariant) := by
    refine triple_get fun world known => ?_
    split
    · exact (triple_noEffect steady).here known
    · exact triple_throw _ fun state same => same ▸ known
  have body : Triple invariant (do
      openDirectorySync
      modify fun world : World => { world with directoryDescriptor := true }
      fsyncSync) (fun _ => invariant) (Stop.Known (fun _ => invariant) invariant) := by
    rw [Stop.known_same]
    refine triple_bind opening fun _ => ?_
    refine triple_bind (triple_variables steady fun _ => ⟨rfl, rfl, rfl⟩) fun _ => ?_
    exact triple_noEffect steady
  have closing : Triple invariant (do if (← get).directoryDescriptor then closeSync)
      (fun _ => invariant) (fun _ => invariant) := by
    refine triple_get fun world known => ?_
    split
    · exact (triple_noEffect steady).here known
    · exact triple_pure () fun state same => same ▸ known
  refine triple_ensuring (triple_attempt body fun _ => ?_) (fun _ => closing) fun _ => closing
  exact triple_pure () fun _ known => known

theorem triple_discard (steady : Steady invariant) (serial : Nat) :
    Triple invariant (discard (.temporary serial)) (fun _ => invariant) (fun _ => invariant) := by
  have removing : Triple invariant (do
      if ← existsSync (.temporary serial) then rmSync (.temporary serial))
      (fun _ => invariant) (fun _ => invariant) := by
    refine triple_get fun world known => ?_
    split
    · exact (triple_kept steady (agrees_remove_temporary · serial)).here known
    · exact triple_pure () fun state same => same ▸ known
  refine triple_get fun world known => ?_
  split
  · exact triple_bind ((triple_noEffect steady).here known) fun _ => removing
  · exact removing.here known

end Kept

section Write

variable {files : FileName → Option (List UInt8)} {diagnostics : List StorageDiagnostic}

def written (files : FileName → Option (List UInt8)) (path : FileName) (text : List Char) :
    FileName → Option (List UInt8) :=
  update files path (some (encode text))

def Prepared (files : FileName → Option (List UInt8)) (diagnostics : List StorageDiagnostic)
    (serial : Nat) (text : List Char) (world : World) : Prop :=
  Agrees files diagnostics world ∧ world.files (.temporary serial) = some (encode text)

theorem triple_writeFileSync (serial : Nat) (text : List Char) :
    Triple (Agrees files diagnostics) (writeFileSync (.temporary serial) (encode text))
      (fun _ => Prepared files diagnostics serial text)
      (fun _ => Agrees files diagnostics) := by
  have kept (world : World) (known : Agrees files diagnostics world) (bytes : List UInt8)
      (rest : List Outcome) : Agrees files diagnostics
        { world.write (.temporary serial) bytes with outcomes := rest } := by
    have same := agrees_write_temporary world serial bytes
    exact steady_agrees known ⟨same.current, same.backup, same.diagnostics⟩
  refine triple_call (fun world rest known => ⟨kept world known _ rest, ?_⟩)
    fun world part rest _ known => kept world known _ rest
  simp

/-- The other calls leave a prepared file as it is. -/
theorem triple_prepared (serial : Nat) (text : List Char) :
    Triple (Prepared files diagnostics serial text) (atomically id)
      (fun _ => Prepared files diagnostics serial text)
      (fun _ => Agrees files diagnostics) :=
  triple_atomically (fun _ _ known => ⟨steady_agrees known.1 ⟨rfl, rfl, rfl⟩, known.2⟩)
    (fun _ _ _ known => steady_agrees known.1 ⟨rfl, rfl, rfl⟩)
    (fun _ _ _ known => steady_agrees known.1 ⟨rfl, rfl, rfl⟩)

theorem triple_preparedVariables {failed : Stop StorageError → World → Prop} (serial : Nat)
    (text : List Char) {change : World → World}
    (kept : ∀ world, (change world).files = world.files ∧
      (change world).storageDiagnostics = world.storageDiagnostics) :
    Triple (Prepared files diagnostics serial text) (modify change : Calls Unit)
      (fun _ => Prepared files diagnostics serial text) failed := by
  refine triple_modify fun world known => ⟨steady_agrees known.1 ⟨?_, ?_, (kept world).2⟩, ?_⟩
  · rw [(kept world).1]
  · rw [(kept world).1]
  · rw [(kept world).1]
    exact known.2

variable {path : FileName}

section

variable (lasting : path = .current ∨ path = .backup)
include lasting

theorem triple_renameSync (serial : Nat) (text : List Char) :
    Triple (Prepared files diagnostics serial text) (renameSync (.temporary serial) path)
      (fun _ => Agrees (written files path text) diagnostics)
      (fun _ world => Agrees files diagnostics world ∨
        Agrees (written files path text) diagnostics world) := by
  have renamed (world : World) (rest : List Outcome)
      (known : Prepared files diagnostics serial text world) :
      Agrees (written files path text) diagnostics
        { world.rename (.temporary serial) path with outcomes := rest } := by
    obtain ⟨agrees, whole⟩ := known
    rcases lasting with rfl | rfl
    · exact ⟨by simp [written, whole], by simp [written, agrees.backup], agrees.diagnostics⟩
    · exact ⟨by simp [written, agrees.current], by simp [written, whole], agrees.diagnostics⟩
  refine triple_get fun world known => ?_
  rw [if_pos (by rw [known.2]; rfl)]
  have moving : Triple (Prepared files diagnostics serial text)
      (atomically (·.rename (.temporary serial) path))
      (fun _ => Agrees (written files path text) diagnostics)
      (fun _ world => Agrees files diagnostics world ∨
        Agrees (written files path text) diagnostics world) :=
    triple_atomically renamed (fun _ _ _ known => .inl (steady_agrees known.1 ⟨rfl, rfl, rfl⟩))
      fun world rest _ known => .inr (renamed world rest known)
  exact moving.here known

theorem triple_replaceThrough (serial : Nat) (text : List Char) :
    Triple (Agrees files diagnostics) (replaceThrough (.temporary serial) path text)
      (fun _ => Agrees (written files path text) diagnostics)
      (fun _ world => Agrees files diagnostics world ∨
        Agrees (written files path text) diagnostics world) := by
  have early {Result : Type} {before : World → Prop} {procedure : Calls Result}
      {after : Result → World → Prop}
      (triple : Triple before procedure after fun _ => Agrees files diagnostics) :
      Triple before procedure after fun _ world => Agrees files diagnostics world ∨
        Agrees (written files path text) diagnostics world :=
    triple.weaken (fun _ known => known) (fun _ _ known => known) fun _ _ => Or.inl
  refine triple_bind (early (triple_openSync steady_agrees serial)) fun _ => ?_
  refine triple_bind (triple_variables steady_agrees fun _ => ⟨rfl, rfl, rfl⟩) fun _ => ?_
  refine triple_bind (early (triple_writeFileSync serial text)) fun _ => ?_
  refine triple_bind (early (triple_prepared serial text)) fun _ => ?_
  refine triple_bind (early (triple_prepared serial text)) fun _ => ?_
  refine triple_bind (triple_preparedVariables serial text fun _ => ⟨rfl, rfl⟩) fun _ => ?_
  refine triple_bind (triple_renameSync lasting serial text) fun _ => ?_
  exact (triple_flushDirectory steady_agrees).weaken (fun _ known => known)
    (fun _ _ known => known) fun _ _ => Or.inr

/-- A write leaves the file as it is or replaces it; all other files but the temporary ones
stay. -/
theorem triple_atomicWriteText (text : List Char) :
    Triple (Agrees files diagnostics) (atomicWriteText path text)
      (fun _ => Agrees (written files path text) diagnostics)
      (fun _ world => Agrees files diagnostics world ∨
        Agrees (written files path text) diagnostics world) := by
  have anywhere : Steady fun world => Agrees files diagnostics world ∨
      Agrees (written files path text) diagnostics world := steady_agrees.or steady_agrees
  refine triple_get fun world known => ?_
  refine triple_bind (Triple.here (triple_variables steady_agrees fun _ => ⟨rfl, rfl, rfl⟩) known)
    fun _ => ?_
  have replacing : Triple (Agrees files diagnostics)
      (replaceThrough (.temporary world.serial) path text)
      (fun _ => Agrees (written files path text) diagnostics)
      (Stop.Known (fun _ world => Agrees files diagnostics world ∨
        Agrees (written files path text) diagnostics world)
        fun world => Agrees files diagnostics world ∨
          Agrees (written files path text) diagnostics world) := by
    rw [Stop.known_same]
    exact triple_replaceThrough lasting world.serial text
  refine triple_ensuring replacing (fun _ => ?_) fun _ => triple_discard anywhere world.serial
  exact (triple_discard steady_agrees world.serial).weaken (fun _ known => known)
    (fun _ _ known => known) fun _ _ => Or.inr

end

end Write

/-! ## A save -/

/-- The value in a file, when it is one that is accepted. -/
def readable (validate : Json → Bool) (bytes : List UInt8) : Option Json :=
  (Json.parse (decode bytes)).filter validate

def Holds (validate : Json → Bool) (file : Option (List UInt8)) (value : Json) : Prop :=
  file = some (persisted value) ∧ validate value = true ∧ value.KeysDistinct

section Save

variable {validate : Json → Bool} {files : FileName → Option (List UInt8)}
  {diagnostics : List StorageDiagnostic} {value : Json}

theorem parse_persisted (distinct : value.KeysDistinct) :
    Json.parse (decode (persisted value)) = some value := by
  rw [persisted, decode_encode]
  exact Json.parse_indented distinct

theorem readable_persisted (accepted : validate value = true)
    (distinct : value.KeysDistinct) : readable validate (persisted value) = some value := by
  rw [readable, parse_persisted distinct, Option.filter_some, if_pos accepted]

theorem triple_parseValidated (holds : Holds validate (files .current) value) :
    Triple (Agrees files diagnostics) (parseValidated validate .current)
      (fun read world => read = value ∧ Agrees files diagnostics world)
      (fun _ => Agrees files diagnostics) := by
  obtain ⟨file, accepted, distinct⟩ := holds
  have reading : Triple (Agrees files diagnostics) (readFileSync .current)
      (fun bytes world => bytes = persisted value ∧ Agrees files diagnostics world)
      (fun _ => Agrees files diagnostics) := by
    refine triple_bind (triple_noEffect steady_agrees) fun _ => triple_get fun world known => ?_
    rw [known.current, file]
    exact triple_pure _ fun state same => ⟨rfl, same ▸ known⟩
  refine triple_bind reading fun bytes => ?_
  intro world known
  obtain ⟨rfl, agrees⟩ := known
  simp only [parse_persisted distinct, accepted, if_true]
  exact ⟨rfl, agrees⟩

theorem backup_written (holds : Holds validate (files .current) value) :
    written files .backup (savedText value) .backup = files .current := by
  rw [holds.1]
  exact update_self ..

theorem current_written (files : FileName → Option (List UInt8)) (text : List Char) :
    written files .backup text .current = files .current :=
  update_of_ne (by decide) ..

theorem recorded_ne_nil (diagnostics : List StorageDiagnostic) (diagnostic : StorageDiagnostic) :
    (diagnostics ++ [diagnostic]).drop ((diagnostics ++ [diagnostic]).length - diagnosticLimit) ≠
      [] := by
  apply ne_nil_of_length_pos
  rw [length_drop, length_append, length_singleton, diagnosticLimit]
  omega

/-- The world after the backup was refreshed, or failed to be. -/
structure Ready (files : FileName → Option (List UInt8)) (world : World) : Prop where
  current : world.files .current = files .current
  backup : world.files .backup = files .backup ∨ world.files .backup = files .current
  refreshed : world.storageDiagnostics = [] → files .current ≠ none →
    world.files .backup = files .current

theorem triple_refresh (holds : Holds validate (files .current) value) :
    Triple (Agrees files []) (attempt (do
      let current ← parseValidated validate .current
      atomicWriteText .backup (savedText current)) fun _ =>
        recordDiagnostic .currentInvalid .current)
      (fun _ => Ready files) (fun _ world => Agrees files [] world ∨
        Agrees (written files .backup (savedText value)) [] world) := by
  have moved := backup_written holds
  have stayed := current_written files (savedText value)
  have body : Triple (Agrees files []) (do
      let current ← parseValidated validate .current
      atomicWriteText .backup (savedText current))
      (fun _ => Agrees (written files .backup (savedText value)) [])
      (Stop.Known (fun _ world => Agrees files [] world ∨
        Agrees (written files .backup (savedText value)) [] world) fun world =>
          Agrees files [] world ∨ Agrees (written files .backup (savedText value)) [] world) := by
    rw [Stop.known_same]
    refine triple_bind ((triple_parseValidated holds).weaken (fun _ known => known)
      (fun _ _ known => known) fun _ _ => Or.inl) fun read => ?_
    intro world known
    rw [known.1]
    exact triple_atomicWriteText (.inr rfl) (savedText value) world known.2
  refine triple_attempt (body.weaken (fun _ known => known) (fun _ world known => ?_)
    fun _ _ known => known) fun error => triple_modify fun world known => ?_
  · exact ⟨known.current.trans stayed, .inr (known.backup.trans moved),
      fun _ _ => known.backup.trans moved⟩
  · have reported := recorded_ne_nil world.storageDiagnostics ⟨.currentInvalid, .current⟩
    rcases known with known | known
    · exact ⟨known.current, .inl known.backup, fun none_ => absurd none_ reported⟩
    · exact ⟨known.current.trans stayed, .inr (known.backup.trans moved),
        fun none_ => absurd none_ reported⟩

/-- What a save leaves in the files. -/
structure Saved (validate : Json → Bool) (files : FileName → Option (List UInt8)) (value : Json)
    (completed : Bool) (world : World) : Prop where
  current : (world.files .current = some (persisted value) ∧ validate value = true) ∨
    (completed = false ∧ world.files .current = files .current)
  backup : world.files .backup = files .backup ∨ world.files .backup = files .current
  refreshed : completed = true → world.storageDiagnostics = [] → files .current ≠ none →
    world.files .backup = files .current

theorem Ready.saved {world world' : World} (ready : Ready files world) {value : Json}
    (same : Agrees world.files world.storageDiagnostics world') :
    Saved validate files value false world' :=
  ⟨.inr ⟨rfl, same.current.trans ready.current⟩,
    ready.backup.imp same.backup.trans same.backup.trans, fun done => absurd done (by decide)⟩

/-- Writing the current file on a world whose backup was taken care of. -/
theorem triple_writeCurrent (accepted : validate value = true) :
    Triple (Ready files) (atomicWriteText .current (savedText value))
      (fun _ => Saved validate files value true)
      (fun _ => Saved validate files value false) := by
  refine triple_each fun world ready => ?_
  have replaced {world' : World} {completed : Bool}
      (same : Agrees (written world.files .current (savedText value)) world.storageDiagnostics
        world') : Saved validate files value completed world' := by
    have stayed : world'.files .backup = world.files .backup :=
      same.backup.trans (update_of_ne (by decide) ..)
    refine ⟨.inl ⟨same.current.trans (update_self ..), accepted⟩,
      ready.backup.imp stayed.trans stayed.trans, fun _ quiet existed => ?_⟩
    exact stayed.trans (ready.refreshed (same.diagnostics.symm.trans quiet) existed)
  have start (state : World) (same : state = world) :
      Agrees world.files world.storageDiagnostics state := by
    rw [same]
    exact ⟨rfl, rfl, rfl⟩
  exact (triple_atomicWriteText (.inl rfl) (savedText value)).weaken start
    (fun _ _ => replaced) fun _ _ known => known.elim ready.saved replaced

theorem triple_ensureOrchestratorDir : Triple (Agrees files diagnostics) ensureOrchestratorDir
    (fun _ => Agrees files diagnostics) (fun _ => Agrees files diagnostics) := by
  have making : Triple (Agrees files diagnostics) mkdirSync (fun _ => Agrees files diagnostics)
      (fun _ => Agrees files diagnostics) := triple_kept steady_agrees fun _ => ⟨rfl, rfl, rfl⟩
  refine triple_get fun world known => ?_
  split
  · exact making.here known
  · exact triple_pure () fun state same => same ▸ known

theorem triple_saveValidated (value : Json)
    (held : files .current = none ∨ ∃ old, Holds validate (files .current) old) :
    Triple (Agrees files []) (saveValidated validate value)
      (fun _ => Saved validate files value true)
      (fun _ => Saved validate files value false) := by
  have untouched {world : World} (known : Agrees files [] world) :
      Saved validate files value false world :=
    ⟨.inr ⟨rfl, known.current⟩, .inl known.backup, fun done => absurd done (by decide)⟩
  have ready {world : World} (known : Agrees files [] world) (absent : files .current = none) :
      Ready files world :=
    ⟨known.current, .inl known.backup, fun _ existed => absurd absent existed⟩
  have backedUp {old : Json} (holds : Holds validate (files .current) old) {world : World}
      (known : Agrees (written files .backup (savedText old)) [] world) :
      Saved validate files value false world :=
    ⟨.inr ⟨rfl, known.current.trans (current_written files _)⟩,
      .inr (known.backup.trans (backup_written holds)), fun done => absurd done (by decide)⟩
  unfold saveValidated
  by_cases accepted : validate value = true
  · rw [accepted]
    refine triple_bind (triple_ensureOrchestratorDir.weaken (fun _ known => known)
      (fun _ _ known => known) fun _ _ => untouched) fun _ => ?_
    refine triple_get fun world known => ?_
    rw [known.current]
    rcases held with absent | ⟨old, holds⟩
    · rw [absent]
      refine (triple_writeCurrent accepted).weaken (fun state same => ?_) (fun _ _ known => known)
        fun _ _ known => known
      exact ready (same ▸ known) absent
    · rw [holds.1]
      refine triple_bind (((triple_refresh holds).here known).weaken (fun _ known => known)
        (fun _ _ known => known) fun _ _ known => known.elim untouched (backedUp holds)) fun _ =>
          triple_writeCurrent accepted
  · rw [Bool.not_eq_true] at accepted
    rw [accepted]
    exact triple_throw _ fun _ => untouched

end Save

end Recode.Orchestrator.Storage

import Recode.Orchestrator.ServiceOwnership

/-! # Exclusive ownership of the service

As long as every rename moves the file that the process has read, one process at most owns the
service. A rename moves whatever is at the path, so a late one can move the file of a new owner. -/

namespace Recode.Orchestrator

open OwnershipPhase Function Option

/-- At most one process holds an ownership that it has not released. -/
def MutuallyExclusive (world : ServiceWorld) : Prop :=
  ∀ first second, (world.phases first).holds = true → (world.phases second).holds = true →
    first = second

def renamesWhatItRead (world : ServiceWorld) (process : ProcessIdentityRecord)
    (move : OwnershipMove) : Bool :=
  match world.phases process, move with
  | .moving _ inode _, .renameStale => world.ownerFile.all fun current => current = inode
  | _, _ => true

/-- Steps of processes, each of which meets the condition. -/
inductive CarefulRun : ServiceWorld → ServiceWorld → Prop
  | done (world : ServiceWorld) : CarefulRun world world
  | step {world next reached : ServiceWorld} {process : ProcessIdentityRecord}
      {move : OwnershipMove} (careful : renamesWhatItRead world process move = true)
      (steps : world.step process move = some next) (rest : CarefulRun next reached) :
      CarefulRun world reached

/-- No process is in a call or owns the service. Any owner file may be left over. -/
structure Quiet (world : ServiceWorld) : Prop where
  phases : ∀ process, world.phases process = .absent ∨ world.phases process = .idle ∨
    world.phases process = .gone
  bounded : ∀ inode, world.ownerFile = some inode → inode < world.nextInode

namespace OwnershipPhase

/-- The owner file that a process has created, with the text that it has written. -/
def ownFile : OwnershipPhase → Option (Inode × OwnerText × MaestroServiceOwnerReceipt)
  | .writing _ inode receipt => some (inode, .unreadable, receipt)
  | .closing inode receipt => some (inode, .json receipt, receipt)
  | .acquired inode receipt => some (inode, .json receipt, receipt)
  | .rereading inode receipt => some (inode, .json receipt, receipt)
  | .unlinking inode receipt => some (inode, .json receipt, receipt)
  | _ => none

def readFile : OwnershipPhase → Option (Inode × MaestroServiceOwnerReceipt)
  | .inspecting _ inode existing => some (inode, existing)
  | .moving _ inode existing => some (inode, existing)
  | _ => none

/-- The owner file whose process was found dead. -/
def staleFile : OwnershipPhase → Option Inode
  | .moving _ inode _ => some inode
  | _ => none

theorem readFile_of_update {phases : ProcessIdentityRecord → OwnershipPhase}
    {process other : ProcessIdentityRecord} {phase : OwnershipPhase}
    (nothing : phase.readFile = none) {file : Inode × MaestroServiceOwnerReceipt}
    (reads : (update phases process phase other).readFile = some file) :
    (phases other).readFile = some file := by
  by_cases same : other = process
  · subst same
    rw [update_self] at reads
    cases nothing.symm.trans reads
  · rw [update_of_ne same] at reads
    exact reads

variable {phase : OwnershipPhase}

theorem isLive_of_ownFile {file : Inode × OwnerText × MaestroServiceOwnerReceipt}
    (owns : phase.ownFile = some file) : phase.isLive = true := by
  cases phase with
  | absent => cases owns
  | gone => cases owns
  | _ => rfl

theorem ownFile_of_holds (holds : phase.holds = true) : ∃ file, phase.ownFile = some file := by
  cases phase with
  | acquired inode receipt => exact ⟨_, rfl⟩
  | _ => cases holds

theorem readFile_of_staleFile {inode : Inode} (stale : phase.staleFile = some inode) :
    ∃ existing, phase.readFile = some (inode, existing) := by
  cases phase with
  | moving attempt file existing =>
    cases stale
    exact ⟨existing, rfl⟩
  | _ => cases stale

theorem eq_of_ownFile_json {inode : Inode} {receipt existing : MaestroServiceOwnerReceipt}
    (owns : phase.ownFile = some (inode, .json existing, receipt)) : receipt = existing := by
  cases phase with
  | closing _ _ => cases owns; rfl
  | acquired _ _ => cases owns; rfl
  | rereading _ _ => cases owns; rfl
  | unlinking _ _ => cases owns; rfl
  | _ => cases owns

end OwnershipPhase

/-- The owner file is that of the only process that has created one, and nobody is about to rename
it away. -/
structure SoleOwner (world : ServiceWorld) : Prop where
  bounded : ∀ inode, world.ownerFile = some inode → inode < world.nextInode
  own : ∀ process inode text receipt, (world.phases process).ownFile = some (inode, text, receipt) →
      world.ownerFile = some inode ∧ world.texts inode = text ∧ receipt.processIdentity = process
  single : ∀ first second file other, (world.phases first).ownFile = some file →
    (world.phases second).ownFile = some other → first = second
  seen : ∀ process inode existing, (world.phases process).readFile = some (inode, existing) →
    world.texts inode = .json existing ∧ isOwnerReceipt existing = true ∧ inode < world.nextInode
  stale : ∀ process inode, (world.phases process).staleFile = some inode →
    ∀ other file, (world.phases other).ownFile = some file → file.1 ≠ inode

theorem Quiet.soleOwner {world : ServiceWorld} (quiet : Quiet world) : SoleOwner world := by
  have unowned : ∀ process, (world.phases process).ownFile = none ∧
      (world.phases process).readFile = none ∧ (world.phases process).staleFile = none := by
    intro process
    rcases quiet.phases process with absent | idle | gone
    · rw [absent]
      exact ⟨rfl, rfl, rfl⟩
    · rw [idle]
      exact ⟨rfl, rfl, rfl⟩
    · rw [gone]
      exact ⟨rfl, rfl, rfl⟩
  refine ⟨quiet.bounded, ?_, ?_, ?_, ?_⟩
  · intro process inode text receipt owns
    cases (unowned process).1.symm.trans owns
  · intro first second file other owns
    cases (unowned first).1.symm.trans owns
  · intro process inode existing reads
    cases (unowned process).2.1.symm.trans reads
  · intro process inode found
    cases (unowned process).2.2.symm.trans found

namespace SoleOwner

variable {world next : ServiceWorld} {process : ProcessIdentityRecord}

theorem exclusive (sole : SoleOwner world) : MutuallyExclusive world := by
  intro first second holds alsoHolds
  obtain ⟨file, owns⟩ := ownFile_of_holds holds
  obtain ⟨other, alsoOwns⟩ := ownFile_of_holds alsoHolds
  exact sole.single first second file other owns alsoOwns

variable {existing : MaestroServiceOwnerReceipt} {receipt : MaestroServiceOwnerReceipt}
  {phase : OwnershipPhase} {attempt : Nat} {inode : Inode}

/-- A process goes on without touching the owner file. -/
theorem setPhase (sole : SoleOwner world)
    (own : ∀ file, phase.ownFile = some file → (world.phases process).ownFile = some file)
    (seen : ∀ inode existing, phase.readFile = some (inode, existing) →
      world.texts inode = .json existing ∧ isOwnerReceipt existing = true ∧
        inode < world.nextInode) (stale : ∀ inode, phase.staleFile = some inode →
      ∀ other file, (world.phases other).ownFile = some file → file.1 ≠ inode) :
    SoleOwner (world.setPhase process phase) := by
  have before : ∀ other file, (update world.phases process phase other).ownFile =
      some file → (world.phases other).ownFile = some file := by
    intro other file owns
    by_cases same : other = process
    · subst same
      rw [update_self] at owns
      exact own file owns
    · rw [update_of_ne same] at owns
      exact owns
  refine ⟨sole.bounded, ?_, ?_, ?_, ?_⟩
  · intro other inode text receipt owns
    exact sole.own other inode text receipt (before other _ owns)
  · intro first second file other owns alsoOwns
    exact sole.single first second file other (before first file owns)
      (before second other alsoOwns)
  · intro other inode existing reads
    change (update world.phases process phase other).readFile = _ at reads
    by_cases same : other = process
    · subst same
      rw [update_self] at reads
      exact seen inode existing reads
    · rw [update_of_ne same] at reads
      exact sole.seen other inode existing reads
  · intro other inode found owner file owns
    change (update world.phases process phase other).staleFile = _ at found
    have owned := before owner file owns
    by_cases same : other = process
    · subst same
      rw [update_self] at found
      exact stale inode found owner file owned
    · rw [update_of_ne same] at found
      exact sole.stale other inode found owner file owned

theorem setPhase_plain (sole : SoleOwner world)
    (own : phase.ownFile = none) (seen : phase.readFile = none) (stale : phase.staleFile = none) :
    SoleOwner (world.setPhase process phase) := by
  refine sole.setPhase ?_ ?_ ?_
  · intro file owns
    cases own.symm.trans owns
  · intro inode existing reads
    cases seen.symm.trans reads
  · intro inode found
    cases stale.symm.trans found

theorem nextAttempt_plain (attempt : Nat) : (nextAttempt attempt).ownFile = none ∧
    (nextAttempt attempt).readFile = none ∧ (nextAttempt attempt).staleFile = none := by
  unfold nextAttempt
  split
  · exact ⟨rfl, rfl, rfl⟩
  · exact ⟨rfl, rfl, rfl⟩

section

variable (sole : SoleOwner world)
include sole

theorem setPhase_nextAttempt (attempt : Nat) :
    SoleOwner (world.setPhase process (nextAttempt attempt)) :=
  sole.setPhase_plain (nextAttempt_plain attempt).1 (nextAttempt_plain attempt).2.1
    (nextAttempt_plain attempt).2.2

theorem unowned_of_missing (missing : world.ownerFile = none)
    (other : ProcessIdentityRecord) : (world.phases other).ownFile = none := by
  cases owns : (world.phases other).ownFile with
  | none => rfl
  | some file =>
    obtain ⟨inode, text, receipt⟩ := file
    cases missing.symm.trans (sole.own other inode text receipt owns).1

theorem openOwner (named : receipt.processIdentity = process) :
    SoleOwner (world.openOwner process attempt receipt) := by
  unfold ServiceWorld.openOwner
  cases missing : world.ownerFile with
  | some inode => exact sole.setPhase_plain rfl rfl rfl
  | none =>
    have unowned := sole.unowned_of_missing missing
    have owner : ∀ other file,
        (update world.phases process (.writing attempt world.nextInode receipt)
          other).ownFile = some file →
        other = process ∧ file = (world.nextInode, .unreadable, receipt) := by
      intro other file owns
      by_cases same : other = process
      · subst same
        rw [update_self] at owns
        exact ⟨rfl, (some.inj owns).symm⟩
      · rw [update_of_ne same] at owns
        cases (unowned other).symm.trans owns
    refine ⟨?_, ?_, ?_, ?_, ?_⟩
    · intro inode found
      cases found
      exact Nat.lt_succ_self world.nextInode
    · intro other inode text written owns
      obtain ⟨rfl, same⟩ := owner other _ owns
      cases same
      exact ⟨rfl, update_self .., named⟩
    · intro first second file other owns alsoOwns
      exact (owner first file owns).1.trans (owner second other alsoOwns).1.symm
    · intro other inode existing reads
      obtain ⟨text, valid, old⟩ := sole.seen other inode existing (readFile_of_update rfl reads)
      refine ⟨?_, valid, Nat.lt_succ_of_lt old⟩
      exact (update_of_ne (Nat.ne_of_lt old) _ _).trans text
    · intro other inode found owning file owns
      obtain ⟨existing, reads⟩ := readFile_of_staleFile found
      have old := (sole.seen other inode existing (readFile_of_update rfl reads)).2.2
      rw [(owner owning file owns).2]
      exact Nat.ne_of_gt old

theorem write (phase : world.phases process = .writing attempt inode receipt) :
    SoleOwner ({ world with
      texts := update world.texts inode (.json receipt) }.setPhase process
        (.closing inode receipt)) := by
  have owned : (world.phases process).ownFile = some (inode, .unreadable, receipt) := by
    rw [phase]
    rfl
  obtain ⟨there, unwritten, named⟩ := sole.own process inode _ receipt owned
  have owner : ∀ other file,
      (update world.phases process (.closing inode receipt) other).ownFile = some file →
      other = process ∧ file = (inode, .json receipt, receipt) := by
    intro other file owns
    by_cases same : other = process
    · subst same
      rw [update_self] at owns
      exact ⟨rfl, (some.inj owns).symm⟩
    · rw [update_of_ne same] at owns
      exact (same (sole.single other process file _ owns owned)).elim
  have apart : ∀ other file existing, (world.phases other).readFile = some (file, existing) →
      file ≠ inode := by
    intro other file existing reads same
    subst same
    cases unwritten.symm.trans (sole.seen other file existing reads).1
  refine ⟨sole.bounded, ?_, ?_, ?_, ?_⟩
  · intro other file text written owns
    obtain ⟨rfl, same⟩ := owner other _ owns
    cases same
    exact ⟨there, update_self .., named⟩
  · intro first second file other owns alsoOwns
    exact (owner first file owns).1.trans (owner second other alsoOwns).1.symm
  · intro other file existing reads
    have earlier := readFile_of_update rfl reads
    obtain ⟨text, valid, old⟩ := sole.seen other file existing earlier
    exact ⟨(update_of_ne (apart other file existing earlier) _ _).trans text, valid, old⟩
  · intro other file found owning created owns
    obtain ⟨existing, reads⟩ := readFile_of_staleFile found
    rw [(owner owning created owns).2]
    exact (apart other file existing (readFile_of_update rfl reads)).symm

theorem dropOwner {staleFiles : String → Option Inode}
    (own : phase.ownFile = none) (seen : phase.readFile = none)
    (others : ∀ other, other ≠ process → (world.phases other).ownFile = none) :
    SoleOwner ({ world with ownerFile := none, staleFiles := staleFiles }.setPhase process
      phase) := by
  have unowned : ∀ other, (update world.phases process phase other).ownFile = none := by
    intro other
    by_cases same : other = process
    · subst same
      rw [update_self]
      exact own
    · rw [update_of_ne same]
      exact others other same
  refine ⟨?_, ?_, ?_, ?_, ?_⟩
  · intro inode found
    cases found
  · intro other inode text receipt owns
    cases (unowned other).symm.trans owns
  · intro first second file other owns
    cases (unowned first).symm.trans owns
  · intro other inode existing reads
    exact sole.seen other inode existing (readFile_of_update seen reads)
  · intro other inode found owning file owns
    cases (unowned owning).symm.trans owns

theorem renameOwner (phase : world.phases process = .moving attempt inode existing)
    (careful : ∀ current, world.ownerFile = some current → current = inode) :
    SoleOwner (world.renameOwner process attempt existing) := by
  unfold ServiceWorld.renameOwner
  cases there : world.ownerFile with
  | none => exact sole.setPhase_nextAttempt attempt
  | some current =>
    obtain rfl := careful current there
    refine sole.dropOwner rfl rfl fun other _ => ?_
    have stale : (world.phases process).staleFile = some current := by
      rw [phase]
      rfl
    cases owns : (world.phases other).ownFile with
    | none => rfl
    | some file =>
      have same := (sole.own other file.1 file.2.1 file.2.2 owns).1
      rw [there, some_inj] at same
      exact (sole.stale process current stale other file owns same.symm).elim

theorem verified_of_own {observed : Option ProcessIdentityRecord}
    (reads : (world.phases process).readFile = some (inode, existing))
    (truthful : world.truthful existing.processIdentity observed = true)
    {other : ProcessIdentityRecord} {text : OwnerText}
    (owns : (world.phases other).ownFile = some (inode, text, receipt)) :
    verifyProcessIdentity existing.processIdentity observed = true := by
  obtain ⟨written, valid, -⟩ := sole.seen process inode existing reads
  obtain ⟨-, same, named⟩ := sole.own other inode text receipt owns
  rw [written] at same
  subst same
  obtain rfl := eq_of_ownFile_json owns
  have live := isLive_of_ownFile owns
  rw [ServiceWorld.truthful, named, live, Bool.not_true, Bool.false_or, decide_eq_true_eq]
    at truthful
  simp only [isOwnerReceipt, isProcessIdentity, named, Bool.and_eq_true, decide_eq_true_eq]
    at valid
  have started : other.startReceipt ≠ "" := by
    intro empty
    rw [empty] at valid
    cases valid.1.2.2
  simp only [verifyProcessIdentity, truthful, named, any_some, Bool.and_eq_true,
    decide_eq_true_eq, and_true]
  exact ⟨⟨⟨⟨⟨valid.1.2.1.1, valid.1.2.1.2⟩, valid.1.2.1.1⟩, valid.1.2.1.2⟩, started⟩, started⟩

theorem readOwner (attempt : Nat) :
    SoleOwner (world.setPhase process (world.readOwner attempt)) := by
  unfold ServiceWorld.readOwner
  cases there : world.ownerFile with
  | none => exact sole.setPhase_nextAttempt attempt
  | some inode =>
    cases text : world.texts inode with
    | unreadable =>
      simp only [text]
      exact sole.setPhase_plain rfl rfl rfl
    | json receipt =>
      simp only [text]
      cases valid : isOwnerReceipt receipt with
      | false => exact sole.setPhase_plain rfl rfl rfl
      | true =>
        refine sole.setPhase ?_ ?_ ?_
        · intro file owns
          cases owns
        · intro read existing reads
          cases reads
          exact ⟨text, valid, sole.bounded inode there⟩
        · intro read found
          cases found

theorem inspect {observed : Option ProcessIdentityRecord}
    (phase : world.phases process = .inspecting attempt inode existing)
    (truthful : world.truthful existing.processIdentity observed = true) :
    SoleOwner (world.setPhase process
      (if verifyProcessIdentity existing.processIdentity observed then
        .failed (.owned existing.processIdentity.pid) else .moving attempt inode existing)) := by
  have reads : (world.phases process).readFile = some (inode, existing) := by
    rw [phase]
    rfl
  cases verified : verifyProcessIdentity existing.processIdentity observed with
  | true => exact sole.setPhase_plain rfl rfl rfl
  | false =>
    refine sole.setPhase ?_ ?_ ?_
    · intro file owns
      cases owns
    · intro read named same
      cases same
      exact sole.seen process inode existing reads
    · intro read found other file owns same
      cases found
      obtain ⟨file, text, receipt⟩ := file
      change file = inode at same
      subst same
      cases verified.symm.trans (sole.verified_of_own reads truthful owns)

theorem setPhase_owning
    (own : phase.ownFile = (world.phases process).ownFile) (seen : phase.readFile = none)
    (stale : phase.staleFile = none) : SoleOwner (world.setPhase process phase) := by
  refine sole.setPhase ?_ ?_ ?_
  · intro file owns
    exact own.symm.trans owns
  · intro inode existing reads
    cases seen.symm.trans reads
  · intro inode found
    cases stale.symm.trans found

end

/-- After a failed call of the file system, a process owns and has read nothing. -/
theorem afterFault_plain {phase after : OwnershipPhase} (fault : phase.afterFault = some after) :
    after.ownFile = none ∧ after.readFile = none ∧ after.staleFile = none := by
  cases phase with
  | absent => cases fault
  | idle => cases fault
  | acquired inode receipt => cases fault
  | failed error => cases fault
  | gone => cases fault
  | removing attempt existing =>
    cases fault
    exact nextAttempt_plain attempt
  | _ =>
    cases fault
    exact ⟨rfl, rfl, rfl⟩

theorem step (sole : SoleOwner world) {move : OwnershipMove}
    (careful : renamesWhatItRead world process move = true)
    (steps : world.step process move = some next) : SoleOwner next := by
  unfold ServiceWorld.step at steps
  split at steps
  next =>
    split at steps
    · cases steps
      exact sole.setPhase_plain rfl rfl rfl
    · cases steps
  next =>
    cases steps
    exact sole.setPhase_plain rfl rfl rfl
  next =>
    cases steps
    exact sole.setPhase_plain rfl rfl rfl
  next =>
    split at steps
    next named =>
      cases steps
      exact sole.openOwner named
    next => cases steps
  next phase =>
    cases steps
    exact sole.write phase
  next phase =>
    cases steps
    exact sole.setPhase_owning (phase ▸ rfl) rfl rfl
  next =>
    cases steps
    exact sole.readOwner _
  next phase =>
    split at steps
    next truthful =>
      cases steps
      exact sole.inspect phase truthful
    next => cases steps
  next phase =>
    cases steps
    simp only [renamesWhatItRead, phase, all_eq_true, decide_eq_true_eq] at careful
    exact sole.renameOwner phase careful
  next =>
    cases steps
    exact sole.setPhase_plain rfl rfl rfl
  next attempt _ _ =>
    cases steps
    have removed : SoleOwner (world.setPhase process (nextAttempt attempt)) :=
      sole.setPhase_nextAttempt attempt
    exact { removed with }
  next phase =>
    cases steps
    exact sole.setPhase_owning (phase ▸ rfl) rfl rfl
  next phase =>
    cases steps
    split
    · exact sole.setPhase_owning (phase ▸ rfl) rfl rfl
    · exact sole.setPhase_plain rfl rfl rfl
  next inode receipt phase =>
    cases steps
    refine sole.dropOwner rfl rfl fun other different => ?_
    cases owns : (world.phases other).ownFile with
    | none => rfl
    | some file =>
      have owned : (world.phases process).ownFile = some (inode, .json receipt, receipt) := by
        rw [phase]
        rfl
      exact (different (sole.single other process file _ owns owned)).elim
  next =>
    obtain ⟨after, fault, rfl⟩ := map_eq_some_iff.mp steps
    obtain ⟨own, seen, stale⟩ := afterFault_plain fault
    exact sole.setPhase_plain own seen stale
  next =>
    split at steps
    · cases steps
      exact sole.setPhase_plain rfl rfl rfl
    · cases steps
  next => cases steps

end SoleOwner

/-- When every rename moves the file that the process has read, at most one process at a time
holds an ownership of the service. -/
theorem ownership_exclusive {start reached : ServiceWorld} (quiet : Quiet start)
    (run : CarefulRun start reached) : MutuallyExclusive reached := by
  have sole := quiet.soleOwner
  clear quiet
  induction run with
  | done world => exact sole.exclusive
  | step careful steps _ ih => exact ih (sole.step careful steps)

section Example

def runMoves (world : ServiceWorld) (moves : List (ProcessIdentityRecord × OwnershipMove)) :
    Option ServiceWorld :=
  moves.foldlM (fun world move => world.step move.1 move.2) world

def numbered (number : Nat) : ProcessIdentityRecord :=
  ⟨number + 1, String.ofList (List.replicate 64 (Char.ofNat (97 + number)))⟩

def receiptOf (number : Nat) : MaestroServiceOwnerReceipt :=
  ⟨String.ofList ['s', Char.ofNat (48 + number)], numbered number, "now", .manual, "socket"⟩

def leftOver : ServiceWorld where
  ownerFile := some 0
  staleFiles := fun _ => none
  texts := fun _ => .json (receiptOf 0)
  nextInode := 1
  phases := fun process => if process = numbered 0 then .gone else .idle

theorem leftOver_quiet : Quiet leftOver := by
  refine ⟨fun process => ?_, fun inode found => ?_⟩
  · by_cases gone : process = numbered 0
    · exact .inr (.inr (if_pos gone))
    · exact .inr (.inl (if_neg gone))
  · cases found
    exact Nat.one_pos

def findsGone (number : Nat) : List (ProcessIdentityRecord × OwnershipMove) :=
  [.call, .openExclusive (receiptOf number), .read, .inspect none].map (numbered number, ·)

def findsOwned (number owner : Nat) : List (ProcessIdentityRecord × OwnershipMove) :=
  [.call, .openExclusive (receiptOf number), .read, .inspect (some (numbered owner))].map
    (numbered number, ·)

/-- A process takes the place of an owner that it has found gone. -/
def takesOver (number : Nat) : List (ProcessIdentityRecord × OwnershipMove) :=
  [.renameStale, .record, .unlinkStale, .openExclusive (receiptOf number), .write, .close].map
    (numbered number, ·)

/-- Two processes find the owner gone; the second one takes over when the first one has. -/
theorem leftOver_two_owners :
    Quiet leftOver ∧ ∃ reached,
      runMoves leftOver (findsGone 1 ++ findsGone 2 ++ takesOver 1 ++ takesOver 2) =
        some reached ∧ ¬ MutuallyExclusive reached := by
  have both : (runMoves leftOver (findsGone 1 ++ findsGone 2 ++ takesOver 1 ++ takesOver 2)).map
      (fun reached => ((reached.phases (numbered 1)).holds, (reached.phases (numbered 2)).holds)) =
        some (true, true) := by
    decide +kernel
  obtain ⟨reached, runs, holding⟩ := map_eq_some_iff.mp both
  refine ⟨leftOver_quiet, reached, runs, fun exclusive => ?_⟩
  rw [Prod.mk.injEq] at holding
  have same := exclusive (numbered 1) (numbered 2) holding.1 holding.2
  revert same
  decide +kernel

def carefulStep (world : ServiceWorld) (move : ProcessIdentityRecord × OwnershipMove) :
    Option ServiceWorld :=
  if renamesWhatItRead world move.1 move.2 then world.step move.1 move.2 else none

theorem carefulRun_of_moves {world reached : ServiceWorld}
    {moves : List (ProcessIdentityRecord × OwnershipMove)}
    (runs : moves.foldlM carefulStep world = some reached) : CarefulRun world reached := by
  induction moves generalizing world with
  | nil =>
    cases runs
    exact .done _
  | cons move moves ih =>
    rw [List.foldlM_cons] at runs
    obtain ⟨next, steps, rest⟩ := bind_eq_some_iff.mp runs
    rw [carefulStep] at steps
    split at steps
    next careful => exact .step careful steps (ih rest)
    next => cases steps

/-- One process takes over, and another one finds it alive. -/
theorem ownership_exclusive_leftOver :
    ∃ reached, CarefulRun leftOver reached ∧ (reached.phases (numbered 1)).holds = true ∧
      MutuallyExclusive reached := by
  have owns : ((findsGone 1 ++ takesOver 1 ++ findsOwned 2 1).foldlM carefulStep leftOver).map
      (fun reached => (reached.phases (numbered 1)).holds) = some true := by
    decide +kernel
  obtain ⟨reached, runs, holds⟩ := map_eq_some_iff.mp owns
  have careful := carefulRun_of_moves runs
  exact ⟨reached, careful, holds, ownership_exclusive leftOver_quiet careful⟩

end Example

end Recode.Orchestrator

import Recode.CodingAgent.SessionManager
import Recode.Compaction.Summary

/-! # Appends that cannot be written

An append changes the entries, the indexes and the leaf before it writes, and takes
none of it back when the write throws. What it leaves behind is unchanged only when
it attempts no write. A later append then names a parent that is not in the file. -/

namespace Recode.CodingAgent

open Recode SessionManager FileEntry Option List

/-- A session manager and the entries in its session file, after the header. -/
structure StoredSession where
  manager : Manager
  file : Option (List SessionTreeEntry)

/-- How a call ends. -/
inductive CallOutcome where
  | done
  | rejected (message : String)
  | threw
deriving DecidableEq

/-- The file after a write; `none` when the file to create exists. -/
def writeFile (file : Option (List SessionTreeEntry)) :
    SessionWrite SessionTreeEntry → Option (Option (List SessionTreeEntry))
  | .nothing => some file
  | .create entries => if file.isSome then none else some (some entries)
  | .append entry => some (some (file.getD [] ++ [entry]))

namespace StoredSession

def start (cwd : String) (stamp : NewSession Nat) : StoredSession where
  manager := newSession cwd true none stamp
  file := none

/-- Append an entry. A write that fails throws and leaves some content behind. -/
def append (stored : StoredSession) (entry : SessionTreeEntry)
    (failure : Option (Option (List SessionTreeEntry))) : StoredSession × CallOutcome :=
  let recorded := stored.manager.record entry
  match recorded.persistWrite entry with
  | .nothing => (⟨recorded, stored.file⟩, .done)
  | write =>
    match failure, writeFile stored.file write with
    | some left, _ => (⟨recorded, left⟩, .threw)
    | none, none => (⟨recorded, stored.file⟩, .threw)
    | none, some file => (⟨stored.manager.appendWritten entry, file⟩, .done)

def perform (stored : StoredSession) (stamp : Stamp) (call : ManagerCall)
    (failure : Option (Option (List SessionTreeEntry))) : StoredSession × CallOutcome :=
  match stored.manager.request stamp call with
  | .error message => (stored, .rejected message)
  | .ok (moved, none) => ({ stored with manager := moved }, .done)
  | .ok (moved, some entry) => append { stored with manager := moved } entry failure

/-- The session that is found when its file is opened again. -/
def reopen (stored : StoredSession) : Option Manager :=
  stored.file.map fun entries =>
    buildIndex { stored.manager with flushed := true, fileEntries := entries }

end StoredSession

/-- Two managers hold the same entries, indexes, labels and leaf. -/
structure SameContent (manager other : Manager) : Prop where
  fileEntries : other.fileEntries = manager.fileEntries
  byId : other.byId = manager.byId
  labelsById : other.labelsById = manager.labelsById
  leafId : other.leafId = manager.leafId

/-- A call records an assistant's answer. -/
def ManagerCall.answers : ManagerCall → Bool
  | .appendMessage message => message.isAssistant
  | .appendEntry entry => isAssistantMessage entry
  | _ => false

/-- Nothing is written: the session has no file, or its file waits for the first answer. -/
def Deferred (manager : Manager) (call : ManagerCall) : Prop :=
  manager.persist = false ∨ (manager.flushed = false ∧ call.answers = false ∧
      ∀ entry ∈ manager.fileEntries, isAssistantMessage entry = false)

variable {manager moved : Manager} {stamp : Stamp} {call : ManagerCall}
  {entry : SessionTreeEntry}

/-- The entry that a call appends records an answer exactly when the call does, and the
call has changed nothing but the leaf. -/
theorem request_answers (requested : manager.request stamp call = .ok (moved, some entry)) :
    isAssistantMessage entry = call.answers ∧ ∃ leafId, moved = { manager with leafId } := by
  cases call with
  | appendLabelChange targetId label =>
    simp only [request] at requested
    split at requested
    · cases requested
      exact ⟨rfl, _, rfl⟩
    · cases requested
  | appendEntry given =>
    simp only [request] at requested
    split at requested
    · cases requested
    split at requested
    · cases requested
    split at requested
    · cases requested
    · cases requested
      exact ⟨rfl, _, rfl⟩
  | branch branchFromId =>
    simp only [request] at requested
    split at requested
    · cases requested
    · cases requested
  | resetLeaf => cases requested
  | branchWithSummary branchFromId summary details fromHook usage =>
    simp only [request] at requested
    split at requested
    · cases requested
    · cases requested
      exact ⟨rfl, _, rfl⟩
  | _ =>
    cases requested
    exact ⟨rfl, _, rfl⟩

theorem persistWrite_eq_nothing_iff
    (requested : manager.request stamp call = .ok (moved, some entry)) :
    (moved.record entry).persistWrite entry = .nothing ↔ Deferred manager call := by
  obtain ⟨answers, leafId, rfl⟩ := request_answers requested
  have persist : (record { manager with leafId } entry).persist =
      manager.persist := rfl
  have flushed : (record { manager with leafId } entry).flushed =
      manager.flushed := rfl
  have entries : (record { manager with leafId } entry).fileEntries =
      manager.fileEntries ++ [entry] := rfl
  unfold persistWrite Deferred
  rw [persist, flushed, entries, any_append, any_cons, any_nil, Bool.or_false,
    answers]
  cases manager.persist with
  | false => simp
  | true =>
    cases manager.flushed with
    | true => simp
    | false => simp [and_comm]

/-- A failed append leaves the session as it was exactly when it attempts no write, and
then it does not fail. -/
theorem failed_append_keeps_iff (stored : StoredSession) {stamp : Stamp} {call : ManagerCall}
    {moved : Manager} {entry : SessionTreeEntry}
    (requested : stored.manager.request stamp call = .ok (moved, some entry)) :
    (∀ failure, (stored.perform stamp call failure).2 = .threw →
      SameContent stored.manager (stored.perform stamp call failure).1.manager) ↔
        Deferred stored.manager call := by
  have performs : ∀ failure, stored.perform stamp call failure =
      StoredSession.append { stored with manager := moved } entry failure := by
    intro failure
    rw [StoredSession.perform, requested]
  rw [← persistWrite_eq_nothing_iff requested]
  constructor
  · intro unchanged
    by_contra writes
    have threw : stored.perform stamp call (some stored.file) =
        (⟨moved.record entry, stored.file⟩, .threw) := by
      rw [performs]
      unfold StoredSession.append
      dsimp only
      split
      next deferred => exact (writes deferred).elim
      next => rfl
    have same := (unchanged (some stored.file) (by rw [threw])).fileEntries
    rw [threw] at same
    obtain ⟨-, leafId, rfl⟩ := request_answers requested
    have lengths := congrArg length same
    simp [record] at lengths
  · intro deferred failure threw
    rw [performs] at threw
    unfold StoredSession.append at threw
    simp only [deferred] at threw
    cases threw

section Runs

/-- One step of a session that is kept in a file: a call, whose write may fail, or opening
the file again. -/
inductive Step (stored : StoredSession) : StoredSession → Prop
  | perform (stamp : Stamp) (call : ManagerCall)
      (failure : Option (Option (List SessionTreeEntry))) (fresh : stored.manager.Fresh stamp) :
      Step stored (stored.perform stamp call failure).1
  | reopen (manager : Manager) (reopened : stored.reopen = some manager) :
      Step stored { stored with manager }

/-- The sessions that steps lead to. -/
def Reachable (stored : StoredSession) : Prop :=
  ∃ cwd stamp, Relation.ReflTransGen Step (StoredSession.start cwd stamp) stored

/-- The file holds the entries of the session, or is not there yet. -/
structure InFile (stored : StoredSession) : Prop where
  indexed : Indexed stored.manager
  persist : stored.manager.persist = true
  flushed : stored.manager.flushed = true → stored.file = some stored.manager.fileEntries
  waiting : stored.manager.flushed = false → stored.file = none

theorem inFile_start (cwd : String) (stamp : NewSession Nat) :
    InFile (StoredSession.start cwd stamp) where
  indexed := .newSession cwd true none stamp
  persist := rfl
  flushed := by
    intro flushed
    cases flushed
  waiting := fun _ => rfl

variable {stored : StoredSession}

/-- What an append does when its write does not fail: it waits for the first answer, or the
file holds all entries afterwards. -/
theorem append_cases (inFile : InFile stored) (entry : SessionTreeEntry) :
    ((stored.manager.record entry).persistWrite entry = .nothing ∧ stored.manager.flushed = false ∧
        stored.append entry none = (⟨stored.manager.record entry, stored.file⟩, .done)) ∨
      stored.append entry none =
        (⟨{ stored.manager.record entry with flushed := true },
          some (stored.manager.record entry).fileEntries⟩, .done) := by
  obtain ⟨manager, file⟩ := stored
  obtain ⟨indexed, persist, flushed, waiting⟩ := inFile
  have persists : (manager.record entry).persist = true := persist
  have flushes : (manager.record entry).flushed = manager.flushed := rfl
  unfold StoredSession.append appendWritten
  cases flag : manager.flushed with
  | true =>
    have writes : (manager.record entry).persistWrite entry = .append entry := by
      unfold persistWrite
      rw [persists, flushes, flag]
      simp
    have same : manager.record entry = { manager.record entry with flushed := true } := by
      rw [← flag]
      rfl
    right
    rw [flushed flag]
    simp only [writes, writeFile, getD_some]
    rw [← same]
    rfl
  | false =>
    rw [waiting flag]
    by_cases answered : (manager.record entry).fileEntries.any isAssistantMessage = true
    · have writes : (manager.record entry).persistWrite entry =
          .create (manager.record entry).fileEntries := by
        unfold persistWrite
        rw [persists, flushes, flag, answered]
        simp
      right
      simp only [writes, writeFile, isSome_none, Bool.false_eq_true, if_false]
    · have writes : (manager.record entry).persistWrite entry = .nothing := by
        unfold persistWrite
        rw [persists, flushes, flag, if_pos rfl, if_neg answered]
        simp
      left
      simp only [writes, and_self]

/-- An append whose write does not fail keeps the file up to date. -/
theorem inFile_append (inFile : InFile stored) {entry : SessionTreeEntry}
    (valid : Appendable stored.manager entry) : InFile (stored.append entry none).1 := by
  have recorded := inFile.indexed.record valid
  rcases append_cases inFile entry with ⟨-, flag, appends⟩ | appends
  · rw [appends]
    refine ⟨recorded, inFile.persist, fun flushed => ?_, fun _ => inFile.waiting flag⟩
    rw [show (stored.manager.record entry).flushed = false from flag] at flushed
    cases flushed
  · rw [appends]
    exact ⟨{ recorded with }, inFile.persist, fun _ => rfl, fun unflushed => nomatch unflushed⟩

/-- Opening the file again finds the entries that the session held. -/
theorem inFile_reopen (inFile : InFile stored) {manager : Manager}
    (reopened : stored.reopen = some manager) : InFile { stored with manager } := by
  obtain ⟨indexed, persist, flushed, waiting⟩ := inFile
  cases flag : stored.manager.flushed with
  | false =>
    rw [StoredSession.reopen, waiting flag] at reopened
    cases reopened
  | true =>
    rw [StoredSession.reopen, flushed flag, map_some, some.injEq] at reopened
    subst reopened
    have rebuilt : Indexed (buildIndex
        { stored.manager with flushed := true, fileEntries := stored.manager.fileEntries }) :=
      Indexed.buildIndex { indexed with }
    refine ⟨rebuilt, ?_, fun _ => ?_, fun unflushed => ?_⟩
    all_goals rw [buildIndex_eq] at *
    · exact persist
    · exact flushed flag
    · cases unflushed

/-- The sessions that calls whose writes do not fail lead to. -/
inductive Unfailed : StoredSession → Prop
  | start (cwd : String) (stamp : NewSession Nat) : Unfailed (StoredSession.start cwd stamp)
  | perform {stored : StoredSession} (stamp : Stamp) (call : ManagerCall)
      (unfailed : Unfailed stored) (fresh : stored.manager.Fresh stamp) :
      Unfailed (stored.perform stamp call none).1
  | reopen {stored : StoredSession} {manager : Manager} (unfailed : Unfailed stored)
      (reopened : stored.reopen = some manager) : Unfailed { stored with manager }

theorem inFile_of_unfailed (unfailed : Unfailed stored) : InFile stored := by
  induction unfailed with
  | start cwd stamp => exact inFile_start cwd stamp
  | @perform stored stamp call _ fresh ih =>
    unfold StoredSession.perform
    cases requested : stored.manager.request stamp call with
    | error message => exact ih
    | ok result =>
      obtain ⟨moved, added⟩ := result
      obtain ⟨leafId, rfl, known⟩ := request_moves ih.indexed requested
      have there : InFile { stored with manager := { stored.manager with leafId } } :=
        { ih with indexed := ih.indexed.move known }
      cases added with
      | none => exact there
      | some entry => exact inFile_append there (request_appendable ih.indexed fresh requested)
  | @reopen stored manager _ reopened ih => exact inFile_reopen ih reopened

/-- While no write fails, opening the file again finds the session as an append left it. -/
theorem reopen_after_append (unfailed : Unfailed stored) {stamp : Stamp}
    (fresh : stored.manager.Fresh stamp) {call : ManagerCall} {moved : Manager}
    {entry : SessionTreeEntry}
    (requested : stored.manager.request stamp call = .ok (moved, some entry))
    (writes : ¬ Deferred stored.manager call) :
    (stored.perform stamp call none).1.reopen =
      some (stored.perform stamp call none).1.manager := by
  have inFile := inFile_of_unfailed unfailed
  rw [← persistWrite_eq_nothing_iff requested] at writes
  have valid := request_appendable inFile.indexed fresh requested
  obtain ⟨leafId, rfl, known⟩ := request_moves inFile.indexed requested
  have there : InFile { stored with manager := { stored.manager with leafId } } :=
    { inFile with indexed := inFile.indexed.move known }
  have performs : stored.perform stamp call none =
      StoredSession.append { stored with manager := { stored.manager with leafId } }
        entry none := by
    rw [StoredSession.perform, requested]
  rw [performs]
  rcases append_cases there entry with ⟨deferred, -⟩ | appends
  · exact (writes deferred).elim
  have recorded := there.indexed.record valid
  rw [appends, StoredSession.reopen, map_some, buildIndex_eq]
  simp only [some.injEq]
  rw [← recorded.byId, ← recorded.labels, ← recorded.labelTimestamps]
  congr 1
  simp [leafIdAfterAll, record, indexEntry]

/-- A failed append leaves the session as it was exactly when it attempts no write. While
no write fails, opening the file after an append that writes finds the session of the
append. -/
theorem failed_append_unchanged_iff (stored : StoredSession) {stamp : Stamp} {call : ManagerCall}
    {moved : Manager} {entry : SessionTreeEntry}
    (requested : stored.manager.request stamp call = .ok (moved, some entry)) :
    ((∀ failure, (stored.perform stamp call failure).2 = .threw →
        SameContent stored.manager (stored.perform stamp call failure).1.manager) ↔
          Deferred stored.manager call) ∧
      (Unfailed stored → stored.manager.Fresh stamp → ¬ Deferred stored.manager call →
        (stored.perform stamp call none).1.reopen =
          some (stored.perform stamp call none).1.manager) :=
  ⟨failed_append_keeps_iff stored requested,
    fun unfailed fresh writes => reopen_after_append unfailed fresh requested writes⟩

end Runs

section Example

/-- A question, its answer, a question that cannot be written, and one that can. -/
def question (number : Nat) : ManagerCall := .appendMessage (.user (.text "question") number)

def answer : ManagerCall := .appendMessage (.assistant (textAnswer "answer"))

def answered : StoredSession :=
  let asked := ((StoredSession.start "/" ⟨"s1", 0, "s1.jsonl"⟩).perform ⟨.nth 'm' 1, 1⟩
    (question 1) none).1
  (asked.perform ⟨.nth 'm' 2, 2⟩ answer none).1

/-- The next question cannot be written to the full disk. -/
def unwritten : StoredSession :=
  (answered.perform ⟨.nth 'm' 3, 3⟩ (question 3) (some answered.file)).1

/-- The disk has room again for the question after that. -/
def continued : StoredSession := (unwritten.perform ⟨.nth 'm' 4, 4⟩ (question 4) none).1

theorem answered_reachable : Reachable answered :=
  ⟨"/", ⟨"s1", 0, "s1.jsonl"⟩,
    (Relation.ReflTransGen.single (.perform ⟨.nth 'm' 1, 1⟩ (question 1) none rfl)).tail
      (.perform ⟨.nth 'm' 2, 2⟩ answer none rfl)⟩

/-- The question that is not written stays in the session, and the one after it is
written with a parent that the file does not hold: the branch of four entries is one
entry long when the file is opened again. -/
theorem unwritten_changes_session :
    Reachable answered ∧
      (answered.perform ⟨.nth 'm' 3, 3⟩ (question 3) (some answered.file)).2 = .threw ∧
      ¬ SameContent answered.manager unwritten.manager ∧ continued.manager.getBranch.length = 4 ∧
      continued.reopen.map (fun reopened => reopened.getBranch.length) = some 1 := by
  refine ⟨answered_reachable, rfl, fun same => ?_, rfl, rfl⟩
  exact absurd (congrArg length same.fileEntries) (by decide)

theorem answered_unfailed : Unfailed answered :=
  .perform ⟨.nth 'm' 2, 2⟩ answer
    (.perform ⟨.nth 'm' 1, 1⟩ (question 1) (.start "/" ⟨"s1", 0, "s1.jsonl"⟩) rfl) rfl

theorem failed_append_unchanged_iff_answered :
    ((∀ failure, (answered.perform ⟨.nth 'm' 3, 3⟩ (question 3) failure).2 = .threw →
        SameContent answered.manager
          (answered.perform ⟨.nth 'm' 3, 3⟩ (question 3) failure).1.manager) ↔
            Deferred answered.manager (question 3)) ∧
      (answered.perform ⟨.nth 'm' 3, 3⟩ (question 3) none).1.reopen =
        some (answered.perform ⟨.nth 'm' 3, 3⟩ (question 3) none).1.manager := by
  have writes : ¬ Deferred answered.manager (question 3) := by
    rintro (unpersisted | ⟨unflushed, -⟩)
    · cases unpersisted
    · cases unflushed
  have requested : answered.manager.request ⟨.nth 'm' 3, 3⟩ (question 3) =
      .ok (answered.manager, some (request.atLeaf answered.manager ⟨.nth 'm' 3, 3⟩
        (.message (.user (.text "question") 3)))) := rfl
  obtain ⟨unchanged, reopens⟩ := failed_append_unchanged_iff answered requested
  exact ⟨unchanged, reopens answered_unfailed rfl writes⟩

end Example

end Recode.CodingAgent

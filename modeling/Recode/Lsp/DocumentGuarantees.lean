import Recode.Lsp.Documents

/-! # Documents follow the protocol

As long as a call that speaks of a document does so while no other call is between sending
and recording its opening or its closing, every document is opened, changed, saved and
closed as the protocol says. -/

namespace Recode.Lsp

open Function Option

variable {state after : Documents} {detectLanguageId : String → String}

/-- The document that a call has opened or closed and not yet recorded. -/
def Task.unrecorded : Task → Option String
  | .opening uri _ _ => some uri
  | .closing uri _ => some uri
  | _ => none

/-- No call is between sending and recording the opening or the closing of a document. -/
def Quiet (state : Documents) (uri : String) : Prop :=
  ∀ id task, state.tasks id = some task → task.unrecorded ≠ some uri

/-- What the server and the client know of a document, and the call that is about to change
what the client knows. -/
inductive Situation (state : Documents) (uri : String) : Wire → Prop
  | shut (quiet : Quiet state uri) (none : state.openFiles uri = none) :
      Situation state uri .closed
  | opening (id : Nat) (text : String) (next : After)
      (task : state.tasks id = some (.opening uri text next))
      (only : ∀ other task, state.tasks other = some task → task.unrecorded = some uri → other = id)
      (none : state.openFiles uri = none) : Situation state uri (.opened 1 text)
  | opened (quiet : Quiet state uri) (openFile : OpenFile)
      (known : state.openFiles uri = some openFile) :
      Situation state uri (.opened openFile.version openFile.content)
  | closing (id : Nat) (newUri : String) (task : state.tasks id = some (.closing uri newUri))
      (only : ∀ other task, state.tasks other = some task → task.unrecorded = some uri →
        other = id) : Situation state uri .closed

/-- What holds between steps. -/
structure InStep (state : Documents) : Prop where
  documents : ∀ uri, ∃ wire, replayMessages uri state.sent = some wire ∧ Situation state uri wire
  fresh : ∀ id, state.next ≤ id → state.tasks id = none

/-- A step leaves alone what the client knows of a document and the calls that are about to
change it. -/
structure Untouched (state after : Documents) (uri : String) : Prop where
  openFiles : after.openFiles uri = state.openFiles uri
  tasks : ∀ id task, task.unrecorded = some uri →
    (after.tasks id = some task ↔ state.tasks id = some task)

variable {uri : String} {wire : Wire} {id : Nat} {task : Option Task}

theorem Untouched.quiet (untouched : Untouched state after uri)
    (quiet : Quiet state uri) : Quiet after uri :=
  fun id task found unrecorded =>
    quiet id task ((untouched.tasks id task unrecorded).mp found) unrecorded

theorem Situation.frame (situation : Situation state uri wire)
    (untouched : Untouched state after uri) : Situation after uri wire := by
  have only {id : Nat} (single : ∀ other task, state.tasks other = some task →
      task.unrecorded = some uri → other = id) (other : Nat) (task : Task)
      (found : after.tasks other = some task) (unrecorded : task.unrecorded = some uri) :
      other = id :=
    single other task ((untouched.tasks other task unrecorded).mp found) unrecorded
  cases situation with
  | shut quiet none => exact .shut (untouched.quiet quiet) (untouched.openFiles.trans none)
  | opening id text next task single none =>
    exact .opening id text next ((untouched.tasks id _ rfl).mpr task) (only single)
      (untouched.openFiles.trans none)
  | opened quiet openFile known =>
    exact .opened (untouched.quiet quiet) openFile (untouched.openFiles.trans known)
  | closing id newUri task single =>
    exact .closing id newUri ((untouched.tasks id _ rfl).mpr task) (only single)

/-- What the server knows after one more message. -/
theorem replay_send (uri : String) (sent : List (String × DocumentMessage))
    (message : String × DocumentMessage) :
    replayMessages uri (sent ++ [message]) =
      if message.1 = uri then (replayMessages uri sent).bind fun wire => wire.next message.2
      else replayMessages uri sent := by
  rw [replayMessages, List.foldl_append]
  rfl

/-- A call gets to another point, at which it has recorded what it had recorded before. -/
theorem untouched_setTask {uri : String}
    (old : ∀ task, state.tasks id = some task → task.unrecorded ≠ some uri)
    (new : ∀ other, task = some other → other.unrecorded ≠ some uri) :
    Untouched state (state.setTask id task) uri where
  openFiles := rfl
  tasks other found unrecorded := by
    rw [Documents.setTask]
    dsimp only
    by_cases same : other = id
    · subst same
      rw [update_self]
      exact ⟨fun now => (new found now unrecorded).elim,
        fun before => (old found before unrecorded).elim⟩
    · rw [update_of_ne same]

theorem InStep.setTask (inStep : InStep state) {id : Nat} {task : Option Task}
    (known : id < state.next) (old : ∀ task, state.tasks id = some task → task.unrecorded = none)
    (new : ∀ other, task = some other → other.unrecorded = none) :
    InStep (state.setTask id task) where
  documents uri := by
    obtain ⟨wire, follows, situation⟩ := inStep.documents uri
    refine ⟨wire, follows, situation.frame (untouched_setTask ?_ ?_)⟩
    · intro other found
      rw [old other found]
      exact nofun
    · intro other found
      rw [new other found]
      exact nofun
  fresh other beyond := by
    rw [Documents.setTask]
    dsimp only
    have different : other ≠ id := by
      have : state.next ≤ other := beyond
      omega
    rw [update_of_ne different]
    exact inStep.fresh other beyond

/-- A call sends a message about a document, and the others stay as they are. -/
theorem InStep.speak (inStep : InStep state) {id : Nat} {uri : String} {message : DocumentMessage}
    {task : Task} {openFiles : String → Option OpenFile} (known : id < state.next)
    (old : ∀ task, state.tasks id = some task → ∀ other, other ≠ uri →
      task.unrecorded ≠ some other) (new : ∀ other, other ≠ uri → task.unrecorded ≠ some other)
    (others : ∀ other, other ≠ uri → openFiles other = state.openFiles other)
    (own : ∀ wire, Situation state uri wire → ∃ next, wire.next message = some next ∧
      Situation { state.send id uri message task with openFiles := openFiles } uri next) :
    InStep { state.send id uri message task with openFiles := openFiles } where
  documents other := by
    obtain ⟨wire, follows, situation⟩ := inStep.documents other
    by_cases same : other = uri
    · subst same
      obtain ⟨next, allowed, then_⟩ := own wire situation
      refine ⟨next, ?_, then_⟩
      rw [Documents.send]
      dsimp only
      rw [replay_send, if_pos rfl, follows]
      exact allowed
    · refine ⟨wire, ?_, situation.frame ?_⟩
      · rw [Documents.send]
        dsimp only
        rw [replay_send, if_neg (Ne.symm same)]
        exact follows
      · have untouched : Untouched state (state.setTask id (some task)) other :=
          untouched_setTask (fun task found => old task found other same) fun task' found => by
            rw [← some.inj found]
            exact new other same
        exact ⟨others other same, untouched.tasks⟩
  fresh other beyond := by
    have different : other ≠ id := by
      have : state.next ≤ other := beyond
      omega
    exact (update_of_ne different ..).trans (inStep.fresh other beyond)

theorem Situation.closed_of (situation : Situation state uri wire)
    (quiet : Quiet state uri) (none : state.openFiles uri = none) : wire = .closed := by
  cases situation with
  | shut quiet none => rfl
  | opening id text next task only none => exact (quiet id _ task rfl).elim
  | opened quiet openFile known =>
    rw [none] at known
    cases known
  | closing id newUri task only => rfl

/-- In a quiet moment, a server knows of a document what the client knows. -/
theorem Situation.opened_of {openFile : OpenFile} (situation : Situation state uri wire)
    (quiet : Quiet state uri) (known : state.openFiles uri = some openFile) :
    wire = .opened openFile.version openFile.content := by
  cases situation with
  | shut quiet none =>
    rw [none] at known
    cases known
  | opening id text next task only none => exact (quiet id _ task rfl).elim
  | opened quiet other same =>
    rw [same] at known
    cases known
    rfl
  | closing id newUri task only => exact (quiet id _ task rfl).elim

/-- After a message that opens and closes nothing, the moment is as quiet as it was. -/
theorem Quiet.setTask (quiet : Quiet state uri)
    (new : ∀ other, task = some other → other.unrecorded ≠ some uri) :
    Quiet (state.setTask id task) uri :=
  (untouched_setTask (quiet id) new).quiet quiet

/-- A call that speaks in a quiet moment is the only one with something to record. -/
theorem Quiet.only (quiet : Quiet state uri)
    (other : Nat) (found : Task) (now : (state.setTask id task).tasks other = some found)
    (unrecorded : found.unrecorded = some uri) : other = id := by
  by_contra different
  rw [Documents.setTask] at now
  dsimp only at now
  rw [update_of_ne different] at now
  exact quiet other found now unrecorded

section Messages

variable {id : Nat} {uri : String}
variable (inStep : InStep state) (known : id < state.next)
variable (free : ∀ task, state.tasks id = some task → task.unrecorded = none)
variable (quiet : Quiet state uri)

include inStep known free

theorem InStep.say {message : DocumentMessage} {task : Task} {openFiles : String → Option OpenFile}
    (new : ∀ other, other ≠ uri → task.unrecorded ≠ some other)
    (others : ∀ other, other ≠ uri → openFiles other = state.openFiles other)
    (own : ∀ wire, Situation state uri wire → ∃ next, wire.next message = some next ∧
      Situation { state.send id uri message task with openFiles := openFiles } uri next) :
    InStep { state.send id uri message task with openFiles := openFiles } := by
  refine inStep.speak known ?_ new others own
  intro task found other different
  rw [free task found]
  exact nofun

include quiet

theorem InStep.openText {text : String} {next : After} (none : state.openFiles uri = none) :
    InStep (state.openText detectLanguageId id uri text next) := by
  change InStep { state.send id uri (.didOpen 1 (detectLanguageId uri) text)
    (.opening uri text next) with openFiles := state.openFiles }
  refine inStep.say known free ?_ (fun _ _ => rfl) ?_
  · intro other different same
    exact different (some.inj same).symm
  · intro wire situation
    rw [situation.closed_of quiet none]
    refine ⟨.opened 1 text, rfl, .opening id text next ?_ quiet.only none⟩
    exact update_self ..

variable {openFile : OpenFile}

theorem InStep.mention {message : DocumentMessage} {task : Task}
    (recorded : state.openFiles uri = some openFile) (silent : task.unrecorded = none)
    {openFiles : String → Option OpenFile} {now : OpenFile}
    (others : ∀ other, other ≠ uri → openFiles other = state.openFiles other)
    (own : openFiles uri = some now)
    (allowed : (Wire.opened openFile.version openFile.content).next message =
      some (.opened now.version now.content)) :
    InStep { state.send id uri message task with openFiles := openFiles } := by
  have unrecorded (other : String) : task.unrecorded ≠ some other := by
    rw [silent]
    exact nofun
  refine inStep.say known free (fun other _ => unrecorded other) others ?_
  intro wire situation
  rw [situation.opened_of quiet recorded]
  refine ⟨_, allowed, .opened ?_ now own⟩
  change Quiet (state.setTask id (some task)) uri
  refine quiet.setTask ?_
  intro other same
  rw [← some.inj same]
  exact unrecorded uri

section

variable (recorded : state.openFiles uri = some openFile)
include recorded

theorem InStep.changeText {content : String} {save : Bool} :
    InStep (state.changeText id uri content save) := by
  rw [Documents.changeText, recorded]
  refine inStep.mention known free quiet recorded rfl
    (fun other different => update_of_ne different ..) (update_self ..) ?_
  exact if_pos (Nat.lt_succ_self _)

theorem InStep.notifySaved {content : Option String} :
    InStep (state.notifySaved id uri content) := by
  rw [Documents.notifySaved, recorded]
  exact inStep.mention known free quiet recorded rfl (fun _ _ => rfl) recorded rfl

theorem InStep.close {newUri : String} :
    InStep (state.send id uri .didClose (.closing uri newUri)) := by
  change InStep { state.send id uri .didClose (.closing uri newUri) with
    openFiles := state.openFiles }
  refine inStep.say known free ?_ (fun _ _ => rfl) ?_
  · intro other different same
    exact different (some.inj same).symm
  · intro wire situation
    rw [situation.opened_of quiet recorded]
    exact ⟨.closed, rfl, .closing id newUri (update_self ..) quiet.only⟩

end

omit quiet in
theorem InStep.renamed {newUri : String} : InStep (state.renamed id uri newUri) := by
  rw [Documents.renamed]
  change InStep { state.send id uri (.didRenameFiles newUri) .waiting with
    openFiles := state.openFiles }
  refine inStep.say known free nofun (fun _ _ => rfl) ?_
  intro wire situation
  refine ⟨wire, by cases wire <;> rfl, situation.frame ?_⟩
  have untouched : Untouched state (state.setTask id (some .waiting)) uri := by
    refine untouched_setTask (fun task found same => ?_) (fun other same => ?_)
    · rw [free task found] at same
      cases same
    · rw [← some.inj same]
      exact nofun
  exact ⟨rfl, untouched.tasks⟩

end Messages

/-- What a call that has something to record finds when its message is written. -/
theorem Situation.task_of {task : Task} (situation : Situation state uri wire)
    (found : state.tasks id = some task) (unrecorded : task.unrecorded = some uri) :
    (∀ other task, state.tasks other = some task → task.unrecorded = some uri → other = id) ∧
      ((∃ text next, task = .opening uri text next ∧ wire = .opened 1 text) ∨
        ∃ newUri, task = .closing uri newUri ∧ wire = .closed) := by
  cases situation with
  | shut quiet none => exact (quiet id task found unrecorded).elim
  | opening own text next now only none =>
    obtain rfl := only id task found unrecorded
    refine ⟨only, .inl ⟨text, next, ?_, rfl⟩⟩
    rw [found] at now
    exact some.inj now
  | opened quiet openFile known => exact (quiet id task found unrecorded).elim
  | closing own newUri now only =>
    obtain rfl := only id task found unrecorded
    refine ⟨only, .inr ⟨newUri, ?_, rfl⟩⟩
    rw [found] at now
    exact some.inj now

theorem InStep.record (inStep : InStep state) {id : Nat} {uri : String} {task now : Task}
    {openFiles : String → Option OpenFile} (found : state.tasks id = some task)
    (unrecorded : task.unrecorded = some uri) (silent : now.unrecorded = none)
    (others : ∀ other, other ≠ uri → openFiles other = state.openFiles other)
    (own : (∃ text next openFile, task = .opening uri text next ∧ openFiles uri = some openFile ∧
        openFile.version = 1 ∧ openFile.content = text) ∨
      ∃ newUri, task = .closing uri newUri ∧ openFiles uri = none) :
    InStep { state.setTask id (some now) with openFiles := openFiles } where
  documents other := by
    obtain ⟨wire, follows, situation⟩ := inStep.documents other
    refine ⟨wire, follows, ?_⟩
    by_cases same : other = uri
    · subst same
      obtain ⟨only, then_⟩ := situation.task_of found unrecorded
      have quiet : Quiet { state.setTask id (some now) with openFiles := openFiles } other := by
        intro own task present busy
        by_cases self : own = id
        · subst self
          have now_ : task = now := by
            have at_ : (state.setTask own (some now)).tasks own = some now :=
              update_self ..
            exact some.inj (present.symm.trans at_)
          rw [now_, silent] at busy
          cases busy
        · have before : state.tasks own = some task := by
            rw [← present]
            exact (update_of_ne self ..).symm
          exact self (only own task before busy)
      rcases own with ⟨text, next, openFile, rfl, recorded, version, content⟩ | ⟨newUri, rfl, gone⟩
      · rcases then_ with ⟨_, _, same, rfl⟩ | ⟨_, same, _⟩
        · cases same
          rw [← version, ← content]
          exact .opened quiet openFile recorded
        · cases same
      · rcases then_ with ⟨_, _, same, _⟩ | ⟨_, _, rfl⟩
        · cases same
        · exact .shut quiet gone
    · have untouched : Untouched state (state.setTask id (some now)) other := by
        refine untouched_setTask (fun old present busy => ?_) (fun new is busy => ?_)
        · obtain rfl := some.inj (found.symm.trans present)
          exact same (some.inj (busy.symm.trans unrecorded))
        · rw [← some.inj is, silent] at busy
          cases busy
      exact situation.frame ⟨others other same, untouched.tasks⟩
  fresh other beyond := by
    have different : other ≠ id := by
      rintro rfl
      rw [inStep.fresh other beyond] at found
      cases found
    exact (update_of_ne different ..).trans (inStep.fresh other beyond)

/-- The document that a step sends a message about, and whether the message opens it. -/
def Documents.speaks (state : Documents) : DocumentEvent → Option (String × Bool)
  | .ensureFileOpen uri (some _) | .syncContent uri _ | .fileRead _ (.refreshing uri) (some _) =>
    if state.openFiles uri = none then some (uri, true) else none
  | .fileRead _ (.reading uri _) (some _) => some (uri, true)
  | .notifySaved uri _ | .notifyFileRenamed uri _ | .proceed _ (.ensured uri (.change _ _))
  | .proceed _ (.synced uri _) => if state.openFiles uri = none then none else some (uri, false)
  | _ => none

/-- A step speaks of a document only while no other call is between sending and recording its
opening or its closing, and opens only a document that is not recorded as open. -/
def SpeaksInTurn (state : Documents) (event : DocumentEvent) : Prop :=
  ∀ uri opens, state.speaks event = some (uri, opens) →
    Quiet state uri ∧ (opens = true → state.openFiles uri = none)

section Steps

variable {id : Nat} {uri : String}
variable (inStep : InStep state) (known : id < state.next)
variable (free : ∀ task, state.tasks id = some task → task.unrecorded = none)

include inStep known free

theorem InStep.silent {task : Option Task}
    (new : ∀ other, task = some other → other.unrecorded = none) : InStep (state.setTask id task) :=
  inStep.setTask known free new

theorem InStep.waits {task : Task} (new : task.unrecorded = none) :
    InStep (state.setTask id (some task)) :=
  inStep.silent known free fun _ same => some.inj same ▸ new

theorem InStep.ends : InStep (state.setTask id none) :=
  inStep.silent known free nofun

theorem InStep.ensureFileOpen {content : Option String} {next : After}
    (turn : content.isSome → state.openFiles uri = none → Quiet state uri) :
    InStep (state.ensureFileOpen detectLanguageId id uri content next) := by
  unfold Documents.ensureFileOpen
  cases recorded : state.openFiles uri with
  | some openFile => exact inStep.waits known free rfl
  | none =>
    cases content with
    | none => exact inStep.waits known free rfl
    | some text => exact inStep.openText known free (turn rfl recorded) recorded

section

variable (turn : state.openFiles uri ≠ none → Quiet state uri)
include turn

theorem InStep.change {content : String} {save : Bool} :
    InStep (state.changeText id uri content save) := by
  cases recorded : state.openFiles uri with
  | some openFile =>
    refine inStep.changeText known free (turn ?_) recorded
    rw [recorded]
    exact nofun
  | none =>
    rw [Documents.changeText, recorded]
    cases save with
    | true => exact inStep.waits known free rfl
    | false => exact inStep.ends known free

theorem InStep.save {content : Option String} : InStep (state.notifySaved id uri content) := by
  cases recorded : state.openFiles uri with
  | some openFile =>
    refine inStep.notifySaved known free (turn ?_) recorded
    rw [recorded]
    exact nofun
  | none =>
    rw [Documents.notifySaved, recorded]
    exact inStep.ends known free

theorem InStep.rename {newUri : String} : InStep (state.notifyFileRenamed id uri newUri) := by
  rw [Documents.notifyFileRenamed]
  cases recorded : state.openFiles uri with
  | some openFile =>
    refine inStep.close known free (turn ?_) recorded
    rw [recorded]
    exact nofun
  | none => exact inStep.renamed known free

end

theorem InStep.fileRead {task : Task} {text : Option String} (reads : task.Reads)
    (turn : SpeaksInTurn state (.fileRead id task text)) :
    InStep (state.fileRead detectLanguageId id text task) := by
  cases task with
  | reading uri next =>
    cases text with
    | none => exact inStep.ends known free
    | some text =>
      obtain ⟨quiet, closed⟩ := turn uri true rfl
      exact inStep.openText known free quiet (closed rfl)
  | refreshing uri =>
    cases text with
    | none => exact inStep.ends known free
    | some text =>
      change InStep (state.refreshed detectLanguageId id uri text)
      rw [Documents.refreshed]
      by_cases same : (state.openFiles uri).map OpenFile.content = some text
      · rw [if_pos same]
        exact inStep.ends known free
      · rw [if_neg same]
        exact inStep.ensureFileOpen known free fun _ closed =>
          (turn uri true (if_pos closed)).1
  | _ => exact reads.elim

end Steps

/-- A task that is not about to record anything goes on. -/
theorem InStep.proceed {task : Task} (inStep : InStep state)
    (found : state.tasks id = some task) (turn : SpeaksInTurn state (.proceed id task)) :
    InStep (state.proceed detectLanguageId id task) := by
  have known : id < state.next := by
    by_contra beyond
    rw [inStep.fresh id (Nat.le_of_not_lt beyond)] at found
    cases found
  have free (silent : task.unrecorded = none) (other : Task) (same : state.tasks id = some other) :
      other.unrecorded = none :=
    some.inj (found.symm.trans same) ▸ silent
  cases task with
  | reading uri next => exact inStep.waits known (free rfl) rfl
  | refreshing uri => exact inStep.waits known (free rfl) rfl
  | opening uri text next =>
    refine inStep.record found rfl rfl (fun other different => update_of_ne different ..)
      (.inl ⟨text, next, _, rfl, update_self .., rfl, rfl⟩)
  | ensured uri next =>
    cases next with
    | nothing => exact inStep.ends known (free rfl)
    | change content save =>
      exact inStep.change known (free rfl) fun recorded => (turn uri false (if_neg recorded)).1
  | changing uri content save =>
    cases save with
    | true => exact inStep.waits known (free rfl) rfl
    | false => exact inStep.ends known (free rfl)
  | synced uri content =>
    exact inStep.save known (free rfl) fun recorded => (turn uri false (if_neg recorded)).1
  | closing oldUri newUri =>
    let recorded : Documents :=
      { state.setTask id (some .waiting) with
        openFiles := update state.openFiles oldUri none }
    have closed : InStep recorded :=
      inStep.record found rfl rfl (fun other different => update_of_ne different ..)
        (.inr ⟨newUri, rfl, update_self ..⟩)
    have announced : InStep (recorded.renamed id oldUri newUri) := closed.renamed known ?_
    · have same : recorded.renamed id oldUri newUri =
          state.proceed detectLanguageId id (.closing oldUri newUri) := by
        simp only [recorded, Documents.renamed, Documents.send, Documents.setTask,
          Documents.proceed, update_idem]
      rw [← same]
      exact announced
    · intro task present
      have at_ : recorded.tasks id = some .waiting := update_self ..
      obtain rfl := some.inj (at_.symm.trans present)
      rfl
  | waiting => exact inStep.ends known (free rfl)

theorem InStep.called (inStep : InStep state) : InStep state.called where
  documents uri := by
    obtain ⟨wire, follows, situation⟩ := inStep.documents uri
    exact ⟨wire, follows, situation.frame ⟨rfl, fun _ _ _ => Iff.rfl⟩⟩
  fresh id beyond := inStep.fresh id (Nat.le_of_succ_le beyond)

theorem InStep.step (inStep : InStep state) {event : DocumentEvent}
    (possible : event.Possible state) (turn : SpeaksInTurn state event) :
    InStep (state.step detectLanguageId event) := by
  have known : state.next < state.called.next := Nat.lt_succ_self _
  have free (task : Task) (found : state.called.tasks state.next = some task) :
      task.unrecorded = none := by
    rw [Documents.called, inStep.fresh state.next (Nat.le_refl _)] at found
    cases found
  cases event with
  | ensureFileOpen uri content =>
    refine inStep.called.ensureFileOpen known free fun given closed => ?_
    cases content with
    | none => cases given
    | some text => exact (turn uri true (if_pos closed)).1
  | syncContent uri content =>
    exact inStep.called.ensureFileOpen known free fun _ closed =>
      (turn uri true (if_pos closed)).1
  | refreshFile uri =>
    change InStep (state.called.refreshFile detectLanguageId state.next uri)
    rw [Documents.refreshFile]
    cases state.called.openFiles uri with
    | none => exact inStep.called.ensureFileOpen known free nofun
    | some openFile => exact inStep.called.waits known free rfl
  | notifySaved uri content =>
    exact inStep.called.save known free fun recorded => (turn uri false (if_neg recorded)).1
  | notifyFileRenamed oldUri newUri =>
    exact inStep.called.rename known free fun recorded =>
      (turn oldUri false (if_neg recorded)).1
  | fileRead id task text =>
    obtain ⟨found, reads⟩ := possible
    have known : id < state.next := by
      by_contra beyond
      rw [inStep.fresh id (Nat.le_of_not_lt beyond)] at found
      cases found
    refine inStep.fileRead known ?_ reads turn
    intro other same
    obtain rfl := some.inj (found.symm.trans same)
    cases task with
    | reading uri next => rfl
    | refreshing uri => rfl
    | _ => exact reads.elim
  | proceed id task => exact inStep.proceed possible.1 turn

theorem inStep_reached (reached : DocumentsReached detectLanguageId SpeaksInTurn state) :
    InStep state := by
  induction reached with
  | start =>
    exact ⟨fun uri => ⟨.closed, rfl, .shut nofun rfl⟩, fun id _ => rfl⟩
  | step event reached possible keeps inStep => exact inStep.step possible keeps

theorem InStep.followsProtocol (inStep : InStep state) : FollowsProtocol state := by
  intro uri
  obtain ⟨wire, follows, situation⟩ := inStep.documents uri
  refine ⟨wire, follows, fun idle version text opened => ?_⟩
  cases situation with
  | shut quiet none => cases opened
  | opening id text next task only none =>
    rw [idle id] at task
    cases task
  | opened quiet openFile known =>
    cases opened
    exact ⟨openFile, known, rfl, rfl⟩
  | closing id newUri task only => cases opened

/-- While calls speak of documents in turn, the messages about every document follow the
protocol, and a client at rest knows what the server knows. -/
theorem documents_followProtocol (detectLanguageId : String → String) (state : Documents)
    (reached : DocumentsReached detectLanguageId SpeaksInTurn state) : FollowsProtocol state :=
  (inStep_reached reached).followsProtocol

/-- One call opens a document, another one opens and changes a second document, and the first
document is renamed, which closes it, before the change is written. -/
theorem documents_followProtocol_interleaved :
    ∃ state : Documents, FollowsProtocol state ∧
      state.sent = [("a", .didOpen 1 "typescript" "let a"), ("b", .didOpen 1 "typescript" "let b"),
        ("b", .didChange 2 "let b"), ("a", .didClose), ("a", .didRenameFiles "c")] := by
  refine ⟨_, documents_followProtocol (fun _ => "typescript") _
    (.step (.proceed 2 (.closing "a" "c")) (.step (.notifyFileRenamed "a" "c")
      (.step (.proceed 1 (.ensured "b" (.change "let b" false)))
        (.step (.proceed 0 (.opening "a" "let a" .nothing))
          (.step (.proceed 1 (.opening "b" "let b" (.change "let b" false)))
            (.step (.syncContent "b" "let b") (.step (.ensureFileOpen "a" (some "let a"))
              .start trivial ?_) trivial ?_) ⟨rfl, id⟩ ?_) ⟨rfl, id⟩ ?_) ⟨rfl, id⟩ ?_) trivial ?_)
                ⟨rfl, id⟩ ?_), rfl⟩
  all_goals
    rintro uri opens speaks
    cases speaks
  all_goals
    refine ⟨?_, by decide⟩
    rintro (_ | _ | _ | id) task found
  all_goals
    cases found
  all_goals
    decide

/-- Two calls that sync one file at once open it twice. -/
theorem not_documents_followProtocol :
    ¬ ∀ (detectLanguageId : String → String) (state : Documents),
      DocumentsReached detectLanguageId (fun _ _ => True) state → FollowsProtocol state := by
  intro follows
  have reached : DocumentsReached (fun _ => "typescript") (fun _ _ => True)
      ((({} : Documents).step (fun _ => "typescript") (.syncContent "file:///a.ts" "let a")).step
        (fun _ => "typescript") (.syncContent "file:///a.ts" "let b")) :=
    .step _ (.step _ .start trivial trivial) trivial trivial
  obtain ⟨wire, replayed, _⟩ := follows _ _ reached "file:///a.ts"
  have twice : replayMessages "file:///a.ts"
      [("file:///a.ts", .didOpen 1 "typescript" "let a"),
        ("file:///a.ts", .didOpen 1 "typescript" "let b")] = some wire := replayed
  rw [show replayMessages "file:///a.ts" [("file:///a.ts", .didOpen 1 "typescript" "let a"),
        ("file:///a.ts", .didOpen 1 "typescript" "let b")] = none from by decide] at twice
  cases twice

end Recode.Lsp

import Recode.Auth.AuthReturns

/-! # Runs of credential operations

Whatever the objects of a backend do, the stored credentials are those of the operations
that returned, one at a time, when nothing else is stored while one is under way and a
write that fails leaves no trace. -/

namespace Recode.Auth

variable {first : Content} {state after : State}

/-- A change of a provider leaves no trace when it fails. -/
def ChangeKeeps (state : State) (object : Nat) (reloadAccess access : Access)
    (written : Written) : Prop :=
  reloadAccess.Keeps state ∧ access.Keeps state ∧ written.Keeps state ∧
    ((state.objects object).loadError = none → access = .granted → written ≠ .done →
      state.UpToDate object)

/-- The condition of an event: what fails leaves the store and the view alone, and the
backend in memory is left alone by others while an asynchronous operation is under way. -/
def Event.Keeps (state : State) : Event → Prop
  | .reload _ access => access.Keeps state
  | .set object _ _ reloadAccess access written =>
    ChangeKeeps state object reloadAccess access written
  | .remove object _ reloadAccess access written =>
    ChangeKeeps state object reloadAccess access written
  | .call _ _ access => access.Keeps state
  | .acquire .. => True
  | .giveUp .. => True
  | .compromise .. => True
  | .settle id flight saw =>
    (∀ error, flight.operation.update saw = .error error →
      (state.objects flight.object).data = saw) ∧
    (state.file = true → flight.compromised = true → flight.Alone state id)
  | .complete id flight saw next written =>
    (flight.compromised = true → (state.objects flight.object).data = saw) ∧
    (flight.compromised = false → state.file = false → flight.Undisturbed state id saw next) ∧
    (flight.compromised = false → next ≠ none → written.Keeps state ∧
      (written ≠ .done → (state.objects flight.object).data = saw))

section

variable (consistent : Consistent first state)
include consistent

/-- The lock may be given or taken away while no operation holds it. -/
theorem Consistent.relock (lock : Option Nat)
    (vacant : state.file = true → ∀ id flight saw, state.flights id = some flight →
      flight.saw = some saw → flight.compromised = false → False) :
    Consistent first { state with lock := lock } :=
  consistent.transport (fun _ _ => id) rfl (Nat.le_refl _) rfl consistent.views
    fun file id flight saw found seen sound => (vacant file id flight saw found seen sound).elim

theorem acquire_outcome {id : Nat} {flight : Flight}
    (found : state.flights id = some flight) (waits : flight.phase = .waiting)
    (unlocked : state.lock = none) :
    Outcome first state ({ state with lock := some id }.enter id flight).1
      ({ state with lock := some id }.enter id flight).2 := by
  have locked := consistent.relock (some id)
    fun file _ _ _ found seen sound => consistent.no_holder
        (fun _ => unlocked) file found seen sound
  have entered := enter_outcome locked (consistent.early id flight found)
    (consistent.waiting id flight found waits) fun _ => rfl
  exact ⟨entered.consistent, entered.kept, entered.view, entered.rejected⟩

theorem compromise_outcome {id : Nat} {flight : Flight} (found : state.flights id = some flight)
    (past : flight.phase ≠ .waiting) (locked : state.lock = some id) :
    Outcome first state (state.act (.compromise id flight)).1
      (state.act (.compromise id flight)).2 := by
  have fits : Fits state id { flight with compromised := true } :=
    { early := consistent.early id flight found
      holds := nofun
      waiting := fun waits => (past waits).elim
      answered := fun saw next settled => consistent.answered id flight saw next found settled
      read := fun saw seen => Or.inl ⟨flight, found, seen⟩ }
  have told := consistent.setFlight fits fun data assigned =>
    ⟨fun by_ => consistent.views id flight data found assigned by_, nofun⟩
  refine .silent (told.relock none ?_) rfl nofun
    nofun
  intro file other found' saw lookup seen sound
  rcases flights_setFlight lookup with ⟨rfl, rfl⟩ | ⟨different, before⟩
  · cases sound
  · obtain ⟨lock, -⟩ := consistent.holds file other found' saw before seen sound
    exact different (Option.some.inj (lock.symm.trans locked))

/-- What an event leaves that happens under its condition. -/
theorem act_outcome {event : Event} (possible : event.Possible state) (keeps : event.Keeps state) :
    Outcome first state (state.act event).1 (state.act event).2 := by
  cases event with
  | reload object access =>
    have reloaded := reload_reloaded object consistent possible keeps
    exact .silent reloaded.consistent reloaded.same nofun
      nofun
  | set object provider credential reloadAccess access written =>
    obtain ⟨reloadKeeps, accessKeeps, writtenKeeps, fresh⟩ := keeps
    exact persistProviderChange_outcome consistent possible.1 possible.2.1 reloadKeeps
      accessKeeps writtenKeeps fresh
  | remove object provider reloadAccess access written =>
    obtain ⟨reloadKeeps, accessKeeps, writtenKeeps, fresh⟩ := keeps
    exact persistProviderChange_outcome consistent possible.1 possible.2.1 reloadKeeps
      accessKeeps writtenKeeps fresh
  | call object operation access => exact call_outcome object operation consistent keeps
  | acquire id flight =>
    obtain ⟨found, waits, unlocked⟩ := possible
    exact acquire_outcome consistent found waits unlocked
  | giveUp id flight error =>
    exact .silent (consistent.drop id) rfl nofun
      nofun
  | compromise id flight =>
    obtain ⟨found, past, locked⟩ := possible
    exact compromise_outcome consistent found past locked
  | settle id flight saw =>
    obtain ⟨found, called⟩ := possible
    have same : ({ flight with phase := .called saw } : Flight) = flight := by rw [← called]
    have seen : flight.saw = some saw := by rw [Flight.saw, called]
    have fits : Fits state id { flight with phase := .called saw } := by
      rw [same]
      exact
        { early := consistent.early id flight found
          holds := fun file read reads sound =>
            ⟨(consistent.holds file id flight read found reads sound).1,
              (consistent.holds file id flight read found reads sound).2.1⟩
          waiting := consistent.waiting id flight found
          answered := fun read next => consistent.answered id flight read next found
          read := fun read reads => Or.inl ⟨flight, found, reads⟩ }
    refine settle_outcome consistent fits ?_ keeps.1 keeps.2
    rw [same]
    intro data assigned
    refine ⟨consistent.views id flight data found assigned, fun file sound => ?_⟩
    exact (consistent.holds file id flight saw found seen sound).2.2
      (Option.isSome_of_eq_some assigned)
  | complete id flight saw next written =>
    obtain ⟨found, settled, -⟩ := possible
    exact complete_outcome consistent found settled keeps.1 keeps.2.1 keeps.2.2

end

/-- The states that the events of a backend reach, each under a condition. -/
inductive Reached (condition : State → Event → Prop) (file : Bool) (first : Content) :
    State → Prop
  | start : Reached condition file first { file := file, content := first }
  | step {state : State} {event : Event} (reached : Reached condition file first state)
      (possible : event.Possible state) (keeps : condition state event) :
      Reached condition file first (state.step event).1

theorem Reached.consistent {file : Bool}
    (reached : Reached (fun state event => event.Keeps state) file first state) :
    Consistent first state := by
  induction reached with
  | start => exact Consistent.initial file first
  | step reached possible keeps consistent =>
    have outcome := act_outcome consistent possible keeps
    exact outcome.consistent.tick

/-- Some order of the operations that returned explains the stored credentials, in which no
operation stands before one that had returned when it was called. -/
def Explained (first : Content) (state : State) : Prop :=
  ∃ order : List Finished, order.Perm state.finished ∧
    order.Pairwise (fun one other => one.invoked ≤ other.returned) ∧
    parseStorageData state.content = (parseStorageData first).map (replay order)

/-- What a step leaves: only a return changes what is stored, and an object that gets an
answer has the view that its operation saw or wrote. -/
structure Answered (state after : State) (reply : Reply) : Prop where
  kept : (∀ object saw wrote, reply ≠ .returned object saw wrote) →
    parseStorageData after.content = parseStorageData state.content
  view : ∀ object saw wrote, reply = .returned object (some saw) wrote →
    (after.objects object).data = wrote.getD saw
  rejected : ∀ object saw error, reply = .rejected object (some saw) error →
    (after.objects object).data = saw

/-- No update of the stored credentials is lost in any run that keeps the condition. -/
theorem credentials_keep_updates {file : Bool}
    (reached : Reached (fun state event => event.Keeps state) file first state) :
    Explained first state ∧ ∀ event : Event, event.Possible state → event.Keeps state →
        Answered state (state.step event).1 (state.step event).2 := by
  have consistent := reached.consistent
  obtain ⟨order, linearized⟩ := consistent.linear
  refine ⟨⟨order, linearized.perm, linearized.respects, linearized.stored⟩, ?_⟩
  intro event possible keeps
  have outcome := act_outcome consistent possible keeps
  exact ⟨outcome.kept, outcome.view, outcome.rejected⟩

/-- A change of an API key that an asynchronous callback makes. -/
def addKey (provider : String) : Operation :=
  .modify provider fun _ => .ok (some (.apiKey none []))

def onlyKey (provider : String) : AuthStorageData :=
  Function.update (fun _ => none) provider (some (.apiKey none []))

def bothKeys : AuthStorageData :=
  Function.update (onlyKey "p") "q" (some (.apiKey none []))

def adding (phase : Phase) : Flight :=
  { object := 0, operation := addKey "p", phase := phase }

/-- Another object adds another key. -/
def addingToo (phase : Phase) : Flight :=
  { object := 1, operation := addKey "q", phase := phase }

/-- Two additions are called, and the first one is ready to write. -/
def onFile : State :=
  let start : State := { file := true, content := .data fun _ => none }
  ((((start.step (.call 0 (addKey "p") .granted)).1.step (.call 1 (addKey "q") .granted)).1.step
    (.acquire 0 (adding .waiting))).1.step
      (.settle 0 (adding (.called fun _ => none)) fun _ => none)).1

/-- The first addition is done, and the second one has read what it wrote. -/
def onFileNext : State :=
  (((onFile.step (.complete 0 (adding (.settled (fun _ => none) (some (onlyKey "p"))))
    (fun _ => none) (some (onlyKey "p")) .done)).1.step (.acquire 1 (addingToo .waiting))).1.step
      (.settle 1 (addingToo (.called (onlyKey "p"))) (onlyKey "p"))).1

theorem onFileNext_reached :
    Reached (fun state event => event.Keeps state) true (.data fun _ => none) onFileNext := by
  have first : Reached (fun state event => event.Keeps state) true (.data fun _ => none) onFile :=
    .step (.step (.step (.step .start ⟨rfl, trivial⟩ trivial) ⟨rfl, trivial⟩ trivial)
      ⟨rfl, rfl, rfl⟩ trivial) ⟨rfl, rfl⟩ ⟨nofun, nofun⟩
  exact .step (.step (.step first ⟨rfl, rfl, .inl rfl⟩
    ⟨nofun, nofun, fun _ _ => ⟨trivial, fun undone => (undone rfl).elim⟩⟩)
      ⟨rfl, rfl, rfl⟩ trivial) ⟨rfl, rfl⟩ ⟨nofun, nofun⟩

theorem credentials_keep_updates_onFile :
    Explained (.data fun _ => none) onFileNext ∧ Answered onFileNext
        (onFileNext.step (.complete 1 (addingToo (.settled (onlyKey "p") (some bothKeys)))
          (onlyKey "p") (some bothKeys) .done)).1
        (.returned 1 (some (onlyKey "p")) (some bothKeys)) := by
  obtain ⟨explained, answered⟩ := credentials_keep_updates onFileNext_reached
  exact ⟨explained, answered (.complete 1 (addingToo (.settled (onlyKey "p") (some bothKeys)))
    (onlyKey "p") (some bothKeys) .done) ⟨rfl, rfl, .inl rfl⟩
      ⟨nofun, nofun, fun _ _ => ⟨trivial, fun undone => (undone rfl).elim⟩⟩⟩

/-- In memory a key is set while another one is being added, and the addition writes over
it. -/
def inMemory : State :=
  let start : State := { file := false, content := .data fun _ => none }
  (((((start.step (.reload 0 .granted)).1.step (.call 0 (addKey "p") .granted)).1.step
    (.set 0 "q" (.apiKey none []) .granted .granted .done)).1.step
    (.settle 1 (adding (.called fun _ => none)) fun _ => none)).1.step
    (.complete 1 (adding (.settled (fun _ => none) (some (onlyKey "p"))))
      (fun _ => none) (some (onlyKey "p")) .done)).1

theorem inMemory_reached : Reached (fun _ _ => True) false (.data fun _ => none) inMemory := by
  refine .step (.step (.step (.step (.step .start rfl trivial) ⟨rfl, trivial⟩ trivial)
    ⟨rfl, rfl, Or.inr rfl⟩ trivial) ⟨rfl, rfl⟩ trivial) ⟨rfl, rfl, Or.inr rfl⟩ trivial

theorem replay_keeps_key (order : List Finished) (data : AuthStorageData)
    (each : ∀ one ∈ order, one.operation = .set "q" (.apiKey none []) ∨
      one.operation = addKey "p") (had : data "q" ≠ none) : replay order data "q" ≠ none := by
  induction order generalizing data with
  | nil => exact had
  | cons one rest step =>
    refine step _ (fun other member => each other (List.mem_cons_of_mem _ member)) ?_
    change one.operation.apply data "q" ≠ none
    rcases each one List.mem_cons_self with set | add
    · rw [set]
      exact nofun
    · rw [add]
      exact had

/-- A set that returned is lost in memory. -/
theorem not_credentials_keep_updates :
    ¬ ∀ state, Reached (fun _ _ => True) false (.data fun _ => none) state →
      Explained (.data fun _ => none) state := by
  intro kept
  obtain ⟨order, perm, -, stored⟩ := kept inMemory inMemory_reached
  have both : ∀ one ∈ order, one.operation = .set "q" (.apiKey none []) ∨
      one.operation = addKey "p" := by
    intro one member
    rcases List.mem_cons.mp (perm.mem_iff.mp member) with rfl | member
    · exact Or.inl rfl
    · obtain rfl := List.mem_singleton.mp member
      exact Or.inr rfl
  have set : (⟨.set "q" (.apiKey none []), 2, 2⟩ : Finished) ∈ order :=
    perm.mem_iff.mpr List.mem_cons_self
  obtain ⟨front, back, rfl⟩ := List.append_of_mem set
  have found : replay (front ++ ⟨.set "q" (.apiKey none []), 2, 2⟩ :: back)
      (fun _ => none) "q" ≠ none := by
    rw [replay_append]
    refine replay_keeps_key back _ (fun one member =>
      both one (List.mem_append_right _ (List.mem_cons_of_mem _ member))) ?_
    exact nofun
  exact found (congrFun (Except.ok.inj stored) "q").symm

end Recode.Auth

import Recode.Tools.FileMutationChains

/-! # Mutations of one file do not overlap

The chains of the queues are those of the files as long as the key of a call is
the place its path leads to. A call that finds nothing at its path takes the path
itself for the key, so this fails where a link is on the way. -/

namespace Recode.Tools
namespace FileMutations

variable {names : PathNames} {state after : State} {id : Nat}

namespace State

def keyOf : Stage → Option String
  | .keyed key => some key
  | .registered registration => some registration.key
  | .queued | .rejected => none

/-- The key of a call is the place its path leads to. -/
def Located (names : PathNames) (state : State) : Prop :=
  ∀ id path key, state.pathOf id = some path → (state.stageOf id).bind keyOf = some key →
    key = names.file path

/-- When a call finds nothing at its path, no link is on the way: the path is itself
the place it leads to. -/
def Direct (names : PathNames) (state : State) : Event → Prop
  | .realpath id (.error code) =>
    isMissingPathError code = true →
      ∀ path, state.pathOf id = some path → names.file path = names.resolve path
  | _ => True

theorem Located.setStage {next : Stage} (located : Located names state)
    (called : id < state.calls.length)
    (right : ∀ path key, state.pathOf id = some path → keyOf next = some key →
      key = names.file path) : Located names (state.setStage id next) := by
  intro other path key found keyed
  rw [pathOf_setStage] at found
  by_cases same : other = id
  · subst same
    rw [stageOf_setStage_self called] at keyed
    exact right path key found keyed
  · rw [stageOf_setStage_of_ne same] at keyed
    exact located other path key found keyed

theorem getMutationQueueKey_file {path key : String} {answer : Except String String}
    (may : mayAnswer names state.present (names.resolve path) answer = true)
    (found : getMutationQueueKey names path answer = .ok key)
    (direct : ∀ code, answer = .error code → isMissingPathError code = true →
      names.file path = names.resolve path) : key = names.file path := by
  cases answer with
  | ok place =>
    rw [mayAnswer, Bool.and_eq_true, beq_iff_eq] at may
    cases found
    exact may.2
  | error code =>
    rw [getMutationQueueKey] at found
    split at found
    · rename_i missing
      cases found
      exact (direct code rfl missing).symm
    · cases found

theorem Located.kept {stage next : Stage} (located : Located names state)
    (found : state.stageOf id = some stage) (same : keyOf next = keyOf stage) :
    Located names (state.setStage id next) := by
  apply located.setStage (lt_of_stageOf found)
  intro path key known keyed
  apply located _ path key known
  rw [found]
  exact same.symm.trans keyed

theorem Located.step {event : Event} (located : Located names state)
    (steps : Steps names state event after) (direct : Direct names state event) :
    Located names after := by
  cases steps with
  | call filePath =>
    intro id path key found keyed
    rw [stageOf_call] at keyed
    split at keyed
    · cases keyed
    refine located id path key ?_ keyed
    have called : id < state.calls.length := by
      cases stage : state.stageOf id with
      | none =>
        rw [stage] at keyed
        cases keyed
      | some reached => exact lt_of_stageOf stage
    rw [pathOf, List.getElem?_append_left called] at found
    exact found
  | @keyed id answer path key found known may answers keyed =>
    apply located.setStage (lt_of_stageOf found)
    intro path' key' known' same
    rw [known] at known'
    cases known'
    cases same
    apply getMutationQueueKey_file answers keyed
    rintro code rfl missing
    exact direct missing path known
  | rejected found may =>
    exact located.setStage (lt_of_stageOf found) fun _ _ _ same => by cases same
  | register found => exact located.kept found rfl
  | start found waiting resolved => exact located.kept found rfl
  | finish found running ended queues => exact located.kept found rfl
  | change place present => exact located

theorem chained_start (present : String → Bool) : Chained { present := present } where
  front _ _ found := nomatch found
  held _ _ holds := nomatch holds
  free _ _ _ _ found := nomatch found
  linked _ _ found := nomatch found
  behind _ _ found := nomatch found
  begun _ _ found := nomatch found

theorem Reached.invariant (reached : Reached names (Direct names) state) :
    Chained state ∧ Located names state := by
  induction reached with
  | start present => exact ⟨chained_start present, fun _ _ _ found => nomatch found⟩
  | step _ direct stepped ih =>
    have steps := steps_of_step stepped
    exact ⟨ih.1.step steps, ih.2.step steps direct⟩

theorem pathOf_of_stageOf {stage : Stage} (found : state.stageOf id = some stage) :
    ∃ path, state.pathOf id = some path := by
  rw [stageOf, Option.map_eq_some_iff] at found
  obtain ⟨call, present, -⟩ := found
  exact ⟨call.filePath, by rw [pathOf, present]; rfl⟩

/-- Registered calls are under one key exactly when they mutate one file. -/
theorem Located.sameFile_iff (located : Located names state) {one other : Nat}
    {registration registration' : Registration}
    (found : state.stageOf one = some (.registered registration))
    (found' : state.stageOf other = some (.registered registration')) :
    state.SameFile names one other ↔ registration.key = registration'.key := by
  obtain ⟨path, known⟩ := pathOf_of_stageOf found
  obtain ⟨path', known'⟩ := pathOf_of_stageOf found'
  have key := located one path registration.key known (by rw [found]; rfl)
  have key' := located other path' registration'.key known' (by rw [found']; rfl)
  constructor
  · rintro ⟨again, again', same, same', file⟩
    rw [known] at same
    rw [known'] at same'
    cases same
    cases same'
    rw [key, key', file]
  · intro same
    exact ⟨path, path', known, known', by rw [← key, ← key', same]⟩

theorem Chained.settled_of_started (chained : Chained state) (located : Located names state)
    {earlier later : Nat} (less : earlier < later) (same : state.SameFile names earlier later)
    (started : state.Started later) : state.Settled earlier := by
  obtain ⟨registration, found, moved⟩ := started
  have ended := chained.front later _ found (fun same => nomatch same) earlier less
  rw [registrationEnded] at ended
  split at ended
  · rename_i rejected
    exact Or.inl rejected
  · rename_i registration' found'
    have key := (located.sameFile_iff found' found).mp same
    exact Or.inr ⟨registration', found',
      chained.begun later registration found moved earlier less registration' found' key⟩
  · cases ended

theorem not_settled_of_running (running : state.Running id) : ¬ state.Settled id := by
  obtain ⟨registration, found, progress⟩ := running
  rintro (rejected | ⟨registration', found', ended⟩)
  · rw [found] at rejected
    cases rejected
  · rw [found] at found'
    cases found'
    rw [progress] at ended
    exact nomatch ended

theorem started_of_running (running : state.Running id) : state.Started id := by
  obtain ⟨registration, found, progress⟩ := running
  refine ⟨registration, found, ?_⟩
  rw [progress]
  exact fun same => nomatch same

theorem Chained.canMove (chained : Chained state) (located : Located names state)
    (registered : ∀ earlier < id, state.registrationEnded earlier = true)
    (settled : ∀ earlier < id, state.SameFile names earlier id → state.Settled earlier) :
    state.CanMove names id := by
  rw [CanMove]
  cases found : state.stageOf id with
  | none => trivial
  | some stage =>
    cases stage with
    | queued =>
      intro path answer known answers
      have may : state.mayRegister id = true := by
        cases id with
        | zero => rfl
        | succ before => exact registered before (Nat.lt_succ_self before)
      rw [State.step, found, known]
      simp only [may, answers, Bool.and_self, if_true]
      split <;> rfl
    | keyed key =>
      change (state.step names (.register id)).isSome = true
      rw [State.step, found]
      rfl
    | rejected => trivial
    | registered registration =>
      dsimp only
      cases progress : registration.progress with
      | waiting =>
        have ended : state.ChainEnded id registration.key := by
          intro earlier less previous found' key
          rcases settled earlier less ((located.sameFile_iff found' found).mpr key) with
            rejected | ⟨again, found'', ended⟩
          · rw [found'] at rejected
            cases rejected
          · rw [found'] at found''
            cases found''
            exact ended
        have resolved := chained.resolved_of_ended found
          (Nat.le_of_lt (lt_of_stageOf found)) ended
        dsimp only
        rw [State.step, found]
        simp only [progress, resolved, and_self, if_true, Option.isSome_some]
      | running =>
        intro throws
        rw [State.step, found]
        simp only [progress, if_true]
        split <;> rfl
      | returned => trivial
      | thrown => trivial

/-- Mutations are serialized in every run in which each call that finds nothing at its
path has no link on the way. -/
theorem mutations_serialized (reached : Reached names (Direct names) state) :
    Serialized names state := by
  obtain ⟨chained, located⟩ := reached.invariant
  refine ⟨?_, ?_, ?_, ?_⟩
  · intro one other running running' same
    rcases Nat.lt_trichotomy one other with less | equal | more
    · have settled := chained.settled_of_started located less same (started_of_running running')
      exact absurd settled (not_settled_of_running running)
    · exact equal
    · obtain ⟨path, path', known, known', file⟩ := same
      have settled := chained.settled_of_started located more
        ⟨path', path, known', known, file.symm⟩ (started_of_running running)
      exact absurd settled (not_settled_of_running running')
  · intro earlier later less same started
    exact chained.settled_of_started located less same started
  · intro id registered settled
    exact chained.canMove located registered settled
  · intro settled
    rw [List.eq_nil_iff_forall_not_mem]
    rintro ⟨key, id⟩ member
    rw [← InsertionMap.get?_eq_some_iff] at member
    obtain ⟨last, found, -, going, -⟩ := chained.held key id member
    rcases settled id (lt_of_stageOf found) with rejected | ⟨last', found', ended⟩
    · rw [found] at rejected
      cases rejected
    · rw [found] at found'
      cases found'
      rw [going] at ended
      exact nomatch ended

def linkFree : PathNames where
  resolve path := path
  locate path := path

/-- Of two calls on a missing file the later one waits. -/
def creating : State where
  calls :=
    [⟨"/real/file", .registered ⟨"/real/file", none, .running⟩⟩,
      ⟨"/real/file", .registered ⟨"/real/file", some 0, .waiting⟩⟩]
  fileMutationQueues := InsertionMap.empty.insert "/real/file" 1
  present _ := false

theorem direct_linkFree (state : State) (event : Event) : Direct linkFree state event := by
  cases event with
  | realpath id answer =>
    cases answer with
    | error code => exact fun _ _ _ => rfl
    | ok path => trivial
  | _ => trivial

theorem creating_reached : Reached linkFree (Direct linkFree) creating := by
  have start : Reached linkFree (Direct linkFree) { present := fun _ => false } := .start _
  have called := start.step (direct_linkFree _ (.call "/real/file")) rfl
  have called' := called.step (direct_linkFree _ (.call "/real/file")) rfl
  have keyed := called'.step (direct_linkFree _ (.realpath 0 (.error "ENOENT"))) rfl
  have registered := keyed.step (direct_linkFree _ (.register 0)) rfl
  have started := registered.step (direct_linkFree _ (.start 0)) rfl
  have keyed' := started.step (direct_linkFree _ (.realpath 1 (.error "ENOENT"))) rfl
  exact keyed'.step (direct_linkFree _ (.register 1)) rfl

theorem mutations_serialized_creating : Serialized linkFree creating :=
  mutations_serialized creating_reached

/-- A directory is reached through a link as well. -/
def linkedDirectory : PathNames where
  resolve path := path
  locate path := if path = "/link/file" then "/real/file" else path

def creatingTwice : State where
  calls :=
    [⟨"/link/file", .registered ⟨"/link/file", none, .running⟩⟩,
      ⟨"/real/file", .registered ⟨"/real/file", none, .running⟩⟩]
  fileMutationQueues :=
    (InsertionMap.empty.insert "/link/file" 0).insert "/real/file" 1
  present _ := false

theorem creatingTwice_reached : Reached linkedDirectory (fun _ _ => True) creatingTwice := by
  have start : Reached linkedDirectory (fun _ _ => True) { present := fun _ => false } := .start _
  have called := start.step trivial (rfl : step linkedDirectory _ (.call "/link/file") = some _)
  have called' := called.step trivial (rfl : step linkedDirectory _ (.call "/real/file") = some _)
  have keyed := called'.step trivial
    (rfl : step linkedDirectory _ (.realpath 0 (.error "ENOENT")) = some _)
  have registered := keyed.step trivial (rfl : step linkedDirectory _ (.register 0) = some _)
  have keyed' := registered.step trivial
    (rfl : step linkedDirectory _ (.realpath 1 (.error "ENOENT")) = some _)
  have registered' := keyed'.step trivial (rfl : step linkedDirectory _ (.register 1) = some _)
  have started := registered'.step trivial (rfl : step linkedDirectory _ (.start 0) = some _)
  exact started.step trivial (rfl : step linkedDirectory _ (.start 1) = some _)

/-- Through the link and without it, a missing file has two keys. -/
theorem not_mutations_serialized :
    ¬ ∀ (names : PathNames) (state : State), Reached names (fun _ _ => True) state →
      Serialized names state := by
  intro serialized
  have both := (serialized linkedDirectory creatingTwice creatingTwice_reached).exclusive 0 1
    ⟨_, rfl, rfl⟩ ⟨_, rfl, rfl⟩ ⟨_, _, rfl, rfl, rfl⟩
  exact nomatch both

end State

end FileMutations
end Recode.Tools

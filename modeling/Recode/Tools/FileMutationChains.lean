import Recode.Tools.FileMutationQueue

/-! # The chains of the file mutation queues

The calls under one key form a chain in the order of registration, and the map
holds the last call of each chain that has not ended. -/

namespace Recode.Tools

open InsertionMap
namespace FileMutations

variable {names : PathNames} {state after : State} {id : Nat}

namespace State

theorem stageOf_setStage_self (called : id < state.calls.length) (next : Stage) :
    (state.setStage id next).stageOf id = some next := by
  rw [stageOf, setStage]
  simp [called]

variable {registration : Registration} {other : Nat}

theorem stageOf_setStage_of_ne (different : other ≠ id) (next : Stage) :
    (state.setStage id next).stageOf other = state.stageOf other := by
  rw [stageOf, setStage, stageOf]
  simp only [List.getElem?_modify, if_neg (Ne.symm different)]
  cases state.calls[other]? <;> rfl

@[simp] theorem pathOf_setStage (state : State) (id other : Nat) (next : Stage) :
    (state.setStage id next).pathOf other = state.pathOf other := by
  rw [pathOf, setStage, pathOf]
  simp only [List.getElem?_modify]
  split <;> cases state.calls[other]? <;> rfl

variable {stage : Stage}

theorem lt_of_stageOf (found : state.stageOf id = some stage) : id < state.calls.length := by
  rw [stageOf, Option.map_eq_some_iff] at found
  obtain ⟨call, present, -⟩ := found
  exact (List.getElem?_eq_some_iff.mp present).1

theorem stageOf_call (filePath : String) (id : Nat) :
    ({ state with calls := state.calls ++ [⟨filePath, .queued⟩] } : State).stageOf id =
      if id = state.calls.length then some .queued else state.stageOf id := by
  rw [stageOf, stageOf]
  split
  · rename_i last
    rw [last, List.getElem?_concat_length]
    rfl
  rename_i other
  rw [List.getElem?_append]
  split
  · rfl
  · rename_i long
    have beyond : state.calls.length ≤ id := Nat.not_lt.mp long
    rw [List.getElem?_eq_none (by rw [List.length_singleton]; omega), List.getElem?_eq_none beyond]

/-- The calls under each key form a chain. -/
structure Chained (state : State) : Prop where
  /-- A call registers after all calls before it. -/
  front : ∀ id stage, state.stageOf id = some stage → stage ≠ .queued →
    ∀ earlier < id, state.registrationEnded earlier = true
  /-- The map holds the last call of a chain, which has not ended. -/
  held : ∀ key id, state.fileMutationQueues.get? key = some id →
    ∃ last, state.stageOf id = some (.registered last) ∧ last.key = key ∧
      last.progress.ended = false ∧
        ∀ other registration, state.stageOf other = some (.registered registration) →
          registration.key = key → other ≤ id
  /-- A chain that the map does not hold has ended. -/
  free : ∀ key, state.fileMutationQueues.get? key = none →
    ∀ id registration, state.stageOf id = some (.registered registration) →
      registration.key = key → registration.progress.ended = true
  /-- A call waits for an earlier call of its chain. -/
  linked : ∀ id registration, state.stageOf id = some (.registered registration) →
    ∀ before, registration.currentQueue = some before → before < id ∧
      ∃ previous, state.stageOf before = some (.registered previous) ∧
        previous.key = registration.key
  /-- The calls of a chain that are not behind the call waited for have ended. -/
  behind : ∀ id registration, state.stageOf id = some (.registered registration) →
    ∀ earlier < id, ∀ previous, state.stageOf earlier = some (.registered previous) →
      previous.key = registration.key → previous.progress.ended = true ∨
        ∃ before, registration.currentQueue = some before ∧ earlier ≤ before
  /-- A call starts when all calls before it in its chain have ended. -/
  begun : ∀ id registration, state.stageOf id = some (.registered registration) →
    registration.progress ≠ .waiting → ∀ earlier < id, ∀ previous,
      state.stageOf earlier = some (.registered previous) →
        previous.key = registration.key → previous.progress.ended = true

/-- The calls before a registered call in its chain have ended. -/
def ChainEnded (state : State) (id : Nat) (key : String) : Prop :=
  ∀ earlier < id, ∀ previous, state.stageOf earlier = some (.registered previous) →
    previous.key = key → previous.progress.ended = true

theorem Chained.ended_of_resolved (chained : Chained state) {count : Nat}
    (found : state.stageOf id = some (.registered registration))
    (resolved : state.queueResolved count registration.currentQueue = true) :
    state.ChainEnded id registration.key := by
  induction count generalizing id registration with
  | zero =>
    intro earlier less previous stored same
    rcases chained.behind id registration found earlier less previous stored same with
      ended | ⟨before, waits, -⟩
    · exact ended
    · rw [waits] at resolved
      exact nomatch resolved
  | succ count ih =>
    intro earlier less previous stored same
    rcases chained.behind id registration found earlier less previous stored same with
      ended | ⟨before, waits, near⟩
    · exact ended
    · obtain ⟨-, link, linked, key⟩ := chained.linked id registration found before waits
      rw [waits, queueResolved, linked] at resolved
      simp only [Bool.and_eq_true] at resolved
      rcases Nat.lt_or_eq_of_le near with sooner | same'
      · exact ih linked resolved.2 earlier sooner previous stored (same.trans key.symm)
      · subst same'
        rw [linked] at stored
        cases stored
        exact resolved.1

theorem Chained.resolved_of_ended (chained : Chained state) {count : Nat}
    (found : state.stageOf id = some (.registered registration))
    (long : id ≤ count) (ended : state.ChainEnded id registration.key) :
    state.queueResolved count registration.currentQueue = true := by
  induction count generalizing id registration with
  | zero =>
    cases waits : registration.currentQueue with
    | none => rw [queueResolved]
    | some before =>
      have less := (chained.linked id registration found before waits).1
      omega
  | succ count ih =>
    cases waits : registration.currentQueue with
    | none => rw [queueResolved]
    | some before =>
      obtain ⟨less, link, linked, key⟩ := chained.linked id registration found before waits
      rw [queueResolved, linked]
      simp only [Bool.and_eq_true]
      refine ⟨ended before less link linked key, ih linked (by omega) ?_⟩
      intro earlier sooner previous stored same
      exact ended earlier (Nat.lt_trans sooner less) previous stored (same.trans key)

theorem registrationEnded_of_stage (found : state.stageOf id = some stage)
    (ended : stage = .rejected ∨ ∃ registration, stage = .registered registration) :
    state.registrationEnded id = true := by
  rw [registrationEnded, found]
  rcases ended with rfl | ⟨registration, rfl⟩
  · rfl
  · rfl

theorem not_registrationEnded (found : state.stageOf id = some stage)
    (open_ : stage = .queued ∨ ∃ key, stage = .keyed key) :
    ¬ state.registrationEnded id = true := by
  rw [registrationEnded, found]
  rcases open_ with rfl | ⟨key, rfl⟩
  · exact Bool.false_ne_true
  · exact Bool.false_ne_true

/-- What one step does. -/
inductive Steps (names : PathNames) (state : State) : Event → State → Prop
  | call (filePath : String) :
      Steps names state (.call filePath)
        { state with calls := state.calls ++ [⟨filePath, .queued⟩] }
  | keyed {id : Nat} {answer : Except String String} {path key : String} :
      state.stageOf id = some .queued → state.pathOf id = some path → state.mayRegister id = true →
          mayAnswer names state.present (names.resolve path) answer = true →
            getMutationQueueKey names path answer = .ok key →
              Steps names state (.realpath id answer) (state.setStage id (.keyed key))
  | rejected {id : Nat} {answer : Except String String} :
      state.stageOf id = some .queued → state.mayRegister id = true →
        Steps names state (.realpath id answer) (state.setStage id .rejected)
  | register {id : Nat} {key : String} :
      state.stageOf id = some (.keyed key) → Steps names state (.register id)
          { state.setStage id
              (.registered ⟨key, state.fileMutationQueues.get? key, .waiting⟩) with
            fileMutationQueues := state.fileMutationQueues.insert key id }
  | start {id : Nat} {registration : Registration} :
      state.stageOf id = some (.registered registration) → registration.progress = .waiting →
        state.queueResolved state.calls.length registration.currentQueue = true →
          Steps names state (.start id)
            (state.setStage id (.registered { registration with progress := .running }))
  | finish {id : Nat} {registration : Registration} {throws : Bool} {last : Progress}
      {queues : InsertionMap String Nat} :
      state.stageOf id = some (.registered registration) → registration.progress = .running →
        last.ended = true →
          queues = (if state.fileMutationQueues.get? registration.key = some id then
            state.fileMutationQueues.erase registration.key else state.fileMutationQueues) →
            Steps names state (.finish id throws)
              { state.setStage id (.registered { registration with progress := last }) with
                fileMutationQueues := queues }
  | change (place : String) (present : Bool) :
      Steps names state (.change place present)
        { state with present := Function.update state.present place present }

theorem steps_of_step {event : Event} (stepped : state.step names event = some after) :
    Steps names state event after := by
  cases event with
  | call filePath =>
    cases stepped
    exact .call filePath
  | realpath id answer =>
    rw [step] at stepped
    split at stepped
    · rename_i filePath stage path
      split at stepped
      · rename_i may
        rw [Bool.and_eq_true] at may
        split at stepped
        · rename_i key found
          cases stepped
          exact .keyed stage path may.1 may.2 found
        · cases stepped
          exact .rejected stage may.1
      · cases stepped
    · cases stepped
  | register id =>
    rw [step] at stepped
    split at stepped
    · rename_i key stage
      cases stepped
      exact .register stage
    · cases stepped
  | start id =>
    rw [step] at stepped
    split at stepped
    · rename_i registration stage
      split at stepped
      · rename_i may
        cases stepped
        exact .start stage may.1 may.2
      · cases stepped
    · cases stepped
  | finish id throws =>
    rw [step] at stepped
    split at stepped
    · rename_i registration stage
      split at stepped
      · rename_i running
        have ended : (if throws then Progress.thrown else Progress.returned).ended = true := by
          cases throws <;> rfl
        dsimp only at stepped
        split at stepped
        · rename_i holds
          cases stepped
          exact .finish stage running ended (if_pos holds).symm
        · rename_i other
          cases stepped
          exact .finish stage running ended (if_neg other).symm
      · cases stepped
    · cases stepped
  | change place present =>
    cases stepped
    exact .change place present

/-- All calls before one that may register have left the registration. -/
theorem Chained.ended_before (chained : Chained state) (may : state.mayRegister id = true) :
    ∀ earlier < id, state.registrationEnded earlier = true := by
  cases id with
  | zero => exact fun earlier less => absurd less (Nat.not_lt_zero earlier)
  | succ before =>
    rw [mayRegister] at may
    intro earlier less
    rcases Nat.lt_or_eq_of_le (Nat.le_of_lt_succ less) with sooner | same
    · cases found : state.stageOf before with
      | none =>
        rw [registrationEnded, found] at may
        exact nomatch may
      | some stage =>
        refine chained.front before stage found ?_ earlier sooner
        rintro rfl
        exact not_registrationEnded found (Or.inl rfl) may
    · rw [same]
      exact may

theorem Chained.of_registered (chained : Chained state)
    (registered : ∀ id registration, after.stageOf id = some (.registered registration) ↔
      state.stageOf id = some (.registered registration))
    (queues : after.fileMutationQueues = state.fileMutationQueues)
    (front : ∀ id stage, after.stageOf id = some stage → stage ≠ .queued →
      ∀ earlier < id, after.registrationEnded earlier = true) : Chained after := by
  refine ⟨front, ?_, ?_, ?_, ?_, ?_⟩
  · simpa only [registered, queues] using chained.held
  · simpa only [registered, queues] using chained.free
  · simpa only [registered] using chained.linked
  · simpa only [registered] using chained.behind
  · simpa only [registered] using chained.begun

/-- A call that moves on leaves the registration of no call open that was ended. -/
theorem registrationEnded_setStage {stage next : Stage} (found : state.stageOf id = some stage)
    (kept : state.registrationEnded id = true →
      next = .rejected ∨ ∃ registration, next = .registered registration)
    (ended : state.registrationEnded other = true) :
    (state.setStage id next).registrationEnded other = true := by
  by_cases same : other = id
  · subst same
    exact registrationEnded_of_stage (stageOf_setStage_self (lt_of_stageOf found) next)
      (kept ended)
  · rw [registrationEnded, stageOf_setStage_of_ne same]
    exact ended

/-- The order of registration is kept when a call moves on that was not queued, or
that may register. -/
theorem Chained.front_setStage (chained : Chained state) {stage next : Stage}
    (found : state.stageOf id = some stage) (kept : state.registrationEnded id = true →
      next = .rejected ∨ ∃ registration, next = .registered registration)
    (before : ∀ earlier < id, state.registrationEnded earlier = true) :
    ∀ other stage', (state.setStage id next).stageOf other = some stage' → stage' ≠ .queued →
      ∀ earlier < other, (state.setStage id next).registrationEnded earlier = true := by
  intro other stage' reached moved earlier less
  apply registrationEnded_setStage found kept
  by_cases same : other = id
  · rw [same] at less
    exact before earlier less
  · rw [stageOf_setStage_of_ne same] at reached
    exact chained.front other stage' reached moved earlier less

theorem Chained.keyed (chained : Chained state) {next : Stage}
    (found : state.stageOf id = some .queued) (may : state.mayRegister id = true)
    (outside : ∀ registration, next ≠ .registered registration) :
    Chained (state.setStage id next) := by
  have open_ := not_registrationEnded found (Or.inl rfl)
  refine chained.of_registered ?_ rfl
    (chained.front_setStage found (fun ended => absurd ended open_) (chained.ended_before may))
  intro other registration
  by_cases same : other = id
  · subst same
    rw [stageOf_setStage_self (lt_of_stageOf found), found]
    constructor
    · intro same
      exact absurd (Option.some.inj same) (outside registration)
    · intro same
      exact nomatch same
  · rw [stageOf_setStage_of_ne same]

theorem Chained.before_keyed (chained : Chained state) {key : String}
    (found : state.stageOf id = some (.keyed key))
    (registered : state.stageOf other = some (.registered registration)) : other < id := by
  rcases Nat.lt_trichotomy other id with less | same | more
  · exact less
  · rw [same, found] at registered
    cases registered
  · have ended := chained.front other _ registered (fun same => nomatch same) id more
    exact absurd ended (not_registrationEnded found (Or.inr ⟨key, rfl⟩))

theorem Chained.register (chained : Chained state) {key : String}
    (found : state.stageOf id = some (.keyed key)) :
    Chained { state.setStage id
        (.registered ⟨key, state.fileMutationQueues.get? key, .waiting⟩) with
      fileMutationQueues := state.fileMutationQueues.insert key id } := by
  have open_ := not_registrationEnded found (Or.inr ⟨key, rfl⟩)
  -- A registered call is the new one, or was registered before.
  have cases_ (other : Nat) (registration : Registration)
      (reached : (state.setStage id
        (.registered ⟨key, state.fileMutationQueues.get? key, .waiting⟩)).stageOf other =
          some (.registered registration)) :
      other = id ∧ registration = ⟨key, state.fileMutationQueues.get? key, .waiting⟩ ∨
        other < id ∧ state.stageOf other = some (.registered registration) := by
    by_cases same : other = id
    · subst same
      rw [stageOf_setStage_self (lt_of_stageOf found)] at reached
      cases reached
      exact Or.inl ⟨rfl, rfl⟩
    · rw [stageOf_setStage_of_ne same] at reached
      exact Or.inr ⟨chained.before_keyed found reached, reached⟩
  have kept (other : Nat) (registration : Registration)
      (registered : state.stageOf other = some (.registered registration)) :
      (state.setStage id
        (.registered ⟨key, state.fileMutationQueues.get? key, .waiting⟩)).stageOf other =
          some (.registered registration) := by
    rw [stageOf_setStage_of_ne (Nat.ne_of_lt (chained.before_keyed found registered))]
    exact registered
  refine ⟨?_, ?_, ?_, ?_, ?_, ?_⟩
  · exact chained.front_setStage found (fun _ => Or.inr ⟨_, rfl⟩)
      (chained.front id _ found fun same => nomatch same)
  · intro wanted holder holds
    rw [get?_insert] at holds
    split at holds
    · rename_i same
      cases holds
      refine ⟨_, stageOf_setStage_self (lt_of_stageOf found) _, same.symm, rfl, ?_⟩
      intro other registration reached _
      rcases cases_ other registration reached with ⟨rfl, -⟩ | ⟨less, -⟩
      · exact Nat.le_refl _
      · exact Nat.le_of_lt less
    · rename_i different
      obtain ⟨last, stored, under, going, newest⟩ := chained.held wanted holder holds
      refine ⟨last, kept holder last stored, under, going, ?_⟩
      intro other registration reached keyed
      rcases cases_ other registration reached with ⟨-, rfl⟩ | ⟨-, stored'⟩
      · exact absurd keyed.symm different
      · exact newest other registration stored' keyed
  · intro wanted none other registration reached keyed
    rw [get?_insert] at none
    split at none
    · cases none
    · rename_i different
      rcases cases_ other registration reached with ⟨-, rfl⟩ | ⟨-, stored⟩
      · exact absurd keyed.symm different
      · exact chained.free wanted none other registration stored keyed
  · intro other registration reached before waits
    rcases cases_ other registration reached with ⟨rfl, rfl⟩ | ⟨-, stored⟩
    · obtain ⟨last, stored, under, -, -⟩ := chained.held key before waits
      exact ⟨chained.before_keyed found stored, last, kept before last stored, under⟩
    · obtain ⟨less, previous, linked, same⟩ := chained.linked other registration stored before waits
      exact ⟨less, previous, kept before previous linked, same⟩
  · intro other registration reached earlier less previous reached' same
    rcases cases_ other registration reached with ⟨rfl, rfl⟩ | ⟨sooner, stored⟩
    · rcases cases_ earlier previous reached' with ⟨rfl, -⟩ | ⟨-, stored'⟩
      · exact absurd less (Nat.lt_irrefl _)
      cases holds : state.fileMutationQueues.get? key with
      | none => exact Or.inl (chained.free key holds earlier previous stored' same)
      | some holder =>
        obtain ⟨-, -, -, -, newest⟩ := chained.held key holder holds
        exact Or.inr ⟨holder, rfl, newest earlier previous stored' same⟩
    · rcases cases_ earlier previous reached' with ⟨rfl, -⟩ | ⟨-, stored'⟩
      · omega
      · exact chained.behind other registration stored earlier less previous stored' same
  · intro other registration reached moved earlier less previous reached' same
    rcases cases_ other registration reached with ⟨rfl, rfl⟩ | ⟨sooner, stored⟩
    · exact absurd rfl moved
    · rcases cases_ earlier previous reached' with ⟨rfl, -⟩ | ⟨-, stored'⟩
      · omega
      · exact chained.begun other registration stored moved earlier less previous stored' same

/-- A registered call whose progress changes keeps its place in its chain. -/
theorem registered_setProgress
    (found : state.stageOf id = some (.registered registration)) (next : Progress) (other : Nat)
    (reached : Registration) (stored : (state.setStage id
      (.registered { registration with progress := next })).stageOf other =
        some (.registered reached)) :
    ∃ previous, state.stageOf other = some (.registered previous) ∧
      previous.key = reached.key ∧ previous.currentQueue = reached.currentQueue ∧
        (other = id ∧ previous = registration ∧ reached.progress = next ∨
          other ≠ id ∧ previous = reached) := by
  by_cases same : other = id
  · subst same
    rw [stageOf_setStage_self (lt_of_stageOf found)] at stored
    cases stored
    exact ⟨registration, found, rfl, rfl, Or.inl ⟨rfl, rfl, rfl⟩⟩
  · rw [stageOf_setStage_of_ne same] at stored
    exact ⟨reached, stored, rfl, rfl, Or.inr ⟨same, rfl⟩⟩

theorem registered_kept
    (found : state.stageOf id = some (.registered registration)) (next : Progress)
    {previous : Registration} (stored : state.stageOf other = some (.registered previous)) :
    ∃ reached, (state.setStage id
        (.registered { registration with progress := next })).stageOf other =
          some (.registered reached) ∧ reached.key = previous.key ∧
        (other ≠ id → reached = previous) ∧ (other = id → reached.progress = next) := by
  by_cases same : other = id
  · subst same
    rw [found] at stored
    cases stored
    exact ⟨_, stageOf_setStage_self (lt_of_stageOf found) _, rfl, fun other => absurd rfl other,
      fun _ => rfl⟩
  · refine ⟨previous, ?_, rfl, fun _ => rfl, fun same' => absurd same' same⟩
    rw [stageOf_setStage_of_ne same]
    exact stored

section

variable (chained : Chained state) (found : state.stageOf id = some (.registered registration))
include chained found

theorem Chained.linked_setProgress (next : Progress) (other : Nat)
    (reached : Registration) (stored : (state.setStage id
      (.registered { registration with progress := next })).stageOf other =
        some (.registered reached)) (before : Nat) (waits : reached.currentQueue = some before) :
    before < other ∧ ∃ previous, (state.setStage id
      (.registered { registration with progress := next })).stageOf before =
        some (.registered previous) ∧ previous.key = reached.key := by
  obtain ⟨previous, known, key, queue, -⟩ := registered_setProgress found next other reached stored
  obtain ⟨less, link, linked, same⟩ :=
    chained.linked other previous known before (queue.trans waits)
  obtain ⟨link', stored', key', -, -⟩ := registered_kept found next linked
  exact ⟨less, link', stored', key'.trans (same.trans key)⟩

theorem Chained.front_setProgress (next : Progress) :
    ∀ other stage, (state.setStage id
      (.registered { registration with progress := next })).stageOf other = some stage →
        stage ≠ .queued → ∀ earlier < other, (state.setStage id
          (.registered { registration with progress := next })).registrationEnded earlier = true :=
  chained.front_setStage found (fun _ => Or.inr ⟨_, rfl⟩)
    (chained.front id _ found fun same => nomatch same)

theorem Chained.start (waiting : registration.progress = .waiting)
    (resolved : state.queueResolved state.calls.length registration.currentQueue = true) :
    Chained (state.setStage id (.registered { registration with progress := .running })) := by
  have ended := chained.ended_of_resolved found resolved
  have open_ : registration.progress.ended = false := by
    rw [waiting]
    rfl
  refine ⟨chained.front_setProgress found .running, ?_, ?_,
    chained.linked_setProgress found .running, ?_, ?_⟩
  · intro key holder holds
    obtain ⟨last, stored, under, going, newest⟩ := chained.held key holder holds
    obtain ⟨last', stored', key', kept, moved⟩ := registered_kept found .running stored
    refine ⟨last', stored', key'.trans under, ?_, ?_⟩
    · by_cases same : holder = id
      · rw [moved same]
        rfl
      · rw [kept same]
        exact going
    · intro other reached stored' keyed
      obtain ⟨previous, known, same, -⟩ := registered_setProgress found .running other reached
          stored'
      exact newest other previous known (same.trans keyed)
  · intro key none other reached stored keyed
    obtain ⟨previous, known, same, -, place⟩ :=
      registered_setProgress found .running other reached stored
    have done := chained.free key none other previous known (same.trans keyed)
    rcases place with ⟨-, rfl, -⟩ | ⟨-, rfl⟩
    · rw [open_] at done
      exact nomatch done
    · exact done
  · intro other reached stored earlier less previous stored' same
    obtain ⟨before, known, key, queue, -⟩ := registered_setProgress found .running other reached
        stored
    obtain ⟨before', known', key', -, place⟩ :=
      registered_setProgress found .running earlier previous stored'
    rcases chained.behind other before known earlier less before' known'
        (key'.trans (same.trans key.symm)) with done | near
    · rcases place with ⟨-, rfl, -⟩ | ⟨-, rfl⟩
      · rw [open_] at done
        exact nomatch done
      · exact Or.inl done
    · rw [queue] at near
      exact Or.inr near
  · intro other reached stored moved earlier less previous stored' same
    obtain ⟨before, known, key, -, place⟩ := registered_setProgress found .running other reached
        stored
    obtain ⟨before', known', key', -, place'⟩ :=
      registered_setProgress found .running earlier previous stored'
    have chain := key'.trans (same.trans key.symm)
    have done : before'.progress.ended = true := by
      rcases place with ⟨rfl, rfl, -⟩ | ⟨-, rfl⟩
      · exact ended earlier less before' known' chain
      · exact chained.begun other before known moved earlier less before' known' chain
    rcases place' with ⟨-, rfl, -⟩ | ⟨-, rfl⟩
    · rw [open_] at done
      exact nomatch done
    · exact done

theorem Chained.finish {last : Progress}
    (running : registration.progress = .running) (ended : last.ended = true) :
    Chained { state.setStage id (.registered { registration with progress := last }) with
      fileMutationQueues := if state.fileMutationQueues.get? registration.key = some id then
        state.fileMutationQueues.erase registration.key else state.fileMutationQueues } := by
  have started : registration.progress ≠ .waiting := by
    rw [running]
    exact fun same => nomatch same
  have before := chained.begun id registration found started
  have queued (key : String) :
      (if state.fileMutationQueues.get? registration.key = some id then
          state.fileMutationQueues.erase registration.key
        else state.fileMutationQueues).get? key =
        if key = registration.key ∧ state.fileMutationQueues.get? key = some id then none
        else state.fileMutationQueues.get? key := by
    by_cases holds : state.fileMutationQueues.get? registration.key = some id
    · rw [if_pos holds, get?_erase]
      by_cases same : key = registration.key
      · rw [if_pos same, same, if_pos ⟨rfl, holds⟩]
      · rw [if_neg same, if_neg fun both => same both.1]
    · rw [if_neg holds, if_neg]
      rintro ⟨rfl, holds'⟩
      exact holds holds'
  refine ⟨chained.front_setProgress found last, ?_, ?_,
    chained.linked_setProgress found last, ?_, ?_⟩
  · intro key holder holds
    rw [queued] at holds
    split at holds
    · cases holds
    rename_i kept
    obtain ⟨newest, stored, under, going, most⟩ := chained.held key holder holds
    have different : holder ≠ id := by
      rintro rfl
      rw [found] at stored
      cases stored
      exact kept ⟨under.symm, holds⟩
    obtain ⟨newest', stored', -, same, -⟩ := registered_kept found last stored
    rw [same different] at stored'
    refine ⟨newest, stored', under, going, ?_⟩
    intro other reached stored'' keyed
    obtain ⟨previous, known, key', -⟩ := registered_setProgress found last other reached stored''
    exact most other previous known (key'.trans keyed)
  · intro key none other reached stored keyed
    rw [queued] at none
    obtain ⟨previous, known, same, -, place⟩ := registered_setProgress found last other reached
        stored
    rcases place with ⟨-, -, moved⟩ | ⟨different, rfl⟩
    · rw [moved]
      exact ended
    split at none
    · rename_i held
      obtain ⟨rfl, holds⟩ := held
      obtain ⟨-, -, -, -, most⟩ := chained.held registration.key id holds
      have less := Nat.lt_of_le_of_ne (most other previous known keyed) different
      exact before other less previous known keyed
    · exact chained.free key none other previous known keyed
  · intro other reached stored earlier less previous stored' same
    obtain ⟨before, known, key, queue, -⟩ := registered_setProgress found last other reached stored
    obtain ⟨before', known', key', -, place⟩ :=
      registered_setProgress found last earlier previous stored'
    rcases place with ⟨-, -, moved⟩ | ⟨-, rfl⟩
    · rw [moved]
      exact Or.inl ended
    · rw [← queue]
      exact chained.behind other before known earlier less before' known'
        (key'.trans (same.trans key.symm))
  · intro other reached stored moved earlier less previous stored' same
    obtain ⟨before', known, key, -, place⟩ := registered_setProgress found last other reached stored
    obtain ⟨before'', known', key', -, place'⟩ :=
      registered_setProgress found last earlier previous stored'
    have chain := key'.trans (same.trans key.symm)
    rcases place' with ⟨-, -, done⟩ | ⟨-, rfl⟩
    · rw [done]
      exact ended
    · rcases place with ⟨rfl, rfl, -⟩ | ⟨-, rfl⟩
      · exact before earlier less before'' known' chain
      · exact chained.begun other before' known moved earlier less before'' known' chain

end

theorem Chained.step {event : Event} (chained : Chained state)
    (steps : Steps names state event after) : Chained after := by
  cases steps with
  | call filePath =>
    refine chained.of_registered ?_ rfl ?_
    · intro id registration
      rw [stageOf_call]
      split
      · rename_i last
        have absent : state.stageOf id = none := by
          rw [stageOf, last, List.getElem?_eq_none (Nat.le_refl _)]
          rfl
        rw [absent]
        constructor
        · intro same
          exact nomatch same
        · intro same
          exact nomatch same
      · exact Iff.rfl
    · intro id stage reached moved earlier less
      rw [stageOf_call] at reached
      split at reached
      · cases reached
        exact absurd rfl moved
      · have ended := chained.front id stage reached moved earlier less
        have below := lt_of_stageOf reached
        rw [registrationEnded, stageOf_call, if_neg (by omega)]
        exact ended
  | keyed found path may answer key =>
    exact chained.keyed found may fun _ same => nomatch same
  | rejected found may =>
    exact chained.keyed found may fun _ same => nomatch same
  | register found => exact chained.register found
  | start found waiting resolved => exact chained.start found waiting resolved
  | finish found running ended queues =>
    rw [queues]
    exact chained.finish found running ended
  | change place present => exact chained.of_registered (fun _ _ => Iff.rfl) rfl chained.front

end State

end FileMutations
end Recode.Tools

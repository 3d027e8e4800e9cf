import Recode.Orchestrator.TurnCalls

/-! # No turn is lost

In every run in which no turn is granted to an instance that still has one,
every granted token is held by a running call or by a registered instance until
it is released, and it is released when the turn has ended. -/

namespace Recode.Orchestrator
namespace Supervisor

theorem staffed_initial : initial.Staffed none where
  linked := linked_initial
  unnamed _ _ := rfl
  distinct _ below := (Nat.not_lt_zero _ below).elim
  bound _ := rfl
  process _ _ is := by cases is
  running _ below := (Nat.not_lt_zero _ below).elim
  removed _ staffs := (staffs rfl).elim
  ending _ _ staffs := (staffs rfl).elim
  called _ _ calls := by cases calls
  cleaned _ _ cleans := by cases cleans

theorem held_initial : initial.Held where
  allocated _ turn := (turn rfl).elim
  asked _ _ _ _ asks := by cases asks
  prompted _ _ _ _ asks := by cases asks
  waiting _ waits := (waits rfl).elim
  held _ granted := by cases granted

def turnFree (state : Supervisor) : SupervisorEvent → Bool
  | .turnGranted ref =>
    match state.tasks.read ref with
    | .acquire live _ token =>
      decide (¬ state.turnLeases.Granted token) || (state.lives.read live).turnLease.isNone
    | _ => true
  | _ => true

/-- The turns that are granted in a run go to instances that have none. -/
def turnsFree (options : SupervisorOptions) (state : Supervisor) :
    List (Int × SupervisorEvent) → Bool
  | [] => true
  | event :: later =>
    state.turnFree event.2 && turnsFree options (state.step options event.1 event.2) later

def acceptedPrompt (state : Supervisor) : SupervisorEvent → Option (Nat × Nat)
  | .promptAnswered ref .success =>
    match state.tasks.read ref with
    | .prompt live process token => if state.isRunning process then some (live, token) else none
    | _ => none
  | _ => none

def failedPrompt (state : Supervisor) : SupervisorEvent → Option Nat
  | .promptAnswered ref (.error _) =>
    match state.tasks.read ref with
    | .prompt _ _ token => some token
    | _ => none
  | .promptAnswered ref .unsuccessful =>
    match state.tasks.read ref with
    | .prompt _ process token => if state.isRunning process then some token else none
    | _ => none
  | _ => none

/-- The instance that handles the end of an agent's turn. -/
def settledInstance (state : Supervisor) : SupervisorEvent → Option Nat
  | .agentSettled process => state.listener process
  | _ => none

variable {options : SupervisorOptions} {state : Supervisor}

variable (options) in
/-- A step keeps the invariant and sight of every token. -/
theorem moves_step (staffed : state.Staffed none) (held : state.Held) (now : Int)
    {event : SupervisorEvent} (free : state.turnFree event = true) :
    Moves none state (state.step options now event) := by
  have still : Moves none state state := .refl staffed held
  cases event with
  | spawn request inspected created uuid =>
    rw [step]
    split
    · rename_i new
      cases spawned : state.spawnManagedInstance options now request inspected created uuid with
      | error error => exact still
      | ok after => exact moves_spawnManagedInstance options now staffed held new spawned
    · exact still
  | spawnAnswered ref reply uuid =>
    rw [step]
    split
    · rename_i waits
      split
      · exact still
      · exact moves_spawnAnswered options now staffed held waits reply uuid
    · exact still
  | spawnRegistered ref registered uuid =>
    rw [step]
    split
    · rename_i waits
      exact moves_spawnRegistered options now staffed held waits registered uuid
    · exact still
  | stop instanceId uuid => exact moves_stopManagedInstance options now staffed held instanceId uuid
  | disposed ref result uuid =>
    rw [step]
    split
    · rename_i waits
      exact moves_disposed options now staffed held waits result uuid
    · exact still
  | disconnected ref result uuid =>
    rw [step]
    split
    · rename_i waits
      exact moves_disconnected options now staffed held waits result uuid
    · exact still
  | exit process error uuid => exact moves_processExited options now staffed held process error uuid
  | exitDisconnected ref result =>
    rw [step]
    split
    · rename_i waits
      exact moves_exitDisconnected options now staffed held waits result
    · exact still
  | uiRequest process request =>
    rw [step]
    split
    · exact (state.quiet_handleUiRequest options now _ request).moves staffed held
    · exact still
  | openStream instanceId ownerId mode attachment =>
    rw [step]
    cases opened : state.openRpcStream options now instanceId ownerId mode attachment with
    | error message => exact still
    | ok after => exact (state.quiet_openRpcStream options now opened).moves staffed held
  | uiResponse live stream requestId =>
    rw [step]
    cases answered : state.handleUiResponse options now live stream requestId with
    | error message => exact still
    | ok after => exact (state.quiet_handleUiResponse options now answered).moves staffed held
  | closeStream live stream =>
    exact (state.quiet_closeRpcStream options now live stream).moves staffed held
  | command live command ownerId =>
    rw [step]
    cases called : state.handleRpcForLive options now live command ownerId with
    | error message => exact still
    | ok after => exact moves_handleRpcForLive options now staffed held called
  | turnGranted ref =>
    rw [step]
    split
    · rename_i live process token asks
      split
      · rename_i granted
        rw [turnFree, asks] at free
        apply moves_turnGranted staffed held asks granted
        simpa [granted, turnOf, TurnLeases.Granted] using free
      · exact still
    · exact still
  | turnTimedOut ref =>
    rw [step]
    split
    · rename_i asks
      split
      · exact still
      · rename_i ungranted
        exact moves_turnTimedOut staffed held asks ungranted
    · exact still
  | promptAnswered ref reply =>
    rw [step]
    split
    · rename_i asks
      split
      · exact still
      rename_i answers
      cases reply with
      | success =>
        exact (moves_accepted now staffed held asks (by simpa [RpcReply.answered] using answers)).1
      | unsuccessful => exact (moves_failed now staffed held asks).1
      | error error => exact (moves_failed now staffed held asks).1
    · exact still
  | commandAnswered ref reply =>
    rw [step]
    split
    · rename_i waits
      split
      · exact still
      · exact moves_commandAnswered options now staffed held waits reply
    · exact still
  | refreshAnswered ref reply =>
    rw [step]
    split
    · rename_i waits
      split
      · exact still
      · exact moves_refreshAnswered options now staffed held waits reply
    · exact still
  | compactionEnd process =>
    rw [step]
    split
    · exact (moves_queueSessionIdentitySync staffed held _ false).1
    · exact still
  | agentSettled process =>
    rw [step]
    split
    · exact (moves_queueSessionIdentitySync staffed held _ true).1
    · exact still
  | syncStarted live => exact moves_startSync options now staffed held live
  | syncAnswered live reply =>
    rw [step]
    split
    · exact still
    rename_i waits
    split
    · exact still
    split
    · exact still
    · exact moves_syncAnswered options now staffed held waits reply
  | queue call =>
    rw [step]
    split
    · exact (state.quiet_persistCompletions _).moves staffed held
    · exact still

theorem moves_run (staffed : state.Staffed none) (held : state.Held)
    {events : List (Int × SupervisorEvent)} (free : state.turnsFree options events = true) :
    Moves none state (state.run options events) := by
  induction events generalizing state with
  | nil => exact .refl staffed held
  | cons event events ih =>
    rw [turnsFree, Bool.and_eq_true] at free
    have first := moves_step options staffed held event.1 free.1
    exact first.trans (ih first.staffed first.held free.2)

theorem turnsFree_append (events later : List (Int × SupervisorEvent)) :
    state.turnsFree options (events ++ later) = true ↔ state.turnsFree options events = true ∧
        (state.run options events).turnsFree options later = true := by
  induction events generalizing state with
  | nil => simp [turnsFree, run]
  | cons event events ih =>
    rw [List.cons_append, turnsFree, turnsFree, Bool.and_eq_true, Bool.and_eq_true, ih, and_assoc]
    rfl

variable (options) in
theorem accepted_step (staffed : state.Staffed none) (held : state.Held) (now : Int)
    {event : SupervisorEvent} {live token : Nat}
    (accepts : state.acceptedPrompt event = some (live, token)) :
    token < state.turnLeases.acquisitions.fresh ∧ live < state.lives.fresh ∧
      (state.step options now event).Accepted live token := by
  cases event with
  | promptAnswered ref reply =>
    cases reply with
    | success =>
      rw [acceptedPrompt] at accepts
      split at accepts
      · rename_i asks
        split at accepts
        · rename_i runs
          cases accepts
          obtain ⟨⟨below, owner⟩, ⟨known, -⟩, -⟩ := held.prompted ref _ _ _ asks
          refine ⟨known, owner ▸ staffed.linked.children _ below, ?_⟩
          rw [step]
          simp only [asks, runs, Bool.not_true, Bool.and_false, Bool.false_eq_true, ↓reduceIte]
          exact (moves_accepted now staffed held asks runs).2
        · cases accepts
      · cases accepts
    | unsuccessful => cases accepts
    | error error => cases accepts
  | _ => cases accepts

variable (options) in
theorem failed_step (staffed : state.Staffed none) (held : state.Held) (now : Int)
    {event : SupervisorEvent} {token : Nat} (fails : state.failedPrompt event = some token) :
    token < state.turnLeases.acquisitions.fresh ∧
      (state.step options now event).turnLeases.releasedToken token = true := by
  cases event with
  | promptAnswered ref reply =>
    cases reply with
    | success => cases fails
    | unsuccessful =>
      rw [failedPrompt] at fails
      split at fails
      · rename_i asks
        split at fails
        · rename_i runs
          cases fails
          refine ⟨(held.prompted ref _ _ _ asks).2.1.1, ?_⟩
          rw [step]
          simp only [asks, runs, Bool.not_true, Bool.and_false, Bool.false_eq_true, ↓reduceIte]
          exact (moves_failed now staffed held asks).2
        · cases fails
      · cases fails
    | error error =>
      rw [failedPrompt] at fails
      split at fails
      · rename_i asks
        cases fails
        refine ⟨(held.prompted ref _ _ _ asks).2.1.1, ?_⟩
        rw [step]
        simp only [asks, RpcReply.answered, Bool.false_and, Bool.false_eq_true, ↓reduceIte]
        exact (moves_failed now staffed held asks).2
      · cases fails
  | _ => cases fails

variable (options) in
theorem settled_step (staffed : state.Staffed none) (held : state.Held) (now : Int)
    {event : SupervisorEvent} {live token : Nat}
    (settles : state.settledInstance event = some live) (accepted : state.Accepted live token) :
    (state.step options now event).Pending live token := by
  cases event with
  | agentSettled process =>
    rw [settledInstance] at settles
    rw [step]
    simp only [settles]
    exact (moves_queueSessionIdentitySync staffed held live true).2 token rfl accepted
  | _ => cases settles

/-- What becomes of the turns of a run. -/
structure TurnsKept (options : SupervisorOptions) (events : List (Int × SupervisorEvent)) :
    Prop where
  /-- A granted token that was not released is held by a running call or by a registered
  instance. -/
  held : ∀ token, (initial.run options events).turnLeases.Granted token →
    (initial.run options events).turnLeases.releasedToken token = false →
      (∃ ref, ((initial.run options events).tasks.read ref).turn = some token) ∨
        ∃ live, (initial.run options events).isRegistered live = true ∧
          ((initial.run options events).lives.read live).turnLease = some token
  /-- The token of a prompt that failed was released. -/
  failed : ∀ earlier event later token, events = earlier ++ event :: later →
    (initial.run options earlier).failedPrompt event.2 = some token →
      (initial.run options events).turnLeases.releasedToken token = true
  /-- The token of an accepted prompt was released once a later end of the agent's turn was
  handled: until then a synchronization that will release it waits. -/
  settled : ∀ earlier answer between settled later live token,
    events = earlier ++ answer :: (between ++ settled :: later) →
    (initial.run options earlier).acceptedPrompt answer.2 = some (live, token) →
    (initial.run options (earlier ++ answer :: between)).settledInstance settled.2 = some live →
      (initial.run options events).Pending live token
  /-- The token of an accepted prompt was released once its instance was removed. -/
  removed : ∀ earlier answer later live token, events = earlier ++ answer :: later →
    (initial.run options earlier).acceptedPrompt answer.2 = some (live, token) →
    (initial.run options events).isRegistered live = false →
      (initial.run options events).turnLeases.releasedToken token = true
  /-- A prompt that is unanswered when its instance is removed can only fail. -/
  stranded : ∀ ref live process token,
    (initial.run options events).tasks.read ref = .prompt live process token →
    (initial.run options events).isRegistered live = false →
      (initial.run options events).isRunning process = false

/-- The parts of a run before, at and after one of its events. -/
theorem moves_parts {events earlier later : List (Int × SupervisorEvent)}
    {event : Int × SupervisorEvent} (free : initial.turnsFree options events = true)
    (whole : events = earlier ++ event :: later) :
    Moves none initial (initial.run options earlier) ∧ Moves none (initial.run options earlier)
        ((initial.run options earlier).step options event.1 event.2) ∧
      Moves none ((initial.run options earlier).step options event.1 event.2)
        (initial.run options events) := by
  rw [whole, turnsFree_append, turnsFree, Bool.and_eq_true] at free
  have before := moves_run staffed_initial held_initial free.1
  have at_ := moves_step options before.staffed before.held event.1 free.2.1
  have after := moves_run at_.staffed at_.held free.2.2
  refine ⟨before, at_, ?_⟩
  rw [whole, run_append]
  exact after

/-- In every run in which turns are granted only to instances that have none, no turn is lost. -/
theorem turns_kept (options : SupervisorOptions) (events : List (Int × SupervisorEvent))
    (free : initial.turnsFree options events = true) : TurnsKept options events := by
  have last : Moves none initial (initial.run options events) :=
    moves_run staffed_initial held_initial free
  constructor
  · intro token granted unreleased
    rcases last.held.held token granted unreleased with calls | ⟨live, taken, child⟩
    · exact Or.inl calls
    · exact Or.inr ⟨live, last.staffed.isRegistered child, taken⟩
  · intro earlier event later token whole fails
    obtain ⟨before, stepped, after⟩ := moves_parts free whole
    obtain ⟨known, released⟩ := failed_step options before.staffed before.held event.1 fails
    exact after.advance.released token (Nat.lt_of_lt_of_le known stepped.advance.tokens) released
  · intro earlier answer between settled later live token whole accepts settles
    obtain ⟨before, stepped, -⟩ := moves_parts free whole
    obtain ⟨known, allocated, accepted⟩ := accepted_step options before.staffed
      before.held answer.1 accepts
    have parts : events = (earlier ++ answer :: between) ++ settled :: later := by
      rw [whole, List.append_assoc, List.cons_append]
    obtain ⟨middle, settling, after⟩ := moves_parts free parts
    have grown : Advance ((initial.run options earlier).step options answer.1 answer.2)
        (initial.run options (earlier ++ answer :: between)) := by
      rw [parts, turnsFree_append] at free
      exact (moves_parts free.1 rfl).2.2.advance
    have knownThen := Nat.lt_of_lt_of_le known stepped.advance.tokens
    have knownLater := Nat.lt_of_lt_of_le knownThen grown.tokens
    have pending := settled_step options middle.staffed middle.held settled.1 settles
      (grown.accepted live token knownThen accepted)
    apply after.advance.pending live _ token _ pending
    · apply Nat.lt_of_lt_of_le allocated
      exact (stepped.advance.lives.trans grown.lives).trans settling.advance.lives
    · exact Nat.lt_of_lt_of_le knownLater settling.advance.tokens
  · intro earlier answer later live token whole accepts removed
    obtain ⟨before, stepped, after⟩ := moves_parts free whole
    obtain ⟨known, -, accepted⟩ := accepted_step options before.staffed before.held
      answer.1 accepts
    rcases after.advance.accepted live token (Nat.lt_of_lt_of_le known stepped.advance.tokens)
        accepted with released | ⟨-, child⟩
    · exact released
    · rw [last.staffed.isRegistered child] at removed
      cases removed
  · intro ref live process token asks removed
    obtain ⟨⟨below, owner⟩, -⟩ := last.held.prompted ref live process token asks
    by_contra runs
    have registered := last.staffed.isRegistered
      ⟨process, below, owner, Bool.not_eq_false _ ▸ runs⟩
    rw [registered] at removed
    cases removed

def onlineInstance : List (Int × SupervisorEvent) :=
  [(0, spawnWriter "first"), (1, .spawnAnswered 0 (.state "session" none) "u"),
    (2, .spawnRegistered 0 (.ok none) "u")]

/-- Its child accepts a prompt, and the end of the agent's turn is handled. -/
def servedPrompt : List (Int × SupervisorEvent) :=
  onlineInstance ++ [(3, .command 0 ⟨"prompt", "hello"⟩ "owner"), (4, .turnGranted 1),
    (5, .promptAnswered 1 .success), (6, .agentSettled 0), (7, .syncStarted 0),
    (8, .syncAnswered 0 (.state "session" none))]

theorem turns_kept_served : TurnsKept defaultOptions servedPrompt :=
  turns_kept defaultOptions servedPrompt (by decide +kernel)

/-- While a prompt runs the child goes on with a new session, and accepts a prompt for it. -/
def changedSession : List (Int × SupervisorEvent) :=
  onlineInstance ++ [(3, .command 0 ⟨"prompt", "hello"⟩ "owner"), (4, .turnGranted 1),
    (5, .promptAnswered 1 .success), (6, .command 0 ⟨"new_session", ""⟩ "owner"),
    (7, .commandAnswered 2 .success), (8, .refreshAnswered 2 (.state "another" none)),
    (9, .command 0 ⟨"prompt", "hello"⟩ "owner"), (10, .turnGranted 3),
    (11, .promptAnswered 3 .success), (12, .agentSettled 0), (13, .syncStarted 0),
    (14, .syncAnswered 0 (.state "another" none))]

/-- The turn of the first session is granted and never released, and no one holds it. -/
theorem changed_session_loses_turn :
    (initial.run defaultOptions changedSession).turnLeases.Granted 0 ∧
      (initial.run defaultOptions changedSession).turnLeases.releasedToken 0 = false ∧
      (∀ ref < (initial.run defaultOptions changedSession).tasks.fresh,
        (initial.run defaultOptions changedSession).tasks.read ref = .finished) ∧
      ∀ live < (initial.run defaultOptions changedSession).lives.fresh,
        ((initial.run defaultOptions changedSession).lives.read live).turnLease = none ∧
          ((initial.run defaultOptions changedSession).lives.read live).identitySync = [] := by
  decide +kernel

end Supervisor
end Recode.Orchestrator

import Recode.Orchestrator.RpcSettlement

/-! # What a child process's requests are guaranteed

In every run each request is settled at most once, is settled when the process
has exited or was disposed of, and is resolved only by the first answer to it
that comes while it waits. -/

namespace Recode.Orchestrator

open Option RpcRequest List

/-- The request a timer, an abort handler or the callback of a write belongs to. -/
def RpcEvent.handlerOf : RpcEvent → Option Nat
  | .timeout request _ _ => some request
  | .abort request _ => some request
  | .writeError request _ => some request
  | _ => none

def RpcEvent.Answers (event : RpcEvent) (response : RpcResponse) : Prop :=
  event = .line (.response response)

namespace RpcProcessInstance

variable {options : RpcProcessOptions} {state : RpcProcessInstance}

/-- A step keeps the table and the requests in agreement. -/
theorem progress_step (consistent : Consistent options state) (event : RpcEvent) :
    Progress options event.Answers state (state.step options event) := by
  cases event with
  | send command sendOptions uuid =>
    exact (progress_send consistent command sendOptions uuid).weaken
  | cancel commandId uuid =>
    rw [step]
    rcases cancel_cases options state commandId uuid with same | sent
    · rw [same]
      exact .refl consistent _
    · rw [sent]
      exact (progress_send consistent _ _ uuid).weaken
  | line line =>
    cases line with
    | response response =>
      have handled := progress_handleResponse consistent response
      refine ⟨handled.consistent, handled.fresh, handled.id, handled.settled, ?_⟩
      intro request below given resolved
      rcases handled.resolved request below given resolved with known | ⟨same, answered⟩
      · exact Or.inl known
      · exact Or.inr ⟨congrArg (fun response => RpcEvent.line (.response response)) same.symm,
          answered⟩
    | uiRequest => exact .refl consistent _
    | event => exact .refl consistent _
    | invalid message => exact (progress_rejectAllPending consistent _).weaken
  | overflow => exact (progress_rejectAllPending consistent _).weaken
  | stderr diagnostic =>
    apply progress_of_same consistent
    · rfl
    · rfl
    · exact fun _ used => used
  | timeout request timeoutMs uuid =>
    rw [step]
    split
    · rename_i below
      exact (progress_onTimeout consistent below timeoutMs uuid).weaken
    · exact .refl consistent _
  | abort request uuid =>
    rw [step]
    split
    · rename_i below
      exact (progress_onAbort consistent below uuid).weaken
    · exact .refl consistent _
  | writeError request error =>
    rw [step]
    split
    · rename_i below
      exact (progress_onWriteError consistent below error).weaken
    · exact .refl consistent _
  | processError message => exact (progress_markExited consistent _).weaken
  | processExit code signal => exact (progress_markExited consistent _).weaken
  | dispose => exact (progress_dispose consistent).weaken

theorem consistent_initial : Consistent options {} where
  entered _ _ found := by cases found
  unsettled _ below := absurd below (Nat.not_lt_zero _)
  once _ below := absurd below (Nat.not_lt_zero _)
  distinct _ below := absurd below (Nat.not_lt_zero _)
  used _ below := absurd below (Nat.not_lt_zero _)
  bounded := Nat.zero_le _
  prompts := Nat.zero_le _

theorem consistent_run (consistent : Consistent options state) (events : List RpcEvent) :
    Consistent options (state.run options events) := by
  induction events generalizing state with
  | nil => exact consistent
  | cons event events ih => exact ih (progress_step consistent event).consistent

/-- In a run, requests stay what they are and what they were settled with. -/
theorem kept_run (consistent : Consistent options state) (events : List RpcEvent) :
    state.requests.fresh ≤ (state.run options events).requests.fresh ∧
      ∀ request < state.requests.fresh, ((state.run options events).requests.read request).id =
            (state.requests.read request).id ∧ ((state.requests.read request).settlements ≠ [] →
            ((state.run options events).requests.read request).settlements =
              (state.requests.read request).settlements) := by
  induction events generalizing state with
  | nil => exact ⟨Nat.le_refl _, fun _ _ => ⟨rfl, fun _ => rfl⟩⟩
  | cons event events ih =>
    have first := progress_step consistent event
    obtain ⟨grows, keeps⟩ := ih first.consistent
    refine ⟨first.fresh.trans grows, ?_⟩
    intro request below
    obtain ⟨named, settled⟩ := keeps request (Nat.lt_of_lt_of_le below first.fresh)
    refine ⟨named.trans (first.id request below), ?_⟩
    intro before
    have middle := first.settled request below before
    exact (settled (middle ▸ before)).trans middle

/-! ## The end of the process -/

def Stopped (state : RpcProcessInstance) : Prop :=
  state.exited = true ∨ state.disposing = true → state.pendingRequests.entries = []

variable (state) in
theorem flags_bestEffortAbort (command commandId uuid : String) :
    (state.requestBestEffortAbort command commandId uuid).exited = state.exited ∧
      (state.requestBestEffortAbort command commandId uuid).disposing = state.disposing ∧
      (state.requestBestEffortAbort command commandId uuid).pendingRequests =
        state.pendingRequests := by
  rw [requestBestEffortAbort, writeBestEffort]
  split
  · exact ⟨rfl, rfl, rfl⟩
  split <;> exact ⟨rfl, rfl, rfl⟩

section

variable (stopped : Stopped state)
include stopped

theorem stopped_forget (id : String) : Stopped (state.forget id) := by
  intro ended
  change state.pendingRequests.entries.filter _ = []
  rw [stopped ended, filter_nil]

theorem stopped_bestEffortAbort (command commandId uuid : String) :
    Stopped (state.requestBestEffortAbort command commandId uuid) := by
  obtain ⟨exited, disposing, table⟩ := flags_bestEffortAbort state command commandId uuid
  rw [Stopped, exited, disposing, table]
  exact stopped

theorem stopped_onAbort (request : Nat) (uuid : String) : Stopped (state.onAbort request uuid) := by
  rw [onAbort]
  split
  · exact stopped
  · exact stopped_bestEffortAbort (stopped_forget stopped _) _ _ _

theorem stopped_onTimeout (request : Nat) (timeoutMs uuid : String) :
    Stopped (state.onTimeout request timeoutMs uuid) := by
  rw [onTimeout]
  split
  · exact stopped
  · exact stopped_bestEffortAbort (stopped_forget stopped _) _ _ _

theorem stopped_onWriteError (request : Nat) (error : RpcError) :
    Stopped (state.onWriteError request error) := by
  rw [onWriteError]
  split
  · exact stopped
  · exact stopped_forget stopped _

theorem stopped_handleResponse (response : RpcResponse) :
    Stopped (state.handleResponse response) := by
  rw [handleResponse]
  split
  · exact stopped
  split
  · exact stopped
  · exact stopped_forget stopped _

end

theorem stopped_rejectAllPending (error : RpcError) : Stopped (state.rejectAllPending error) :=
  fun _ => entries_rejectAllPending error

theorem stopped_markExited (stopped : Stopped state) (error : RpcError) :
    Stopped (state.markExited error) := by
  rw [markExited]
  split
  · exact stopped
  · exact fun _ => entries_rejectAllPending error

theorem stopped_startRequest (runs : state.exited = false) (undisposed : state.disposing = false)
    (id type : String) (aborted : Bool) (uuid : String) :
    Stopped (state.startRequest id type aborted uuid) := by
  have running : ∀ after : RpcProcessInstance, after.exited = state.exited →
      after.disposing = state.disposing → Stopped after := by
    intro after exited disposing ended
    rw [exited, disposing, runs, undisposed] at ended
    rcases ended with never | never <;> cases never
  rw [startRequest]
  cases aborted with
  | false => exact running _ rfl rfl
  | true =>
    apply stopped_onAbort
    exact running _ rfl rfl

theorem stopped_send (stopped : Stopped state) (command : SentCommand)
    (sendOptions : RpcSendOptions) (uuid : String) :
    Stopped ((send options command sendOptions uuid).perform state).2 := by
  rcases send_cases options state command sendOptions uuid with
    ⟨nextRequestId, used, -, sent⟩ | ⟨nextRequestId, id, -, -, -, runs, undisposed, sent⟩
  · rw [sent]
    exact stopped
  · rw [sent]
    apply stopped_startRequest
    · exact runs
    · exact undisposed

theorem stopped_step (stopped : Stopped state) (event : RpcEvent) :
    Stopped (state.step options event) := by
  cases event with
  | send command sendOptions uuid => exact stopped_send stopped command sendOptions uuid
  | cancel commandId uuid =>
    rw [step]
    rcases cancel_cases options state commandId uuid with same | sent
    · rw [same]
      exact stopped
    · rw [sent]
      exact stopped_send stopped _ _ uuid
  | line line =>
    cases line with
    | response response => exact stopped_handleResponse stopped response
    | uiRequest => exact stopped
    | event => exact stopped
    | invalid message => exact stopped_rejectAllPending _
  | overflow => exact stopped_rejectAllPending _
  | stderr diagnostic => exact stopped
  | timeout request timeoutMs uuid =>
    rw [step]
    split
    · exact stopped_onTimeout stopped request timeoutMs uuid
    · exact stopped
  | abort request uuid =>
    rw [step]
    split
    · exact stopped_onAbort stopped request uuid
    · exact stopped
  | writeError request error =>
    rw [step]
    split
    · exact stopped_onWriteError stopped request error
    · exact stopped
  | processError message => exact stopped_markExited stopped _
  | processExit code signal => exact stopped_markExited stopped _
  | dispose => exact stopped_rejectAllPending _

theorem stopped_run (stopped : Stopped state) (events : List RpcEvent) :
    Stopped (state.run options events) := by
  induction events generalizing state with
  | nil => exact stopped
  | cons event events ih => exact ih (stopped_step stopped event)

/-! ## Answers and handlers -/

variable {request : Nat}

theorem settled_of_answered (waits : state.Waits request) {response : RpcResponse}
    (named : response.id = some (state.requests.read request).id)
    (present : (state.requests.read request).id ≠ "") :
    ((state.handleResponse response).requests.read request).settlements ≠ [] := by
  rw [handleResponse, named, Text.truthy_some present]
  simp only
  rw [waits]
  simp only
  rw [settle, ObjectStore.read_modify_self]
  exact append_ne_nil_of_right_ne_nil _ (cons_ne_nil _ _)

theorem not_waits_of_settled (consistent : Consistent options state)
    (settled : (state.requests.read request).settlements ≠ []) : ¬ state.Waits request := by
  intro waits
  obtain ⟨-, entered⟩ := consistent.entered _ _ waits
  exact settled (congrArg settlements entered)

theorem late_handler (consistent : Consistent options state)
    (settled : (state.requests.read request).settlements ≠ []) {event : RpcEvent}
    (handler : event.handlerOf = some request) : state.step options event = state := by
  by_cases below : request < state.requests.fresh
  · have absent : state.pendingRequests.get? (state.requests.read request).id = none := by
      cases found : state.pendingRequests.get? (state.requests.read request).id with
      | none => rfl
      | some entry =>
        obtain ⟨-, entered⟩ := consistent.entered _ _ found
        rw [requestOf_found consistent below found] at entered
        exact absurd (congrArg settlements entered) settled
    cases event with
    | timeout owner timeoutMs uuid =>
      obtain rfl := some.inj handler
      simp only [step, below, ↓reduceIte, onTimeout, absent]
    | abort owner uuid =>
      obtain rfl := some.inj handler
      simp only [step, below, ↓reduceIte, onAbort, absent]
    | writeError owner error =>
      obtain rfl := some.inj handler
      simp only [step, below, ↓reduceIte, onWriteError, absent]
    | _ => cases handler
  · cases event with
    | timeout owner timeoutMs uuid =>
      obtain rfl := some.inj handler
      exact if_neg below
    | abort owner uuid =>
      obtain rfl := some.inj handler
      exact if_neg below
    | writeError owner error =>
      obtain rfl := some.inj handler
      exact if_neg below
    | _ => cases handler

theorem others_handler (consistent : Consistent options state) {event : RpcEvent}
    (handler : event.handlerOf = some request) {other : Nat} (different : other ≠ request) :
    (state.step options event).requests.read other = state.requests.read other ∧
      (other < state.requests.fresh →
        ((state.step options event).Waits other ↔ state.Waits other)) := by
  have progress := progress_step consistent event
  have read : (state.step options event).requests.read other = state.requests.read other := by
    have written : ∀ command commandId uuid id,
        ((state.forget id).requestBestEffortAbort command commandId uuid).requests =
          state.requests := by
      intro command commandId uuid id
      rw [requestBestEffortAbort, writeBestEffort]
      split
      · rfl
      split <;> rfl
    cases event with
    | timeout owner timeoutMs uuid =>
      obtain rfl := some.inj handler
      rw [step, onTimeout]
      split
      · split
        · rfl
        · rw [read_settle_of_ne different, written]
      · rfl
    | abort owner uuid =>
      obtain rfl := some.inj handler
      rw [step, onAbort]
      split
      · split
        · rfl
        · rw [read_settle_of_ne different, written]
      · rfl
    | writeError owner error =>
      obtain rfl := some.inj handler
      rw [step, onWriteError]
      split
      · split
        · rfl
        · exact read_settle_of_ne different _
      · rfl
    | _ => cases handler
  refine ⟨read, fun below => ?_⟩
  have below' := Nat.lt_of_lt_of_le below progress.fresh
  constructor
  · intro waits
    apply consistent.unsettled other below
    obtain ⟨-, entered⟩ := progress.consistent.entered _ _ waits
    rw [← read]
    exact congrArg settlements entered
  · intro waits
    apply progress.consistent.unsettled other below'
    obtain ⟨-, entered⟩ := consistent.entered _ _ waits
    rw [read]
    exact congrArg settlements entered

/-! ## Whole runs -/

/-- What holds of the requests after a run. -/
structure RequestsSettle (options : RpcProcessOptions) (events : List RpcEvent) : Prop where
  /-- A request is settled at most once. -/
  once : ∀ request < (run options {} events).requests.fresh,
    ((run options {} events).requests.read request).settlements.length ≤ 1
  /-- What a request was settled with stays. -/
  kept : ∀ earlier later, events = earlier ++ later →
    ∀ request < (run options {} earlier).requests.fresh,
      ((run options {} earlier).requests.read request).settlements ≠ [] →
        ((run options {} events).requests.read request).settlements =
          ((run options {} earlier).requests.read request).settlements
  /-- When the process has exited or was disposed of, every request is settled. -/
  ended : (run options {} events).exited = true ∨ (run options {} events).disposing = true →
    ∀ request < (run options {} events).requests.fresh,
      ((run options {} events).requests.read request).settlements ≠ []
  /-- A request is resolved by an answer to it that comes while it waits, and no answer to it
  came while it waited before. -/
  answered : ∀ request < (run options {} events).requests.fresh, ∀ response,
    .resolved response ∈ ((run options {} events).requests.read request).settlements →
      ∃ earlier later, events = earlier ++ .line (.response response) :: later ∧
        response.id = some ((run options {} events).requests.read request).id ∧
        request < (run options {} earlier).requests.fresh ∧ (run options {} earlier).Waits request ∧
        ∀ before given after, earlier = before ++ .line (.response given) :: after →
          given.id = response.id → ¬ (request < (run options {} before).requests.fresh ∧
            (run options {} before).Waits request)
  /-- Identifiers are never reused. -/
  distinct : ∀ first < (run options {} events).requests.fresh,
    ∀ second < (run options {} events).requests.fresh,
      ((run options {} events).requests.read first).id =
        ((run options {} events).requests.read second).id → first = second
  /-- The table holds the requests that are not settled, and no others. -/
  table : ∀ id entry, (run options {} events).pendingRequests.get? id = some entry →
    entry.request < (run options {} events).requests.fresh ∧
      (run options {} events).requests.read entry.request = ⟨id, entry.command, []⟩
  /-- The table is never larger than it may be. -/
  bounded : (run options {} events).pendingRequests.entries.length ≤ options.maxPendingRequests
  /-- No two prompts wait. -/
  prompts : (run options {} events).waitingPrompts.length ≤ 1
  /-- After a request is settled, its handlers change nothing. -/
  late : ∀ request, ((run options {} events).requests.read request).settlements ≠ [] →
    ∀ event : RpcEvent, event.handlerOf = some request →
      (run options {} events).step options event = run options {} events
  /-- The handlers of a request change no other request. -/
  others : ∀ request (event : RpcEvent), event.handlerOf = some request → ∀ other, other ≠ request →
      ((run options {} events).step options event).requests.read other =
        (run options {} events).requests.read other

/-- A request that was resolved in a run was resolved at one of its steps. -/
theorem answered_run (events : List RpcEvent)
    (below : request < (run options {} events).requests.fresh) {response : RpcResponse}
    (resolved : .resolved response ∈ ((run options {} events).requests.read request).settlements) :
    ∃ earlier later, events = earlier ++ .line (.response response) :: later ∧
      request < (run options {} earlier).requests.fresh ∧ (run options {} earlier).Waits request ∧
      response.id = some ((run options {} earlier).requests.read request).id ∧
      ((run options {} earlier).requests.read request).id ≠ "" := by
  induction events using reverseRecOn with
  | nil => exact absurd below (Nat.not_lt_zero _)
  | append_singleton events event ih =>
    rw [run_snoc] at below resolved
    have initial : Consistent options {} := consistent_initial
    have consistent := consistent_run initial events
    have progress := progress_step consistent event
    by_cases known : request < (run options {} events).requests.fresh ∧
        .resolved response ∈ ((run options {} events).requests.read request).settlements
    · obtain ⟨earlier, later, whole, rest⟩ := ih known.1 known.2
      refine ⟨earlier, later ++ [event], ?_, rest⟩
      rw [whole, append_assoc, cons_append]
    · rcases progress.resolved request below response resolved with
        old | ⟨answers, older, waits, named⟩
      · exact absurd old known
      · refine ⟨events, [], congrArg (events ++ [·]) answers, older, waits, named, ?_⟩
        intro empty
        rw [empty] at named
        rw [answers, step, handleLine, handleResponse, named] at resolved
        exact known ⟨older, resolved⟩

/-- In every run, requests are settled once and never with another request's answer. -/
theorem requests_settle (options : RpcProcessOptions) (events : List RpcEvent) :
    RequestsSettle options events := by
  have consistent : Consistent options (run options {} events) :=
    consistent_run consistent_initial events
  have stopped : Stopped (run options {} events) := by
    apply stopped_run
    intro ended
    rfl
  constructor
  · exact consistent.once
  · intro earlier later whole request below settled
    rw [whole, run_append]
    exact ((kept_run (consistent_run consistent_initial earlier) later).2 request below).2 settled
  · intro ended request below unsettled
    have waits := consistent.unsettled request below unsettled
    have member := (InsertionMap.get?_eq_some_iff _ _ _).mp waits
    rw [stopped ended] at member
    cases member
  · intro request below response resolved
    obtain ⟨earlier, later, whole, known, waits, named, present⟩ :=
      answered_run events below resolved
    have middle : Consistent options (run options {} earlier) :=
      consistent_run consistent_initial earlier
    have id := (kept_run middle (.line (.response response) :: later)).2 request known
    rw [← run_append, ← whole] at id
    refine ⟨earlier, later, whole, named.trans (congrArg some id.1.symm), known, waits, ?_⟩
    intro before given after split_ same waited
    have first : Consistent options (run options {} before) :=
      consistent_run consistent_initial before
    have step_ := progress_step first (.line (.response given))
    have fresh := Nat.lt_of_lt_of_le waited.1 step_.fresh
    have rest := (kept_run step_.consistent after).2 request fresh
    have joined : run options ((run options {} before).step options (.line (.response given)))
        after = run options {} earlier := by
      rw [split_, run_append]
      rfl
    rw [joined] at rest
    have unchanged := rest.1.trans (step_.id request waited.1)
    rw [unchanged] at named present
    have settles := settled_of_answered waited.2 (same.trans named) present
    have settled := (rest.2 settles) ▸ settles
    exact not_waits_of_settled middle settled waits
  · exact consistent.distinct
  · exact consistent.entered
  · exact consistent.bounded
  · exact consistent.prompts
  · intro request settled event handler
    exact late_handler consistent settled handler
  · intro request event handler other different
    exact (others_handler consistent handler different).1

end RpcProcessInstance
end Recode.Orchestrator

import Recode.Orchestrator.RpcProcess

/-! # Requests are settled once

The table of waiting requests and the requests themselves agree: an identifier
is in the table exactly while its request has not been settled. Every way out
of the table settles, and nothing else does. -/

namespace Recode.Orchestrator

open ObjectStore
namespace RpcProcessInstance

open Procedure List

variable {options : RpcProcessOptions}

def Waits (state : RpcProcessInstance) (request : Nat) : Prop :=
  state.pendingRequests.get? (state.requests.read request).id =
    some ⟨(state.requests.read request).command, request⟩

def waitingPrompts (state : RpcProcessInstance) : List (String × PendingRequest) :=
  state.pendingRequests.entries.filter fun entry => entry.2.command = "prompt"

/-- The table and the requests agree. -/
structure Consistent (options : RpcProcessOptions) (state : RpcProcessInstance) : Prop where
  entered : ∀ id entry, state.pendingRequests.get? id = some entry →
    entry.request < state.requests.fresh ∧
      state.requests.read entry.request = ⟨id, entry.command, []⟩
  unsettled : ∀ request < state.requests.fresh,
    (state.requests.read request).settlements = [] → state.Waits request
  once : ∀ request < state.requests.fresh, (state.requests.read request).settlements.length ≤ 1
  distinct : ∀ first < state.requests.fresh, ∀ second < state.requests.fresh,
    (state.requests.read first).id = (state.requests.read second).id → first = second
  used : ∀ request < state.requests.fresh, (state.requests.read request).id ∈ state.usedRequestIds
  bounded : state.pendingRequests.entries.length ≤ options.maxPendingRequests
  prompts : state.waitingPrompts.length ≤ 1

/-- What a change keeps of the requests, and which answers it gives. -/
structure Progress (options : RpcProcessOptions) (given : RpcResponse → Prop)
    (before after : RpcProcessInstance) : Prop where
  consistent : Consistent options after
  fresh : before.requests.fresh ≤ after.requests.fresh
  id : ∀ request < before.requests.fresh,
    (after.requests.read request).id = (before.requests.read request).id
  settled : ∀ request < before.requests.fresh, (before.requests.read request).settlements ≠ [] →
      (after.requests.read request).settlements = (before.requests.read request).settlements
  resolved : ∀ request < after.requests.fresh, ∀ response,
    .resolved response ∈ (after.requests.read request).settlements →
      (request < before.requests.fresh ∧
        .resolved response ∈ (before.requests.read request).settlements) ∨
      given response ∧ request < before.requests.fresh ∧ before.Waits request ∧
        response.id = some (before.requests.read request).id

/-- No answer is given. -/
def noAnswer : RpcResponse → Prop := fun _ => False

theorem Progress.refl {state : RpcProcessInstance} (consistent : Consistent options state)
    (given : RpcResponse → Prop) : Progress options given state state :=
  ⟨consistent, Nat.le_refl _, fun _ _ => rfl, fun _ _ _ => rfl,
    fun _ below _ resolved => Or.inl ⟨below, resolved⟩⟩

theorem Progress.trans {first second third : RpcProcessInstance}
    (before : Progress options noAnswer first second)
    (after : Progress options noAnswer second third) : Progress options noAnswer first third where
  consistent := after.consistent
  fresh := before.fresh.trans after.fresh
  id request below :=
    (after.id request (Nat.lt_of_lt_of_le below before.fresh)).trans (before.id request below)
  settled request below settled := by
    have middle := before.settled request below settled
    rw [after.settled request (Nat.lt_of_lt_of_le below before.fresh) (middle ▸ settled), middle]
  resolved request below response resolved := by
    rcases after.resolved request below response resolved with ⟨known, earlier⟩ | ⟨never, -⟩
    · exact before.resolved request known response earlier
    · exact never.elim

theorem Progress.weaken {before after : RpcProcessInstance} {given : RpcResponse → Prop}
    (progress : Progress options noAnswer before after) :
    Progress options given before after where
  consistent := progress.consistent
  fresh := progress.fresh
  id := progress.id
  settled := progress.settled
  resolved request below response resolved := by
    rcases progress.resolved request below response resolved with known | ⟨never, -⟩
    · exact Or.inl known
    · exact never.elim

section Changes

variable {state : RpcProcessInstance}

theorem read_settle_of_ne {request other : Nat} (different : other ≠ request)
    (settlement : RpcOutcome) :
    (state.settle request settlement).requests.read other = state.requests.read other :=
  read_modify_of_ne state.requests (fun request =>
    { request with settlements := request.settlements ++ [settlement] }) different

theorem length_entries_forget (id : String) :
    (state.forget id).pendingRequests.entries.length ≤ state.pendingRequests.entries.length :=
  length_filter_le _ _

theorem waitingPrompts_forget (id : String) :
    (state.forget id).waitingPrompts.length ≤ state.waitingPrompts.length :=
  (filter_sublist.filter _).length_le

variable {request : Nat} {given : RpcResponse → Prop} {entry : PendingRequest} (error : RpcError)

theorem progress_withdraw (consistent : Consistent options state) {id : String}
    (found : state.pendingRequests.get? id = some entry)
    (settlement : RpcOutcome) (gives : ∀ response, settlement = .resolved response →
      given response ∧ response.id = some id) :
    Progress options given state ((state.forget id).settle entry.request settlement) := by
  obtain ⟨known, entered⟩ := consistent.entered id entry found
  let after := (state.forget id).settle entry.request settlement
  have others : ∀ request, request ≠ entry.request →
      after.requests.read request = state.requests.read request := by
    intro request different
    exact read_settle_of_ne different settlement
  have own : after.requests.read entry.request = ⟨id, entry.command, [settlement]⟩ := by
    simp only [after, settle, read_modify_self]
    change { state.requests.read entry.request with
      settlements := (state.requests.read entry.request).settlements ++ [settlement] } = _
    rw [entered]
    rfl
  have ids : ∀ request,
      (after.requests.read request).id = (state.requests.read request).id := by
    intro request
    by_cases same : request = entry.request
    · rw [same, own, entered]
    · rw [others request same]
  have table : ∀ other, after.pendingRequests.get? other =
        if other = id then none else state.pendingRequests.get? other :=
    fun other => InsertionMap.get?_erase _ id other
  constructor
  · constructor
    · intro other waiting present
      rw [table] at present
      split at present
      · cases present
      rename_i different
      obtain ⟨below, read⟩ := consistent.entered other waiting present
      refine ⟨below, ?_⟩
      have apart : waiting.request ≠ entry.request := by
        intro same
        rw [same, entered] at read
        exact different (congrArg RpcRequest.id read).symm
      rw [others _ apart, read]
    · intro request below unsettled
      have apart : request ≠ entry.request := by
        intro same
        rw [same, own] at unsettled
        cases unsettled
      rw [others _ apart] at unsettled
      have waits := consistent.unsettled request below unsettled
      have different : (state.requests.read request).id ≠ id := by
        intro same
        refine apart (consistent.distinct request below entry.request known ?_)
        rw [entered]
        exact same
      rw [Waits, others _ apart, table, if_neg different]
      exact waits
    · intro request below
      by_cases same : request = entry.request
      · rw [same, own]
        exact Nat.le_refl 1
      · rw [others _ same]
        exact consistent.once request below
    · intro first below second below' same
      rw [ids, ids] at same
      exact consistent.distinct first below second below' same
    · intro request below
      rw [ids]
      exact consistent.used request below
    · exact (length_entries_forget id).trans consistent.bounded
    · exact (waitingPrompts_forget id).trans consistent.prompts
  · exact Nat.le_refl _
  · intro request _
    exact ids request
  · intro request _ settled
    have apart : request ≠ entry.request := by
      intro same
      rw [same, entered] at settled
      exact settled rfl
    rw [others _ apart]
  · intro request below response resolved
    by_cases same : request = entry.request
    · rw [same, own, mem_singleton] at resolved
      obtain ⟨gives, names⟩ := gives response resolved.symm
      refine Or.inr ⟨gives, below, ?_, ?_⟩
      · rw [same, Waits, entered]
        exact found
      · rw [same, entered]
        exact names
    · rw [others _ same] at resolved
      exact Or.inl ⟨below, resolved⟩

/-- A change that touches neither the table nor the requests. -/
theorem progress_of_same {after : RpcProcessInstance} (consistent : Consistent options state)
    (table : after.pendingRequests = state.pendingRequests)
    (requests : after.requests = state.requests)
    (used : ∀ id ∈ state.usedRequestIds, id ∈ after.usedRequestIds)
    : Progress options given state after := by
  have waits : ∀ request, after.Waits request ↔ state.Waits request := by
    intro request
    rw [Waits, Waits, table, requests]
  constructor
  · constructor
    · rw [table, requests]
      exact consistent.entered
    · intro request below unsettled
      rw [requests] at below unsettled
      exact (waits request).mpr (consistent.unsettled request below unsettled)
    · rw [requests]
      exact consistent.once
    · rw [requests]
      exact consistent.distinct
    · intro request below
      rw [requests] at below ⊢
      exact used _ (consistent.used request below)
    · rw [table]
      exact consistent.bounded
    · rw [waitingPrompts, table]
      exact consistent.prompts
  · rw [requests]
  · intro request _
    rw [requests]
  · intro request _ _
    rw [requests]
  · intro request below response resolved
    rw [requests] at below resolved
    exact Or.inl ⟨below, resolved⟩

theorem rejects {id : String}
    (response : RpcResponse) (resolves : RpcOutcome.rejected error = .resolved response) :
    given response ∧ response.id = some id := by
  cases resolves

theorem progress_rejectEach (consistent : Consistent options state) (error : RpcError)
    (entries : List (String × PendingRequest)) (distinct : (entries.map Prod.fst).Nodup)
    (present : ∀ entry ∈ entries, state.pendingRequests.get? entry.1 = some entry.2) :
    Progress options noAnswer state (entries.foldl
      (fun state entry =>
        (state.forget entry.1).settle entry.2.request (.rejected error)) state) := by
  induction entries generalizing state with
  | nil => exact .refl consistent _
  | cons entry entries ih =>
    rw [map_cons, nodup_cons] at distinct
    have first : Progress options noAnswer state
        ((state.forget entry.1).settle entry.2.request (.rejected error)) :=
      progress_withdraw consistent (present entry mem_cons_self) _ (rejects error)
    refine first.trans (ih first.consistent distinct.2 ?_)
    intro other member
    have apart : other.1 ≠ entry.1 := fun same =>
      distinct.1 (same ▸ mem_map_of_mem member)
    change (state.pendingRequests.erase entry.1).get? other.1 = _
    rw [InsertionMap.get?_erase_of_ne _ apart]
    exact present other (mem_cons_of_mem _ member)

theorem entries_rejectEach (entries : List (String × PendingRequest)) :
    (entries.foldl (fun state entry =>
      (state.forget entry.1).settle entry.2.request (.rejected error))
        state).pendingRequests.entries =
        state.pendingRequests.entries.filter fun entry => entry.1 ∉ entries.map Prod.fst := by
  induction entries generalizing state with
  | nil => simp
  | cons entry entries ih =>
    rw [foldl_cons, ih]
    change (state.pendingRequests.entries.filter _).filter _ = _
    rw [filter_filter]
    apply filter_congr
    intro other _
    simp only [map_cons, mem_cons, not_or, ne_eq]
    by_cases same : other.1 = entry.1 <;> simp [same]

theorem progress_rejectAllPending (consistent : Consistent options state) (error : RpcError) :
    Progress options noAnswer state (state.rejectAllPending error) := by
  apply progress_rejectEach consistent error _ state.pendingRequests.keys_nodup
  intro entry member
  exact (InsertionMap.get?_eq_some_iff _ _ _).mpr member

theorem entries_rejectAllPending :
    (state.rejectAllPending error).pendingRequests.entries = [] := by
  rw [rejectAllPending, entries_rejectEach, filter_eq_nil_iff]
  intro entry member
  have listed := mem_map_of_mem (f := Prod.fst) member
  simpa only [decide_eq_true_eq, not_not] using listed

theorem progress_bestEffortAbort (consistent : Consistent options state)
    (command commandId uuid : String) :
    Progress options noAnswer state (state.requestBestEffortAbort command commandId uuid) := by
  rw [requestBestEffortAbort, writeBestEffort]
  split
  · exact .refl consistent _
  split
  · exact .refl consistent _
  · apply progress_of_same consistent
    · rfl
    · rfl
    · exact fun _ used => used

/-- A line written between taking a request out of the table and settling it. -/
theorem settle_bestEffortAbort (command commandId uuid : String) (request : Nat)
    (settlement : RpcOutcome) :
    (state.requestBestEffortAbort command commandId uuid).settle request settlement =
      (state.settle request settlement).requestBestEffortAbort command commandId uuid := by
  rw [requestBestEffortAbort, requestBestEffortAbort, writeBestEffort, writeBestEffort]
  change RpcProcessInstance.settle (if _ then _ else if _ then _ else _) request settlement =
    if (!isCancellable command || state.exited || state.disposing) = true then _
    else if (state.exited || state.disposing) = true then _ else _
  split
  · rfl
  split <;> rfl

section

variable (consistent : Consistent options state)
include consistent

section

variable (below : request < state.requests.fresh)
include below

theorem requestOf_found
    (found : state.pendingRequests.get? (state.requests.read request).id = some entry) :
    entry.request = request := by
  obtain ⟨known, entered⟩ := consistent.entered _ _ found
  apply consistent.distinct _ known _ below
  rw [entered]

theorem progress_giveUp
    (found : state.pendingRequests.get? (state.requests.read request).id = some entry)
    (error : RpcError) (uuid : String) :
    Progress options noAnswer state
      (((state.forget (state.requests.read request).id).requestBestEffortAbort entry.command
        (state.requests.read request).id uuid).settle request (.rejected error)) := by
  have same := requestOf_found consistent below found
  rw [settle_bestEffortAbort]
  have withdrawn : Progress options noAnswer state
      ((state.forget (state.requests.read request).id).settle entry.request (.rejected error)) :=
    progress_withdraw consistent found _ (rejects error)
  rw [same] at withdrawn
  exact withdrawn.trans (progress_bestEffortAbort withdrawn.consistent _ _ _)

theorem progress_onAbort (uuid : String) :
    Progress options noAnswer state (state.onAbort request uuid) := by
  rw [onAbort]
  split
  · exact .refl consistent _
  · rename_i found
    exact progress_giveUp consistent below found _ uuid

theorem progress_onTimeout (timeoutMs uuid : String) :
    Progress options noAnswer state (state.onTimeout request timeoutMs uuid) := by
  rw [onTimeout]
  split
  · exact .refl consistent _
  · rename_i found
    exact progress_giveUp consistent below found _ uuid

theorem progress_onWriteError (error : RpcError) :
    Progress options noAnswer state (state.onWriteError request error) := by
  rw [onWriteError]
  split
  · exact .refl consistent _
  rename_i entry found
  have withdrawn : Progress options noAnswer state
      ((state.forget (state.requests.read request).id).settle entry.request (.rejected error)) :=
    progress_withdraw consistent found _ (rejects error)
  rw [requestOf_found consistent below found] at withdrawn
  exact withdrawn

end

theorem progress_markExited (error : RpcError) :
    Progress options noAnswer state (state.markExited error) := by
  rw [markExited]
  split
  · exact .refl consistent _
  have exited : Progress options noAnswer state { state with exited := true } := by
    apply progress_of_same consistent
    · rfl
    · rfl
    · exact fun _ used => used
  have rejected := exited.trans (progress_rejectAllPending exited.consistent error)
  apply rejected.trans
  apply progress_of_same rejected.consistent
  · rfl
  · rfl
  · exact fun _ used => used

theorem progress_dispose :
    Progress options noAnswer state state.dispose := by
  have disposing : Progress options noAnswer state { state with disposing := true } := by
    apply progress_of_same consistent
    · rfl
    · rfl
    · exact fun _ used => used
  exact disposing.trans (progress_rejectAllPending disposing.consistent _)

/-- An answer settles the request that waits under its identifier. -/
theorem progress_handleResponse (response : RpcResponse) :
    Progress options (fun given => given = response) state (state.handleResponse response) := by
  rw [handleResponse]
  split
  · exact .refl consistent _
  rename_i id named
  split
  · exact .refl consistent _
  rename_i pending found
  apply progress_withdraw consistent found
  intro given same
  cases same
  refine ⟨rfl, ?_⟩
  rw [Text.truthy, Option.filter_eq_some_iff] at named
  exact named.1

/-- A request under a new identifier enters the table. -/
theorem progress_enter {id type : String} (unused : id ∉ state.usedRequestIds)
    (room : state.pendingRequests.entries.length < options.maxPendingRequests)
    (alone : type = "prompt" → state.waitingPrompts = []) :
    Progress options noAnswer state { state with
      usedRequestIds := id :: state.usedRequestIds
      requests := state.requests.alloc ⟨id, type, []⟩
      pendingRequests := state.pendingRequests.insert id ⟨type, state.requests.fresh⟩ } := by
  have absent : id ∉ state.pendingRequests.entries.map Prod.fst := by
    intro present
    obtain ⟨entry, member, named⟩ := mem_map.mp present
    have found := (InsertionMap.get?_eq_some_iff state.pendingRequests entry.1 entry.2).mpr member
    obtain ⟨known, entered⟩ := consistent.entered _ _ found
    have used := consistent.used _ known
    rw [entered] at used
    exact unused (named ▸ used)
  have entries := InsertionMap.entries_insert_of_absent absent
    (⟨type, state.requests.fresh⟩ : PendingRequest)
  have older : ∀ request < state.requests.fresh,
      (state.requests.alloc ⟨id, type, []⟩).read request = state.requests.read request :=
    fun request below => read_alloc_of_lt _ _ below
  have newest : (state.requests.alloc ⟨id, type, []⟩).read state.requests.fresh =
      ⟨id, type, []⟩ := read_alloc_fresh ..
  have differs : ∀ request < state.requests.fresh, (state.requests.read request).id ≠ id :=
    fun request below same => unused (same ▸ consistent.used request below)
  have split_ : ∀ request, request < state.requests.fresh + 1 →
      request < state.requests.fresh ∨ request = state.requests.fresh := by
    intro request below
    omega
  constructor
  · constructor
    · intro other entry found
      rw [InsertionMap.get?_insert] at found
      split at found
      · rename_i same
        obtain rfl := Option.some.inj found
        exact ⟨Nat.lt_succ_self _, by rw [newest, same]⟩
      · obtain ⟨known, entered⟩ := consistent.entered other entry found
        exact ⟨Nat.lt_succ_of_lt known, by rw [older _ known, entered]⟩
    · intro request below unsettled
      rw [Waits]
      rcases split_ request below with known | rfl
      · simp only [older request known] at unsettled ⊢
        rw [InsertionMap.get?_insert_of_ne _ _ (differs request known)]
        exact consistent.unsettled request known unsettled
      · simp only [newest]
        exact InsertionMap.get?_insert_self ..
    · intro request below
      rcases split_ request below with known | rfl
      · simp only [older request known]
        exact consistent.once request known
      · simp only [newest]
        exact Nat.zero_le 1
    · intro first below second below' same
      rcases split_ first below with known | rfl <;> rcases split_ second below' with known' | rfl
      · rw [older _ known, older _ known'] at same
        exact consistent.distinct first known second known' same
      · rw [older _ known, newest] at same
        exact absurd same (differs first known)
      · rw [older _ known', newest] at same
        exact absurd same.symm (differs second known')
      · rfl
    · intro request below
      rcases split_ request below with known | rfl
      · simp only [older request known]
        exact mem_cons_of_mem _ (consistent.used request known)
      · simp only [newest]
        exact mem_cons_self
    · rw [entries, length_append]
      exact room
    · rw [waitingPrompts, entries, filter_append, length_append]
      by_cases prompt : type = "prompt"
      · have none_ : (state.pendingRequests.entries.filter fun entry =>
            decide (entry.2.command = "prompt")).length = 0 := by
          rw [length_eq_zero_iff]
          exact alone prompt
        rw [none_]
        simp [prompt]
      · have few := consistent.prompts
        rw [waitingPrompts] at few
        simpa [prompt] using few
  · exact Nat.le_succ _
  · intro request known
    exact congrArg RpcRequest.id (older request known)
  · intro request known _
    exact congrArg RpcRequest.settlements (older request known)
  · intro request below response resolved
    rcases split_ request below with known | rfl
    · simp only [older request known] at resolved
      exact Or.inl ⟨known, resolved⟩
    · simp only [newest] at resolved
      cases resolved

end

variable (options state) in
/-- What `send` does up to the start of the request: it fails, or the identifier is new and there
is room. -/
theorem send_cases (command : SentCommand) (sendOptions : RpcSendOptions) (uuid : String) :
    (∃ nextRequestId used, (∀ id ∈ state.usedRequestIds, id ∈ used) ∧
      ((send options command sendOptions uuid).perform state).2 =
        { state with nextRequestId := nextRequestId, usedRequestIds := used }) ∨
    ∃ nextRequestId id, id ∉ state.usedRequestIds ∧
      state.pendingRequests.entries.length < options.maxPendingRequests ∧
      (command.type = "prompt" → state.waitingPrompts = []) ∧
      state.exited = false ∧ state.disposing = false ∧
      ((send options command sendOptions uuid).perform state).2 =
        startRequest { state with
          nextRequestId := nextRequestId
          usedRequestIds := id :: state.usedRequestIds } id command.type
            sendOptions.aborted uuid := by
  rw [send, perform_get]
  cases admits : admitsCommand options state command.type with
  | error error =>
    rw [perform_bind_error (perform_check _ _)]
    exact Or.inl ⟨_, _, fun _ used => used, rfl⟩
  | ok _ =>
    rw [perform_bind_ok (perform_check _ _)]
    rcases named : state.requestId command uuid with ⟨id, nextRequestId⟩
    simp only [perform_set_bind]
    cases admitted : state.admitsId id with
    | error error =>
      rw [perform_bind_error (perform_check _ _)]
      exact Or.inl ⟨_, _, fun _ used => used, rfl⟩
    | ok _ =>
      rw [perform_bind_ok (perform_check _ _), perform_set_bind]
      cases timeout : boundedPositive sendOptions.timeoutMs options.requestTimeoutMs
          "timeoutMs" with
      | error error =>
        rw [perform_bind_error (perform_check _ _)]
        exact Or.inl ⟨_, _, fun _ used => mem_cons_of_mem _ used, rfl⟩
      | ok _ =>
        rw [perform_bind_ok (perform_check _ _)]
        rw [admitsCommand] at admits
        obtain ⟨running, admits⟩ := guard_eq_ok admits
        obtain ⟨room, admits⟩ := guard_eq_ok admits
        obtain ⟨alone, -⟩ := guard_eq_ok admits
        rw [admitsId] at admitted
        obtain ⟨-, admitted⟩ := guard_eq_ok admitted
        have unused : id ∉ state.usedRequestIds := by
          intro used
          rw [if_pos used] at admitted
          cases admitted
        rw [Bool.not_eq_true, Bool.or_eq_false_iff] at running
        refine Or.inr ⟨nextRequestId, id, unused, Nat.lt_of_not_le room, ?_, running.1,
          running.2, rfl⟩
        intro prompt
        have few : ¬ 1 ≤ state.waitingPrompts.length := fun many => alone ⟨prompt, many⟩
        apply length_eq_zero_iff.mp
        omega

theorem progress_startRequest (consistent : Consistent options state) {id type : String}
    (unused : id ∉ state.usedRequestIds)
    (room : state.pendingRequests.entries.length < options.maxPendingRequests)
    (alone : type = "prompt" → state.waitingPrompts = []) (nextRequestId : Nat) (aborted : Bool)
    (uuid : String) :
    Progress options noAnswer state (startRequest { state with
      nextRequestId := nextRequestId
      usedRequestIds := id :: state.usedRequestIds } id type aborted uuid) := by
  have entered := progress_enter consistent unused room alone
  have counted : Progress options noAnswer state { state with
      nextRequestId := nextRequestId
      usedRequestIds := id :: state.usedRequestIds
      requests := state.requests.alloc ⟨id, type, []⟩
      pendingRequests := state.pendingRequests.insert id ⟨type, state.requests.fresh⟩ } := by
    apply entered.trans
    apply progress_of_same entered.consistent
    · rfl
    · rfl
    · exact fun _ used => used
  rw [startRequest]
  cases aborted with
  | true => exact counted.trans (progress_onAbort counted.consistent (Nat.lt_succ_self _) uuid)
  | false =>
    apply counted.trans
    apply progress_of_same counted.consistent
    · rfl
    · rfl
    · exact fun _ used => used

theorem progress_send (consistent : Consistent options state) (command : SentCommand)
    (sendOptions : RpcSendOptions) (uuid : String) :
    Progress options noAnswer state ((send options command sendOptions uuid).perform state).2 := by
  rcases send_cases options state command sendOptions uuid with
    ⟨nextRequestId, used, more, sent⟩ | ⟨nextRequestId, id, unused, room, alone, -, -, sent⟩
  · rw [sent]
    apply progress_of_same consistent
    · rfl
    · rfl
    · exact more
  · rw [sent]
    exact progress_startRequest consistent unused room alone nextRequestId _ uuid

variable (options state) in
theorem cancel_cases (commandId uuid : String) :
    ((cancel options commandId uuid).perform state).2 = state ∨
      ((cancel options commandId uuid).perform state).2 =
        ((send options ⟨"abort", none⟩ {} uuid).perform state).2 := by
  rw [cancel]
  split
  · exact Or.inl rfl
  rw [perform_get]
  split
  · exact Or.inl rfl
  split
  · exact Or.inl rfl
  right
  rcases sent : (send options ⟨"abort", none⟩ {} uuid).perform state with ⟨result, after⟩
  cases result with
  | error error => rw [perform_bind_error sent]
  | ok request =>
    rw [perform_bind_ok sent]
    rfl

end Changes
end RpcProcessInstance
end Recode.Orchestrator

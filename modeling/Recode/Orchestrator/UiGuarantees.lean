import Recode.Orchestrator.UiRequests
import Recode.Orchestrator.WorkspaceExclusion

/-! # No request to the user is lost

A live instance keeps one request. As long as the child process asks again only
after its request was answered, what is not answered is what the instance keeps:
every owner that attaches is shown it, and its answer reaches the child. -/

namespace Recode.Orchestrator

open List Supervisor ObjectStore

variable (options : SupervisorOptions)

/-- An instance is live, and the request it keeps is the one in its record and in the file. -/
structure Keeps (supervisor : Supervisor) (live : Nat) : Prop where
  registered : supervisor.liveInstances.get? (supervisor.record live).id = some live
  running : (supervisor.lives.read live).rpcProcess.isSome = true
  recorded : (supervisor.record live).pendingUiRequest =
    (supervisor.lives.read live).pendingUiRequest
  bounded : ∀ request, (supervisor.lives.read live).pendingUiRequest = some request →
    isBlockingUiRequest request = true ∧ request.bytes ≤ maxReplayEventBytes
  stored : ∀ request, (supervisor.lives.read live).pendingUiRequest = some request →
    ∃ stored ∈ supervisor.files.instances, stored.id = (supervisor.record live).id ∧
      stored.pendingUiRequest = some request

theorem mem_upsert (instances : List InstanceRecord) (record : InstanceRecord) :
    record ∈ upsert instances record := by
  rw [upsert]
  split
  · next known =>
      obtain ⟨existing, member, same⟩ := any_eq_true.mp known
      exact mem_map.mpr ⟨existing, member, if_pos (of_decide_eq_true same)⟩
  · exact mem_append_right _ (mem_singleton_self _)

namespace Keeps

variable {supervisor : Supervisor} {live : Nat} {now : Int}

theorem lives_updateRecord (supervisor : Supervisor) (live : Nat) (now : Int)
    (updates : InstanceRecord → InstanceRecord) :
    (supervisor.updateRecord options now live updates).lives.read live =
      { supervisor.lives.read live with record := updates (supervisor.record live) } :=
  supervisor.lives.read_modify_self live fun entry => { entry with record := updates entry.record }

/-- The request that a live instance keeps. -/
theorem slot_updateRecord (supervisor : Supervisor) (live : Nat) (now : Int)
    (updates : InstanceRecord → InstanceRecord) :
    ((supervisor.updateRecord options now live updates).lives.read live).pendingUiRequest =
      (supervisor.lives.read live).pendingUiRequest := by
  rw [lives_updateRecord]

theorem updateRecord {updates : InstanceRecord → InstanceRecord}
    {pending : Option RpcExtensionUIRequest}
    (registered : supervisor.liveInstances.get? (supervisor.record live).id = some live)
    (running : (supervisor.lives.read live).rpcProcess.isSome = true)
    (slot : (supervisor.lives.read live).pendingUiRequest = pending)
    (named : (updates (supervisor.record live)).id = (supervisor.record live).id)
    (recorded : (updates (supervisor.record live)).pendingUiRequest = pending)
    (bounded : ∀ request, pending = some request →
      isBlockingUiRequest request = true ∧ request.bytes ≤ maxReplayEventBytes) :
    Keeps (supervisor.updateRecord options now live updates) live := by
  have entry := lives_updateRecord options supervisor live now updates
  have record : (supervisor.updateRecord options now live updates).record live =
      updates (supervisor.record live) := congrArg LiveInstance.record entry
  refine ⟨?_, ?_, ?_, ?_, ?_⟩
  · rw [record, named]
    exact registered
  · rw [entry]
    exact running
  · rw [record, entry, recorded, ← slot]
  · rw [entry]
    exact fun request same => bounded request (slot.symm.trans same)
  · intro request same
    rw [entry] at same
    refine ⟨_, mem_upsert _ _, rfl, ?_⟩
    change ((supervisor.updateRecord options now live updates).record live).pendingUiRequest = _
    rw [record, recorded, ← slot]
    exact same

theorem modifyLive (keeps : Keeps supervisor live) {change : LiveInstance → LiveInstance}
    (record : ∀ entry, (change entry).record = entry.record)
    (slot : ∀ entry, (change entry).pendingUiRequest = entry.pendingUiRequest)
    (process : ∀ entry, (change entry).rpcProcess = entry.rpcProcess) :
    Keeps (supervisor.modifyLive live change) live := by
  have entry : (supervisor.modifyLive live change).lives.read live =
      change (supervisor.lives.read live) := read_modify_self ..
  have same : (supervisor.modifyLive live change).record live = supervisor.record live := by
    rw [Supervisor.record, entry, record]
    rfl
  refine ⟨?_, ?_, ?_, ?_, ?_⟩
  · rw [same]
    exact keeps.registered
  · rw [entry, process]
    exact keeps.running
  · rw [same, entry, slot]
    exact keeps.recorded
  · rw [entry, slot]
    exact keeps.bounded
  · rw [same, entry, slot]
    exact keeps.stored

theorem setStatus (keeps : Keeps supervisor live) (status : InstanceStatus) :
    Keeps (supervisor.setStatus options now live status) live :=
  updateRecord options keeps.registered keeps.running rfl rfl keeps.recorded keeps.bounded

theorem slot_modifyLive (supervisor : Supervisor) (live : Nat)
    (change : LiveInstance → LiveInstance)
    (slot : ∀ entry, (change entry).pendingUiRequest = entry.pendingUiRequest) :
    ((supervisor.modifyLive live change).lives.read live).pendingUiRequest =
      (supervisor.lives.read live).pendingUiRequest :=
  (congrArg LiveInstance.pendingUiRequest (supervisor.lives.read_modify_self live change)).trans
    (slot _)

section

variable (keeps : Keeps supervisor live)
include keeps

theorem addSubscriber : Keeps (supervisor.addSubscriber live) live :=
  keeps.modifyLive (fun _ => rfl) (fun _ => rfl) fun _ => rfl

theorem handleUiRequest {request : RpcExtensionUIRequest}
    (blocking : isBlockingUiRequest request = true) (small : request.bytes ≤ maxReplayEventBytes) :
    Keeps (supervisor.handleUiRequest options now live request) live ∧
      ((supervisor.handleUiRequest options now live request).lives.read live).pendingUiRequest =
        some request := by
  have kept : ¬ (!isBlockingUiRequest request ||
      decide (maxReplayEventBytes < request.bytes)) = true := by
    simp [blocking, small]
  let ask : LiveInstance → LiveInstance := fun entry =>
    { entry with pendingUiRequest := some request }
  have entry : (supervisor.modifyLive live ask).lives.read live =
      ask (supervisor.lives.read live) := read_modify_self ..
  rw [Supervisor.handleUiRequest]
  simp only [kept, Bool.false_eq_true, if_false]
  constructor
  · apply updateRecord
    · exact (congrArg (fun entry : LiveInstance => supervisor.liveInstances.get? entry.record.id)
        entry).trans keeps.registered
    · exact (congrArg (fun entry : LiveInstance => entry.rpcProcess.isSome) entry).trans
        keeps.running
    · exact congrArg LiveInstance.pendingUiRequest entry
    · rfl
    · rfl
    · rintro _ ⟨⟩
      exact ⟨blocking, small⟩
  · rw [slot_updateRecord]
    exact congrArg LiveInstance.pendingUiRequest entry

theorem openRpcStream {ownerId : String} {mode : RpcStreamMode}
    {attachment : Except String (Option Nat)} {after : Supervisor}
    (opened : supervisor.openRpcStream options now (supervisor.record live).id ownerId mode
      attachment = .ok after) :
    Keeps after live ∧ (after.lives.read live).pendingUiRequest =
      (supervisor.lives.read live).pendingUiRequest := by
  have subscribed (state : Supervisor) :
      ((state.addSubscriber live).lives.read live).pendingUiRequest =
        (state.lives.read live).pendingUiRequest := slot_modifyLive state live _ fun _ => rfl
  rw [Supervisor.openRpcStream, keeps.registered] at opened
  simp only at opened
  split at opened
  · rw [← Except.ok.inj opened]
    exact ⟨keeps, rfl⟩
  split at opened
  · rw [← Except.ok.inj opened]
    exact ⟨keeps.addSubscriber, subscribed supervisor⟩
  split at opened
  · cases opened
  split at opened
  · obtain ⟨_, refused, -⟩ := Procedure.bind_eq_ok opened
    cases refused
  obtain ⟨attached, -, opened⟩ := Procedure.bind_eq_ok opened
  rw [← Except.ok.inj opened]
  let own : LiveInstance → LiveInstance := fun entry =>
    { entry with
      interactiveOwner := some ⟨entry.nextStream, ownerId,
        attached.getD (entry.nextOwnerGeneration + 1)⟩
      nextOwnerGeneration := entry.nextOwnerGeneration + if attached.isSome then 0 else 1 }
  have owned : Keeps (supervisor.modifyLive live own) live :=
    keeps.modifyLive (fun _ => rfl) (fun _ => rfl) fun _ => rfl
  have slot : ((supervisor.modifyLive live own).lives.read live).pendingUiRequest =
      (supervisor.lives.read live).pendingUiRequest := slot_modifyLive supervisor live _ fun _ =>
          rfl
  split
  · refine ⟨(owned.setStatus options .online).addSubscriber, ?_⟩
    rw [subscribed, Supervisor.setStatus, slot_updateRecord]
    exact slot
  · exact ⟨owned.addSubscriber, (subscribed _).trans slot⟩

theorem handleUiResponse {stream : Nat} {requestId : String} {after : Supervisor}
    (answered : supervisor.handleUiResponse options now live stream requestId = .ok after) :
    Keeps after live ∧ (after.lives.read live).pendingUiRequest = none ∧
      ∃ request, (supervisor.lives.read live).pendingUiRequest = some request ∧
        request.id = requestId := by
  rw [Supervisor.handleUiResponse] at answered
  simp only at answered
  split at answered
  · cases answered
  split at answered
  · cases answered
  next matching =>
  rw [← Except.ok.inj answered]
  let answer : LiveInstance → LiveInstance := fun entry => { entry with pendingUiRequest := none }
  have entry : (supervisor.modifyLive live answer).lives.read live =
      answer (supervisor.lives.read live) := read_modify_self ..
  refine ⟨?_, ?_, ?_⟩
  · have slot : ((supervisor.modifyLive live answer).lives.read live).pendingUiRequest = none :=
      congrArg LiveInstance.pendingUiRequest entry
    refine updateRecord options ?_ ?_ slot rfl rfl (by simp)
    · exact (congrArg (fun entry : LiveInstance => supervisor.liveInstances.get? entry.record.id)
        entry).trans keeps.registered
    · exact (congrArg (fun entry : LiveInstance => entry.rpcProcess.isSome) entry).trans
        keeps.running
  · rw [slot_updateRecord]
    exact congrArg LiveInstance.pendingUiRequest entry
  · cases slot : (supervisor.lives.read live).pendingUiRequest with
    | none => simp [slot] at matching
    | some request => exact ⟨request, rfl, by simpa [slot] using matching⟩

theorem closeRpcStream (stream : Nat) :
    Keeps (supervisor.closeRpcStream options now live stream) live ∧
      ((supervisor.closeRpcStream options now live stream).lives.read live).pendingUiRequest =
        (supervisor.lives.read live).pendingUiRequest := by
  let leave : LiveInstance → LiveInstance := fun entry =>
    { entry with subscribers := entry.subscribers.erase stream }
  let detach : LiveInstance → LiveInstance := fun entry => { entry with interactiveOwner := none }
  have left : Keeps (supervisor.modifyLive live leave) live :=
    keeps.modifyLive (fun _ => rfl) (fun _ => rfl) fun _ => rfl
  have leftSlot : ((supervisor.modifyLive live leave).lives.read live).pendingUiRequest =
      (supervisor.lives.read live).pendingUiRequest := slot_modifyLive supervisor live _ fun _ =>
          rfl
  have detached : Keeps ((supervisor.modifyLive live leave).modifyLive live detach) live :=
    left.modifyLive (fun _ => rfl) (fun _ => rfl) fun _ => rfl
  have detachedSlot :
      (((supervisor.modifyLive live leave).modifyLive live detach).lives.read live).pendingUiRequest
        = (supervisor.lives.read live).pendingUiRequest :=
    (slot_modifyLive _ live detach fun _ => rfl).trans leftSlot
  rw [Supervisor.closeRpcStream]
  simp only
  split
  · split
    · refine ⟨detached.setStatus options .waitingInput, ?_⟩
      rw [Supervisor.setStatus, slot_updateRecord]
      exact detachedSlot
    · exact ⟨detached, detachedSlot⟩
  · exact ⟨left, leftSlot⟩

end

end Keeps

namespace UiSession

/-- A step that loses no request: the lifecycle service knows the instance, and a blocking request
that can be kept comes when none is waiting for an answer. -/
def Allowed (session : UiSession) : UiEvent → Prop
  | .request request lifecycle => isBlockingUiRequest request = true →
      request.bytes ≤ maxReplayEventBytes →
        outstanding session.messages = [] ∧ lifecycle = .ok ()
  | .respond _ _ lifecycle => lifecycle = .ok ()
  | _ => True

def AllAllowed (session : UiSession) : List (Int × UiEvent) → Prop
  | [] => True
  | event :: events => session.Allowed event.2 ∧
      (session.step options event.1 event.2).AllAllowed events

/-- A request can be answered: it is recorded as pending, the next owner is shown it, and an answer
of the owner is accepted and forwarded, once. -/
structure Answerable (session : UiSession) (request : RpcExtensionUIRequest) : Prop where
  pending : session.instance_.pendingUiRequest = some request
  recorded : session.instance_.record.pendingUiRequest = some request
  stored : ∃ stored ∈ session.supervisor.files.instances,
    stored.id = session.instance_.record.id ∧ stored.pendingUiRequest = some request
  replayed : ∀ now ownerId attachment replay after,
    session.openRpcStream options now ownerId .interactive attachment = (.ok (some replay), after) →
      replay = some request
  answered : ∀ now owner answer, session.instance_.interactiveOwner = some owner →
    ∃ after, session.handleUiResponse options now owner.stream ⟨request.id, answer⟩ (.ok ()) =
        (.ok (), after) ∧ after.messages = session.messages ++ [.responded ⟨request.id, answer⟩] ∧
        ∀ later stream again lifecycle,
          (after.handleUiResponse options later stream ⟨request.id, again⟩ lifecycle).1 ≠ .ok () ∧
            (after.handleUiResponse options later stream ⟨request.id, again⟩ lifecycle).2.messages =
              after.messages

theorem outstanding_delivered (messages : List UiMessage) (request : RpcExtensionUIRequest) :
    outstanding (messages ++ [.delivered request]) =
      if isBlockingUiRequest request then outstanding messages ++ [request]
      else outstanding messages := by
  rw [outstanding, foldl_append]
  rfl

theorem outstanding_responded (messages : List UiMessage) (response : RpcExtensionUIResponse) :
    outstanding (messages ++ [.responded response]) =
      (outstanding messages).filter fun request => request.id ≠ response.id := by
  rw [outstanding, foldl_append]
  rfl

/-- A live instance that keeps the request which is not answered. -/
structure Tracks (session : UiSession) : Prop where
  keeps : Keeps session.supervisor session.live
  waiting : ∀ request ∈ outstanding session.messages,
    session.instance_.pendingUiRequest = some request

namespace Tracks

variable {options} {session : UiSession} {now : Int}

theorem request (tracks : Tracks session) {request : RpcExtensionUIRequest}
    {lifecycle : Except String Unit} (allowed : session.Allowed (.request request lifecycle)) :
    Tracks (session.handleUiRequest options now request lifecycle) := by
  by_cases blocking : isBlockingUiRequest request = true
  · by_cases small : request.bytes ≤ maxReplayEventBytes
    · obtain ⟨answered, rfl⟩ := allowed blocking small
      obtain ⟨keeps, slot⟩ : Keeps (session.supervisor.handleUiRequest options now session.live
          request) session.live ∧ _ := tracks.keeps.handleUiRequest options blocking small
      simp only [handleUiRequest, blocking, if_true, Nat.not_lt.mpr small, if_false]
      refine ⟨keeps, ?_⟩
      intro other member
      rw [outstanding_delivered, if_pos blocking, answered, nil_append, mem_singleton] at member
      rw [member]
      exact slot
    · simp only [handleUiRequest, blocking, if_true, Nat.lt_of_not_le small]
      refine ⟨tracks.keeps, ?_⟩
      intro other member
      rw [outstanding_responded, outstanding_delivered, if_pos blocking, mem_filter,
        mem_append, mem_singleton] at member
      obtain ⟨earlier | rfl, different⟩ := member
      · exact tracks.waiting other earlier
      · simp at different
  · simp only [handleUiRequest, blocking, Bool.false_eq_true, if_false]
    refine ⟨tracks.keeps, ?_⟩
    intro other member
    rw [outstanding_delivered, if_neg blocking] at member
    exact tracks.waiting other member

theorem attach (tracks : Tracks session) (ownerId : String) (mode : RpcStreamMode)
    (attachment : Except String (Option Nat)) :
    Tracks (session.openRpcStream options now ownerId mode attachment).2 := by
  rw [openRpcStream]
  cases opened : session.supervisor.openRpcStream options now session.instance_.record.id ownerId
      mode attachment with
  | error error => exact tracks
  | ok after =>
    obtain ⟨keeps, slot⟩ := tracks.keeps.openRpcStream options opened
    have kept : Tracks { session with supervisor := after } :=
      ⟨keeps, fun request member => slot.trans (tracks.waiting request member)⟩
    dsimp only
    split
    · exact kept
    · exact kept

theorem respond (tracks : Tracks session) (stream : Nat) (response : RpcExtensionUIResponse) :
    Tracks (session.handleUiResponse options now stream response (.ok ())).2 := by
  rw [handleUiResponse]
  cases answered : session.supervisor.handleUiResponse options now session.live stream
      response.id with
  | error error => exact tracks
  | ok after =>
    obtain ⟨keeps, -, request, slot, named⟩ := tracks.keeps.handleUiResponse options answered
    refine ⟨keeps, ?_⟩
    intro other member
    rw [outstanding_responded, mem_filter] at member
    obtain rfl := Option.some.inj (slot.symm.trans (tracks.waiting other member.1))
    simp [named] at member

theorem step (tracks : Tracks session) {event : UiEvent} (allowed : session.Allowed event) :
    Tracks (session.step options now event) := by
  cases event with
  | request request lifecycle => exact tracks.request allowed
  | attach ownerId mode attachment => exact tracks.attach ownerId mode attachment
  | respond stream response lifecycle =>
    obtain rfl : lifecycle = .ok () := allowed
    exact tracks.respond stream response
  | close stream =>
    obtain ⟨keeps, slot⟩ : Keeps (session.supervisor.closeRpcStream options now session.live
        stream) session.live ∧ _ := tracks.keeps.closeRpcStream options stream
    exact ⟨keeps, fun request member => slot.trans (tracks.waiting request member)⟩

/-- An answer for a request that is not kept is refused, and the child process is told nothing. -/
theorem refused (keeps : Keeps session.supervisor session.live)
    (slot : session.instance_.pendingUiRequest = none) (stream : Nat)
    (response : RpcExtensionUIResponse) (lifecycle : Except String Unit) :
    (session.handleUiResponse options now stream response lifecycle).1 ≠ .ok () ∧
      (session.handleUiResponse options now stream response lifecycle).2.messages =
        session.messages := by
  rw [handleUiResponse]
  cases answered : session.supervisor.handleUiResponse options now session.live stream
      response.id with
  | error error => simp
  | ok after =>
    obtain ⟨-, -, request, kept, -⟩ := keeps.handleUiResponse options answered
    rw [instance_, kept] at slot
    cases slot

theorem answerable (tracks : Tracks session) {request : RpcExtensionUIRequest}
    (waiting : request ∈ outstanding session.messages) : session.Answerable options request where
  pending := tracks.waiting request waiting
  recorded := tracks.keeps.recorded.trans (tracks.waiting request waiting)
  stored := tracks.keeps.stored request (tracks.waiting request waiting)
  replayed := by
    intro now ownerId attachment replay after opened
    rw [openRpcStream] at opened
    cases attached : session.supervisor.openRpcStream options now session.instance_.record.id
        ownerId .interactive attachment with
    | error error =>
      rw [attached] at opened
      cases opened
    | ok supervisor =>
      obtain ⟨-, slot⟩ := tracks.keeps.openRpcStream options attached
      have kept := tracks.waiting request waiting
      simp only [attached] at opened
      split at opened
      · cases opened
      · rw [← Option.some.inj (Except.ok.inj (congrArg Prod.fst opened)), slot]
        rw [instance_] at kept
        simp [kept, (tracks.keeps.bounded request kept).2]
  answered := by
    intro now owner answer owned
    have kept := tracks.waiting request waiting
    obtain ⟨after, answered⟩ : ∃ after, session.supervisor.handleUiResponse options now
        session.live owner.stream request.id = .ok after := by
      rw [instance_] at kept owned
      rw [Supervisor.handleUiResponse]
      simp [kept, owned]
    obtain ⟨keeps, slot, -⟩ := tracks.keeps.handleUiResponse options answered
    let told : UiSession := { session with
      supervisor := after
      messages := session.messages ++ [.responded ⟨request.id, answer⟩] }
    have empty : told.instance_.pendingUiRequest = none := slot
    refine ⟨told, ?_, rfl, ?_⟩
    · rw [handleUiResponse, answered]
    · exact fun later stream again lifecycle => refused keeps empty stream _ lifecycle

theorem steps (tracks : Tracks session) {events : List (Int × UiEvent)}
    (allowed : session.AllAllowed options events) {initial : List (Int × UiEvent)}
    (reached : initial <+: events) : Tracks (session.steps options initial) := by
  induction initial generalizing session events with
  | nil => exact tracks
  | cons event initial ih =>
    obtain ⟨rest, rfl⟩ := reached
    obtain ⟨first, later⟩ := allowed
    exact ih (tracks.step first) later ⟨rest, rfl⟩

end Tracks

/-- In every state that allowed steps reach from a live instance, each blocking request that is
delivered and not answered can be answered. -/
theorem outstanding_answerable (supervisor : Supervisor) (live : Nat)
    (keeps : Keeps supervisor live) (events : List (Int × UiEvent))
    (allowed : (start supervisor live).AllAllowed options events)
    (initial : List (Int × UiEvent)) (reached : initial <+: events) :
    ∀ request ∈ outstanding ((start supervisor live).steps options initial).messages,
      ((start supervisor live).steps options initial).Answerable options request := by
  have tracks : Tracks (start supervisor live) := by
    refine ⟨keeps, ?_⟩
    intro request member
    cases slot : (supervisor.lives.read live).pendingUiRequest with
    | none => simp [start, outstanding, slot] at member
    | some pending =>
      have blocking := (keeps.bounded pending slot).1
      simp [start, outstanding, slot, blocking] at member
      rw [member]
      exact slot
  exact fun request waiting => (tracks.steps allowed reached).answerable waiting

def oneInstance : Supervisor := { Supervisor.initial with
  liveInstances := .insert .empty "worker" 0
  lives := Supervisor.initial.lives.alloc {
    record := { id := "worker", status := .online, cwd := "/work" }
    rpcProcess := some 0 } }

theorem keeps_oneInstance : Keeps oneInstance 0 where
  registered := by decide
  running := rfl
  recorded := rfl
  bounded request waiting := by cases waiting
  stored request waiting := by cases waiting

def askedInTurn : List (Int × UiEvent) :=
  [(0, .request ⟨"first", "confirm", 100⟩ (.ok ())), (1, .attach "owner" .interactive (.ok none)),
    (2, .respond 0 ⟨"first", .confirmed true⟩ (.ok ())),
    (3, .close 0), (4, .request ⟨"second", "input", 100⟩ (.ok ()))]

theorem outstanding_answerable_askedInTurn :
    ((start oneInstance 0).steps Supervisor.defaultOptions askedInTurn).Answerable
      Supervisor.defaultOptions ⟨"second", "input", 100⟩ := by
  refine outstanding_answerable Supervisor.defaultOptions oneInstance 0 keeps_oneInstance
    askedInTurn ?_ askedInTurn prefix_rfl _ (by decide)
  exact ⟨fun _ _ => ⟨by decide, rfl⟩, trivial, rfl, trivial, fun _ _ => ⟨by decide, rfl⟩, trivial⟩

/-- A child process that asks twice before it is answered loses its first request. -/
theorem not_outstanding_answerable_askedTwice :
    ¬ ∀ (options : SupervisorOptions) (supervisor : Supervisor) (live : Nat),
      Keeps supervisor live → ∀ events : List (Int × UiEvent),
        ∀ request ∈ outstanding ((start supervisor live).steps options events).messages,
          ((start supervisor live).steps options events).Answerable options request := by
  intro answerable
  have first := answerable Supervisor.defaultOptions oneInstance 0 keeps_oneInstance
    [(0, .request ⟨"first", "confirm", 100⟩ (.ok ())),
      (0, .request ⟨"second", "confirm", 100⟩ (.ok ()))] ⟨"first", "confirm", 100⟩ (by decide)
  exact absurd first.pending (by decide)

end UiSession

end Recode.Orchestrator

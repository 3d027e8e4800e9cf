import Recode.Delegation.WorkerRestores

/-! # What a worker directory guarantees

Over every interleaving of calls and ends of runs: the limits bound the runs that are
executing, the directory stays within its size, conversations that were started or
restored are there, and a call that throws drops none, as long as no call takes a record
from a run or from a start call, and room is not made in vain. -/

namespace Recode.Delegation

open WorkerDirectory

variable {directory : WorkerDirectory} {state after : State}

/-- A start call gets ids that are in no use, as `randomUUID` gives them. -/
def Event.Fresh (state : State) : Event → Prop
  | .startConversations requests =>
    (requests.map StartRequest.conversationId).Nodup ∧
      ∀ request ∈ requests, state.conversations.get? request.conversationId = none
  | _ => True

/-- An event leaves the runs and the start calls their records. -/
def Event.Keeps (directory : WorkerDirectory) (state : State) : Event → Prop
  | .startConversations requests =>
    ∀ prepared, directory.prepareRequests requests = .ok prepared →
      directory.assertCanStartWorkerIds state (prepared.map fun one => one.2.id) = .ok () →
        prepared.length ≤ directory.maxConversations → Roomy directory state prepared.length
  | .restoreConversationTurn turn workspace =>
    ∀ worker added record, directory.resolveWorker turn.workerId = .ok worker →
      findOrAddRecord state turn worker workspace = .ok (added, record) →
        (added.records record).turnCount < turn.turnCount →
          RestoreFits directory state turn added record
  | .closeConversation conversationId _ =>
    ∀ record, state.conversations.get? conversationId = some record → ¬ state.InUse record
  | .closeAll => ∀ record ∈ state.held, ¬ state.InUse record
  | _ => True

/-- The states reached by events that are all allowed. -/
inductive Reached (directory : WorkerDirectory) (allowed : State → Event → Prop) : State → Prop
  | initial : Reached directory allowed {}
  | step {state after : State} {event : Event} {reply : Reply} :
      Reached directory allowed state → event.Fresh state → allowed state event →
        step directory state event = some (after, reply) → Reached directory allowed after

/-- What is promised of one event. -/
structure Guarded (state : State) (event : Event) (after : State) (reply : Reply) : Prop where
  /-- A call that throws leaves the conversations as they were. -/
  unchanged : ∀ error, reply = .threw error → after.conversations = state.conversations
  /-- Conversations are there once they are started. -/
  started : ∀ requests, event = .startConversations requests → reply = .pending →
    ∀ request ∈ requests, (after.conversations.get? request.conversationId).isSome = true
  /-- They are still there when the start call returns. -/
  returned : ∀ call, event = .startReturns call → ∀ record ∈ call.records, record ∈ after.held
  /-- A conversation is there once it is restored. -/
  restored : ∀ turn workspace record, event = .restoreConversationTurn turn workspace →
    reply = .snapshot record → (after.conversations.get? turn.conversationId).isSome = true

variable {reply : Reply}

/-- What is promised of a call that neither starts nor restores a conversation. -/
theorem CallKept.guarded {event : Event} (kept : CallKept directory state after reply)
    (starts : ∀ requests, event ≠ .startConversations requests)
    (restores : ∀ turn workspace, event ≠ .restoreConversationTurn turn workspace)
    (returns : ∀ call, event ≠ .startReturns call) : Guarded state event after reply where
  unchanged := kept.unchanged
  started requests same := absurd same (starts requests)
  returned call same := absurd same (returns call)
  restored turn workspace _ same := absurd same (restores turn workspace)

theorem answer_eq {answer : State × Reply}
    (stepped : some answer = some (after, reply)) : after = answer.1 ∧ reply = answer.2 := by
  rw [Option.some.inj stepped]
  exact ⟨rfl, rfl⟩

theorem step_kept {event : Event} (linked : Linked state)
    (safe : Safe directory state) (fresh : event.Fresh state) (keeps : event.Keeps directory state)
    (stepped : step directory state event = some (after, reply)) :
    CallKept directory state after reply ∧ Guarded state event after reply := by
  have other {reply : Reply} (kept : CallKept directory state after reply)
      (starts : ∀ requests, event ≠ .startConversations requests)
      (restores : ∀ turn workspace, event ≠ .restoreConversationTurn turn workspace)
      (returns : ∀ call, event ≠ .startReturns call) :
      CallKept directory state after reply ∧ Guarded state event after reply :=
    ⟨kept, kept.guarded starts restores returns⟩
  cases event with
  | runOneShot workerReference task workspace runs =>
    rw [step] at stepped
    obtain ⟨rfl, rfl⟩ := answer_eq stepped
    exact other (runOneShot_kept linked safe) nofun nofun nofun
  | startConversations requests =>
    rw [step] at stepped
    obtain ⟨rfl, rfl⟩ := answer_eq stepped
    obtain ⟨kept, present⟩ := startConversations_kept linked safe fresh.1 fresh.2 keeps
    exact ⟨kept, kept.unchanged, fun _ same => by
      cases same
      exact present, fun _ same => (nomatch same), fun _ _ _ same => (nomatch same)⟩
  | messageConversation conversationId message startedAt runs =>
    rw [step] at stepped
    obtain ⟨rfl, rfl⟩ := answer_eq stepped
    exact other (messageConversation_kept linked safe) nofun nofun nofun
  | restoreConversationTurn turn workspace =>
    rw [step] at stepped
    obtain ⟨rfl, rfl⟩ := answer_eq stepped
    obtain ⟨kept, present⟩ := restoreConversationTurn_kept linked safe keeps
    exact ⟨kept, kept.unchanged, fun _ same => (nomatch same),
      fun _ same => (nomatch same), fun _ _ record same => by
      cases same
      exact present record⟩
  | cancelConversation conversationId =>
    rw [step] at stepped
    obtain ⟨rfl, rfl⟩ := answer_eq stepped
    exact other (cancelConversation_kept linked safe) nofun nofun nofun
  | closeConversation conversationId now =>
    rw [step] at stepped
    obtain ⟨rfl, rfl⟩ := answer_eq stepped
    exact other (closeConversation_kept linked safe keeps) nofun nofun nofun
  | closeAll =>
    rw [step] at stepped
    obtain ⟨rfl, rfl⟩ := answer_eq stepped
    exact other (closeAll_kept linked safe nofun keeps) nofun nofun nofun
  | progress turn now =>
    rw [step] at stepped
    split at stepped
    · cases stepped
      exact other (modify_kept linked safe rfl rfl rfl) nofun nofun nofun
    · cases stepped
  | turnReturns turn =>
    rw [step] at stepped
    split at stepped
    · cases stepped
      exact other (turnReturns_kept linked safe) nofun nofun nofun
    · cases stepped
  | turnRecorded turn status now =>
    rw [step] at stepped
    split at stepped
    · rename_i ended
      cases stepped
      exact other (recordResult_kept linked safe ended.1) nofun nofun nofun
    · cases stepped
  | oneShotReturns oneShot =>
    rw [step] at stepped
    split at stepped
    · cases stepped
      exact other (oneShotReturns_kept linked safe) nofun nofun nofun
    · cases stepped
  | oneShotEnds oneShot outcome =>
    unfold step at stepped
    dsimp only at stepped
    split at stepped
    · rename_i ended
      cases stepped
      exact other (endOneShot_kept linked safe ended.1) nofun nofun nofun
    · cases stepped
  | startReturns call =>
    unfold step at stepped
    dsimp only at stepped
    split at stepped
    · rename_i done
      cases stepped
      have kept := startReturns_kept call (.snapshots (call.records.map state.records))
        linked safe
      refine ⟨kept, kept.unchanged, fun _ same => (nomatch same), fun _ same => ?_,
        fun _ _ _ same => (nomatch same)⟩
      cases same
      exact linked.awaited call done.1
    · cases stepped

theorem Reached.kept (reached : Reached directory (Event.Keeps directory) state) :
    Linked state ∧ Safe directory state := by
  induction reached with
  | initial =>
    exact ⟨Linked.initial, Nat.zero_le _, fun _ => Nat.zero_le _, fun _ => Nat.zero_le _,
      Nat.zero_le _⟩
  | step _ fresh keeps stepped ih =>
    have kept := (step_kept ih.1 ih.2 fresh keeps stepped).1
    exact ⟨kept.linked, kept.safe⟩

/-- In every run whose events leave the runs and the start calls their records, the
limits bound what is executing, and every call does as promised. -/
theorem worker_limits (reached : Reached directory (Event.Keeps directory) state) :
    Safe directory state ∧ ∀ event after reply, event.Fresh state →
      event.Keeps directory state → step directory state event = some (after, reply) →
        Guarded state event after reply := by
  obtain ⟨linked, safe⟩ := reached.kept
  exact ⟨safe, fun _ _ _ fresh keeps stepped =>
    (step_kept linked safe fresh keeps stepped).2⟩

/-- A directory with one worker that runs one task at a time. -/
def auditDirectory : WorkerDirectory where
  workers := [{ id := "audit", displayName := "Audit" }]
  byReference := InsertionMap.empty.insert "audit" { id := "audit", displayName := "Audit" }
  toLowerCase := String.toLower
  maxConversations := 64
  maxActiveConversations := 1
  maxActiveConversationsPerWorker := 1

def auditRequest (conversationId : String) : StartRequest where
  workerReference := "audit"
  message := "Audit."
  workspace := .ok "/repo"
  conversationId := conversationId
  now := 0
  startedAt := 0
  runs := true

def next (state : State) (event : Event) : State :=
  ((step auditDirectory state event).map Prod.fst).getD state

theorem Reached.next {allowed : State → Event → Prop} (event : Event)
    (reached : Reached auditDirectory allowed state) (fresh : event.Fresh state)
    (keeps : allowed state event) : Reached auditDirectory allowed (next state event) := by
  cases stepped : Delegation.step auditDirectory state event with
  | none =>
    rw [Delegation.next, stepped]
    exact reached
  | some outcome =>
    rw [Delegation.next, stepped]
    exact .step reached fresh keeps stepped

def auditStarted : State :=
  next {} (.startConversations [auditRequest "c1"])

theorem auditStarted_reached (allowed : State → Event → Prop)
    (start : allowed {} (.startConversations [auditRequest "c1"])) :
    Reached auditDirectory allowed auditStarted :=
  Reached.next _ .initial ⟨List.nodup_singleton _, fun _ _ => rfl⟩ start

def auditTurn : Turn where
  controller := 0
  record := 0
  conversationId := "c1"
  workerId := "audit"
  active := true

def auditEnded : State :=
  next (next (next auditStarted (.turnReturns auditTurn))
      (.turnRecorded { auditTurn with active := false } .completed 1))
    (.startReturns { records := [0], turns := [0] })

/-- A conversation is closed once its turn and its start call have ended, and another is
started. -/
theorem worker_limits_restarted :
    Safe auditDirectory (next (next auditEnded (.closeConversation "c1" 2))
      (.startConversations [auditRequest "c2"])) ∧
    (next (next auditEnded (.closeConversation "c1" 2))
      (.startConversations [auditRequest "c2"])).activeRuns = 1 := by
  have roomy (state : State) (none : state.removable = []) (requiredSlots : Nat) :
      Roomy auditDirectory state requiredSlots := by
    refine ⟨Or.inr none, fun record gone => ?_⟩
    rw [dropped, none, List.take_nil] at gone
    cases gone
  have started := auditStarted_reached (Event.Keeps auditDirectory)
    fun prepared _ _ _ => roomy _ rfl _
  have ended : Reached auditDirectory (Event.Keeps auditDirectory) auditEnded :=
    Reached.next _ (Reached.next _ (Reached.next _ started trivial trivial) trivial trivial)
      trivial trivial
  have closed := Reached.next (.closeConversation "c1" 2) ended trivial
    fun record _ used => by
      rcases used with ⟨turn, member, -⟩ | ⟨call, member, -⟩
      · exact absurd member (by
          have none : auditEnded.turns = [] := by decide +kernel
          rw [none]
          exact List.not_mem_nil)
      · exact absurd member (by
          have none : auditEnded.starts = [] := by decide +kernel
          rw [none]
          exact List.not_mem_nil)
  have again := Reached.next (.startConversations [auditRequest "c2"]) closed
    ⟨List.nodup_singleton _, fun request member => by
      obtain rfl := List.mem_singleton.mp member
      decide +kernel⟩
    fun prepared _ _ _ => roomy _ (by decide +kernel) _
  exact ⟨(worker_limits again).1, by decide +kernel⟩

/-- A conversation that is closed while its run winds down no longer counts: another run
may start beside it. -/
theorem not_worker_limits :
    ¬ ∀ (directory : WorkerDirectory) (state : State), Reached directory (fun _ _ => True) state →
        Safe directory state ∧ ∀ event after reply, event.Fresh state →
          step directory state event = some (after, reply) →
            Guarded state event after reply := by
  intro claim
  have closed := Reached.next (.closeConversation "c1" 1)
    (auditStarted_reached (fun _ _ => True) trivial) trivial trivial
  have again := Reached.next (.startConversations [auditRequest "c2"]) closed
    ⟨List.nodup_singleton _, fun request member => by
      obtain rfl := List.mem_singleton.mp member
      decide +kernel⟩ trivial
  exact absurd (claim _ _ again).1.total (by decide +kernel)

end Recode.Delegation

import Recode.Compaction.Harness

/-! # Retrying a failed answer

A retry moves the leaf of the session to the parent of the failed answer, compacts the session
when it is asked to, records that it starts and goes on from there. What happens outside the
harness meanwhile is given with the call. -/

namespace Recode.AgentHarness

open Recode List Session

inductive Phase
  | idle
  | turn
  | compaction
  | branchSummary
  | retry
deriving DecidableEq

/-- A harness between two calls: its phase and its session. -/
structure Harness (Storage : Type) where
  phase : Phase := .idle
  storage : Storage

/-- Why a retry is rejected. -/
inductive RetryFailure
  | busy
  | notAnError
  | noModel
  | cancelled
  | session (error : SessionError)
  | compaction (failure : CompactFailure)
  | thrown (error : String)
deriving DecidableEq

/-- What a hook makes of a compaction that is about to start. -/
inductive CompactHook
  | threw (error : String)
  | cancels
  | provides (result : CompactionResult)
  | leaves

/-- A compaction that a retry asks for, and what happens while it runs. -/
structure RetryCompaction where
  settings : CompactionSettings
  modelSet : Bool
  hook : CompactHook
  summarize : SummarizationRequest → AssistantMessage
  options : SummaryOptions
  stamp : Stamp
  writeError : Option SessionError := none
  listenerError : Option String := none

/-- The entries that a call appends one after the other, and what it throws after them. -/
structure Appending where
  entries : List (Stamp × EntryBody) := []
  error : Option String := none

/-- What comes of the continuation: it appends a message, or it is rejected before. -/
inductive Continuation
  | appends
  | rejected (before : Appending) (error : String)

/-- A call of `retry`: the entry that moves the leaf or the failure to write it, the compaction,
what the journal appends at the start and at an interruption, and what the rest comes to. -/
structure RetryCall where
  move : Except SessionError Stamp
  compact : Option RetryCompaction := none
  start : Appending := {}
  turnStateError : Option String := none
  continuation : Continuation := .appends
  interrupt : Appending := {}

/-- A retry is rejected before its continuation has appended a message, or it has got there. -/
inductive RetryOutcome
  | rejected (failure : RetryFailure)
  | continued
deriving DecidableEq

def isAssistantError (entry : SessionTreeEntry) : Bool :=
  match entry.message? with
  | some (.assistant message) => message.stopReason = .error
  | _ => false

/-- The latest message entry of a branch, when it is an assistant error. -/
def latestError (branch : List SessionTreeEntry) : Option SessionTreeEntry :=
  (branch.reverse.find? fun entry => entry.message?.isSome).filter isAssistantError

def CompactHook.result : CompactHook → Except RetryFailure (Option CompactionResult)
  | .threw error => .error (.thrown error)
  | .cancels => .error .cancelled
  | .provides result => .ok (some result)
  | .leaves => .ok none

section Retry

variable {Storage : Type} [SessionStorage Storage]

def compactForRetry (storage : Storage) (call : RetryCompaction) : Storage × Option RetryFailure :=
  if !call.modelSet then (storage, some .noModel)
  else
    match prepareBranch storage call.settings with
    | .error failure => (storage, some (.compaction failure))
    | .ok preparation =>
      match call.hook.result with
      | .error failure => (storage, some failure)
      | .ok provided =>
        match compactResult call.summarize call.options provided preparation,
            call.writeError with
        | .error error, _ => (storage, some (.compaction (.compaction error)))
        | .ok _, some error => (storage, some (.session error))
        | .ok result, none =>
          match appendTypedEntry storage call.stamp
              (compactionBody result provided.isSome) with
          | .error error => (storage, some (.session error))
          | .ok next => (next, call.listenerError.map .thrown)

def appendEntries (storage : Storage) : List (Stamp × EntryBody) → Storage × Option RetryFailure
  | [] => (storage, none)
  | (stamp, body) :: rest =>
    match appendTypedEntry storage stamp body with
    | .error error => (storage, some (.session error))
    | .ok next => appendEntries next rest

def Appending.run (call : Appending) (storage : Storage) : Storage × Option RetryFailure :=
  match appendEntries storage call.entries with
  | (next, some failure) => (next, some failure)
  | (next, none) => (next, call.error.map .thrown)

def interrupted (storage : Storage) (call : RetryCall) (failure : RetryFailure) :
    Harness Storage × RetryOutcome :=
  let ended := call.interrupt.run storage
  ({ phase := .idle, storage := ended.1 }, .rejected (ended.2.getD failure))

def turnStateFailure (storage : Storage) (call : RetryCall) : Option RetryFailure :=
  match buildContext storage with
  | .error error => some (.session error)
  | .ok _ => call.turnStateError.map .thrown

/-- The run of a retry, once its leaf has been moved and its session compacted. -/
def runRetry (storage : Storage) (call : RetryCall) : Harness Storage × RetryOutcome :=
  match call.start.run storage with
  | (next, some failure) => ({ phase := .idle, storage := next }, .rejected failure)
  | (next, none) =>
    match turnStateFailure next call, call.continuation with
    | some failure, _ => interrupted next call failure
    | none, .appends => ({ phase := .retry, storage := next }, .continued)
    | none, .rejected before error =>
      interrupted (before.run next).1 call (((before.run next).2).getD (.thrown error))

def retry (harness : Harness Storage) (call : RetryCall) : Harness Storage × RetryOutcome :=
  if harness.phase ≠ .idle then (harness, .rejected .busy)
  else
    match getBranch harness.storage with
    | .error error => (harness, .rejected (.session error))
    | .ok branch =>
      match latestError branch, call.move with
      | none, _ => (harness, .rejected .notAnError)
      | some _, .error error => (harness, .rejected (.session error))
      | some latest, .ok stamp =>
        match SessionStorage.setLeafId harness.storage stamp latest.parentId with
        | .error error => (harness, .rejected (.session error))
        | .ok moved =>
          match call.compact with
          | none => runRetry moved call
          | some compaction =>
            match compactForRetry moved compaction with
            | (next, some failure) =>
              ({ phase := .idle, storage := next }, .rejected failure)
            | (next, none) => runRetry next call

/-- A retry is accepted: the harness is idle and its latest message is an assistant error. -/
def Accepts (harness : Harness Storage) : Prop :=
  harness.phase = .idle ∧ ∃ branch latest,
    getBranch harness.storage = .ok branch ∧ latestError branch = some latest

end Retry

def Continuation.entries : Continuation → List (Stamp × EntryBody)
  | .appends => []
  | .rejected before _ => before.entries

def RetryCall.entries (call : RetryCall) : List (Stamp × EntryBody) :=
  call.start.entries ++ call.continuation.entries ++ call.interrupt.entries

/-- The entries of a call are new ones, and none of them moves the leaf elsewhere. -/
structure RetryCall.Fresh (call : RetryCall) (storage : InMemorySessionStorage) : Prop where
  move : ∀ stamp, call.move = .ok stamp → storage.getEntry stamp.id = none
  compact : ∀ compaction, call.compact = some compaction →
    storage.getEntry compaction.stamp.id = none
  entries : ∀ entry ∈ call.entries, storage.getEntry entry.1.id = none ∧
    ∀ target, entry.2 ≠ .leaf target

/-- The leaf of the session and its context are as they were, and an idle harness accepts
another retry. -/
structure AsBefore (harness after : Harness InMemorySessionStorage) : Prop where
  leaf : after.storage.leafId = harness.storage.leafId
  context : ∀ options, buildContext after.storage options =
    buildContext harness.storage options
  accepts : harness.phase = .idle → Accepts after

section Moved

open InMemorySessionStorage

variable {storage next : InMemorySessionStorage} {id : EntryId}

/-- An entry that is appended is the leaf, unless it moves the leaf. -/
theorem leafId_appendTypedEntry {stamp : Stamp} {body : EntryBody}
    (plain : ∀ target, body ≠ .leaf target)
    (appended : appendTypedEntry storage stamp body = .ok next) : next.leafId = some stamp.id := by
  change (storage.getLeafId >>= fun leafId => _) = _ at appended
  cases leaf : storage.getLeafId with
  | error error =>
    rw [leaf] at appended
    cases appended
  | ok leafId =>
    rw [leaf] at appended
    cases appended
    change leafIdAfterEntry _ = _
    cases body with
    | leaf target => exact (plain target rfl).elim
    | _ => rfl

section

variable (away : storage.leafId ≠ some id)
include away

theorem appendEntries_away {entries : List (Stamp × EntryBody)}
    (new : ∀ entry ∈ entries, entry.1.id ≠ id ∧ ∀ target, entry.2 ≠ .leaf target) :
    (appendEntries storage entries).1.leafId ≠ some id := by
  induction entries generalizing storage with
  | nil => exact away
  | cons entry rest hypothesis =>
    obtain ⟨stamp, body⟩ := entry
    obtain ⟨different, plain⟩ := new _ (mem_cons_self ..)
    unfold appendEntries
    cases appended : appendTypedEntry storage stamp body with
    | error error => exact away
    | ok next =>
      refine hypothesis ?_ fun entry member => new entry (mem_cons_of_mem _ member)
      rw [leafId_appendTypedEntry plain appended]
      exact fun same => different (Option.some.inj same)

theorem Appending.run_away {call : Appending}
    (new : ∀ entry ∈ call.entries, entry.1.id ≠ id ∧ ∀ target, entry.2 ≠ .leaf target) :
    (call.run storage).1.leafId ≠ some id := by
  have appended := appendEntries_away away new
  unfold Appending.run
  cases ran : appendEntries storage call.entries with
  | mk next failure =>
    rw [ran] at appended
    cases failure <;> exact appended

theorem compactForRetry_away {call : RetryCompaction}
    (new : call.stamp.id ≠ id) : (compactForRetry storage call).1.leafId ≠ some id := by
  unfold compactForRetry
  split
  · exact away
  split
  · exact away
  split
  · exact away
  split
  · exact away
  · exact away
  split
  · exact away
  · rename_i appended
    rw [leafId_appendTypedEntry (fun _ same => by cases same) appended]
    exact fun same => new (Option.some.inj same)

theorem runRetry_away {call : RetryCall}
    (new : ∀ entry ∈ call.entries, entry.1.id ≠ id ∧ ∀ target, entry.2 ≠ .leaf target) :
    (runRetry storage call).1.storage.leafId ≠ some id := by
  have started : (call.start.run storage).1.leafId ≠ some id :=
    Appending.run_away away fun entry member =>
      new entry (mem_append_left _ (mem_append_left _ member))
  have ends {storage : InMemorySessionStorage} (away : storage.leafId ≠ some id)
      (failure : RetryFailure) :
      (interrupted storage call failure).1.storage.leafId ≠ some id :=
    Appending.run_away away fun entry member => new entry (mem_append_right _ member)
  unfold runRetry
  cases ran : call.start.run storage with
  | mk next failure =>
    rw [ran] at started
    cases failure with
    | some failure => exact started
    | none =>
      dsimp only
      cases turnStateFailure next call with
      | some failure => exact ends started failure
      | none =>
        cases continues : call.continuation with
        | appends => exact started
        | rejected before error =>
          refine ends (Appending.run_away started fun entry member => ?_) _
          refine new entry (mem_append_left _ (mem_append_right _ ?_))
          rw [continues]
          exact member

end

theorem leaf_of_branch {entries branch : List SessionTreeEntry} (appended : Appended entries)
    {entry : SessionTreeEntry} (loads : getBranch (afterAppending entries) = .ok branch)
    (member : entry ∈ branch) :
    ∃ id, leafIdAfter entries = some id ∧ entry.parentId ≠ some id ∧ entry ∈ entries := by
  obtain ⟨path, complete, loaded, ordered⟩ := getBranch_afterAppending appended
  obtain rfl : loadedPath path = branch := Except.ok.inj (loaded.symm.trans loads)
  obtain ⟨hidden, split⟩ := loadedPath_split path
  have visited : entry ∈ path := by
    rw [split]
    exact mem_append_right _ member
  have known := ordered.subset visited
  cases leaf : leafIdAfter entries with
  | none =>
    rw [leaf] at complete
    obtain rfl : path = [] := complete
    cases visited
  | some id =>
    rw [leaf] at complete
    obtain ⟨node, found, chain⟩ := complete
    refine ⟨id, rfl, fun link => ?_, known⟩
    obtain ⟨inside, named⟩ := (appended.grows.find_iff id node).mp found
    have self := appended.grows.find_self inside
    have edge : ParentChain.IsParent SessionTreeEntry.parentId
        (GrownTree.find SessionTreeEntry.id entries) node.id entry.id :=
      ⟨entry, appended.grows.find_self known, link.trans (congrArg some named.symm)⟩
    obtain ⟨rest, whole⟩ := chain.head
    have climbed := mem_reverse.mpr visited
    rw [whole] at climbed chain
    rcases mem_cons.mp climbed with rfl | above
    · exact appended.grows.acyclic _ (.single edge)
    have keyed (key : EntryId) (other : SessionTreeEntry)
        (found : GrownTree.find SessionTreeEntry.id entries key = some other) :
        other.id = key := (appended.grows.inside key other found).1
    exact appended.grows.acyclic _
      (.head edge (ParentChain.Chain.transGen_of_mem keyed self chain above))

theorem mem_of_latestError {branch : List SessionTreeEntry} {latest : SessionTreeEntry}
    (found : latestError branch = some latest) : latest ∈ branch := by
  obtain ⟨here, -⟩ := Option.filter_eq_some_iff.mp found
  exact mem_reverse.mp (mem_of_find?_eq_some here)

theorem retry_moves {entries branch : List SessionTreeEntry} (appended : Appended entries)
    {latest : SessionTreeEntry} {call : RetryCall} {stamp : Stamp}
    (loads : getBranch (afterAppending entries) = .ok branch)
    (latestFound : latestError branch = some latest) (written : call.move = .ok stamp)
    (fresh : call.Fresh (afterAppending entries)) :
    (retry { phase := .idle, storage := afterAppending entries } call).1.storage.leafId ≠
      leafIdAfter entries := by
  obtain ⟨id, leaf, different, known⟩ :=
    leaf_of_branch appended loads (mem_of_latestError latestFound)
  have old := appended.leaf_mem leaf
  have new {stamp : Stamp} (absent : (afterAppending entries).getEntry stamp.id = none) :
      stamp.id ≠ id := by
    rintro rfl
    exact (getEntry_eq_none_iff appended stamp.id).mp absent old
  obtain ⟨older, newer, same⟩ := append_of_mem known
  have parents (parent : EntryId) (link : latest.parentId = some parent) :
      parent ∈ entries.map SessionTreeEntry.id := by
    subst same
    rw [map_append]
    exact mem_append_left _ (appended.grows.parent_before link)
  obtain ⟨moved, moves, away⟩ : ∃ moved,
      SessionStorage.setLeafId (afterAppending entries) stamp latest.parentId = .ok moved ∧
        moved.leafId ≠ some id := by
    refine ⟨(afterAppending entries).appendEntry
      ⟨stamp.id, leafIdAfter entries, stamp.timestamp, .leaf latest.parentId⟩, ?_, different⟩
    change (afterAppending entries).setLeafId stamp latest.parentId = _
    rw [setLeafId_eq, unknown?_afterAppending appended parents]
    rfl
  have others (entry : Stamp × EntryBody) (member : entry ∈ call.entries) :
      entry.1.id ≠ id ∧ ∀ target, entry.2 ≠ .leaf target :=
    ⟨new (fresh.entries entry member).1, (fresh.entries entry member).2⟩
  rw [leaf]
  unfold retry
  rw [if_neg (fun busy => busy rfl), loads]
  dsimp only
  rw [latestFound, written]
  dsimp only
  rw [moves]
  dsimp only
  cases compacts : call.compact with
  | none => exact runRetry_away away others
  | some compaction =>
    have compacted := compactForRetry_away away (new (fresh.compact compaction compacts))
    dsimp only
    cases ran : compactForRetry moved compaction with
    | mk next failure =>
      rw [ran] at compacted
      cases failure with
      | some failure => exact compacted
      | none => exact runRetry_away compacted others

/-- Up to the first message of its continuation, a retry leaves the session as it was if and only
if the harness was busy or the entry that moves the leaf was not written. -/
theorem retry_asBefore_iff (harness : Harness InMemorySessionStorage)
    (reachable : Session.Reachable empty harness.storage)
    {branch : List SessionTreeEntry} {latest : SessionTreeEntry}
    (loads : Session.getBranch harness.storage = .ok branch)
    (latestFound : latestError branch = some latest) (call : RetryCall)
    (fresh : call.Fresh harness.storage) :
    AsBefore harness (retry harness call).1 ↔
      harness.phase ≠ .idle ∨ ∃ error, call.move = .error error := by
  constructor
  · intro same
    by_contra neither
    rw [not_or, not_not] at neither
    obtain ⟨idle, wrote⟩ := neither
    obtain ⟨phase, storage⟩ := harness
    obtain rfl : phase = .idle := idle
    obtain ⟨entries, appended, rfl⟩ := appended_of_reachable reachable
    cases written : call.move with
    | error error => exact wrote ⟨error, written⟩
    | ok stamp => exact retry_moves appended loads latestFound written fresh same.leaf
  · intro early
    have unchanged : (retry harness call).1 = harness := by
      unfold retry
      by_cases busy : harness.phase ≠ .idle
      · rw [if_pos busy]
      rw [if_neg busy, loads]
      dsimp only
      rw [latestFound]
      rcases early with busy' | ⟨error, unwritten⟩
      · exact (busy busy').elim
      · rw [unwritten]
    rw [unchanged]
    exact ⟨rfl, fun _ => rfl, fun idle => ⟨idle, branch, latest, loads, latestFound⟩⟩

end Moved

section Example

def failedAnswer : AssistantMessage where
  content := []
  api := "messages"
  provider := "anthropic"
  model := "sonnet"
  usage := ⟨0, 0, 0, 0, none, none, 0, ⟨0, 0, 0, 0, 0⟩⟩
  stopReason := .error
  errorMessage := some "overloaded"
  timestamp := 2

def failedSession : InMemorySessionStorage :=
  performAll .empty
    [(⟨.nth 'm' 1, 1⟩, .appendMessage (.user (.text "one") 1)),
      (⟨.nth 'm' 2, 2⟩, .appendMessage (.assistant failedAnswer))]

theorem failedSession_reachable : Session.Reachable .empty failedSession :=
  reachable_performAll .start ⟨⟨rfl, trivial⟩, ⟨rfl, trivial⟩, trivial⟩

def unprompted : RetryCall where
  move := .ok ⟨.nth 'l' 1, 3⟩
  start := { entries := [(⟨.nth 'j' 1, 4⟩, .custom "recode.agent_harness.journal" none)] }
  turnStateError := some "system prompt failed"
  interrupt := { entries := [(⟨.nth 'j' 2, 5⟩, .custom "recode.agent_harness.journal" none)] }

theorem unprompted_fresh : unprompted.Fresh failedSession where
  move stamp same := by
    cases same
    rfl
  compact compaction same := by cases same
  entries entry member := by
    rcases mem_cons.mp member with rfl | member
    · exact ⟨rfl, fun _ same => by cases same⟩
    · obtain rfl := mem_singleton.mp member
      exact ⟨rfl, fun _ same => by cases same⟩

/-- The entry that moves the leaf cannot be written. -/
def unmoved : RetryCall :=
  { unprompted with move := .error ⟨.storage, "no space left"⟩ }

theorem unmoved_fresh : unmoved.Fresh failedSession where
  move stamp same := by cases same
  compact compaction same := by cases same
  entries := unprompted_fresh.entries

/-- That retry is rejected, and the session is as it was. -/
theorem retry_asBefore_unmoved :
    (retry { phase := .idle, storage := failedSession } unmoved).2 =
        .rejected (.session ⟨.storage, "no space left"⟩) ∧
      AsBefore { phase := .idle, storage := failedSession }
        (retry { phase := .idle, storage := failedSession } unmoved).1 :=
  ⟨rfl, (@retry_asBefore_iff { phase := .idle, storage := failedSession } failedSession_reachable
    [_, _] _ rfl rfl unmoved unmoved_fresh).mpr (Or.inr ⟨_, rfl⟩)⟩

/-- The leaf is left at the question when a retry cannot make its system prompt. -/
theorem not_retry_asBefore :
    ¬ ∀ (harness : Harness InMemorySessionStorage) (branch : List SessionTreeEntry)
        (latest : SessionTreeEntry) (call : RetryCall) (failure : RetryFailure),
      Session.Reachable .empty harness.storage → Session.getBranch harness.storage = .ok branch →
        latestError branch = some latest → call.Fresh harness.storage →
          (retry harness call).2 = .rejected failure → AsBefore harness (retry harness call).1 := by
  intro asBefore
  have same := asBefore { phase := .idle, storage := failedSession } _ _ unprompted _
    failedSession_reachable rfl rfl unprompted_fresh rfl
  exact absurd same.leaf (by decide)

end Example

end Recode.AgentHarness

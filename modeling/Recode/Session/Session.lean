import Recode.Session.BranchWalk

/-! # Sessions over a storage

A session appends entries at the current leaf of its storage and moves the leaf.
The storage is any type with the operations of the storage interface; identifiers
and times come from outside, as stamps. -/

namespace Recode

/-- The identifier and the time of a new entry. -/
structure Stamp where
  id : EntryId
  timestamp : Nat
deriving DecidableEq

/-- Which entries to list. -/
structure SessionEntryCursorOptions where
  afterEntrySeq : Option Nat := none
  limit : Option Nat := none
deriving DecidableEq

/-- The operations a session uses of its storage. -/
class SessionStorage (Storage : Type) where
  getLeafId : Storage → Except SessionError (Option EntryId)
  setLeafId : Storage → Stamp → Option EntryId → Except SessionError Storage
  appendEntry : Storage → SessionTreeEntry → Except SessionError Storage
  getEntry : Storage → EntryId → Option SessionTreeEntry
  getPathToRootOrCompaction : Storage → Option EntryId → Except SessionError (List SessionTreeEntry)
  getEntries : Storage → SessionEntryCursorOptions → List SessionTreeEntry

/-- The summary of a branch that the session leaves. -/
structure MoveSummary where
  summary : String
  details : Option Json
  usage : Option Usage
  fromHook : Option Bool

/-- The calls that change a session. -/
inductive SessionCall where
  | appendMessage (message : AgentMessage)
  | appendThinkingLevelChange (thinkingLevel : String)
  | appendModelChange (provider modelId : String)
  | appendActiveToolsChange (activeToolNames : List String)
  | appendCompaction (data : CompactionData)
  | appendCustomEntry (customType : String) (data : Option Json)
  | appendCustomMessageEntry (customType : String) (content : InputContent) (display : Bool)
      (details : Option Json)
  | appendLabel (targetId : EntryId) (label : Option String)
  | appendSessionName (name : String)
  | moveTo (entryId : Option EntryId) (summary : Option (Stamp × MoveSummary))

namespace Session

variable {Storage : Type} [SessionStorage Storage]

open SessionStorage hiding getPathToRootOrCompaction

/-- Replace every run of line breaks by one blank. -/
def joinLines : List Char → List Char
  | [] => []
  | [char] => if char = '\r' ∨ char = '\n' then [' '] else [char]
  | char :: next :: rest =>
    if char = '\r' ∨ char = '\n' then
      if next = '\r' ∨ next = '\n' then joinLines (next :: rest)
      else ' ' :: joinLines (next :: rest)
    else char :: joinLines (next :: rest)

def sanitizedName (name : String) : String :=
  Text.trim (String.ofList (joinLines name.toList))

def getBranch (storage : Storage) (fromId : Option EntryId := none) :
    Except SessionError (List SessionTreeEntry) := do
  let leafId ← match fromId with
    | some id => .ok (some id)
    | none => getLeafId storage
  SessionStorage.getPathToRootOrCompaction storage leafId

def buildContext (storage : Storage) (options : SessionContextBuildOptions := .default) :
    Except SessionError SessionContext := do
  return buildSessionContext (← getBranch storage) options

def appendTypedEntry (storage : Storage) (stamp : Stamp) (body : EntryBody) :
    Except SessionError Storage := do
  appendEntry storage ⟨stamp.id, ← getLeafId storage, stamp.timestamp, body⟩

def appendLabel (storage : Storage) (stamp : Stamp) (targetId : EntryId)
    (label : Option String) : Except SessionError Storage :=
  match getEntry storage targetId with
  | none => .error (.entryNotFound targetId)
  | some _ => appendTypedEntry storage stamp (.label targetId label)

def branchSummaryEntry (stamp : Stamp) (entryId : Option EntryId) (summary : MoveSummary) :
    SessionTreeEntry :=
  ⟨stamp.id, entryId, stamp.timestamp, .branchSummary
    { fromId := (entryId.map EntryId.text).getD "root"
      summary := summary.summary
      details := summary.details
      usage := summary.usage
      fromHook := summary.fromHook }⟩

/-- Move the leaf, and append a summary of the branch left behind when there is one.
The move stays when appending the summary fails. -/
def moveTo (storage : Storage) (stamp : Stamp) (entryId : Option EntryId)
    (summary : Option (Stamp × MoveSummary)) : Storage × Option SessionError :=
  match unknown? (fun id => (getEntry storage id).isSome) entryId with
  | some missing => (storage, some (.entryNotFound missing))
  | none =>
    match setLeafId storage stamp entryId with
    | .error error => (storage, some error)
    | .ok moved =>
      match summary with
      | none => (moved, none)
      | some (summaryStamp, summary) =>
        match appendEntry moved (branchSummaryEntry summaryStamp entryId summary) with
        | .error error => (moved, some error)
        | .ok summarized => (summarized, none)

/-- What a call of a single storage operation leaves behind. -/
def settle (storage : Storage) : Except SessionError Storage → Storage × Option SessionError
  | .ok next => (next, none)
  | .error error => (storage, some error)

/-- Perform a call: the storage it leaves behind and the error it throws. -/
def perform (storage : Storage) (stamp : Stamp) : SessionCall → Storage × Option SessionError
  | .appendMessage message => settle storage (appendTypedEntry storage stamp (.message message))
  | .appendThinkingLevelChange level =>
    settle storage (appendTypedEntry storage stamp (.thinkingLevelChange level))
  | .appendModelChange provider modelId =>
    settle storage (appendTypedEntry storage stamp (.modelChange provider modelId))
  | .appendActiveToolsChange names =>
    settle storage (appendTypedEntry storage stamp (.activeToolsChange names))
  | .appendCompaction data => settle storage (appendTypedEntry storage stamp (.compaction data))
  | .appendCustomEntry customType data =>
    settle storage (appendTypedEntry storage stamp (.custom customType data))
  | .appendCustomMessageEntry customType content display details =>
    settle storage
      (appendTypedEntry storage stamp (.customMessage customType content display details))
  | .appendLabel targetId label => settle storage (appendLabel storage stamp targetId label)
  | .appendSessionName name =>
    settle storage (appendTypedEntry storage stamp (.sessionInfo (some (sanitizedName name))))
  | .moveTo entryId summary => moveTo storage stamp entryId summary

/-- A call brings identifiers that the storage does not know. -/
def Fresh (storage : Storage) (stamp : Stamp) (call : SessionCall) : Prop :=
  getEntry storage stamp.id = none ∧
    match call with
    | .moveTo _ (some (summaryStamp, _)) =>
      getEntry storage summaryStamp.id = none ∧ summaryStamp.id ≠ stamp.id
    | _ => True

/-- The storages that calls with new identifiers lead to. -/
inductive Reachable (initial : Storage) : Storage → Prop
  | start : Reachable initial initial
  | perform {storage : Storage} (reachable : Reachable initial storage) (stamp : Stamp)
      (call : SessionCall) (fresh : Fresh storage stamp call) :
      Reachable initial (perform storage stamp call).1

/-- Perform calls one after the other, whether or not they throw. -/
def performAll (storage : Storage) : List (Stamp × SessionCall) → Storage
  | [] => storage
  | (stamp, call) :: calls => performAll (perform storage stamp call).1 calls

/-- Every call brings new identifiers when its turn comes. -/
def FreshAll (storage : Storage) : List (Stamp × SessionCall) → Prop
  | [] => True
  | (stamp, call) :: calls =>
    Fresh storage stamp call ∧ FreshAll (perform storage stamp call).1 calls

theorem reachable_performAll {initial storage : Storage} (reachable : Reachable initial storage)
    {calls : List (Stamp × SessionCall)} (fresh : FreshAll storage calls) :
    Reachable initial (performAll storage calls) := by
  induction calls generalizing storage with
  | nil => exact reachable
  | cons call calls ih => exact ih (reachable.perform call.1 call.2 fresh.1) fresh.2

end Session

namespace SessionCall

/-- The entry that a call appends at the current leaf. -/
def body? : SessionCall → Option EntryBody
  | .appendMessage message => some (.message message)
  | .appendThinkingLevelChange level => some (.thinkingLevelChange level)
  | .appendModelChange provider modelId => some (.modelChange provider modelId)
  | .appendActiveToolsChange names => some (.activeToolsChange names)
  | .appendCompaction data => some (.compaction data)
  | .appendCustomEntry customType data => some (.custom customType data)
  | .appendCustomMessageEntry customType content display details =>
    some (.customMessage customType content display details)
  | .appendLabel targetId label => some (.label targetId label)
  | .appendSessionName name => some (.sessionInfo (some (Session.sanitizedName name)))
  | .moveTo _ _ => none

theorem eq_appendCompaction {call : SessionCall} {data : CompactionData}
    (named : call.body? = some (.compaction data)) : call = .appendCompaction data := by
  cases call <;> simp only [body?, Option.some.injEq, reduceCtorEq] at named
  rw [EntryBody.compaction.inj named]

end SessionCall

namespace Session

variable {Storage : Type} [SessionStorage Storage]

/-- A call either appends one entry at the current leaf, fails before it touches the
storage, or moves. -/
theorem perform_cases (storage : Storage) (stamp : Stamp) (call : SessionCall) :
    (∃ body, call.body? = some body ∧ (∀ targetId, body ≠ .leaf targetId) ∧
      ((∃ error, perform storage stamp call = (storage, some error) ∧
          ∃ targetId label, body = .label targetId label ∧
            SessionStorage.getEntry storage targetId = none) ∨
        perform storage stamp call = settle storage (appendTypedEntry storage stamp body))) ∨
      ∃ entryId summary, call = .moveTo entryId summary := by
  cases call with
  | moveTo entryId summary => exact .inr ⟨entryId, summary, rfl⟩
  | appendLabel targetId label =>
    refine .inl ⟨_, rfl, (by intro _ same; cases same), ?_⟩
    cases found : SessionStorage.getEntry storage targetId with
    | none =>
      exact .inl ⟨.entryNotFound targetId, by simp only [perform, appendLabel, found, settle],
        _, _, rfl, found⟩
    | some entry => exact .inr (by simp only [perform, appendLabel, found])
  | _ => exact .inl ⟨_, rfl, (by intro _ same; cases same), .inr rfl⟩

end Session
end Recode

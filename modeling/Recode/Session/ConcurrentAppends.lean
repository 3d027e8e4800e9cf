import Recode.Session.JsonlStorage

/-! # Appends that are not awaited

A call that appends an entry draws an identifier, reads the leaf, writes a line
and publishes the entry, and awaits each of these in turn. Callers that do not
await each other may have their steps interleaved in any way. -/

namespace Recode

/-- How far an append is. -/
inductive AppendPhase where
  | idle
  | called (body : EntryBody)
  | identified (body : EntryBody) (id : EntryId)
  | linked (body : EntryBody) (id : EntryId) (parentId : Option EntryId)
  | written (entry : SessionTreeEntry)
  | resolved (entry : SessionTreeEntry)
  | rejected

/-- The steps of appends. An identifier is drawn that the storage does not hold, and a write may
fail. -/
inductive AppendStep where
  | call (caller : Nat) (call : SessionCall)
  | createEntryId (caller : Nat) (id : EntryId)
  | getLeafId (caller : Nat)
  | appendFile (caller : Nat) (timestamp : Nat) (succeeds : Bool)
  | publish (caller : Nat)

/-- A storage, the appends under way, and the entries of the appends that resolved with their
callers. -/
structure Appends where
  storage : JsonlSessionStorage
  phase : Nat → AppendPhase
  resolved : List (Nat × SessionTreeEntry)

namespace Appends

/-- A storage at rest. -/
def start (storage : JsonlSessionStorage) : Appends := ⟨storage, fun _ => .idle, []⟩

variable (appends : Appends)

def advance (caller : Nat) (phase : AppendPhase) : Appends :=
  { appends with phase := Function.update appends.phase caller phase }

def appended : List SessionTreeEntry := appends.resolved.map Prod.snd

def unknownTarget : SessionCall → Bool
  | .appendLabel targetId _ => (appends.storage.getEntry targetId).isNone
  | _ => false

def step : AppendStep → Option Appends
  | .call caller call =>
    match appends.phase caller, call.body? with
    | .idle, some body => some (appends.advance caller
        (if appends.unknownTarget call then .rejected else .called body))
    | _, _ => none
  | .createEntryId caller id =>
    match appends.phase caller with
    | .called body =>
      if appends.storage.byId.contains id then none
      else some (appends.advance caller (.identified body id))
    | _ => none
  | .getLeafId caller =>
    match appends.phase caller with
    | .identified body id =>
      match appends.storage.getLeafId with
      | .ok leafId => some (appends.advance caller (.linked body id leafId))
      | .error _ => some (appends.advance caller .rejected)
    | _ => none
  | .appendFile caller timestamp succeeds =>
    match appends.phase caller with
    | .linked body id parentId =>
      if succeeds then
        some { appends.advance caller (.written ⟨id, parentId, timestamp, body⟩) with
          storage := appends.storage.appendFile ⟨id, parentId, timestamp, body⟩ }
      else some (appends.advance caller .rejected)
    | _ => none
  | .publish caller =>
    match appends.phase caller with
    | .written entry => some { appends.advance caller (.resolved entry) with
        storage := appends.storage.publish entry
        resolved := appends.resolved ++ [(caller, entry)] }
    | _ => none

def run : Appends → List AppendStep → Option Appends
  | appends, [] => some appends
  | appends, step :: steps => (appends.step step).bind fun next => run next steps

def Settled : Prop :=
  ∀ caller, appends.phase caller = .idle ∨ (∃ entry, appends.phase caller = .resolved entry) ∨
    appends.phase caller = .rejected

/-- The branch of the leaf holds every appended entry once, each under the one before it, and
reading the file again gives the same branch. -/
def OnOneBranch : Prop :=
  ∃ path, Session.getBranch appends.storage = .ok path ∧
    appends.appended.Subperm path ∧ (path.map SessionTreeEntry.id).Nodup ∧
    (∃ above, GrownTree.LinkedFrom SessionTreeEntry.id SessionTreeEntry.parentId above path) ∧
    Session.getBranch (JsonlSessionStorage.loadJsonlStorage appends.storage.file) = .ok path

end Appends

/-- When a caller reads the leaf, every caller that read it before has published its entry. Only
callers that resolve count. -/
def ReadsAfterPublication (steps : List AppendStep) : Prop :=
  ∀ before reader after, steps = before ++ .getLeafId reader :: after → .publish reader ∈ steps →
    ∀ other, .getLeafId other ∈ before → .publish other ∈ steps → .publish other ∈ before

end Recode

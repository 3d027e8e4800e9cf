import Recode.Message

/-! # Session tree entries

A session is a tree of entries. Every entry names its parent, and the type of an
entry decides what else it carries. -/

namespace Recode

/-- The identifier of an entry. Generated identifiers and identifiers read from a
session file are never empty, so a truth test on an optional identifier only asks
whether it is present. -/
structure EntryId where
  text : String
  nonempty : text ≠ ""
deriving DecidableEq

/-- The identifier made of a letter and a number. -/
def EntryId.nth (letter : Char) (number : Nat) : EntryId where
  text := String.ofList (letter :: Nat.toDigits 10 number)
  nonempty := by simp

/-- What a compaction entry records. -/
structure CompactionData where
  summary : String
  firstKeptEntryId : Option EntryId
  tokensBefore : Nat
  retainedTail : Option (List AgentMessage)
  details : Option Json
  usage : Option Usage
  fromHook : Option Bool

/-- What a branch summary entry records. -/
structure BranchSummaryData where
  fromId : String
  summary : String
  details : Option Json
  usage : Option Usage
  fromHook : Option Bool

/-- The content of an entry, by type. -/
inductive EntryBody where
  | message (message : AgentMessage)
  | thinkingLevelChange (thinkingLevel : String)
  | modelChange (provider modelId : String)
  | activeToolsChange (activeToolNames : List String)
  | compaction (data : CompactionData)
  | branchSummary (data : BranchSummaryData)
  | custom (customType : String) (data : Option Json)
  | customMessage (customType : String) (content : InputContent) (display : Bool)
      (details : Option Json)
  | label (targetId : EntryId) (label : Option String)
  | sessionInfo (name : Option String)
  | leaf (targetId : Option EntryId)

/-- The types of entries. -/
inductive EntryType where
  | message | thinkingLevelChange | modelChange | activeToolsChange | compaction
  | branchSummary | custom | customMessage | label | sessionInfo | leaf
deriving DecidableEq

/-- The type of an entry with this content. -/
def EntryBody.type : EntryBody → EntryType
  | .message _ => .message
  | .thinkingLevelChange _ => .thinkingLevelChange
  | .modelChange _ _ => .modelChange
  | .activeToolsChange _ => .activeToolsChange
  | .compaction _ => .compaction
  | .branchSummary _ => .branchSummary
  | .custom _ _ => .custom
  | .customMessage _ _ _ _ => .customMessage
  | .label _ _ => .label
  | .sessionInfo _ => .sessionInfo
  | .leaf _ => .leaf

/-- An entry of a session tree. -/
structure SessionTreeEntry where
  id : EntryId
  parentId : Option EntryId
  timestamp : Nat
  body : EntryBody

namespace SessionTreeEntry

/-- The compaction an entry records. -/
def compaction? (entry : SessionTreeEntry) : Option CompactionData :=
  match entry.body with
  | .compaction data => some data
  | _ => none

def isCompaction (entry : SessionTreeEntry) : Bool := entry.compaction?.isSome

def message? (entry : SessionTreeEntry) : Option AgentMessage :=
  match entry.body with
  | .message message => some message
  | _ => none

/-- Whether an entry is a compaction that carries the messages it retains. -/
def retainsTail (entry : SessionTreeEntry) : Bool :=
  (entry.compaction?.bind CompactionData.retainedTail).isSome

end SessionTreeEntry

/-- The entry at which the branch moves on after an entry is appended. -/
def leafIdAfterEntry (entry : SessionTreeEntry) : Option EntryId :=
  match entry.body with
  | .leaf targetId => targetId
  | _ => some entry.id

/-- The identifier an operation rejects: a present one that is not known. -/
def unknown? (known : EntryId → Bool) (id : Option EntryId) : Option EntryId :=
  id.filter fun id => !known id

theorem unknown?_eq_none_iff (known : EntryId → Bool) (id : Option EntryId) :
    unknown? known id = none ↔ ∀ present, id = some present → known present = true := by
  simp [unknown?, Option.filter_eq_none_iff]

/-- What went wrong in a session operation. -/
inductive SessionErrorCode where
  | notFound | invalidSession | invalidEntry | invalidForkTarget | storage
deriving DecidableEq

/-- A session error. -/
structure SessionError where
  code : SessionErrorCode
  message : String
deriving DecidableEq

namespace SessionError

/-- An operation named an entry that the session does not hold. -/
def entryNotFound (id : EntryId) : SessionError :=
  ⟨.notFound, "Entry " ++ id.text ++ " not found"⟩

/-- The session itself names an entry that it does not hold. -/
def danglingEntry (id : EntryId) : SessionError :=
  ⟨.invalidSession, "Entry " ++ id.text ++ " not found"⟩

end SessionError
end Recode

import Recode.Lib.Json.Value

/-! # Version 4 session data

Entries, lane records and queries of a version 4 session. An entry or a record is
a JSON object; the structures keep its own fields in order beside the values the
session reads, and prove that the two agree. Sequence numbers and times are
natural numbers, in the safe integer range of the program. -/

namespace Recode.SessionV4

/-- The codes of session errors. -/
inductive SessionErrorCode where
  | notFound | alreadyExists | invalidEntry | invalidPayload | invalidLane | invalidQuery
  | invalidForkTarget | storage
deriving DecidableEq, Repr

/-- A session error. -/
structure SessionError where
  code : SessionErrorCode
  message : String
deriving DecidableEq, Repr

/-- The types of entries. -/
inductive EntryType where
  | message | modelChange | thinkingLevelChange | activeToolsChange | compaction
  | branchSummary | custom
deriving DecidableEq, Repr

/-- The `type` field of an entry. -/
def EntryType.text : EntryType → String
  | .message => "message"
  | .modelChange => "model_change"
  | .thinkingLevelChange => "thinking_level_change"
  | .activeToolsChange => "active_tools_change"
  | .compaction => "compaction"
  | .branchSummary => "branch_summary"
  | .custom => "custom"

/-- An entry before the storage places it: its own fields in order, among them `id`,
`type` and, for a custom entry, `customType`. The fields the storage writes around
them are not among them. -/
structure ProvisionedEntry where
  own : List (String × Json)
  id : String
  type : EntryType
  own_id : (Json.obj own).get? "id" = some (.str id)
  own_type : (Json.obj own).get? "type" = some (.str type.text)
  own_customType : type = .custom → ((Json.obj own).get? "customType").bind Json.asStr? ≠ none
  unplaced : ∀ field ∈ own, field.1 ∉ ["kind", "lane", "parentId", "seq", "timestamp"]

/-- The custom type of a custom entry. -/
def ProvisionedEntry.customType (entry : ProvisionedEntry) : Option String :=
  ((Json.obj entry.own).get? "customType").bind Json.asStr?

/-- An entry of a session. -/
structure Entry extends ProvisionedEntry where
  parentId : Option String
  seq : Nat
  timestamp : Nat

/-- What an operation does. -/
inductive OperationKind where
  | run | compaction | navigation
deriving DecidableEq, Repr

/-- The `kind` of an operation's intent. -/
def OperationKind.text : OperationKind → String
  | .run => "run"
  | .compaction => "compaction"
  | .navigation => "navigation"

/-- The numbers of a usage record that a session adds up. -/
structure RecordUsage where
  input : Decimal
  cacheRead : Decimal
  cacheWrite : Decimal
  totalTokens : Decimal
  costTotal : Decimal
deriving DecidableEq

/-- The types of records, with what the session reads of each. -/
inductive RecordContent where
  | operationStarted (intent : OperationKind)
  | abortRequested
  | operationFinished (runId : String)
  | stepAttempt
  | toolStarted
  | queueEnqueued
  | queueCancelled
  | writeDeferred
  | usage (numbers : RecordUsage)
deriving DecidableEq

/-- The `type` field of a record. -/
def RecordContent.text : RecordContent → String
  | .operationStarted _ => "operation_started"
  | .abortRequested => "abort_requested"
  | .operationFinished _ => "operation_finished"
  | .stepAttempt => "step_attempt"
  | .toolStarted => "tool_started"
  | .queueEnqueued => "queue_enqueued"
  | .queueCancelled => "queue_cancelled"
  | .writeDeferred => "write_deferred"
  | .usage _ => "usage"

/-- A record's own fields hold what the session reads of its type. -/
def RecordContent.Describes (own : List (String × Json)) : RecordContent → Prop
  | .operationStarted intent =>
    ((Json.obj own).get? "intent").bind (·.get? "kind") = some (.str intent.text)
  | .operationFinished runId => (Json.obj own).get? "runId" = some (.str runId)
  | .usage numbers => ∃ reported, (Json.obj own).get? "usage" = some reported ∧
      reported.get? "input" = some (.num numbers.input) ∧
      reported.get? "cacheRead" = some (.num numbers.cacheRead) ∧
      reported.get? "cacheWrite" = some (.num numbers.cacheWrite) ∧
      reported.get? "totalTokens" = some (.num numbers.totalTokens) ∧
      (reported.get? "cost").bind (·.get? "total") = some (.num numbers.costTotal)
  | _ => True

/-- A record before the storage places it. -/
structure NewRecord where
  own : List (String × Json)
  id : String
  lane : String
  content : RecordContent
  own_id : (Json.obj own).get? "id" = some (.str id)
  own_lane : (Json.obj own).get? "lane" = some (.str lane)
  own_type : (Json.obj own).get? "type" = some (.str content.text)
  own_content : content.Describes own
  unplaced : ∀ field ∈ own, field.1 ∉ ["kind", "seq", "timestamp"]

/-- A record of a session's lane. -/
structure LaneRecord extends NewRecord where
  seq : Nat
  timestamp : Nat

/-- The run a record belongs to. -/
def LaneRecord.runId (record : LaneRecord) : Option String :=
  ((Json.obj record.own).get? "runId").bind Json.asStr?

def LaneRecord.operationKind (record : LaneRecord) : Option OperationKind :=
  match record.content with
  | .operationStarted intent => some intent
  | _ => none

def LaneRecord.isStart (record : LaneRecord) : Bool :=
  record.operationKind.isSome

/-- The order of the results of a query. -/
inductive EntryOrder where
  | newestFirst | oldestFirst
deriving DecidableEq, Repr

/-- A query for entries. -/
structure EntryQuery where
  type : Option EntryType := none
  customType : Option String := none
  order : Option EntryOrder := none
  limit : Option Int := none
  afterSeq : Option Int := none

/-- Where a walk along a branch stops. -/
structure BranchBounds where
  stopAtType : Option EntryType := none
  stopAtId : Option String := none

/-- A query for records. -/
structure RecordQuery where
  lane : Option String := none
  type : Option String := none
  runId : Option String := none
  operationKind : Option OperationKind := none
  afterSeq : Option Int := none
  order : Option EntryOrder := none
  limit : Option Int := none

/-- The totals of a session. -/
structure SessionStats where
  messageCount : Nat
  cachedTokens : Decimal
  uncachedTokens : Decimal
  totalTokens : Decimal
  costTotal : Decimal
deriving DecidableEq

/-- A lane and its leaf. -/
structure LanePointer where
  lane : String
  leafId : Option String
deriving DecidableEq, Repr

/-- A fact about a session: its name, or the label of an entry. -/
inductive Fact where
  | name (name : String)
  | label (targetId : String) (label : Option String)
deriving DecidableEq, Repr

/-- An item of a session's log. -/
inductive LogItem where
  | entry (seq : Nat) (entry : Entry)
  | record (seq : Nat) (record : LaneRecord)
  | lane (seq : Nat) (lane : String) (leafId : Option String)
  | fact (seq : Nat) (fact : Fact)

/-- The position of a log item. -/
def LogItem.seq : LogItem → Nat
  | .entry seq _ => seq
  | .record seq _ => seq
  | .lane seq _ _ => seq
  | .fact seq _ => seq

/-- Which end of the selected entry a branch fork keeps. -/
inductive ForkPosition where
  | before | at
deriving DecidableEq, Repr

/-- How to fork a session: a branch up to an entry, or the whole tree. -/
inductive ForkOptions where
  | branch (entryId : Option String) (position : Option ForkPosition)
  | tree

end Recode.SessionV4

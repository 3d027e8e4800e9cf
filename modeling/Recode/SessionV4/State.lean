import Recode.SessionV4.Types
import Recode.Lib.Procedure
import Recode.Lib.InsertionMap

/-! # The session state

The state a version 4 session keeps in memory, the mutations that change it, the
queries that read it and the mutations that make a fork of it. Every storage
replays its mutations on a state of this kind. -/

namespace Recode.SessionV4

/-- One change of a session. -/
inductive SessionMutation where
  | entry (lane : Option String) (entry : Entry)
  | record (record : LaneRecord)
  | lane (seq : Nat) (lane : String) (leafId : Option String)
  | fact (seq : Nat) (fact : Fact)

/-- The sequence number a mutation carries. -/
def SessionMutation.seq : SessionMutation → Nat
  | .entry _ placed => placed.seq
  | .record placed => placed.seq
  | .lane seq _ _ => seq
  | .fact seq _ => seq

/-- The state of a session. -/
structure SessionState where
  sequence : Nat
  usedIds : List String
  entries : List Entry
  entriesById : InsertionMap String Entry
  records : List LaneRecord
  openOperationsByLane : InsertionMap String (InsertionMap String LaneRecord)
  lanes : InsertionMap String (Option String)
  log : List LogItem
  stats : SessionStats
  name : Option String
  labels : InsertionMap String String

/-- An action of a session. A state changed before an error stays changed. -/
abbrev StateAction := Procedure SessionState SessionError

/-- How a replay reports a mutation that does not apply. -/
def invalidMutation (message : String) : SessionError :=
  ⟨.invalidEntry, "Invalid session mutation: " ++ message⟩

namespace SessionState

def initial : SessionState where
  sequence := 0
  usedIds := []
  entries := []
  entriesById := .empty
  records := []
  openOperationsByLane := .empty
  lanes := InsertionMap.empty.insert "main" none
  log := []
  stats := ⟨0, 0, 0, 0, 0⟩
  name := none
  labels := .empty

def nextSequence (state : SessionState) : Nat := state.sequence + 1

/-- The lanes in the order of their creation. -/
def getLanes (state : SessionState) : List LanePointer :=
  state.lanes.entries.map fun pointer => ⟨pointer.1, pointer.2⟩

def requireLane (state : SessionState) (lane : String) : Except SessionError (Option String) :=
  match state.lanes.get? lane with
  | none => .error ⟨.invalidLane, "Lane not found: " ++ lane⟩
  | some leafId => .ok leafId

def validateNewLane (state : SessionState) (lane : String) : Except SessionError Unit :=
  if state.lanes.contains lane then .error ⟨.alreadyExists, "Lane already exists: " ++ lane⟩
  else .ok ()

/-- A target that must be absent or stored. -/
def validateTarget (state : SessionState) : Option String → Except SessionError Unit
  | none => .ok ()
  | some targetId =>
    if state.entriesById.contains targetId then .ok ()
    else .error ⟨.notFound, "Entry not found: " ++ targetId⟩

/-- An identifier that must be new. -/
def validateUnusedId (state : SessionState) (id : String) : Except SessionError Unit :=
  if id ∈ state.usedIds then .error ⟨.alreadyExists, "Session id already exists: " ++ id⟩
  else .ok ()

def countEntry (stats : SessionStats) (entry : Entry) : SessionStats :=
  if entry.type = .message then { stats with messageCount := stats.messageCount + 1 } else stats

def countRecord (stats : SessionStats) (record : LaneRecord) : SessionStats :=
  match record.content with
  | .usage numbers =>
    { stats with
      cachedTokens := stats.cachedTokens + numbers.cacheRead
      uncachedTokens := stats.uncachedTokens + (numbers.input + numbers.cacheWrite)
      totalTokens := stats.totalTokens + numbers.totalTokens
      costTotal := stats.costTotal + numbers.costTotal }
  | _ => stats

def trackOperation (openOperationsByLane : InsertionMap String (InsertionMap String LaneRecord))
    (record : LaneRecord) : InsertionMap String (InsertionMap String LaneRecord) :=
  match record.content with
  | .operationStarted _ =>
    openOperationsByLane.insert record.lane
      (((openOperationsByLane.get? record.lane).getD .empty).insert record.id record)
  | .operationFinished runId =>
    match openOperationsByLane.get? record.lane with
    | none => openOperationsByLane
    | some openOperations => openOperationsByLane.insert record.lane (openOperations.erase runId)
  | _ => openOperationsByLane

def setLabel (labels : InsertionMap String String) (targetId : String) :
    Option String → InsertionMap String String
  | none => labels.erase targetId
  | some label => labels.insert targetId label

/-- Apply one mutation, or report the first check it fails. -/
def applyMutation (invalid : String → SessionError) (mutation : SessionMutation) :
    StateAction Unit := do
  let state ← get
  let seq := mutation.seq
  if seq ≠ state.sequence + 1 then
    throw (invalid s!"has non-consecutive seq {seq}")
  match mutation with
  | .entry lane entry =>
    if entry.id ∈ state.usedIds then
      throw (invalid s!"contains duplicate id {entry.id}")
    if let some lane := lane then
      match state.lanes.get? lane with
      | none => throw (invalid s!"references missing lane {lane}")
      | some leafId =>
        if entry.parentId ≠ leafId then
          throw (invalid "does not chain to the lane leaf")
    if let some parentId := entry.parentId then
      if ¬ state.entriesById.contains parentId then
        throw (invalid s!"references missing parent {parentId}")
    modify fun state => { state with
      sequence := seq
      usedIds := state.usedIds ++ [entry.id]
      entries := state.entries ++ [entry]
      entriesById := state.entriesById.insert entry.id entry }
    if let some lane := lane then
      modify fun state => { state with lanes := state.lanes.insert lane (some entry.id) }
    modify fun state => { state with
      log := state.log ++ [.entry seq entry]
      stats := countEntry state.stats entry }
  | .record record =>
    if ¬ state.lanes.contains record.lane then
      throw (invalid s!"references missing lane {record.lane}")
    if record.id ∈ state.usedIds then
      throw (invalid s!"contains duplicate id {record.id}")
    modify fun state => { state with
      sequence := seq
      usedIds := state.usedIds ++ [record.id]
      records := state.records ++ [record]
      openOperationsByLane := trackOperation state.openOperationsByLane record }
    modify fun state => { state with
      log := state.log ++ [.record seq record]
      stats := countRecord state.stats record }
  | .lane _ lane leafId =>
    if let some leafId := leafId then
      if ¬ state.entriesById.contains leafId then
        throw (invalid s!"references missing lane target {leafId}")
    modify fun state => { state with
      sequence := seq
      lanes := state.lanes.insert lane leafId
      log := state.log ++ [.lane seq lane leafId] }
  | .fact _ (.name name) =>
    modify fun state => { state with
      sequence := seq
      name := some name
      log := state.log ++ [.fact seq (.name name)] }
  | .fact _ (.label targetId label) =>
    if ¬ state.entriesById.contains targetId then
      throw (invalid s!"references missing label target {targetId}")
    modify fun state => { state with
      sequence := seq
      labels := setLabel state.labels targetId label
      log := state.log ++ [.fact seq (.label targetId label)] }

/-- The entry stored under an identifier. -/
def getEntry (state : SessionState) (id : String) : Option Entry := state.entriesById.get? id

def getLabel (state : SessionState) (id : String) : Option String := state.labels.get? id

def assertValidLimit (limit : Option Int) : Except SessionError Unit :=
  if limit.any (· ≤ 0) then .error ⟨.invalidQuery, "limit must be a positive integer"⟩ else .ok ()

def assertValidCursor (afterSeq : Option Int) : Except SessionError Unit :=
  if afterSeq.any (· < 0) then
    .error ⟨.invalidQuery, "cursor sequence must be a non-negative integer"⟩
  else .ok ()

def ordered {Item : Type} (items : List Item) (order : Option EntryOrder) : List Item :=
  if order = some .oldestFirst then items else items.reverse

def matchesEntryQuery (entry : Entry) (query : EntryQuery) : Bool :=
  query.type.all (entry.type = ·) &&
    query.customType.all (fun customType =>
      entry.type = .custom && entry.customType = some customType) &&
    query.afterSeq.all (fun afterSeq =>
      if query.order = some .oldestFirst then (entry.seq : Int) > afterSeq
      else (entry.seq : Int) < afterSeq)

def matchesRecordQuery (record : LaneRecord) (query : RecordQuery) : Bool :=
  query.lane.all (record.lane = ·) &&
    query.type.all (record.content.text = ·) &&
    query.runId.all (fun runId =>
      if record.isStart then record.id = runId else record.runId = some runId) &&
    query.operationKind.all (fun kind => record.operationKind = some kind) &&
    query.afterSeq.all (fun afterSeq => (record.seq : Int) > afterSeq)

/-- The loop that collects results: it keeps matching items and leaves at a bound or at
the limit. The flag says whether it left early. -/
def collect {Item : Type} (keep bound : Item → Bool) (limit : Option Int) :
    List Item → List Item → List Item × Bool
  | results, [] => (results, false)
  | results, item :: items =>
    let results := if keep item then results ++ [item] else results
    if bound item || limit = some (results.length : Int) then (results, true)
    else collect keep bound limit results items

def findEntries (state : SessionState) (query : EntryQuery) : Except SessionError (List Entry) := do
  assertValidLimit query.limit
  assertValidCursor query.afterSeq
  return (collect (matchesEntryQuery · query) (fun _ => false) query.limit []
    (ordered state.entries query.order)).1

/-- What a generator yields, and the error it ends with if it is run to its end. -/
structure Yielded where
  entries : List Entry
  failure : Option SessionError

/-- The walk stops at an entry. -/
def reachedBound (bounds : BranchBounds) (entry : Entry) : Bool :=
  bounds.stopAtId = some entry.id || bounds.stopAtType = some entry.type

/-- The loop of `walkToRoot`. Each round visits a new identifier of the index, so as many
rounds as the index has entries, and one more, always suffice. -/
def walkFrom (state : SessionState) (bounds : BranchBounds) :
    Nat → List String → Entry → Yielded
  | 0, _, _ => ⟨[], none⟩
  | fuel + 1, visited, current =>
    if current.id ∈ visited then
      ⟨[], some ⟨.invalidEntry, s!"Session branch contains a cycle at {current.id}"⟩⟩
    else if reachedBound bounds current then ⟨[current], none⟩
    else
      match current.parentId with
      | none => ⟨[current], none⟩
      | some parentId =>
        match state.entriesById.get? parentId with
        | none => ⟨[current], some ⟨.invalidEntry, s!"Entry not found: {parentId}"⟩⟩
        | some above =>
          let rest := walkFrom state bounds fuel (visited ++ [current.id]) above
          ⟨current :: rest.entries, rest.failure⟩

def walkToRoot (state : SessionState) (start : Option String) (bounds : BranchBounds) : Yielded :=
  match start with
  | none => ⟨[], none⟩
  | some start =>
    match state.entriesById.get? start with
    | none => ⟨[], some ⟨.notFound, s!"Entry not found: {start}"⟩⟩
    | some current =>
      walkFrom state bounds (state.entriesById.entries.length + 1) [] current

def findEntriesOnBranch (state : SessionState) (query : EntryQuery) (bounds : BranchBounds)
    (start : String) : Except SessionError (List Entry) := do
  assertValidLimit query.limit
  assertValidCursor query.afterSeq
  if query.order = some .oldestFirst then
    let walk := state.walkToRoot (some start) {}
    match walk.failure with
    | some error => throw error
    | none =>
      return (collect (matchesEntryQuery · query) (reachedBound bounds) query.limit []
        walk.entries.reverse).1
  else
    -- The loop may leave the generator before the error it would end with.
    let walk := state.walkToRoot (some start) bounds
    let found := collect (matchesEntryQuery · query) (fun _ => false) query.limit [] walk.entries
    match walk.failure with
    | some error => if found.2 then return found.1 else throw error
    | none => return found.1

def findRecords (state : SessionState) (query : RecordQuery) :
    Except SessionError (List LaneRecord) := do
  assertValidLimit query.limit
  assertValidCursor query.afterSeq
  return (collect (matchesRecordQuery · query) (fun _ => false) query.limit []
    (ordered state.records query.order)).1

/-- The operations of a lane that have not finished, newest first. -/
def findOpenOperations (state : SessionState) (lane : String) (limit : Option Int) :
    Except SessionError (List LaneRecord) := do
  assertValidLimit limit
  let openOperations := match state.openOperationsByLane.get? lane with
    | none => []
    | some openOperations => (openOperations.entries.map Prod.snd).reverse
  match limit with
  | none => return openOperations
  | some limit => return openOperations.take limit.toNat

def getLog (state : SessionState) (afterSeq limit : Option Int) :
    Except SessionError (List LogItem) := do
  assertValidLimit limit
  assertValidCursor afterSeq
  return (collect (fun item => afterSeq.all ((item.seq : Int) > ·)) (fun _ => false) limit []
    state.log).1

def numbered : Nat → List (Nat → SessionMutation) → List SessionMutation
  | _, [] => []
  | sequence, mutation :: mutations => mutation sequence :: numbered (sequence + 1) mutations

/-- The end of the branch a fork keeps, for the entry it selects. -/
def selectedTarget (state : SessionState) (position : ForkPosition) :
    Option String → Except SessionError (Option String)
  | none => .ok none
  | some selectedEntryId =>
    let refused : SessionError := ⟨.invalidForkTarget,
      s!"Fork target is not a message entry: {selectedEntryId}"⟩
    match state.getEntry selectedEntryId with
    | none => .error refused
    | some entry =>
      if entry.type ≠ .message then .error refused
      else .ok (if position = .at then some entry.id else entry.parentId)

def forkTarget (state : SessionState) (entryId : Option String)
    (position : Option ForkPosition) : Except SessionError (Option String) := do
  let selectedEntryId ← match entryId with
    | some entryId => pure (some entryId)
    | none => state.requireLane "main"
  state.selectedTarget (position.getD (if entryId = none then .at else .before)) selectedEntryId

def forkSelection (state : SessionState) :
    ForkOptions → Except SessionError (List Entry × List LanePointer)
  | .tree => do
    let copiedEntries ← state.findEntries { order := some .oldestFirst }
    return (copiedEntries, state.getLanes)
  | .branch entryId position => do
    let targetId ← state.forkTarget entryId position
    let copiedEntries ← match targetId with
      | none => pure []
      | some targetId => state.findEntriesOnBranch { order := some .oldestFirst } {} targetId
    return (copiedEntries, [⟨"main", targetId⟩])

def forkMutations (state : SessionState) (copiedEntries : List Entry)
    (forkLanes : List LanePointer) : List SessionMutation :=
  numbered 1 <| copiedEntries.map (fun entry seq => .entry none { entry with seq }) ++
      (forkLanes.map (fun pointer seq => .lane seq pointer.lane pointer.leafId) ++
        (state.name.toList.map (fun name seq => .fact seq (.name name)) ++
          copiedEntries.filterMap fun entry => (state.labels.get? entry.id).map
            fun label seq => .fact seq (.label entry.id (some label))))

def createForkMutations (state : SessionState) (options : ForkOptions) :
    Except SessionError (List SessionMutation) := do
  let selection ← state.forkSelection options
  return state.forkMutations selection.1 selection.2

end SessionState
end Recode.SessionV4

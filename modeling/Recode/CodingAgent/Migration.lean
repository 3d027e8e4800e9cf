import Recode.CodingAgent.SessionManager

/-! # Migrating session files

The entries of a version 1 file have neither identifiers nor parents, and a compaction names the
first entry it kept by its position in the file. The migration gives every entry a short random
identifier and the entry before it as parent, and turns positions into identifiers. Files of
version 2 hold the messages of hooks under a role of their own. -/

namespace Recode.CodingAgent

open Recode List Option

/-- A random UUID. -/
structure Uuid where
  text : String
  length : text.length = 36

namespace Uuid

variable (uuid : Uuid)

/-- The first eight characters of a UUID. -/
def short : EntryId where
  text := String.ofList (uuid.text.toList.take 8)
  nonempty := by
    intro empty
    have none : uuid.text.toList.take 8 = [] := by
      rw [← String.toList_ofList (l := uuid.text.toList.take 8), empty]
      rfl
    have count := congrArg List.length none
    rw [length_take, String.length_toList, uuid.length] at count
    cases count

def full : EntryId where
  text := uuid.text
  nonempty := by
    intro empty
    have count := uuid.length
    rw [empty] at count
    cases count

end Uuid

/-- A message in a file. Messages of hooks had their own role before version 3. -/
inductive StoredMessage where
  | current (message : AgentMessage)
  | hookMessage (customType : String) (content : InputContent) (display : Bool)
      (details : Option Json) (timestamp : Nat)

/-- A compaction in a file, which names the first entry it kept by position or identifier. -/
structure StoredCompaction extends CompactionData where
  firstKeptEntryIndex : Option Nat

/-- The content of an entry in a file. No migration looks into other content. -/
inductive StoredBody where
  | message (message : StoredMessage)
  | compaction (data : StoredCompaction)
  | other (body : EntryBody)

/-- An entry in a file. Both fields of the tree are absent before version 2. -/
structure StoredEntry where
  id : Option EntryId
  parentId : Option (Option EntryId)
  timestamp : Nat
  body : StoredBody

/-- The first line of a file. -/
structure StoredHeader where
  version : Option Nat
  id : String
  timestamp : String
  cwd : String
  parentSession : Option String

/-- A line of a session file. -/
inductive StoredLine where
  | session (header : StoredHeader)
  | entry (entry : StoredEntry)

section Ids

variable (uuids : Nat → Uuid) (has : EntryId → Bool)

/-- The tries of `generateId`, with the number of UUIDs drawn. -/
def tryIds : Nat → Nat → EntryId × Nat
  | 0, drawn => ((uuids drawn).full, drawn + 1)
  | tries + 1, drawn =>
    let id := (uuids drawn).short
    if has id then tryIds tries (drawn + 1) else (id, drawn + 1)

/-- A short identifier that is not in use, unless a hundred UUIDs are. -/
def generateId (drawn : Nat) : EntryId × Nat := tryIds uuids has 100 drawn

end Ids

def idAtPosition (entries : List StoredLine) (index : Nat) (otherwise : Option EntryId) :
    Option EntryId :=
  match entries[index]? with
  | some (.entry targetEntry) => targetEntry.id
  | _ => otherwise

def convertFirstKept (entries : List StoredLine) (entry : StoredEntry) : StoredEntry :=
  match entry.body with
  | .compaction data =>
    match data.firstKeptEntryIndex with
    | none => entry
    | some index =>
      let firstKeptEntryId := idAtPosition entries index data.firstKeptEntryId
      { entry with
        body := .compaction { data with firstKeptEntryId, firstKeptEntryIndex := none } }
  | _ => entry

/-- The loop of `migrateV1ToV2` behind the lines that are done. -/
def migrateV1ToV2From (uuids : Nat → Uuid) (ids : List EntryId) (done : List StoredLine)
    (prevId : Option EntryId) (drawn : Nat) : List StoredLine → List StoredLine
  | [] => done
  | .session header :: rest =>
    migrateV1ToV2From uuids ids (done ++ [.session { header with version := some 2 }]) prevId
      drawn rest
  | .entry entry :: rest =>
    let generated := generateId uuids (fun id => id ∈ ids) drawn
    let named := { entry with id := some generated.1, parentId := some prevId }
    let converted := convertFirstKept (done ++ .entry named :: rest) named
    migrateV1ToV2From uuids ids (done ++ [.entry converted]) (some generated.1) generated.2 rest

/-- Add the tree of entries. The set of identifiers in use stays empty. -/
def migrateV1ToV2 (uuids : Nat → Uuid) (entries : List StoredLine) : List StoredLine :=
  migrateV1ToV2From uuids [] [] none 0 entries

def StoredMessage.renamed : StoredMessage → AgentMessage
  | .current message => message
  | .hookMessage customType content display details timestamp =>
    .custom customType content display details timestamp

def migrateV2ToV3 (entries : List StoredLine) : List StoredLine :=
  entries.map fun
    | .session header => .session { header with version := some 3 }
    | .entry entry =>
      match entry.body with
      | .message message => .entry { entry with body := .message (.current message.renamed) }
      | _ => .entry entry

def storedVersion (entries : List StoredLine) : Nat :=
  ((entries.findSome? fun
    | .session header => some header.version
    | .entry _ => none).bind fun version => version).getD 1

/-- Migrate a file, and tell whether anything was to be done. -/
def migrateToCurrentVersion (uuids : Nat → Uuid) (entries : List StoredLine) :
    List StoredLine × Bool :=
  let version := storedVersion entries
  if version ≥ currentSessionVersion then (entries, false)
  else
    let second := if version < 2 then migrateV1ToV2 uuids entries else entries
    (if version < 3 then migrateV2ToV3 second else second, true)

/-- An entry of a version 1 file: messages, compactions, model and thinking changes. -/
inductive V1Body where
  | message (message : StoredMessage)
  | thinkingLevelChange (thinkingLevel : String)
  | modelChange (provider modelId : String)
  | compaction (summary : String) (firstKeptEntryIndex tokensBefore : Nat)

structure V1Entry where
  timestamp : Nat
  body : V1Body

namespace V1Entry

/-- An entry as the file holds it. -/
def stored (entry : V1Entry) : StoredEntry where
  id := none
  parentId := none
  timestamp := entry.timestamp
  body :=
    match entry.body with
    | .message message => .message message
    | .thinkingLevelChange thinkingLevel => .other (.thinkingLevelChange thinkingLevel)
    | .modelChange provider modelId => .other (.modelChange provider modelId)
    | .compaction summary firstKeptEntryIndex tokensBefore =>
      .compaction ⟨⟨summary, none, tokensBefore, none, none, none, none⟩,
        some firstKeptEntryIndex⟩

def firstKeptEntryIndex? (entry : V1Entry) : Option Nat :=
  match entry.body with
  | .compaction _ firstKeptEntryIndex _ => some firstKeptEntryIndex
  | _ => none

def messages (entry : V1Entry) : List AgentMessage :=
  match entry.body with
  | .message message => [message.renamed]
  | .compaction summary _ tokensBefore =>
    [.compactionSummary summary tokensBefore entry.timestamp]
  | _ => []

end V1Entry

def v1File (header : StoredHeader) (entries : List V1Entry) : List StoredLine :=
  .session header :: entries.map fun entry => .entry entry.stored

/-- Every compaction names a position of an entry in the file. The header has position zero. -/
def InRange (entries : List V1Entry) : Prop :=
  ∀ entry ∈ entries, ∀ index, entry.firstKeptEntryIndex? = some index →
    0 < index ∧ index ≤ entries.length

/-- The newest compaction of a version 1 file, with what is before and after it. -/
def splitAtCompaction : List V1Entry → Option (List V1Entry × V1Entry × Nat × List V1Entry)
  | [] => none
  | entry :: rest =>
    match splitAtCompaction rest with
    | some (older, compaction, index, newer) => some (entry :: older, compaction, index, newer)
    | none => entry.firstKeptEntryIndex?.map fun index => ([], entry, index, rest)

/-- A linear reading of a version 1 file: the summary of its newest compaction, the messages from
the position it names up to it, and those after it. -/
def linearMessages (entries : List V1Entry) : List AgentMessage :=
  match splitAtCompaction entries with
  | none => entries.flatMap V1Entry.messages
  | some (older, compaction, index, newer) =>
    compaction.messages ++ (older.drop (index - 1)).flatMap V1Entry.messages ++
      newer.flatMap V1Entry.messages

def StoredBody.read? : StoredBody → Option EntryBody
  | .message (.current carried) => some (.message carried)
  | .message (.hookMessage _ _ _ _ _) => none
  | .compaction data => some (.compaction data.toCompactionData)
  | .other body => some body

def StoredLine.read? : StoredLine → Option SessionTreeEntry
  | .session _ => none
  | .entry ⟨id, parentId, timestamp, body⟩ =>
    id.bind fun id => parentId.bind fun parentId => body.read?.map fun body =>
      ⟨id, parentId, timestamp, body⟩

def sessionEntries (lines : List StoredLine) : List SessionTreeEntry :=
  lines.filterMap StoredLine.read?

def Linked : Option EntryId → List SessionTreeEntry → Prop
  | _, [] => True
  | parentId, entry :: rest => entry.parentId = parentId ∧ Linked (some entry.id) rest

section Path

variable {entries : List SessionTreeEntry}

theorem Linked.parent_of_split {parentId : Option EntryId} {front rest : List SessionTreeEntry}
    {entry : SessionTreeEntry} (linked : Linked parentId (front ++ entry :: rest)) :
    entry.parentId = (front.getLast?.map SessionTreeEntry.id).or parentId := by
  induction front generalizing parentId with
  | nil => exact linked.1
  | cons first front ih =>
    rw [ih linked.2, getLast?_cons]
    cases front.getLast? <;> rfl

theorem Linked.chain (linked : Linked none entries)
    (distinct : (entries.map SessionTreeEntry.id).Nodup) (front : List SessionTreeEntry)
    {entry : SessionTreeEntry} {rest : List SessionTreeEntry}
    (split : entries = front ++ entry :: rest) :
    ParentChain.Chain SessionTreeEntry.parentId (buildEntryIndex entries).get? entry
      (entry :: front.reverse) := by
  induction front using reverseRecOn generalizing entry rest with
  | nil =>
    rw [split] at linked
    exact .root linked.parent_of_split
  | append_singleton front above ih =>
    rw [split] at linked
    have parent := linked.parent_of_split
    rw [getLast?_concat] at parent
    rw [append_assoc, singleton_append] at split
    have stored : above ∈ entries := split ▸ mem_append_right _ mem_cons_self
    rw [reverse_append, reverse_singleton, singleton_append]
    exact .step parent (InsertionMap.get?_indexBy_of_mem _ distinct stored) (ih split)

theorem Linked.buildSessionPath_eq (linked : Linked none entries)
    (distinct : (entries.map SessionTreeEntry.id).Nodup) {last : SessionTreeEntry}
    (isLast : entries.getLast? = some last) :
    buildSessionPath entries (.entry last.id) (buildEntryIndex entries) = entries := by
  obtain ⟨front, split⟩ := getLast?_eq_some_iff.mp isLast
  have found : (buildEntryIndex entries).get? last.id = some last :=
    InsertionMap.get?_indexBy_of_mem _ distinct (mem_of_getLast? isLast)
  have enough : (last :: front.reverse).length ≤ (buildEntryIndex entries).entries.length := by
    have kept : entries ⊆ (buildEntryIndex entries).entries.map Prod.snd := fun entry member =>
      (InsertionMap.mem_values_indexBy _ _).mpr
        (InsertionMap.get?_indexBy_of_mem _ distinct member)
    have short := ((distinct.of_map _).subperm kept).length_le
    rw [length_map] at short
    refine Nat.le_trans (Nat.le_of_eq ?_) short
    rw [split]
    simp
  rw [buildSessionPath, found, some_or, pathFrom,
    ParentChain.climb_of_chain (linked.chain distinct front split) enough, reverse_cons,
    reverse_reverse, ← split]

end Path

section Migrated

variable (uuids : Nat → Uuid)

def idAt (number : Nat) : EntryId := (uuids number).short

def parentAt : Nat → Option EntryId
  | 0 => none
  | number + 1 => some (idAt uuids number)

/-- The identifier that a compaction gets for a position: that of an entry up to itself. -/
def keptAt (number index : Nat) : Option EntryId :=
  if 0 < index ∧ index ≤ number + 1 then some (idAt uuids (index - 1)) else none

def inVersion2 (number : Nat) (entry : V1Entry) : StoredEntry where
  id := some (idAt uuids number)
  parentId := some (parentAt uuids number)
  timestamp := entry.timestamp
  body :=
    match entry.body with
    | .message message => .message message
    | .thinkingLevelChange thinkingLevel => .other (.thinkingLevelChange thinkingLevel)
    | .modelChange provider modelId => .other (.modelChange provider modelId)
    | .compaction summary firstKeptEntryIndex tokensBefore =>
      .compaction ⟨⟨summary, keptAt uuids number firstKeptEntryIndex, tokensBefore, none, none,
        none, none⟩, none⟩

def inCurrent (number : Nat) (entry : V1Entry) : SessionTreeEntry where
  id := idAt uuids number
  parentId := parentAt uuids number
  timestamp := entry.timestamp
  body :=
    match entry.body with
    | .message message => .message message.renamed
    | .thinkingLevelChange thinkingLevel => .thinkingLevelChange thinkingLevel
    | .modelChange provider modelId => .modelChange provider modelId
    | .compaction summary firstKeptEntryIndex tokensBefore =>
      .compaction ⟨summary, keptAt uuids number firstKeptEntryIndex, tokensBefore, none, none,
        none, none⟩

/-- Nothing is in use, so the first UUID is taken. -/
theorem generateId_unused (drawn : Nat) :
    generateId uuids (fun id => id ∈ ([] : List EntryId)) drawn = (idAt uuids drawn, drawn + 1) :=
  rfl

/-- The lines of a file while an entry is migrated: those done, the entry, and the rest. -/
def during (header : StoredHeader) (front : List V1Entry) (entry : V1Entry)
    (rest : List V1Entry) : List StoredLine :=
  (.session header :: front.mapIdx fun number entry => .entry (inVersion2 uuids number entry)) ++
    .entry { entry.stored with
      id := some (idAt uuids front.length), parentId := some (parentAt uuids front.length) } ::
    rest.map fun entry => .entry entry.stored

variable {uuids}

variable (number : Nat) (entries : List V1Entry) (header : StoredHeader)

/-- A compaction finds the identifiers of the entries up to itself. -/
theorem idAtPosition_during (front : List V1Entry) (entry : V1Entry)
    (rest : List V1Entry) (index : Nat) :
    idAtPosition (during uuids header front entry rest) index none =
      keptAt uuids front.length index := by
  unfold idAtPosition during keptAt
  cases index with
  | zero => rfl
  | succ position =>
    rw [cons_append, getElem?_cons_succ, getElem?_append, length_mapIdx]
    by_cases done : position < front.length
    · rw [if_pos done, getElem?_mapIdx, getElem?_eq_getElem done,
        if_pos ⟨Nat.succ_pos _, by omega⟩]
      rfl
    rw [if_neg done]
    obtain ⟨further, rfl⟩ := Nat.exists_eq_add_of_le (Nat.not_lt.mp done)
    rw [Nat.add_sub_cancel_left]
    cases further with
    | zero =>
      rw [if_pos ⟨Nat.succ_pos _, by omega⟩]
      rfl
    | succ further =>
      rw [getElem?_cons_succ, getElem?_map, if_neg (by omega)]
      cases rest[further]? with
      | none => rfl
      | some later => rfl

theorem convertFirstKept_during (front : List V1Entry) (entry : V1Entry) (rest : List V1Entry) :
    convertFirstKept (during uuids header front entry rest) { entry.stored with
        id := some (idAt uuids front.length), parentId := some (parentAt uuids front.length) } =
      inVersion2 uuids front.length entry := by
  cases body : entry.body with
  | compaction summary index tokensBefore =>
    have kept : idAtPosition (during uuids header front entry rest) index none = _ :=
      idAtPosition_during header front entry rest index
    generalize during uuids header front entry rest = lines at kept ⊢
    simp [convertFirstKept, V1Entry.stored, inVersion2, body, kept]
  | _ => simp [convertFirstKept, V1Entry.stored, inVersion2, body]

variable (uuids) in
theorem migrateV1ToV2From_eq (front rest : List V1Entry) :
    migrateV1ToV2From uuids []
        (.session header :: front.mapIdx fun number entry => .entry (inVersion2 uuids number entry))
        (parentAt uuids front.length) front.length
        (rest.map fun entry => .entry entry.stored) = .session header ::
        (front ++ rest).mapIdx fun number entry => .entry (inVersion2 uuids number entry) := by
  induction rest generalizing front with
  | nil => rw [append_nil]; rfl
  | cons entry rest ih =>
    have next := ih (front ++ [entry])
    rw [mapIdx_concat, length_append, length_singleton, ← cons_append,
      append_assoc, singleton_append] at next
    rw [map_cons, migrateV1ToV2From, generateId_unused]
    change migrateV1ToV2From uuids [] (_ ++ [.entry (convertFirstKept
      (during uuids header front entry rest) _)]) (parentAt uuids (front.length + 1))
      (front.length + 1) _ = _
    rw [convertFirstKept_during, next]

theorem migrateToCurrentVersion_v1File {header : StoredHeader}
    (old : header.version.getD 1 < 2) (entries : List V1Entry) :
    migrateToCurrentVersion uuids (v1File header entries) =
      (.session { header with version := some 3 } ::
        migrateV2ToV3 (entries.mapIdx fun number entry => .entry (inVersion2 uuids number entry)),
        true) := by
  have version : storedVersion (v1File header entries) = header.version.getD 1 := by
    simp [storedVersion, v1File]
  have second := migrateV1ToV2From_eq uuids { header with version := some 2 } [] entries
  have current : ¬ header.version.getD 1 ≥ currentSessionVersion := by
    rw [currentSessionVersion]
    omega
  have third : header.version.getD 1 < 3 := by omega
  rw [migrateToCurrentVersion, version, if_neg current, if_pos old]
  change (if header.version.getD 1 < 3 then migrateV2ToV3 (migrateV1ToV2From uuids []
    [.session { header with version := some 2 }] none 0 _) else _, true) = _
  rw [nil_append] at second
  change migrateV1ToV2From uuids [] [.session { header with version := some 2 }] none 0 _ = _
    at second
  rw [if_pos third, second]
  rfl

variable (uuids) in
def migratedFrom : Nat → List V1Entry → List SessionTreeEntry
  | _, [] => []
  | number, entry :: rest => inCurrent uuids number entry :: migratedFrom (number + 1) rest

theorem migratedFrom_append (older newer : List V1Entry) :
    migratedFrom uuids number (older ++ newer) =
      migratedFrom uuids number older ++ migratedFrom uuids (number + older.length) newer := by
  induction older generalizing number with
  | nil => rfl
  | cons entry older ih =>
    rw [cons_append, migratedFrom, ih, migratedFrom, cons_append, length_cons,
      Nat.add_right_comm, Nat.add_assoc]

theorem length_migratedFrom : (migratedFrom uuids number entries).length = entries.length := by
  induction entries generalizing number with
  | nil => rfl
  | cons entry entries ih => rw [migratedFrom, length_cons, ih, length_cons]

theorem getElem?_migratedFrom (number position : Nat) (entries : List V1Entry) :
    (migratedFrom uuids number entries)[position]? =
      entries[position]?.map (inCurrent uuids (number + position)) := by
  induction entries generalizing number position with
  | nil => rfl
  | cons entry entries ih =>
    cases position with
    | zero => rfl
    | succ position =>
      rw [migratedFrom, getElem?_cons_succ, getElem?_cons_succ, ih,
        Nat.add_right_comm, Nat.add_assoc]

variable (uuids) in
theorem ids_migratedFrom :
    (migratedFrom uuids number entries).map SessionTreeEntry.id =
      (range' number entries.length).map (idAt uuids) := by
  induction entries generalizing number with
  | nil => rfl
  | cons entry entries ih =>
    rw [migratedFrom, map_cons, ih, length_cons, range'_succ, map_cons]
    rfl

theorem sessionEntries_migrated (entries : List V1Entry) :
    sessionEntries (.session header ::
        migrateV2ToV3 (entries.mapIdx fun number entry => .entry (inVersion2 uuids number entry))) =
      migratedFrom uuids 0 entries := by
  have read (number : Nat) (entry : V1Entry) :
      sessionEntries (migrateV2ToV3 [.entry (inVersion2 uuids number entry)]) =
        [inCurrent uuids number entry] := by
    cases body : entry.body with
    | message message =>
      simp [sessionEntries, migrateV2ToV3, inVersion2, inCurrent, body, StoredLine.read?,
        StoredBody.read?]
    | _ =>
      simp [sessionEntries, migrateV2ToV3, inVersion2, inCurrent, body, StoredLine.read?,
        StoredBody.read?]
  change sessionEntries (migrateV2ToV3 _) = _
  induction entries using reverseRecOn with
  | nil => rfl
  | append_singleton entries entry ih =>
    rw [mapIdx_concat, migratedFrom_append, ← ih]
    unfold sessionEntries migrateV2ToV3 at *
    rw [map_append, filterMap_append, read, Nat.zero_add]
    rfl

theorem linked_migratedFrom :
    Linked (parentAt uuids number) (migratedFrom uuids number entries) := by
  induction entries generalizing number with
  | nil => trivial
  | cons entry entries ih => exact ⟨rfl, ih (number + 1)⟩

variable (uuids) in
theorem messages_migratedFrom :
    (migratedFrom uuids number entries).flatMap sessionEntryToContextMessages =
      entries.flatMap V1Entry.messages := by
  induction entries generalizing number with
  | nil => rfl
  | cons entry entries ih =>
    have own : sessionEntryToContextMessages (inCurrent uuids number entry) = entry.messages := by
      cases body : entry.body <;>
        simp [sessionEntryToContextMessages, inCurrent, V1Entry.messages, body]
    rw [migratedFrom, flatMap_cons, flatMap_cons, ih, own]

variable (uuids) in
theorem compaction?_inCurrent (entry : V1Entry) :
    (inCurrent uuids number entry).compaction?.map CompactionData.firstKeptEntryId =
      entry.firstKeptEntryIndex?.map (keptAt uuids number) := by
  cases body : entry.body <;>
    simp [inCurrent, SessionTreeEntry.compaction?, V1Entry.firstKeptEntryIndex?, body]

theorem compaction?_migratedFrom_eq_none {number : Nat} {entries : List V1Entry}
    (silent : ∀ entry ∈ entries, entry.firstKeptEntryIndex? = none) :
    ∀ entry ∈ migratedFrom uuids number entries, entry.compaction? = none := by
  intro entry member
  obtain ⟨position, listed⟩ := mem_iff_getElem?.mp member
  rw [getElem?_migratedFrom] at listed
  obtain ⟨source, present, rfl⟩ := map_eq_some_iff.mp listed
  have read := compaction?_inCurrent uuids (number + position) source
  rw [silent source (mem_of_getElem? present)] at read
  exact map_eq_none_iff.mp read

theorem splitAtCompaction_eq_none {entries : List V1Entry} :
    splitAtCompaction entries = none ↔ ∀ entry ∈ entries, entry.firstKeptEntryIndex? = none := by
  induction entries with
  | nil => simp [splitAtCompaction]
  | cons entry rest ih =>
    rw [forall_mem_cons, ← ih, splitAtCompaction]
    cases splitAtCompaction rest with
    | none => simp
    | some split => simp

theorem splitAtCompaction_eq_some {entries older newer : List V1Entry} {compaction : V1Entry}
    {index : Nat} (found : splitAtCompaction entries = some (older, compaction, index, newer)) :
    entries = older ++ compaction :: newer ∧ compaction.firstKeptEntryIndex? = some index ∧
      ∀ entry ∈ newer, entry.firstKeptEntryIndex? = none := by
  induction entries generalizing older with
  | nil => cases found
  | cons entry rest ih =>
    rw [splitAtCompaction] at found
    cases later : splitAtCompaction rest with
    | some split =>
      obtain ⟨front, other, place, back⟩ := split
      rw [later] at found
      cases found
      obtain ⟨same, named, newest⟩ := ih later
      exact ⟨by rw [same]; rfl, named, newest⟩
    | none =>
      rw [later] at found
      obtain ⟨place, named, same⟩ := map_eq_some_iff.mp found
      cases same
      exact ⟨rfl, named, splitAtCompaction_eq_none.mp later⟩

/-- What a compaction keeps of the migrated entries before it, when its position does not lie
behind it. -/
theorem keptEntries_migratedFrom {older : List V1Entry} {index : Nat}
    (distinct : ((migratedFrom uuids 0 older).map SessionTreeEntry.id ++
      [idAt uuids older.length]).Nodup) (positive : 0 < index) (back : index ≤ older.length + 1) :
    (keptEntries (keptAt uuids older.length index) (migratedFrom uuids 0 older)).flatMap
        sessionEntryToContextMessages = (older.drop (index - 1)).flatMap V1Entry.messages := by
  rw [keptAt, if_pos ⟨positive, back⟩]
  obtain ⟨position, rfl⟩ := Nat.exists_eq_succ_of_ne_zero positive.ne'
  rw [Nat.succ_sub_one]
  rcases Nat.lt_or_ge position older.length with before | behind
  · obtain ⟨front, kept, between, rfl, rfl⟩ : ∃ front kept between,
        older = front ++ kept :: between ∧ front.length = position :=
      ⟨older.take position, older[position], older.drop (position + 1), by simp,
        length_take_of_le before.le⟩
    rw [migratedFrom_append, migratedFrom, Nat.zero_add] at distinct ⊢
    have fresh : ∀ entry ∈ migratedFrom uuids 0 front,
        entry.id ≠ (inCurrent uuids front.length kept).id := by
      intro entry member same
      rw [map_append, append_assoc, nodup_append] at distinct
      exact distinct.2.2 _ (mem_map_of_mem member) _ (by simp) same
    have named : idAt uuids front.length = (inCurrent uuids front.length kept).id := rfl
    rw [named, keptEntries_of_mem fresh, drop_left]
    exact messages_migratedFrom uuids front.length (kept :: between)
  · have last : position = older.length := by omega
    subst last
    rw [keptEntries_of_not_mem, drop_length]
    · rfl
    · intro entry member same
      rw [nodup_append] at distinct
      exact distinct.2.2 _ (mem_map_of_mem member) _ (mem_singleton_self _) same

end Migrated

/-- Every migrated compaction names the entry that its position denoted. The header has position
zero. -/
def NamesKept (v1 : List V1Entry) (entries : List SessionTreeEntry) : Prop :=
  ∀ (position : Nat) (compaction : V1Entry) (index : Nat), v1[position]? = some compaction →
    compaction.firstKeptEntryIndex? = some index →
      ∃ migrated data target, entries[position]? = some migrated ∧
        migrated.compaction? = some data ∧ entries[index - 1]? = some target ∧
        data.firstKeptEntryId = some target.id

/-- The entries of a migrated file preserve the conversation: they have distinct identifiers and
form a chain in the order of the file, every compaction names the entry it named, and the context
of the last entry is a linear reading of the version 1 file. -/
structure Preserves (v1 : List V1Entry) (entries : List SessionTreeEntry) : Prop where
  length : entries.length = v1.length
  distinct : (entries.map SessionTreeEntry.id).Nodup
  linked : Linked none entries
  kept : NamesKept v1 entries
  context : ∀ last, entries.getLast? = some last →
    (buildSessionContext entries (.entry last.id) (buildEntryIndex entries)).messages =
      linearMessages v1

/-- The short identifiers of the first UUIDs are distinct. -/
def DrawsDistinct (uuids : Nat → Uuid) (count : Nat) : Prop :=
  ((range' 0 count).map fun number => (uuids number).short).Nodup

def PointsBack (v1 : List V1Entry) : Prop :=
  ∀ (position : Nat) (compaction : V1Entry) (index : Nat), v1[position]? = some compaction →
    compaction.firstKeptEntryIndex? = some index → index ≤ position + 1

section Preserves

variable {uuids : Nat → Uuid} {v1 : List V1Entry}

theorem namesKept_iff (inRange : InRange v1) :
    NamesKept v1 (migratedFrom uuids 0 v1) ↔ PointsBack v1 := by
  constructor
  · intro names position compaction index present named
    obtain ⟨migrated, data, target, listed, isCompaction, -, kept⟩ :=
      names position compaction index present named
    rw [getElem?_migratedFrom, present, map_some, some_inj, Nat.zero_add] at listed
    subst listed
    have read := compaction?_inCurrent uuids position compaction
    rw [isCompaction, named, map_some, map_some, some_inj, kept] at read
    by_contra behind
    rw [keptAt, if_neg fun back => behind back.2] at read
    cases read
  · intro back position compaction index present named
    obtain ⟨positive, inside⟩ :=
      inRange compaction (mem_of_getElem? present) index named
    have read := compaction?_inCurrent uuids position compaction
    rw [named, map_some, keptAt,
      if_pos ⟨positive, back position compaction index present named⟩] at read
    obtain ⟨data, isCompaction, kept⟩ := map_eq_some_iff.mp read
    have target : index - 1 < v1.length := by omega
    refine ⟨inCurrent uuids position compaction, data, inCurrent uuids (index - 1) v1[index - 1],
      ?_, isCompaction, ?_, kept⟩
    · rw [getElem?_migratedFrom, present, Nat.zero_add]
      rfl
    · rw [getElem?_migratedFrom, getElem?_eq_getElem target, Nat.zero_add]
      rfl

theorem messages_migrated (distinct : ((migratedFrom uuids 0 v1).map SessionTreeEntry.id).Nodup)
    (inRange : InRange v1) (back : PointsBack v1) :
    (contextEntriesOfPath (migratedFrom uuids 0 v1)).flatMap sessionEntryToContextMessages =
      linearMessages v1 := by
  unfold linearMessages
  cases split : splitAtCompaction v1 with
  | none =>
    rw [contextEntriesOfPath_of_none
      (compaction?_migratedFrom_eq_none (splitAtCompaction_eq_none.mp split))]
    exact messages_migratedFrom uuids 0 v1
  | some found =>
    obtain ⟨older, compaction, index, newer⟩ := found
    obtain ⟨rfl, named, newest⟩ := splitAtCompaction_eq_some split
    have present : (older ++ compaction :: newer)[older.length]? = some compaction := by simp
    have positive := (inRange compaction (mem_of_getElem? present) index named).1
    have behind := back older.length compaction index present named
    rw [migratedFrom_append, migratedFrom, Nat.zero_add] at distinct ⊢
    have read := compaction?_inCurrent uuids older.length compaction
    rw [named] at read
    obtain ⟨data, isCompaction, kept⟩ := map_eq_some_iff.mp read
    have upTo : ((migratedFrom uuids 0 older).map SessionTreeEntry.id ++
        [idAt uuids older.length]).Nodup := by
      rw [map_append, map_cons, append_cons] at distinct
      exact (nodup_append.mp distinct).1
    have fresh : ∀ entry ∈ migratedFrom uuids 0 older,
        entry.id ≠ (inCurrent uuids older.length compaction).id := by
      intro entry member same
      rw [nodup_append] at upTo
      exact upTo.2.2 _ (mem_map_of_mem member) _ (mem_singleton_self _) same
    have own := messages_migratedFrom uuids older.length [compaction]
    rw [migratedFrom, migratedFrom, flatMap_singleton, flatMap_singleton] at own
    rw [contextEntriesOfPath_of_split isCompaction (compaction?_migratedFrom_eq_none newest) fresh,
      kept, flatMap_append, flatMap_cons,
      keptEntries_migratedFrom upTo positive behind, messages_migratedFrom, own]

end Preserves

/-- The migration of a version 1 file preserves the conversation exactly when the short
identifiers drawn for its entries are distinct and no compaction names a position behind its own.
A current file stays as it is. -/
theorem migration_preserves_iff (uuids : Nat → Uuid) (header : StoredHeader)
    (old : header.version.getD 1 < 2) (v1 : List V1Entry) (inRange : InRange v1) :
    (Preserves v1 (sessionEntries (migrateToCurrentVersion uuids (v1File header v1)).1) ↔
      DrawsDistinct uuids v1.length ∧ PointsBack v1) ∧
    ∀ file, currentSessionVersion ≤ storedVersion file →
      migrateToCurrentVersion uuids file = (file, false) := by
  refine ⟨?_, fun file current => if_pos current⟩
  rw [migrateToCurrentVersion_v1File old, sessionEntries_migrated]
  have ids := ids_migratedFrom uuids 0 v1
  constructor
  · intro preserves
    have distinct := preserves.distinct
    rw [ids] at distinct
    exact ⟨distinct, (namesKept_iff inRange).mp preserves.kept⟩
  · intro fits
    obtain ⟨draws, back⟩ := fits
    have distinct : ((migratedFrom uuids 0 v1).map SessionTreeEntry.id).Nodup := by
      rw [ids]
      exact draws
    have linked : Linked none (migratedFrom uuids 0 v1) := linked_migratedFrom 0 v1
    refine ⟨length_migratedFrom 0 v1, distinct, linked, (namesKept_iff inRange).mpr back, ?_⟩
    intro last isLast
    rw [buildSessionContext, buildContextEntries, linked.buildSessionPath_eq distinct isLast]
    exact messages_migrated distinct inRange back

section Example

def firstUuid : Uuid := ⟨"0b6f1c6e-52a1-4f3e-9c53-6d1a8f0e7b21", by decide⟩

def secondUuid : Uuid := ⟨"7d2e9a04-0c3b-4b8e-8f6a-21c4d5e6f708", by decide⟩

def v1Header : StoredHeader := ⟨none, "session", "2025-01-01T00:00:00.000Z", "/", none⟩

def keptMessage : List V1Entry :=
  [⟨0, .message (.current (.user (.text "Hello") 0))⟩, ⟨0, .compaction "Summary" 1 100⟩]

theorem inRange_keptMessage : InRange keptMessage := by
  intro entry member index named
  rcases mem_cons.mp member with rfl | member
  · cases named
  · rw [mem_singleton.mp member] at named
    cases named
    decide

theorem pointsBack_keptMessage : PointsBack keptMessage := by
  intro position compaction index present named
  match position with
  | 0 =>
    cases present
    cases named
  | 1 =>
    cases present
    cases named
    decide
  | position + 2 => cases present

/-- When the random source repeats itself, both entries get one identifier. -/
theorem repeatedUuid_not_preserves :
    InRange keptMessage ∧ PointsBack keptMessage ∧
    (sessionEntries (migrateToCurrentVersion (fun _ => firstUuid)
      (v1File v1Header keptMessage)).1).map SessionTreeEntry.id =
        [firstUuid.short, firstUuid.short] ∧
    ¬ Preserves keptMessage (sessionEntries (migrateToCurrentVersion (fun _ => firstUuid)
      (v1File v1Header keptMessage)).1) := by
  have ids : (sessionEntries (migrateToCurrentVersion (fun _ => firstUuid)
      (v1File v1Header keptMessage)).1).map SessionTreeEntry.id =
        [firstUuid.short, firstUuid.short] := rfl
  refine ⟨inRange_keptMessage, pointsBack_keptMessage, ids, ?_⟩
  intro preserves
  have distinct := preserves.distinct
  rw [ids] at distinct
  exact (nodup_cons.mp distinct).1 (mem_singleton_self _)

theorem migration_preserves_keptMessage :
    Preserves keptMessage (sessionEntries (migrateToCurrentVersion
      (fun number => if number = 0 then firstUuid else secondUuid)
      (v1File v1Header keptMessage)).1) :=
  (migration_preserves_iff (fun number => if number = 0 then firstUuid else secondUuid) v1Header
    (by decide) keptMessage inRange_keptMessage).1.mpr
      ⟨by unfold DrawsDistinct; decide, pointsBack_keptMessage⟩

end Example

end Recode.CodingAgent

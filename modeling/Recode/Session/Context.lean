import Mathlib.Data.List.TakeWhile
import Recode.Lib.LastWrite
import Recode.Session.Entry

/-! # The model context of a branch

A branch is folded into the settings in force at its end and the messages sent
to the model. The newest compaction of the branch hides what it compacted: the
context begins with the compaction, goes on with the entries it kept, if the
branch still holds them, and ends with everything appended since. -/

namespace Recode

open List

/-- A model chosen by provider and name. -/
structure ModelRef where
  provider : String
  modelId : String
deriving DecidableEq

/-- The settings a branch leaves in force. -/
structure ContextState where
  thinkingLevel : String
  model : Option ModelRef
  activeToolNames : Option (List String)
deriving DecidableEq

/-- The settings in force and the messages sent to the model. -/
structure SessionContext extends ContextState where
  messages : List AgentMessage

namespace SessionTreeEntry

/-- The thinking level an entry sets. -/
def thinkingLevel? (entry : SessionTreeEntry) : Option String :=
  match entry.body with
  | .thinkingLevelChange level => some level
  | _ => none

def model? (entry : SessionTreeEntry) : Option ModelRef :=
  match entry.body with
  | .modelChange provider modelId => some ⟨provider, modelId⟩
  | .message (.assistant message) => some ⟨message.provider, message.model⟩
  | _ => none

def activeToolNames? (entry : SessionTreeEntry) : Option (List String) :=
  match entry.body with
  | .activeToolsChange names => some names
  | _ => none

end SessionTreeEntry

def initialContextState : ContextState := ⟨"off", none, none⟩

/-- One iteration of the loop that derives the settings. -/
def contextStateStep (state : ContextState) (entry : SessionTreeEntry) : ContextState :=
  match entry.body with
  | .thinkingLevelChange level => { state with thinkingLevel := level }
  | .modelChange provider modelId => { state with model := some ⟨provider, modelId⟩ }
  | .message (.assistant message) =>
    { state with model := some ⟨message.provider, message.model⟩ }
  | .activeToolsChange names => { state with activeToolNames := some names }
  | _ => state

/-- The settings at the end of a branch. -/
def deriveSessionContextState (pathEntries : List SessionTreeEntry) : ContextState :=
  pathEntries.foldl contextStateStep initialContextState

def newestCompaction (pathEntries : List SessionTreeEntry) :
    Option (SessionTreeEntry × CompactionData) :=
  pathEntries.foldl (fun found entry =>
    match entry.compaction? with
    | some data => some (entry, data)
    | none => found) none

def keptEntries (firstKeptEntryId : Option EntryId) (older : List SessionTreeEntry) :
    List SessionTreeEntry :=
  match firstKeptEntryId with
  | none => []
  | some id => older.dropWhile fun entry => entry.id ≠ id

def defaultContextEntryTransform (pathEntries : List SessionTreeEntry) : List SessionTreeEntry :=
  match newestCompaction pathEntries with
  | none => pathEntries
  | some (compaction, data) =>
    let compactionIdx := pathEntries.findIdx fun entry =>
      entry.isCompaction && entry.id = compaction.id
    if data.retainedTail.isSome then
      compaction :: pathEntries.drop (compactionIdx + 1)
    else
      compaction :: keptEntries data.firstKeptEntryId (pathEntries.take compactionIdx) ++
        pathEntries.drop (compactionIdx + 1)

abbrev CustomEntryContextMessageProjector :=
  SessionTreeEntry → Nat → List SessionTreeEntry → Option (List AgentMessage)

/-- How an application extends the construction of a context. -/
structure SessionContextBuildOptions where
  entryTransforms : List (List SessionTreeEntry → List SessionTreeEntry)
  entryProjectors : String → Option CustomEntryContextMessageProjector

namespace SessionContextBuildOptions

/-- No transforms and no projectors. -/
def default : SessionContextBuildOptions := ⟨[], fun _ => none⟩

instance : Inhabited SessionContextBuildOptions := ⟨default⟩

end SessionContextBuildOptions

def buildContextEntries (pathEntries : List SessionTreeEntry)
    (options : SessionContextBuildOptions) : List SessionTreeEntry :=
  options.entryTransforms.foldl (fun entries transform => transform entries)
    (defaultContextEntryTransform pathEntries)

def sessionEntryToContextMessages (entry : SessionTreeEntry) (index : Nat)
    (entries : List SessionTreeEntry) (options : SessionContextBuildOptions) : List AgentMessage :=
  match entry.body with
  | .message message => [message]
  | .customMessage customType content display details =>
    [.custom customType content display details entry.timestamp]
  | .compaction data =>
    .compactionSummary data.summary data.tokensBefore entry.timestamp :: data.retainedTail.getD []
  | .branchSummary data =>
    if data.summary ≠ "" then [.branchSummary data.summary data.fromId entry.timestamp] else []
  | .custom customType _ =>
    ((options.entryProjectors customType).bind fun project =>
      project entry index entries).getD []
  | _ => []

def buildSessionContext (pathEntries : List SessionTreeEntry)
    (options : SessionContextBuildOptions := .default) : SessionContext :=
  let contextEntries := buildContextEntries pathEntries options
  { deriveSessionContextState pathEntries with
    messages := contextEntries.zipIdx.flatMap fun (entry, index) =>
      sessionEntryToContextMessages entry index contextEntries options }

def entryMessages (entry : SessionTreeEntry) : List AgentMessage :=
  sessionEntryToContextMessages entry 0 [] .default

section Settings

open LastWrite SessionTreeEntry

theorem deriveSessionContextState_eq (pathEntries : List SessionTreeEntry) :
    deriveSessionContextState pathEntries =
      { thinkingLevel := (last thinkingLevel? pathEntries).getD "off"
        model := last model? pathEntries
        activeToolNames := last activeToolNames? pathEntries } := by
  have step : ∀ state entry, contextStateStep state entry =
      { thinkingLevel := (thinkingLevel? entry).getD state.thinkingLevel
        model := (model? entry).or state.model
        activeToolNames := (activeToolNames? entry).or state.activeToolNames } := by
    intro state entry
    unfold contextStateStep thinkingLevel? model? activeToolNames?
    cases entry.body with
    | message message => cases message <;> rfl
    | _ => rfl
  have fold : ∀ state, pathEntries.foldl contextStateStep state =
      { thinkingLevel := (last thinkingLevel? pathEntries).getD state.thinkingLevel
        model := (last model? pathEntries).or state.model
        activeToolNames := (last activeToolNames? pathEntries).or state.activeToolNames } := by
    induction pathEntries with
    | nil => intro state; rfl
    | cons entry entries ih =>
      intro state
      rw [foldl_cons, ih, step, last_cons, last_cons, last_cons]
      congr 1
      · cases last thinkingLevel? entries <;> simp
      · cases last model? entries <;> simp
      · cases last activeToolNames? entries <;> simp
  rw [deriveSessionContextState, fold]
  simp [initialContextState]

end Settings

section Entries

/-- Where identifiers are distinct, no entry before or after another one has its identifier. -/
theorem id_ne_of_nodup {older newer : List SessionTreeEntry} {kept : SessionTreeEntry}
    (distinct : ((older ++ kept :: newer).map SessionTreeEntry.id).Nodup) :
    (∀ entry ∈ older, entry.id ≠ kept.id) ∧ ∀ entry ∈ newer, entry.id ≠ kept.id := by
  rw [map_append, nodup_append, map_cons, nodup_cons] at distinct
  exact ⟨fun entry member => distinct.2.2 _ (mem_map_of_mem member) _ mem_cons_self,
    fun entry member same => distinct.2.1.1 (same ▸ mem_map_of_mem member)⟩

/-- Before the newest compaction, a path keeps the entries from the first kept one on. -/
theorem keptEntries_of_mem {older between : List SessionTreeEntry} {kept : SessionTreeEntry}
    (fresh : ∀ entry ∈ older, entry.id ≠ kept.id) :
    keptEntries (some kept.id) (older ++ kept :: between) = kept :: between := by
  have dropped : ∀ entry ∈ older, decide (entry.id ≠ kept.id) = true :=
    fun entry member => decide_eq_true (fresh entry member)
  rw [keptEntries, dropWhile_append_of_pos dropped]
  simp

theorem keptEntries_of_not_mem {older : List SessionTreeEntry} {kept : EntryId}
    (absent : ∀ entry ∈ older, entry.id ≠ kept) : keptEntries (some kept) older = [] := by
  simp only [keptEntries, dropWhile_eq_nil_iff]
  exact fun entry member => decide_eq_true (absent entry member)

/-- Distinct identifiers leave one way to split a path at an entry. -/
theorem split_unique_of_ids {front between front' between' : List SessionTreeEntry}
    {kept kept' : SessionTreeEntry}
    (distinct : ((front ++ kept :: between).map SessionTreeEntry.id).Nodup)
    (same : front ++ kept :: between = front' ++ kept' :: between') (named : kept.id = kept'.id) :
    front = front' ∧ kept = kept' ∧ between = between' := by
  have writes : ∀ entry ∈ between, (if entry.id = kept.id then some entry else none) = none :=
    fun entry member => if_neg ((id_ne_of_nodup distinct).2 entry member)
  have writes' : ∀ entry ∈ between', (if entry.id = kept.id then some entry else none) = none :=
    fun entry member => if_neg (named ▸ (id_ne_of_nodup (same ▸ distinct)).2 entry member)
  exact LastWrite.split_unique same (by simp) (by simp [named]) writes writes'

variable (pathEntries : List SessionTreeEntry)

theorem newestCompaction_eq :
    newestCompaction pathEntries =
      LastWrite.last (fun entry => entry.compaction?.map fun data => (entry, data))
        pathEntries := by
  have fold := LastWrite.foldl_or
    (fun entry : SessionTreeEntry => entry.compaction?.map fun data => (entry, data))
    pathEntries none
  rw [Option.or_none] at fold
  rw [← fold, newestCompaction]
  congr
  funext found entry
  cases entry.compaction? <;> rfl

theorem newestCompaction_eq_none_iff :
    newestCompaction pathEntries = none ↔ ∀ entry ∈ pathEntries, entry.compaction? = none := by
  rw [newestCompaction_eq, LastWrite.last_eq_none_iff]
  simp

theorem newestCompaction_eq_some_iff (compaction : SessionTreeEntry) (data : CompactionData) :
    newestCompaction pathEntries = some (compaction, data) ↔
      ∃ older newer, pathEntries = older ++ compaction :: newer ∧
        compaction.compaction? = some data ∧ ∀ entry ∈ newer, entry.compaction? = none := by
  rw [newestCompaction_eq, LastWrite.last_eq_some_iff]
  constructor
  · rintro ⟨older, entry, newer, same, wrote, silent⟩
    obtain ⟨_, found, equal⟩ := Option.map_eq_some_iff.mp wrote
    obtain ⟨rfl, rfl⟩ := Prod.mk.inj equal
    exact ⟨older, newer, same, found, by simpa using silent⟩
  · rintro ⟨older, newer, same, found, silent⟩
    exact ⟨older, compaction, newer, same, by rw [found]; rfl, by simpa using silent⟩

theorem none_or_newest (path : List SessionTreeEntry) :
    (∀ entry ∈ path, entry.compaction? = none) ∨ ∃ older compaction newer data,
      path = older ++ compaction :: newer ∧ compaction.compaction? = some data ∧
        ∀ entry ∈ newer, entry.compaction? = none := by
  cases named : newestCompaction path with
  | none => exact .inl ((newestCompaction_eq_none_iff path).mp named)
  | some pair =>
    obtain ⟨older, newer, parts⟩ := (newestCompaction_eq_some_iff path pair.1 pair.2).mp named
    exact .inr ⟨older, pair.1, newer, pair.2, parts⟩

theorem defaultContextEntryTransform_of_split {older newer : List SessionTreeEntry}
    {compaction : SessionTreeEntry} {data : CompactionData}
    (found : compaction.compaction? = some data)
    (newest : ∀ entry ∈ newer, entry.compaction? = none)
    (fresh : ∀ entry ∈ older, entry.id ≠ compaction.id) :
    defaultContextEntryTransform (older ++ compaction :: newer) =
      compaction :: (if data.retainedTail.isSome then []
        else keptEntries data.firstKeptEntryId older) ++ newer := by
  have named : newestCompaction (older ++ compaction :: newer) = some (compaction, data) :=
    (newestCompaction_eq_some_iff _ _ _).mpr ⟨older, newer, rfl, found, newest⟩
  have index : (older ++ compaction :: newer).findIdx
      (fun entry => entry.isCompaction && entry.id = compaction.id) = older.length := by
    rw [findIdx_append, findIdx_eq_length_of_false]
    · simp [findIdx_cons, SessionTreeEntry.isCompaction, found]
    · intro entry member
      simp [fresh entry member]
  simp only [defaultContextEntryTransform, named, index]
  have after : (older ++ compaction :: newer).drop (older.length + 1) = newer := by
    rw [drop_append]
    simp
  have before : (older ++ compaction :: newer).take older.length = older := by simp
  rw [after, before]
  split <;> simp

theorem defaultContextEntryTransform_of_none {pathEntries : List SessionTreeEntry}
    (none : ∀ entry ∈ pathEntries, entry.compaction? = none) :
    defaultContextEntryTransform pathEntries = pathEntries := by
  rw [← newestCompaction_eq_none_iff] at none
  rw [defaultContextEntryTransform, none]

theorem buildSessionContext_messages :
    (buildSessionContext pathEntries).messages =
      (defaultContextEntryTransform pathEntries).flatMap entryMessages := by
  have projection : ∀ entry index entries,
      sessionEntryToContextMessages entry index entries .default = entryMessages entry := by
    intro entry index entries
    unfold entryMessages sessionEntryToContextMessages
    cases entry.body <;> rfl
  have indices : ∀ (entries : List SessionTreeEntry) (start : Nat),
      (entries.zipIdx start).flatMap (fun indexed => entryMessages indexed.1) =
        entries.flatMap entryMessages := by
    intro entries
    induction entries with
    | nil => intro start; rfl
    | cons entry entries ih =>
      intro start
      rw [zipIdx_cons, flatMap_cons, flatMap_cons, ih]
  simp only [buildSessionContext, buildContextEntries, SessionContextBuildOptions.default,
    foldl_nil]
  rw [← indices _ 0]
  exact flatMap_congr fun indexed _ => projection indexed.1 _ _

theorem buildSessionContext_state :
    (buildSessionContext pathEntries).toContextState = deriveSessionContextState pathEntries :=
  rfl

end Entries
end Recode

import Recode.Lib.LastWrite
import Recode.SessionV4.ForkReads
import Recode.SessionV4.QueueAccounting

/-! # The configuration of a lane

The configuration in force is what the entries of the whole path wrote last. Recovery looks up
only a few entries before the operation, at least the newest of each kind, and folds them with the
operation's entries in the order of their numbers. Both agree, and where nothing was written the
defaults apply. -/

namespace Recode.SessionV4
namespace Recovery

open LastWrite SessionState List InsertionMap

/-- What the entries of a path leave in force. -/
structure SessionContextState where
  thinkingLevel : String
  model : Option LaneModel
  activeToolNames : Option (List String)
deriving DecidableEq, Repr

/-- The context state after an entry. -/
def updateContextState (state : SessionContextState) (entry : Entry) : SessionContextState :=
  match entry.content with
  | .thinkingLevelChange thinkingLevel => { state with thinkingLevel }
  | .modelChange provider modelId => { state with model := some ⟨provider, modelId⟩ }
  | .message (.assistant message _) _ =>
    { state with model := some ⟨message.provider, message.model⟩ }
  | .activeToolsChange activeToolNames => { state with activeToolNames := some activeToolNames }
  | _ => state

def deriveSessionContextState (pathEntries : List Entry) : SessionContextState :=
  pathEntries.foldl updateContextState ⟨"off", none, none⟩

def modelWrite (entry : Entry) : Option LaneModel :=
  match entry.content with
  | .modelChange provider modelId => some ⟨provider, modelId⟩
  | .message (.assistant message _) _ => some ⟨message.provider, message.model⟩
  | _ => none

def thinkingWrite (entry : Entry) : Option String :=
  match entry.content with
  | .thinkingLevelChange thinkingLevel => some thinkingLevel
  | _ => none

def toolsWrite (entry : Entry) : Option (List String) :=
  match entry.content with
  | .activeToolsChange activeToolNames => some activeToolNames
  | _ => none

/-- The defaults, overlaid with what the entries of a path leave in force. A thinking level is in
force once a thinking level was written. -/
def overlay (defaults : EffectiveLaneConfiguration) (pathEntries : List Entry) :
    EffectiveLaneConfiguration :=
  let state := deriveSessionContextState pathEntries
  { model := state.model.getD defaults.model
    thinkingLevel :=
      if pathEntries.any fun entry => (thinkingWrite entry).isSome then state.thinkingLevel
      else defaults.thinkingLevel
    activeToolNames := state.activeToolNames.getD defaults.activeToolNames }

theorem deriveSessionContextState_eq (pathEntries : List Entry) :
    deriveSessionContextState pathEntries =
      { thinkingLevel := (last thinkingWrite pathEntries).getD "off"
        model := last modelWrite pathEntries
        activeToolNames := last toolsWrite pathEntries } := by
  unfold deriveSessionContextState
  induction pathEntries using reverseRecOn with
  | nil => rfl
  | append_singleton earlier entry ih =>
    rw [foldl_concat, ih, last_append_singleton, last_append_singleton,
      last_append_singleton, updateContextState, thinkingWrite, modelWrite, toolsWrite]
    cases entry.content with
    | message message terminate => cases message <;> rfl
    | _ => rfl

theorem foldl_configure (defaults : EffectiveLaneConfiguration) (entries : List Entry) :
    entries.foldl configure defaults =
      { model := (last modelWrite entries).getD defaults.model
        thinkingLevel := (last thinkingWrite entries).getD defaults.thinkingLevel
        activeToolNames := (last toolsWrite entries).getD defaults.activeToolNames } := by
  induction entries using reverseRecOn with
  | nil => rfl
  | append_singleton earlier entry ih =>
    rw [foldl_concat, ih, last_append_singleton, last_append_singleton,
      last_append_singleton, configure, thinkingWrite, modelWrite, toolsWrite]
    cases entry.content with
    | message message terminate => cases message <;> rfl
    | _ => rfl

theorem foldl_configure_eq_overlay (defaults : EffectiveLaneConfiguration)
    (pathEntries : List Entry) : pathEntries.foldl configure defaults =
      overlay defaults pathEntries := by
  rw [foldl_configure, overlay, deriveSessionContextState_eq]
  congr 1
  cases written : last thinkingWrite pathEntries with
  | none =>
    rw [if_neg]
    · rfl
    · rw [last_eq_none_iff] at written
      simpa using written
  | some thinkingLevel =>
    rw [if_pos]
    · rfl
    · obtain ⟨earlier, entry, later, rfl, wrote, -⟩ := (last_eq_some_iff _ _).mp written
      simp [wrote]

def ContainsNewest {Value : Type} (writes : Entry → Option Value) (pathEntries : List Entry)
    (lookedUp : List Entry) : Prop :=
  ∀ earlier entry later, pathEntries = earlier ++ entry :: later → (writes entry).isSome →
    (∀ other ∈ later, writes other = none) → entry ∈ lookedUp

/-- Looked up entries of a path, with the newest of each kind, in any order. -/
structure LooksUp (pathEntries lookedUp : List Entry) : Prop where
  inside : ∀ entry ∈ lookedUp, entry ∈ pathEntries
  model : ContainsNewest modelWrite pathEntries lookedUp
  thinkingLevel : ContainsNewest thinkingWrite pathEntries lookedUp
  activeTools : ContainsNewest toolsWrite pathEntries lookedUp

section Fold

variable {before own lookedUp : List Entry}

/-- A looked up or own entry of the path, by its identifier. -/
def isAtHand (lookedUp own : List Entry) (entry : Entry) : Bool :=
  entry.id ∈ (lookedUp ++ own).map fun entry => entry.id

theorem last_isAtHand {Value : Type} {writes : Entry → Option Value}
    (newest : ContainsNewest writes before lookedUp) :
    last writes ((before ++ own).filter (isAtHand lookedUp own)) = last writes (before ++ own) := by
  apply last_filter
  intro earlier entry later split wrote silent
  have atHand : entry ∈ lookedUp ++ own := by
    rcases append_eq_append_iff.mp split with ⟨middle, same, rest⟩ | ⟨middle, same, rest⟩
    · exact mem_append_right _ (rest ▸ mem_append_right _ mem_cons_self)
    cases middle with
    | nil =>
      refine mem_append_right _ ?_
      rw [nil_append] at rest
      exact rest ▸ mem_cons_self
    | cons first middle =>
      rw [cons_append, cons.injEq] at rest
      obtain ⟨rfl, rfl⟩ := rest
      exact mem_append_left _ (newest earlier entry middle same wrote fun other member =>
        silent other (mem_append_left _ member))
  exact decide_eq_true (mem_map_of_mem atHand)

/-- The entries at hand in the order of their numbers are part of the path. -/
theorem bySequence_atHand (ordered : (before ++ own).Pairwise fun older newer =>
      older.seq < newer.seq) (distinct : ((before ++ own).map fun entry => entry.id).Nodup)
    (inside : ∀ entry ∈ lookedUp, entry ∈ before) {ownEntries : List Entry}
    (owned : ∀ entry, entry ∈ ownEntries ↔ entry ∈ own) :
    bySequence (fun entry : Entry => entry.seq)
        ((indexBy (fun entry : Entry => entry.id)
          (lookedUp ++ ownEntries)).entries.map Prod.snd) =
      (before ++ own).filter (isAtHand lookedUp own) := by
  have onPath : ∀ entry ∈ lookedUp ++ ownEntries, entry ∈ before ++ own := by
    intro entry member
    rcases mem_append.mp member with found | mine
    · exact mem_append_left _ (inside entry found)
    · exact mem_append_right _ ((owned entry).mp mine)
  have values (entry : Entry) : entry ∈ (indexBy (fun entry : Entry => entry.id)
      (lookedUp ++ ownEntries)).entries.map Prod.snd ↔
        entry ∈ (before ++ own).filter (isAtHand lookedUp own) := by
    rw [mem_values_indexBy, mem_filter, isAtHand, decide_eq_true_eq]
    have sameIds : entry.id ∈ (lookedUp ++ own).map (fun entry => entry.id) ↔
        entry.id ∈ (lookedUp ++ ownEntries).map fun entry => entry.id := by
      simp only [mem_map, mem_append, owned]
    rw [sameIds, ← isSome_get?_indexBy, Option.isSome_iff_exists]
    constructor
    · intro found
      exact ⟨onPath entry (key_of_get?_indexBy _ _ found).2, entry, found⟩
    · intro known
      obtain ⟨member, other, found⟩ := known
      obtain ⟨named, present⟩ := key_of_get?_indexBy _ _ found
      rw [inj_on_of_nodup_map distinct (onPath other present) member named] at found
      exact found
  have distinctPath : (before ++ own).Nodup := distinct.of_map _
  have perm : ((indexBy (fun entry : Entry => entry.id)
      (lookedUp ++ ownEntries)).entries.map Prod.snd).Perm
        ((before ++ own).filter (isAtHand lookedUp own)) :=
    (perm_ext_iff_of_nodup ((nodup_values_indexBy _ _).of_map _) (distinctPath.filter _)).mpr values
  refine List.Perm.eq_of_pairwise ?_ (bySequence_pairwise _ _)
    ((ordered.filter _).imp Nat.le_of_lt) ((bySequence_perm _ _).trans perm)
  intro left right inLeft inRight lower upper
  have first := mem_of_mem_filter
    (perm.mem_iff.mp ((bySequence_perm _ _).mem_iff.mp inLeft))
  have seqs : ((before ++ own).map fun entry => entry.seq).Nodup :=
    pairwise_map.mpr (ordered.imp Nat.ne_of_lt)
  exact inj_on_of_nodup_map seqs first (mem_of_mem_filter inRight)
    (Nat.le_antisymm lower upper)

end Fold

/-- The own fields of an entry hold what recovery reads of its content. -/
def EntryContent.Describes (own : List (String × Json)) : EntryContent → Prop
  | .modelChange provider modelId => (Json.obj own).get? "provider" = some (.str provider) ∧
      (Json.obj own).get? "modelId" = some (.str modelId)
  | .thinkingLevelChange thinkingLevel =>
    (Json.obj own).get? "thinkingLevel" = some (.str thinkingLevel)
  | .activeToolsChange activeToolNames =>
    (Json.obj own).get? "activeToolNames" = some (.arr (activeToolNames.map .str))
  | .message carried _ => ∃ stored, (Json.obj own).get? "message" = some stored ∧
      stored.get? "role" = some (.str carried.role) ∧
      ∀ answer handle, carried.assistant? = some (answer, handle) →
        stored.get? "provider" = some (.str answer.provider) ∧
        stored.get? "model" = some (.str answer.model)
  | _ => True

/-- An entry as recovery reads a stored one. -/
structure Reads (stored : SessionV4.Entry) (entry : Entry) : Prop where
  id : entry.id = stored.id
  parentId : entry.parentId = stored.parentId
  seq : entry.seq = stored.seq
  timestamp : entry.timestamp = stored.timestamp
  type : entry.content.type = stored.type
  content : entry.content.Describes stored.own

/-- A path of a session lists entries in the order of their storing. -/
theorem sublist_of_isPathTo {state : SessionState} (projected : state.Projected)
    {path : List SessionV4.Entry} {leaf : Option String} (isPath : state.IsPathTo path leaf) :
    path.Sublist state.entries := by
  cases leaf with
  | none =>
    rw [show path = [] from isPath]
    exact nil_sublist _
  | some targetId =>
    obtain ⟨entry, found, chain⟩ := isPath
    obtain ⟨others, known, -, -, sublist⟩ :=
      projected.exists_chain (projected.stored_of_get? found).1
    rw [← chain.unique known, reverse_reverse] at sublist
    exact sublist

theorem map_eq_of_reads {Value : Type} {storedValue : SessionV4.Entry → Value}
    {value : Entry → Value} (same : ∀ stored entry, Reads stored entry →
      value entry = storedValue stored)
    {path : List SessionV4.Entry} {entries : List Entry} (reads : List.Forall₂ Reads path entries) :
    entries.map value = path.map storedValue := by
  induction reads with
  | nil => rfl
  | cons first _ ih => rw [map_cons, map_cons, same _ _ first, ih]

/-- Bounded lookups of the configuration equal the fold of the whole path: they overlay the
defaults with what the path leaves in force, whichever further entries are looked up, and in
whichever order. -/
theorem effectiveConfiguration_eq_overlay
    (isDeepEqual : ProvisionedEntry → ProvisionedEntry → Bool) (invalid : String → SessionError)
    (mutations : List SessionMutation) {path : List SessionV4.Entry} {leaf : Option String}
    (isPath : (initial.attemptAll invalid mutations).IsPathTo path leaf)
    {before own : List Entry} (reads : List.Forall₂ Reads path (before ++ own))
    (input : LaneReductionInput) (lookedUp : LooksUp before input.configurationEntries)
    (owned : ∀ entry, entry ∈ input.ownEntries ↔ entry ∈ own)
    (accepted : validateRecordLog isDeepEqual input.toRecordLogSlice = .ok ()) :
    ∃ result, reduceLaneState isDeepEqual input = .ok result ∧
      result.effectiveConfiguration = overlay input.defaults (before ++ own) := by
  have projected := attemptAll_projected invalid mutations
  have sublist := sublist_of_isPathTo projected isPath
  have ordered : (before ++ own).Pairwise fun older newer => older.seq < newer.seq := by
    rw [← pairwise_map (f := fun entry : Entry => entry.seq) (R := (· < ·)),
      map_eq_of_reads (fun _ _ read => read.seq) reads, pairwise_map]
    exact projected.entries_ordered.sublist sublist
  have distinct : ((before ++ own).map fun entry => entry.id).Nodup := by
    rw [map_eq_of_reads (fun _ _ read => read.id) reads]
    exact (nodup_append.mp projected.wellFormed.ids_distinct).1.sublist (sublist.map _)
  refine ⟨_, reduceLaneState_of_accepted accepted, ?_⟩
  change deriveEffectiveConfiguration input = _
  rw [deriveEffectiveConfiguration, bySequence_atHand ordered distinct lookedUp.inside owned,
    ← foldl_configure_eq_overlay, foldl_configure, foldl_configure,
    last_isAtHand lookedUp.model, last_isAtHand lookedUp.thinkingLevel,
    last_isAtHand lookedUp.activeTools]

section Example

/-- The first message of a session as recovery reads it. -/
def readMessage : Entry :=
  ⟨⟨"m1", .message (.other (.user (.text "") 0) rfl) false⟩, none, 1, 0⟩

/-- An idle lane behind that message, whose defaults think. -/
def thinkingLane : LaneReductionInput :=
  { laneOf [] [] [] with defaults := ⟨⟨"provider", "model"⟩, "high", []⟩ }

theorem isPathTo_firstMessage :
    (initial.attemptAll invalidMutation labelledMessage).IsPathTo
      [firstMessage] (some "m1") :=
  ⟨firstMessage, rfl, .root rfl⟩

theorem reads_firstMessage : Reads firstMessage readMessage where
  id := rfl
  parentId := rfl
  seq := rfl
  timestamp := rfl
  type := rfl
  content := by
    refine ⟨_, rfl, rfl, ?_⟩
    intro answer handle answered
    cases answered

theorem containsNewest_cons {Value : Type} {writes : Entry → Option Value} {first : Entry}
    {path lookedUp : List Entry} (newest : ContainsNewest writes path lookedUp)
    (here : (writes first).isSome → (∀ other ∈ path, writes other = none) → first ∈ lookedUp) :
    ContainsNewest writes (first :: path) lookedUp := by
  rintro (_ | ⟨_, earlier⟩) entry later same wrote silent
  · obtain ⟨rfl, rfl⟩ := cons.inj same
    exact here wrote silent
  · exact newest earlier entry later (cons.inj same).2 wrote silent

theorem containsNewest_nil {Value : Type} {writes : Entry → Option Value} (lookedUp : List Entry) :
    ContainsNewest writes [] lookedUp :=
  fun _ _ _ same => by simp at same

theorem looksUp_readMessage : LooksUp [readMessage] [] :=
  ⟨fun _ member => (not_mem_nil member).elim, containsNewest_cons (containsNewest_nil _) nofun,
    containsNewest_cons (containsNewest_nil _) nofun,
    containsNewest_cons (containsNewest_nil _) nofun⟩

/-- Where the path has no thinking level, the context says that thinking is off, but the default
stays in force. -/
theorem thinkingLane_keeps_default :
    (initial.attemptAll invalidMutation labelledMessage).IsPathTo
      [firstMessage] (some "m1") ∧
    List.Forall₂ Reads [firstMessage] ([readMessage] ++ []) ∧
    LooksUp [readMessage] thinkingLane.configurationEntries ∧
    (deriveSessionContextState [readMessage]).thinkingLevel = "off" ∧
    ∃ result, reduceLaneState (fun _ _ => true) thinkingLane = .ok result ∧
      result.effectiveConfiguration.thinkingLevel = "high" :=
  ⟨isPathTo_firstMessage, .cons reads_firstMessage .nil, looksUp_readMessage, rfl, _, rfl, rfl⟩

def modelEntry (id model : String) (parentId : Option String) (seq : Nat) :
    SessionV4.Entry where
  own := [("type", .str "model_change"), ("id", .str id), ("provider", .str "provider"),
    ("modelId", .str model)]
  id := id
  type := .modelChange
  parentId := parentId
  seq := seq
  timestamp := 0
  own_id := rfl
  own_type := rfl
  own_customType := nofun
  unplaced := by simp

def thinkingEntry (id level : String) (parentId : Option String) (seq : Nat) :
    SessionV4.Entry where
  own := [("type", .str "thinking_level_change"), ("id", .str id), ("thinkingLevel", .str level)]
  id := id
  type := .thinkingLevelChange
  parentId := parentId
  seq := seq
  timestamp := 0
  own_id := rfl
  own_type := rfl
  own_customType := nofun
  unplaced := by simp

def readModel (id model : String) (parentId : Option String) (seq : Nat) : Entry :=
  ⟨⟨id, .modelChange "provider" model⟩, parentId, seq, 0⟩

def readThinking (id level : String) (parentId : Option String) (seq : Nat) : Entry :=
  ⟨⟨id, .thinkingLevelChange level⟩, parentId, seq, 0⟩

theorem reads_modelEntry (id model : String) (parentId : Option String) (seq : Nat) :
    Reads (modelEntry id model parentId seq) (readModel id model parentId seq) :=
  ⟨rfl, rfl, rfl, rfl, rfl, rfl, rfl⟩

theorem reads_thinkingEntry (id level : String) (parentId : Option String) (seq : Nat) :
    Reads (thinkingEntry id level parentId seq) (readThinking id level parentId seq) :=
  ⟨rfl, rfl, rfl, rfl, rfl, rfl⟩

/-- A branch with two models. -/
def configured : List SessionV4.Entry :=
  [modelEntry "a" "small" none 1, thinkingEntry "b" "high" (some "a") 2,
    modelEntry "c" "large" (some "b") 3, thinkingEntry "d" "low" (some "c") 4]

/-- A run that changed the thinking level again. Of the entries before it the newest of each kind
are looked up, the last one first. -/
def configuredLane : LaneReductionInput :=
  { laneOf [startedRun 4] [.operationStarted (startedRun 4)]
      [readThinking "d" "low" (some "c") 4] with
    configurationEntries := [readModel "c" "large" (some "b") 3,
      readThinking "b" "high" (some "a") 2] }

def readBefore : List Entry :=
  [readModel "a" "small" none 1, readThinking "b" "high" (some "a") 2,
    readModel "c" "large" (some "b") 3]

theorem looksUp_readBefore : LooksUp readBefore configuredLane.configurationEntries where
  inside := by simp [configuredLane, readBefore]
  model := containsNewest_cons (containsNewest_cons (containsNewest_cons (containsNewest_nil _)
    fun _ _ => mem_cons_self) nofun) fun _ silent => nomatch silent _ (mem_of_mem_getLast? rfl)
  thinkingLevel := containsNewest_cons (containsNewest_cons (containsNewest_cons
    (containsNewest_nil _) nofun) fun _ _ => mem_cons_of_mem _ mem_cons_self) nofun
  activeTools := containsNewest_cons (containsNewest_cons (containsNewest_cons
    (containsNewest_nil _) nofun) nofun) nofun

theorem effectiveConfiguration_eq_overlay_configured :
    ∃ result, reduceLaneState (fun _ _ => true) configuredLane = .ok result ∧
      result.effectiveConfiguration = ⟨⟨"provider", "large"⟩, "low", []⟩ := by
  have isPath : (initial.attemptAll invalidMutation
      (configured.map (.entry (some "main")))).IsPathTo configured (some "d") :=
    ⟨_, rfl, .step rfl rfl (.step rfl rfl (.step rfl rfl (.root rfl)))⟩
  have reads : List.Forall₂ Reads configured (readBefore ++ configuredLane.ownEntries) :=
    .cons (reads_modelEntry _ _ _ _) (.cons (reads_thinkingEntry _ _ _ _)
      (.cons (reads_modelEntry _ _ _ _) (.cons (reads_thinkingEntry _ _ _ _) .nil)))
  exact effectiveConfiguration_eq_overlay (fun _ _ => true) _ _ isPath reads configuredLane
    looksUp_readBefore (fun _ => Iff.rfl) rfl

end Example

end Recovery
end Recode.SessionV4

import Recode.Compaction.Summary
import Recode.Session.MemoryStorage

/-! # Compacting a session

The harness prepares a compaction of the current branch, lets a hook provide the
result or generates one, and appends it to the session. A session goes on by
calls and compactions in any order. -/

namespace Recode.AgentHarness

open Recode List Session Option

/-- Why a session was not compacted. -/
inductive CompactFailure where
  | session (error : SessionError)
  | compaction (error : CompactionError)
  | nothingToCompact
deriving DecidableEq

section Compact

variable {Storage : Type} [SessionStorage Storage]

/-- Prepare a compaction of the current branch. -/
def prepareBranch (storage : Storage) (settings : CompactionSettings) :
    Except CompactFailure CompactionPreparation :=
  match getBranch storage with
  | .error error => .error (.session error)
  | .ok branchEntries =>
    match prepareCompaction branchEntries settings with
    | .error error => .error (.compaction error)
    | .ok none => .error .nothingToCompact
    | .ok (some preparation) => .ok preparation

def compactionBody (result : CompactionResult) (fromHook : Bool) : EntryBody :=
  .compaction
    { summary := result.summary
      firstKeptEntryId := result.firstKeptEntryId
      tokensBefore := result.tokensBefore
      retainedTail := result.retainedTail
      details := result.details
      usage := result.usage
      fromHook := some fromHook }

def compactResult (summarize : SummarizationRequest → AssistantMessage) (options : SummaryOptions)
    (provided : Option CompactionResult) (preparation : CompactionPreparation) :
    Except CompactionError CompactionResult :=
  match provided with
  | some result => .ok result
  | none => (compact summarize options preparation).2

def compactSession (storage : Storage) (stamp : Stamp) (settings : CompactionSettings)
    (summarize : SummarizationRequest → AssistantMessage) (options : SummaryOptions)
    (provided : Option CompactionResult) : Storage × Except CompactFailure CompactionResult :=
  match prepareBranch storage settings with
  | .error failure => (storage, .error failure)
  | .ok preparation =>
    match compactResult summarize options provided preparation with
    | .error error => (storage, .error (.compaction error))
    | .ok result =>
      match appendTypedEntry storage stamp
        (compactionBody result provided.isSome) with
      | .error error => (storage, .error (.session error))
      | .ok next => (next, .ok result)

/-- One step of a session: a call other than a bare compaction entry, or a compaction.
A result that a hook provides carries retained messages, and names as its first kept
entry only an entry of the session. -/
inductive Step (storage : Storage) : Storage → Prop
  | call (stamp : Stamp) (call : SessionCall) (fresh : Session.Fresh storage stamp call)
      (plain : ∀ data, call ≠ .appendCompaction data) :
      Step storage (perform storage stamp call).1
  | compact (stamp : Stamp) (settings : CompactionSettings)
      (summarize : SummarizationRequest → AssistantMessage) (options : SummaryOptions)
      (provided : Option CompactionResult)
      (fresh : SessionStorage.getEntry storage stamp.id = none)
      (retains : ∀ result, provided = some result → result.retainedTail.isSome ∧
        ∀ kept, result.firstKeptEntryId = some kept →
          (SessionStorage.getEntry storage kept).isSome) :
      Step storage (compactSession storage stamp settings summarize options provided).1

end Compact

/-- The sessions that steps lead to. -/
def Reachable (storage : InMemorySessionStorage) : Prop :=
  Relation.ReflTransGen Step InMemorySessionStorage.empty storage

/-- Every compaction carries its retained messages and was made to keep entries from an
earlier entry on. -/
def TailsRetained (entries : List SessionTreeEntry) : Prop :=
  ∀ older entry newer data, entries = older ++ entry :: newer → entry.compaction? = some data →
    data.retainedTail.isSome ∧
      ∀ kept, data.firstKeptEntryId = some kept → kept ∈ older.map SessionTreeEntry.id

theorem TailsRetained.append_singleton {entries : List SessionTreeEntry}
    (tails : TailsRetained entries) (entry : SessionTreeEntry)
    (retains : ∀ data, entry.compaction? = some data → data.retainedTail.isSome ∧
      ∀ kept, data.firstKeptEntryId = some kept → kept ∈ entries.map SessionTreeEntry.id) :
    TailsRetained (entries ++ [entry]) := by
  intro older other newer data same found
  rcases newer.eq_nil_or_concat' with rfl | ⟨newer, last, rfl⟩
  · obtain ⟨rfl, lasts⟩ := append_inj' same rfl
    rw [singleton_inj] at lasts
    exact retains data (lasts ▸ found)
  · rw [← cons_append, ← append_assoc] at same
    exact tails older other newer data (append_inj' same rfl).1 found

theorem TailsRetained.append_plain {entries more : List SessionTreeEntry}
    (tails : TailsRetained entries) (plain : ∀ entry ∈ more, entry.compaction? = none) :
    TailsRetained (entries ++ more) := by
  induction more using List.reverseRecOn with
  | nil => rwa [append_nil]
  | append_singleton more entry ih =>
    rw [← append_assoc]
    refine (ih fun other member => plain other (mem_append_left _ member)).append_singleton
      entry ?_
    intro data found
    rw [plain entry (by simp)] at found
    cases found

section Invariant

open InMemorySessionStorage

variable {entries : List SessionTreeEntry} {preparation : CompactionPreparation}

theorem firstKept_mem {branch : List SessionTreeEntry} {settings : CompactionSettings}
    (prepared : prepareCompaction branch settings = .ok (some preparation)) :
    preparation.firstKeptEntryId ∈ branch.map SessionTreeEntry.id := by
  unfold prepareCompaction at prepared
  split at prepared
  · cases prepared
  cases made : preparationRules.prepare branch settings with
  | none => simp [made] at prepared
  | some shared =>
    simp only [made, Except.ok.injEq, Option.some.injEq] at prepared
    subst prepared
    unfold PreparationRules.prepare at made
    cases first : branch[(preparationRules.cutPoint branch settings).firstKeptEntryIndex]? with
    | none => simp [first] at made
    | some entry =>
      simp only [first, Option.some.injEq] at made
      subst made
      exact mem_map_of_mem (mem_of_getElem? first)

theorem sublist_of_completePath (appended : Appended entries) {leafId : Option EntryId}
    {path : List SessionTreeEntry}
    (complete : CompletePath (afterAppending entries).byId leafId path) : path.Sublist entries := by
  cases leafId with
  | none =>
    cases complete
    exact nil_sublist _
  | some id =>
    obtain ⟨entry, found, chain⟩ := complete
    have member := ((appended.grows.find_iff id entry).mp found).1
    have ordered := appended.grows.chain_sublist member chain
    rwa [reverse_reverse] at ordered

theorem compact_carries {summarize : SummarizationRequest → AssistantMessage}
    {options : SummaryOptions} {result : CompactionResult}
    (made : (compact summarize options preparation).2 = .ok result) :
    result.retainedTail = some preparation.retainedTail ∧
      result.firstKeptEntryId = some preparation.firstKeptEntryId := by
  unfold compact at made
  cases summarized : (summarizePreparation readAnswer summarize options
      preparation.toCompactionPreparation).2 with
  | error error => simp [summarized, Except.map] at made
  | ok summary =>
    simp only [summarized, Except.map, Except.ok.injEq] at made
    subst made
    exact ⟨rfl, rfl⟩

theorem getBranch_afterAppending (appended : Appended entries) :
    ∃ path, CompletePath (afterAppending entries).byId (leafIdAfter entries) path ∧
      getBranch (afterAppending entries) = .ok (loadedPath path) ∧
        path.Sublist entries := by
  let tree := EntryTree.ofGrown entries appended.grows
  have present : ∀ id, leafIdAfter entries = some id → (tree.byId.get? id).isSome :=
    fun id same => (InsertionMap.isSome_get?_indexBy _ _ _).mpr (appended.leaf_mem same)
  obtain ⟨path, complete⟩ := tree.exists_completePath present
  refine ⟨path, complete, ?_, sublist_of_completePath appended complete⟩
  change (getLeafId (afterAppending entries) >>= _) = _
  rw [getLeafId_afterAppending appended]
  exact tree.getPathToRootOrCompaction_of_completePath complete

theorem firstKept_mem_entries (appended : Appended entries) {settings : CompactionSettings}
    (prepared : prepareBranch (afterAppending entries) settings = .ok preparation) :
    preparation.firstKeptEntryId ∈ entries.map SessionTreeEntry.id := by
  obtain ⟨path, -, loads, ordered⟩ := getBranch_afterAppending appended
  unfold prepareBranch at prepared
  rw [loads] at prepared
  simp only [] at prepared
  split at prepared
  · cases prepared
  · cases prepared
  next made =>
    cases prepared
    obtain ⟨entry, member, named⟩ := mem_map.mp (firstKept_mem made)
    obtain ⟨hidden, same⟩ := loadedPath_split path
    refine named ▸ mem_map_of_mem (ordered.subset ?_)
    rw [same]
    exact mem_append_right _ member

/-- One step keeps a session well formed and its compactions carrying their messages. -/
theorem step_preserves (appended : Appended entries) (tails : TailsRetained entries)
    {next : InMemorySessionStorage} (step : Step (afterAppending entries) next) :
    ∃ entries', Appended entries' ∧ TailsRetained entries' ∧ next = afterAppending entries' := by
  cases step with
  | call stamp call fresh plain =>
    have new := (getEntry_eq_none_iff appended stamp.id).mp fresh.1
    rcases perform_cases (afterAppending entries) stamp call with
      ⟨body, named, noLeaf, ⟨error, failed, -⟩ | performed⟩ | ⟨entryId, summary, rfl⟩
    · exact ⟨entries, appended, tails, by rw [failed]⟩
    · rw [performed, appendTypedEntry_afterAppending appended]
      refine ⟨_, appended_at_leaf appended stamp body new fun id same => (noLeaf _ same).elim,
        tails.append_plain ?_, rfl⟩
      intro entry member
      rw [mem_singleton] at member
      subst member
      unfold SessionTreeEntry.compaction?
      split
      next data compacts =>
        subst compacts
        exact (plain data (SessionCall.eq_appendCompaction named)).elim
      next => rfl
    · rcases moveTo_afterAppending appended stamp entryId summary with
        ⟨missing, -, -, failed⟩ | ⟨known, moved⟩
      · exact ⟨entries, appended, tails, congrArg Prod.fst failed⟩
      · refine ⟨_, appended_move appended fresh known, tails.append_plain ?_,
          congrArg Prod.fst moved⟩
        intro entry member
        rcases mem_cons.mp member with rfl | later
        · rfl
        cases summary with
        | none => cases later
        | some pair =>
          rw [map_some, toList_some, mem_singleton] at later
          subst later
          rfl
  | compact stamp settings summarize options provided fresh retains =>
    have new := (getEntry_eq_none_iff appended stamp.id).mp fresh
    unfold compactSession
    cases prepared : prepareBranch (afterAppending entries) settings with
    | error failure => exact ⟨entries, appended, tails, rfl⟩
    | ok preparation =>
      simp only []
      cases made : compactResult summarize options provided preparation with
      | error error => exact ⟨entries, appended, tails, rfl⟩
      | ok result =>
        simp only [appendTypedEntry_afterAppending appended]
        refine ⟨_, appended_at_leaf appended stamp _ new ?_, tails.append_singleton _ ?_, rfl⟩
        · intro id same
          cases same
        intro data found
        cases found
        cases provided with
        | some _ =>
          cases made
          obtain ⟨carries, keeps⟩ := retains _ rfl
          refine ⟨carries, fun kept named => ?_⟩
          exact (InsertionMap.isSome_get?_indexBy _ _ _).mp (keeps kept named)
        | none =>
          obtain ⟨tail, first⟩ := compact_carries made
          refine ⟨isSome_of_eq_some tail, fun kept named => ?_⟩
          rw [first, Option.some.injEq] at named
          exact named ▸ firstKept_mem_entries appended prepared

end Invariant

end Recode.AgentHarness

import Recode.Session.BranchWalk

/-! # Truncated branches and their context

A loaded branch is the end of the complete one. What it hides matters for the
context in two ways: the entries kept by the newest compaction may be hidden,
and so may the entry that last wrote a setting. -/

namespace Recode

open List Option LastWrite SessionTreeEntry

/-- A session tree whose compactions keep entries from an ancestor on. -/
structure SessionTree extends EntryTree where
  keeps_ancestor : ∀ id entry data kept, byId.get? id = some entry →
    entry.compaction? = some data → data.firstKeptEntryId = some kept →
      Relation.TransGen (ParentChain.IsParent parentId byId.get?) kept id

namespace SessionTree

variable (tree : SessionTree)

/-- On a complete path, the first kept entry of a compaction stands before it. -/
theorem kept_before_compaction {leafId : Option EntryId}
    {older newer : List SessionTreeEntry} {compaction : SessionTreeEntry}
    (complete : CompletePath tree.byId leafId (older ++ compaction :: newer))
    {data : CompactionData} (found : compaction.compaction? = some data) {kept : EntryId}
    (keeps : data.firstKeptEntryId = some kept) : ∃ entry ∈ older, entry.id = kept := by
  cases leafId with
  | none => simp [CompletePath] at complete
  | some id =>
    obtain ⟨leaf, foundLeaf, chain⟩ := complete
    have self : tree.byId.get? leaf.id = some leaf := tree.keyed id leaf foundLeaf ▸ foundLeaf
    have here : tree.byId.get? compaction.id = some compaction :=
      chain.found_of_mem tree.keyed self (by simp)
    have above := tree.keeps_ancestor _ _ _ _ here found keeps
    rw [reverse_append, reverse_cons, append_assoc] at chain
    have upper := chain.of_append
    obtain ⟨entry, member, named⟩ := upper.mem_of_transGen tree.keyed here above
    exact ⟨entry, mem_reverse.mp member, named⟩

end SessionTree

/-- The climb loads the first kept entry of the newest compaction, unless that
compaction carries its retained messages or the kept entries contribute none. -/
def KeptRangeLoaded (path : List SessionTreeEntry) : Prop :=
  ∀ older kept between compaction newer data,
    path = older ++ kept :: between ++ compaction :: newer →
    compaction.compaction? = some data → (∀ entry ∈ newer, entry.compaction? = none) →
    data.retainedTail = none → data.firstKeptEntryId = some kept.id →
      ClimbPasses (between ++ compaction :: newer) ∨
        ∀ entry ∈ kept :: between, entryMessages entry = []

/-- The climb loads the entry that writes a setting last, unless it writes a value
that the setting has anyway. -/
def SettingLoaded {Value : Type} (writes : SessionTreeEntry → Option Value)
    (initial : Option Value) (path : List SessionTreeEntry) : Prop :=
  ∀ older entry newer value, path = older ++ entry :: newer → writes entry = some value →
    (∀ other ∈ newer, writes other = none) → ClimbPasses newer ∨ initial = some value

section Kept

/-- The newest compaction of a path is one, so what holds of its kept entries is said at its
split. -/
theorem forall_keptRange_iff {older newer : List SessionTreeEntry}
    {compaction : SessionTreeEntry} {data : CompactionData}
    {holds : SessionTreeEntry → List SessionTreeEntry → SessionTreeEntry →
      List SessionTreeEntry → Prop}
    (found : compaction.compaction? = some data)
    (newest : ∀ entry ∈ newer, entry.compaction? = none) :
    (∀ older' kept between compaction' newer' data',
      older ++ compaction :: newer = older' ++ kept :: between ++ compaction' :: newer' →
      compaction'.compaction? = some data' → (∀ entry ∈ newer', entry.compaction? = none) →
      data'.retainedTail = none → data'.firstKeptEntryId = some kept.id →
        holds kept between compaction' newer') ↔
      (data.retainedTail = none → ∀ front kept between, older = front ++ kept :: between →
        data.firstKeptEntryId = some kept.id → holds kept between compaction newer) := by
  constructor
  · intro all untailed front kept between parts
    exact all front kept between compaction newer data (by rw [parts]) found newest untailed
  · intro one older' kept between compaction' newer' data' equal found' newest' untailed
    obtain ⟨parts, rfl, rfl⟩ := split_unique equal (isSome_of_eq_some found)
      (isSome_of_eq_some found') newest newest'
    obtain rfl := some.inj (found.symm.trans found')
    exact one untailed older' kept between parts

/-- A path has one entry of each identifier to keep from. -/
theorem forall_kept_iff {front between : List SessionTreeEntry} {kept : SessionTreeEntry}
    {holds : SessionTreeEntry → List SessionTreeEntry → Prop}
    (distinct : ((front ++ kept :: between).map SessionTreeEntry.id).Nodup) :
    (∀ front' kept' between', front ++ kept :: between = front' ++ kept' :: between' →
      some kept.id = some kept'.id → holds kept' between') ↔ holds kept between := by
  constructor
  · exact fun all => all front kept between rfl rfl
  · intro one front' kept' between' same named
    obtain ⟨rfl, rfl, rfl⟩ := split_unique_of_ids distinct same (some.inj named)
    exact one

end Kept

section Settings

variable {Value : Type} (writes : SessionTreeEntry → Option Value)

/-- After truncation a setting has its last written value if that entry is loaded, and
was never written otherwise. -/
theorem last_loadedPath {older newer : List SessionTreeEntry} {entry : SessionTreeEntry}
    {value : Value} (wrote : writes entry = some value)
    (silent : ∀ other ∈ newer, writes other = none) :
    last writes (loadedPath (older ++ entry :: newer)) =
      if ClimbPasses newer then some value else none := by
  split
  next passes =>
    obtain ⟨hidden, kept, -, loads⟩ := loadedPath_of_passes older entry passes
    rw [loads]
    exact (last_eq_some_iff _ _).mpr ⟨kept, entry, newer, rfl, wrote, silent⟩
  next blocked =>
    rw [loadedPath_of_not_passes older entry blocked, last_eq_none_iff]
    obtain ⟨hidden, same⟩ := loadedPath_split newer
    intro other member
    exact silent other (by rw [same]; exact mem_append_right _ member)

theorem setting_loadedPath_iff (initial : Option Value) (path : List SessionTreeEntry) :
    (last writes (loadedPath path)).or initial =
        (last writes path).or initial ↔ SettingLoaded writes initial path := by
  constructor
  · rintro same older entry newer value rfl wrote silent
    have written : last writes (older ++ entry :: newer) = some value :=
      (last_eq_some_iff _ _).mpr ⟨older, entry, newer, rfl, wrote, silent⟩
    rw [last_loadedPath writes wrote silent, written] at same
    by_cases passes : ClimbPasses newer
    · exact .inl passes
    · rw [if_neg passes] at same
      exact .inr (by simpa using same)
  · intro loaded
    cases written : last writes path with
    | none =>
      have silent := (last_eq_none_iff path).mp written
      obtain ⟨hidden, same⟩ := loadedPath_split path
      have silentToo : last writes (loadedPath path) = none := by
        rw [last_eq_none_iff]
        intro entry member
        exact silent entry (by rw [same]; exact mem_append_right _ member)
      rw [silentToo]
    | some value =>
      obtain ⟨older, entry, newer, rfl, wrote, silent⟩ :=
        (last_eq_some_iff _ _).mp written
      rw [last_loadedPath writes wrote silent]
      rcases loaded older entry newer value rfl wrote silent with passes | default
      · rw [if_pos passes]
      · split
        · rfl
        · simp [default]

end Settings

section Messages

theorem contextMessages_of_split {older newer : List SessionTreeEntry}
    {compaction : SessionTreeEntry} {data : CompactionData}
    (found : compaction.compaction? = some data)
    (newest : ∀ entry ∈ newer, entry.compaction? = none)
    (distinct : ((older ++ compaction :: newer).map SessionTreeEntry.id).Nodup) :
    (buildSessionContext (older ++ compaction :: newer)).messages = entryMessages compaction ++
        ((if data.retainedTail.isSome then [] else keptEntries data.firstKeptEntryId older).flatMap
          entryMessages ++ newer.flatMap entryMessages) := by
  have fresh := (id_ne_of_nodup distinct).1
  rw [buildSessionContext_messages, defaultContextEntryTransform_of_split found newest fresh]
  simp only [cons_append, flatMap_cons, flatMap_append]

/-- The kept entries that truncation leaves before the newest compaction: all of them
when the first kept entry is loaded, none otherwise. -/
theorem keptEntries_loaded {front between shown newer : List SessionTreeEntry}
    {kept compaction : SessionTreeEntry}
    (distinct : ((front ++ kept :: between).map SessionTreeEntry.id).Nodup)
    (passes : ClimbPasses newer)
    (loads : loadedPath (front ++ kept :: between ++ compaction :: newer) =
      shown ++ compaction :: newer) :
    keptEntries (some kept.id) shown =
      if ClimbPasses (between ++ compaction :: newer) then kept :: between else [] := by
  rw [append_assoc, cons_append] at loads
  split
  next reaches =>
    obtain ⟨hidden', shown', same, loads'⟩ := loadedPath_of_passes front kept reaches
    rw [loads', ← cons_append, ← append_assoc] at loads
    rw [← append_cancel_right loads]
    rw [same, append_assoc] at distinct
    exact keptEntries_of_mem
      (id_ne_of_nodup (distinct.sublist ((sublist_append_right ..).map _))).1
  next blocked =>
    rw [loadedPath_of_not_passes front kept blocked] at loads
    obtain ⟨hidden', shown', same, loads'⟩ := loadedPath_of_passes between compaction passes
    rw [loads'] at loads
    rw [← append_cancel_right loads]
    refine keptEntries_of_not_mem fun entry member => ?_
    rw [same, map_append, nodup_append, map_cons, nodup_cons] at distinct
    intro equal
    exact distinct.2.1.1 (equal ▸ mem_map_of_mem (mem_append_right _ member))

end Messages

namespace SessionTree

variable (tree : SessionTree)

/-- Truncation preserves the messages of a context exactly when it loads the kept
entries of the newest compaction. -/
theorem messages_loadedPath_iff {leafId : Option EntryId} {path : List SessionTreeEntry}
    (complete : CompletePath tree.byId leafId path) :
    (buildSessionContext (loadedPath path)).messages = (buildSessionContext path).messages ↔
      KeptRangeLoaded path := by
  have distinct := tree.ids_nodup_of_completePath complete
  rcases none_or_newest path with none | ⟨older, compaction, newer, data, rfl, found, newest⟩
  · rw [loadedPath_of_no_compaction none]
    refine iff_of_true rfl ?_
    intro older kept between compaction newer data equal found
    rw [none compaction (by simp [equal])] at found
    cases found
  · have passes := climbPasses_of_no_compaction newest
    obtain ⟨hidden, shown, rfl, loads⟩ := loadedPath_of_passes older compaction passes
    have distinctShown : ((shown ++ compaction :: newer).map SessionTreeEntry.id).Nodup :=
      distinct.sublist (((sublist_append_right ..).append_right _).map _)
    have rangeLoaded : KeptRangeLoaded (hidden ++ shown ++ compaction :: newer) ↔
        (data.retainedTail = none → ∀ front kept between,
          hidden ++ shown = front ++ kept :: between → data.firstKeptEntryId = some kept.id →
            ClimbPasses (between ++ compaction :: newer) ∨
              ∀ entry ∈ kept :: between, entryMessages entry = []) :=
      forall_keptRange_iff found newest
    rw [loads, contextMessages_of_split found newest distinctShown,
      contextMessages_of_split found newest distinct, append_cancel_left_eq,
      append_cancel_right_eq, rangeLoaded]
    cases data.retainedTail with
    | some tail => exact iff_of_true rfl nofun
    | none =>
      cases keeps : data.firstKeptEntryId with
      | none => exact iff_of_true rfl fun _ _ _ _ _ => nofun
      | some keptId =>
        obtain ⟨kept, member, rfl⟩ := tree.kept_before_compaction complete found keeps
        obtain ⟨front, between, parts⟩ := append_of_mem member
        have distinctOlder : ((front ++ kept :: between).map SessionTreeEntry.id).Nodup :=
          parts ▸ distinct.sublist ((sublist_append_left ..).map _)
        have fresh := (id_ne_of_nodup distinctOlder).1
        rw [parts, forall_kept_iff distinctOlder,
          keptEntries_loaded distinctOlder passes (parts ▸ loads), keptEntries_of_mem fresh]
        by_cases reaches : ClimbPasses (between ++ compaction :: newer)
        · simp [reaches]
        · simp only [reaches, ↓reduceIte, false_or, isSome_none, Bool.false_eq_true, flatMap_nil,
            true_implies]
          rw [eq_comm, flatMap_eq_nil_iff]

/-- Truncation preserves the whole context exactly when it loads the kept entries of
the newest compaction and the entries that wrote the settings last. -/
theorem context_loadedPath_iff {leafId : Option EntryId} {path : List SessionTreeEntry}
    (complete : CompletePath tree.byId leafId path) :
    buildSessionContext (loadedPath path) = buildSessionContext path ↔ KeptRangeLoaded path ∧
        SettingLoaded thinkingLevel? (some "off") path ∧
        SettingLoaded model? none path ∧
        SettingLoaded activeToolNames? none path := by
  have fields : ∀ left right : SessionContext, left = right ↔
      left.messages = right.messages ∧ left.toContextState = right.toContextState := by
    rintro ⟨⟨_, _, _⟩, _⟩ ⟨⟨_, _, _⟩, _⟩
    simp only [SessionContext.mk.injEq, ContextState.mk.injEq]
    tauto
  have thinking : ∀ written : Option String, written.or (some "off") =
      some (written.getD "off") := by
    intro written
    cases written <;> rfl
  rw [fields, tree.messages_loadedPath_iff complete, buildSessionContext_state,
    buildSessionContext_state, deriveSessionContextState_eq, deriveSessionContextState_eq,
    ContextState.mk.injEq, ← setting_loadedPath_iff, ← setting_loadedPath_iff,
    ← setting_loadedPath_iff, thinking, thinking, some.injEq, or_none,
    or_none, or_none, or_none]

/-- Every leaf has a complete path; loading its branch succeeds, and the loaded branch
has the context of the complete path exactly when the climb reaches the kept entries of
the newest compaction and the last writers of the settings. -/
theorem truncated_context_iff (leafId : Option EntryId)
    (present : ∀ id, leafId = some id → (tree.byId.get? id).isSome) :
    (∃ path, CompletePath tree.byId leafId path) ∧ ∀ path, CompletePath tree.byId leafId path →
        ∃ loaded, getPathToRootOrCompaction tree.byId leafId = .ok loaded ∧
          (buildSessionContext loaded = buildSessionContext path ↔ KeptRangeLoaded path ∧
              SettingLoaded SessionTreeEntry.thinkingLevel? (some "off") path ∧
              SettingLoaded SessionTreeEntry.model? none path ∧
              SettingLoaded SessionTreeEntry.activeToolNames? none path) :=
  ⟨tree.exists_completePath present, fun _ complete =>
    ⟨_, tree.getPathToRootOrCompaction_of_completePath complete,
      tree.context_loadedPath_iff complete⟩⟩

/-- A session grown by appending, in which no compaction names a first kept entry. -/
def ofGrown (entries : List SessionTreeEntry)
    (grows : GrownTree.Grows SessionTreeEntry.id parentId entries)
    (unbounded : ∀ entry ∈ entries, ∀ data, entry.compaction? = some data →
      data.firstKeptEntryId = none) : SessionTree where
  toEntryTree := .ofGrown entries grows
  keeps_ancestor := by
    intro id entry data kept found compacts keeps
    rw [unbounded entry ((grows.find_iff id entry).mp found).1 data compacts] at keeps
    cases keeps

end SessionTree

section Example

def retainedTailBranch : List SessionTreeEntry :=
  [⟨.nth 't' 1, none, 0, .thinkingLevelChange "high"⟩,
    ⟨.nth 'm' 1, some (.nth 't' 1), 1, .message (.user (.text "hello") 1)⟩,
    ⟨.nth 'c' 1, some (.nth 'm' 1), 2,
      .compaction ⟨"Greeting.", none, 2, some [.user (.text "hello") 1], none, none, none⟩⟩]

def retainedTailTree : SessionTree :=
  .ofGrown retainedTailBranch (by decide) (by
    intro entry member data found
    simp only [retainedTailBranch, mem_cons, not_mem_nil, or_false] at member
    rcases member with rfl | rfl | rfl <;> cases found
    rfl)

/-- Loading the branch forgets the thinking level. -/
theorem retainedTail_context_differs :
    ∃ path loaded, CompletePath retainedTailTree.byId (some (.nth 'c' 1)) path ∧
      getPathToRootOrCompaction retainedTailTree.byId (some (.nth 'c' 1)) = .ok loaded ∧
      (buildSessionContext path).thinkingLevel = "high" ∧
      (buildSessionContext loaded).thinkingLevel = "off" :=
  ⟨retainedTailBranch, _, ⟨_, rfl, .step rfl rfl (.step rfl rfl (.root rfl))⟩, rfl, rfl, rfl⟩

/-- A compaction that keeps the messages from the second one on. -/
def keptBranch : List SessionTreeEntry :=
  [⟨.nth 'm' 1, none, 0, .message (.user (.text "one") 1)⟩,
    ⟨.nth 'm' 2, some (.nth 'm' 1), 1, .message (.user (.text "two") 2)⟩,
    ⟨.nth 'c' 1, some (.nth 'm' 2), 2,
      .compaction ⟨"Counting.", some (.nth 'm' 2), 2, none, none, none, none⟩⟩]

theorem keptBranch_grows : GrownTree.Grows SessionTreeEntry.id parentId keptBranch := by decide

def keptTree : SessionTree where
  toEntryTree := .ofGrown keptBranch keptBranch_grows
  keeps_ancestor := by
    intro id entry data kept found compacts keeps
    obtain ⟨member, rfl⟩ := (keptBranch_grows.find_iff id entry).mp found
    simp only [keptBranch, mem_cons, not_mem_nil, or_false] at member
    rcases member with rfl | rfl | rfl <;> cases compacts
    cases keeps
    exact .single ⟨_, rfl, rfl⟩

/-- The branch is loaded from the first kept entry on, which is all that its context needs. -/
theorem truncated_context_iff_keptBranch :
    getPathToRootOrCompaction keptTree.byId (some (.nth 'c' 1)) = .ok keptBranch.tail ∧
      KeptRangeLoaded keptBranch ∧ SettingLoaded thinkingLevel? (some "off") keptBranch ∧
        SettingLoaded model? none keptBranch ∧ SettingLoaded activeToolNames? none keptBranch := by
  have present : ∀ id, some (.nth 'c' 1) = some id → (keptTree.byId.get? id).isSome := by
    rintro id ⟨⟩
    rfl
  obtain ⟨loaded, loads, same⟩ := (keptTree.truncated_context_iff _ present).2 keptBranch
    ⟨_, rfl, .step rfl rfl (.step rfl rfl (.root rfl))⟩
  cases loads
  exact ⟨rfl, same.mp rfl⟩

end Example
end Recode

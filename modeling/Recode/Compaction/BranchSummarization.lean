import Recode.Session.JsonlStorage

/-! # What navigation leaves behind

When the leaf moves to another entry of the tree, the entries between the old leaf and the
deepest common ancestor of both are summarized. The common ancestor is looked for on the loaded
branches, which may begin below it; the entries are collected by climbing parents one by one,
which goes on to the root when no common ancestor was found. -/

namespace Recode.AgentHarness

open Recode List Option JsonlSessionStorage Session SessionStorage

/-- The entries to summarize and the common ancestor of the two positions. -/
structure CollectEntriesResult where
  entries : List SessionTreeEntry
  commonAncestorId : Option EntryId

/-- The identifier of the newest entry of the target's branch that is on the old branch. -/
def commonAncestor (oldPath : List EntryId) (targetPath : List SessionTreeEntry) : Option EntryId :=
  (targetPath.reverse.find? fun entry => entry.id ∈ oldPath).map SessionTreeEntry.id

/-- The loop that climbs from an entry and pushes what it meets below the common ancestor. -/
def collectBelow (getEntry : EntryId → Option SessionTreeEntry)
    (commonAncestorId : Option EntryId) : Nat → Option EntryId → List SessionTreeEntry →
      Except SessionError (List SessionTreeEntry)
  | 0, _, _ => .error .endlessClimb
  | _ + 1, none, entries => .ok entries
  | fuel + 1, some current, entries =>
    if commonAncestorId = some current then .ok entries
    else
      match getEntry current with
      | none => .error (.danglingEntry current)
      | some entry =>
        collectBelow getEntry commonAncestorId fuel entry.parentId (entries ++ [entry])

/-- Collect the entries to summarize before moving from the old leaf to a target. Without a cycle
the climb meets no more entries than the session has. -/
def collectEntriesForBranchSummary {Storage : Type} [SessionStorage Storage] (session : Storage)
    (oldLeafId : Option EntryId) (targetId : EntryId) : Except SessionError CollectEntriesResult :=
  match oldLeafId with
  | none => .ok ⟨[], none⟩
  | some oldLeafId => do
    let oldPath := (← getBranch session (some oldLeafId)).map SessionTreeEntry.id
    let targetPath ← getBranch session (some targetId)
    let commonAncestorId := commonAncestor oldPath targetPath
    let entries ← collectBelow (SessionStorage.getEntry session) commonAncestorId
      ((getEntries session {}).length + 1) (some oldLeafId) []
    return ⟨entries.reverse, commonAncestorId⟩

/-- The result names the deepest entry that both complete paths have, or none when they have
none, and holds the rest of the old path below it. -/
structure Abandons (oldPath targetPath : List SessionTreeEntry) (result : CollectEntriesResult) :
    Prop where
  below : ∃ shared, oldPath = shared ++ result.entries ∧
    result.commonAncestorId = shared.getLast?.map SessionTreeEntry.id
  common : ∀ id, result.commonAncestorId = some id → id ∈ targetPath.map SessionTreeEntry.id
  deepest : ∀ entry ∈ result.entries, entry.id ∉ targetPath.map SessionTreeEntry.id

/-- Where two paths part, the climb passes everything that follows on either of them. -/
def ForkLoaded (oldPath targetPath : List SessionTreeEntry) : Prop :=
  ∀ shared fork abandoned ahead, oldPath = shared ++ fork :: abandoned →
    targetPath = shared ++ fork :: ahead →
    (∀ entry ∈ abandoned, entry.id ∉ targetPath.map SessionTreeEntry.id) →
      ClimbPasses abandoned ∧ ClimbPasses ahead

section Paths

variable (tree : EntryTree) {leafId : Option EntryId}

/-- An entry of a complete path is the one stored under its identifier, and its chain of
parents is the path above it. -/
theorem chain_of_completePath {older newer : List SessionTreeEntry} {entry : SessionTreeEntry}
    (complete : CompletePath tree.byId leafId (older ++ entry :: newer)) :
    tree.byId.get? entry.id = some entry ∧
      AncestorChain tree.byId.get? entry (entry :: older.reverse) := by
  cases leafId with
  | none => simp [CompletePath] at complete
  | some id =>
    obtain ⟨leaf, found, chain⟩ := complete
    have self : tree.byId.get? leaf.id = some leaf := tree.keyed id leaf found ▸ found
    refine ⟨chain.found_of_mem tree.keyed self (by simp), ?_⟩
    rw [reverse_append, reverse_cons, append_assoc] at chain
    exact chain.of_append

/-- Two complete paths share what lies above some point, and nothing below it. -/
theorem exists_fork {otherId : Option EntryId} {oldPath targetPath : List SessionTreeEntry}
    (complete : CompletePath tree.byId leafId oldPath)
    (complete' : CompletePath tree.byId otherId targetPath) :
    ∃ shared abandoned ahead, oldPath = shared ++ abandoned ∧ targetPath = shared ++ ahead ∧
      (∀ entry ∈ abandoned, entry.id ∉ targetPath.map SessionTreeEntry.id) ∧
      ∀ entry ∈ ahead, entry.id ∉ oldPath.map SessionTreeEntry.id := by
  cases newest : targetPath.reverse.find? fun entry =>
      decide (entry.id ∈ oldPath.map SessionTreeEntry.id) with
  | none =>
    have apart : ∀ entry ∈ targetPath, entry.id ∉ oldPath.map SessionTreeEntry.id := by
      intro entry member
      simpa using find?_eq_none.mp newest entry (mem_reverse.mpr member)
    refine ⟨[], oldPath, targetPath, rfl, rfl, ?_, apart⟩
    intro entry member common
    obtain ⟨other, inside, same⟩ := mem_map.mp common
    exact apart other inside (same ▸ mem_map_of_mem member)
  | some fork =>
    obtain ⟨onOld, behind, before, split, apart⟩ := find?_eq_some_iff_append.mp newest
    have target : targetPath = before.reverse ++ fork :: behind.reverse := by
      have reversed := congrArg reverse split
      simpa using reversed
    obtain ⟨same, inside, equal⟩ := mem_map.mp (of_decide_eq_true onOld)
    obtain ⟨older, newer, rfl⟩ := append_of_mem inside
    subst target
    obtain ⟨foundOld, chainOld⟩ := chain_of_completePath tree complete
    obtain ⟨foundTarget, chainTarget⟩ := chain_of_completePath tree complete'
    rw [equal, foundTarget, some.injEq] at foundOld
    subst foundOld
    have above : older = before.reverse := by
      have both := chainOld.unique chainTarget
      rw [cons.injEq] at both
      exact reverse_injective both.2
    subst above
    have ahead : ∀ entry ∈ behind.reverse, entry.id ∉
        (before.reverse ++ fork :: newer).map SessionTreeEntry.id := by
      intro entry member
      simpa using apart entry (mem_reverse.mp member)
    have distinct := tree.ids_nodup_of_completePath complete
    refine ⟨before.reverse ++ [fork], newer, behind.reverse, by simp, by simp, ?_, ?_⟩
    · intro entry member common
      rw [append_cons, map_append, mem_append] at common
      rcases common with above | below
      · rw [append_cons, map_append, nodup_append] at distinct
        exact distinct.2.2 _ above _ (mem_map_of_mem member) rfl
      · obtain ⟨other, inside, same⟩ := mem_map.mp below
        apply ahead other inside
        rw [same, append_cons, map_append]
        exact mem_append_right _ (mem_map_of_mem member)
    · simpa using ahead

theorem collectBelow_of_chain (commonAncestorId : Option EntryId) {entry : SessionTreeEntry}
    {chain : List SessionTreeEntry} (self : tree.byId.get? entry.id = some entry)
    (complete : AncestorChain tree.byId.get? entry chain) {fuel : Nat}
    (enough : chain.length < fuel) (entries : List SessionTreeEntry) :
    collectBelow tree.byId.get? commonAncestorId fuel (some entry.id) entries =
      .ok (entries ++ chain.takeWhile fun other => commonAncestorId ≠ some other.id) := by
  induction complete generalizing fuel entries with
  | @root entry top =>
    rw [length_singleton] at enough
    obtain ⟨fuel, rfl⟩ : ∃ more, fuel = more + 2 := ⟨fuel - 2, by omega⟩
    rw [collectBelow, takeWhile_cons]
    by_cases reached : commonAncestorId = some entry.id
    · simp [reached]
    · simp only [if_neg reached, self, top]
      simp [reached, collectBelow]
  | @step entry above key chain link found tail ih =>
    obtain ⟨fuel, rfl⟩ := Nat.exists_eq_succ_of_ne_zero (Nat.ne_of_gt (Nat.zero_lt_of_lt enough))
    rw [collectBelow, takeWhile_cons]
    by_cases reached : commonAncestorId = some entry.id
    · simp [reached]
    have named := tree.keyed key above found
    subst named
    simp only [if_neg reached, self, link]
    rw [ih found (Nat.lt_of_succ_lt_succ enough)]
    simp [reached]

end Paths

theorem commonAncestor_none {oldPath : List EntryId} {targetPath : List SessionTreeEntry}
    (apart : ∀ entry ∈ targetPath, entry.id ∉ oldPath) :
    commonAncestor oldPath targetPath = none := by
  rw [commonAncestor, map_eq_none_iff, find?_eq_none]
  intro entry member
  simpa using apart entry (mem_reverse.mp member)

theorem mem_of_mem_loadedPath {path : List SessionTreeEntry} {entry : SessionTreeEntry}
    (member : entry ∈ loadedPath path) : entry ∈ path := by
  obtain ⟨hidden, same⟩ := loadedPath_split path
  rw [same]
  exact mem_append_right _ member

/-- The common ancestor is found exactly when both climbs pass everything below it. -/
theorem commonAncestor_loaded {shared abandoned ahead : List SessionTreeEntry}
    {fork : SessionTreeEntry} (apart : ∀ entry ∈ abandoned,
      entry.id ∉ (shared ++ fork :: ahead).map SessionTreeEntry.id) (apart' : ∀ entry ∈ ahead,
      entry.id ∉ (shared ++ fork :: abandoned).map SessionTreeEntry.id) :
    commonAncestor ((loadedPath (shared ++ fork :: abandoned)).map SessionTreeEntry.id)
        (loadedPath (shared ++ fork :: ahead)) =
      if ClimbPasses abandoned ∧ ClimbPasses ahead then some fork.id else none := by
  by_cases passes : ClimbPasses abandoned
  · by_cases passes' : ClimbPasses ahead
    · obtain ⟨hidden, kept, -, loads⟩ := loadedPath_of_passes shared fork passes
      obtain ⟨hidden', kept', -, loads'⟩ := loadedPath_of_passes shared fork passes'
      have first : (loadedPath (shared ++ fork :: ahead)).reverse.find? (fun entry =>
          decide (entry.id ∈ (loadedPath (shared ++ fork :: abandoned)).map SessionTreeEntry.id)) =
          some fork := by
        rw [find?_eq_some_iff_append]
        refine ⟨by simp [loads], ahead.reverse, kept'.reverse, by simp [loads'], ?_⟩
        intro entry member
        have hiddenToo := apart' entry (mem_reverse.mp member)
        simp only [Bool.not_eq_eq_eq_not, Bool.not_true, decide_eq_false_iff_not]
        intro onOld
        obtain ⟨other, inside, same⟩ := mem_map.mp onOld
        exact hiddenToo (same ▸ mem_map_of_mem (mem_of_mem_loadedPath inside))
      rw [commonAncestor, first, if_pos ⟨passes, passes'⟩, map_some]
    · rw [if_neg fun both => passes' both.2, loadedPath_of_not_passes shared fork passes']
      apply commonAncestor_none
      intro entry member onOld
      obtain ⟨other, inside, same⟩ := mem_map.mp onOld
      exact apart' entry (mem_of_mem_loadedPath member)
        (same ▸ mem_map_of_mem (mem_of_mem_loadedPath inside))
  · rw [if_neg fun both => passes both.1, loadedPath_of_not_passes shared fork passes]
    apply commonAncestor_none
    intro entry member onOld
    obtain ⟨other, inside, same⟩ := mem_map.mp onOld
    exact apart other (mem_of_mem_loadedPath inside)
      (same ▸ mem_map_of_mem (mem_of_mem_loadedPath member))

theorem forkLoaded_iff {shared abandoned ahead : List SessionTreeEntry} {fork : SessionTreeEntry}
    (apart : ∀ entry ∈ abandoned, entry.id ∉ (shared ++ fork :: ahead).map SessionTreeEntry.id) :
    ForkLoaded (shared ++ fork :: abandoned) (shared ++ fork :: ahead) ↔
      ClimbPasses abandoned ∧ ClimbPasses ahead := by
  constructor
  · exact fun loaded => loaded shared fork abandoned ahead rfl rfl apart
  · intro passes shared' fork' abandoned' ahead' same same' apart'
    let common (entry : SessionTreeEntry) : Option Unit :=
      if entry.id ∈ (shared ++ fork :: ahead).map SessionTreeEntry.id then some () else none
    have onBoth {front back : List SessionTreeEntry} {entry : SessionTreeEntry}
        (target : shared ++ fork :: ahead = front ++ entry :: back) :
        (common entry).isSome := by
      have inside : entry.id ∈ (shared ++ fork :: ahead).map SessionTreeEntry.id := by
        rw [target]
        exact mem_map_of_mem (by simp)
      simp only [common, if_pos inside, isSome_some]
    have silent : ∀ other ∈ abandoned, common other = none := fun other member =>
      if_neg (apart other member)
    have silent' : ∀ other ∈ abandoned', common other = none := fun other member =>
      if_neg (apart' other member)
    have wrote : (common fork).isSome := onBoth rfl
    have wrote' : (common fork').isSome := onBoth same'
    obtain ⟨rfl, rfl, rfl⟩ := LastWrite.split_unique same wrote wrote' silent silent'
    have target := append_cancel_left same'
    rw [cons.injEq] at target
    exact target.2 ▸ passes

section Files

variable (tree : EntryTree) {file : List SessionTreeEntry}
  (indexed : tree.byId = InsertionMap.indexBy SessionTreeEntry.id file)
include indexed

theorem length_le_file {entry : SessionTreeEntry} {chain : List SessionTreeEntry}
    (self : tree.byId.get? entry.id = some entry)
    (complete : AncestorChain tree.byId.get? entry chain) : chain.length ≤ file.length := by
  have inside : ∀ wanted node, tree.byId.get? wanted = some node →
      node.id = wanted ∧ wanted ∈ file.map SessionTreeEntry.id := by
    intro wanted node found
    rw [indexed] at found
    obtain ⟨named, member⟩ := InsertionMap.key_of_get?_indexBy SessionTreeEntry.id file found
    exact ⟨named, named ▸ mem_map_of_mem member⟩
  have short := complete.length_le inside tree.acyclic self
  rwa [length_map] at short

theorem collectEntriesForBranchSummary_of_completePath {oldLeafId targetId : EntryId}
    {oldPath targetPath : List SessionTreeEntry}
    (complete : CompletePath tree.byId (some oldLeafId) oldPath)
    (complete' : CompletePath tree.byId (some targetId) targetPath) :
    collectEntriesForBranchSummary (loadJsonlStorage file) (some oldLeafId)
        targetId =
      let commonAncestorId :=
        commonAncestor ((loadedPath oldPath).map SessionTreeEntry.id) (loadedPath targetPath)
      .ok ⟨(oldPath.reverse.takeWhile fun entry => commonAncestorId ≠ some entry.id).reverse,
        commonAncestorId⟩ := by
  have branch (id : EntryId) : getBranch (loadJsonlStorage file)
      (some id) = getPathToRootOrCompaction tree.byId (some id) := by
    rw [indexed]
    rfl
  have lookup : SessionStorage.getEntry (loadJsonlStorage file) =
      tree.byId.get? := by
    rw [indexed]
    rfl
  have size : getEntries (loadJsonlStorage file) {} = file := rfl
  simp only [collectEntriesForBranchSummary, branch, lookup, size,
    tree.getPathToRootOrCompaction_of_completePath complete,
    tree.getPathToRootOrCompaction_of_completePath complete']
  obtain ⟨entry, found, chain⟩ := complete
  have named := tree.keyed oldLeafId entry found
  subst named
  have short := length_le_file tree indexed found chain
  simp only [bind, Except.bind]
  rw [collectBelow_of_chain tree _ found chain (Nat.lt_succ_of_le short)]
  rfl

/-- Navigation collects exactly the entries it abandons, and names the deepest common ancestor,
if and only if both branches are loaded from the point where they part. -/
theorem abandons_iff_forkLoaded {oldLeafId : Option EntryId} {targetId : EntryId}
    {oldPath targetPath : List SessionTreeEntry}
    (complete : CompletePath tree.byId oldLeafId oldPath)
    (complete' : CompletePath tree.byId (some targetId) targetPath) :
    ∃ result, collectEntriesForBranchSummary (JsonlSessionStorage.loadJsonlStorage file) oldLeafId
        targetId = .ok result ∧
      (Abandons oldPath targetPath result ↔ ForkLoaded oldPath targetPath) := by
  cases oldLeafId with
  | none =>
    cases complete
    have nothing : Abandons [] targetPath ⟨[], none⟩ :=
      { below := ⟨[], rfl, rfl⟩
        common := fun _ named => (some_ne_none _ named.symm).elim
        deepest := fun _ member => (not_mem_nil member).elim }
    refine ⟨⟨[], none⟩, by rw [collectEntriesForBranchSummary], iff_of_true nothing ?_⟩
    intro shared fork abandoned ahead parted
    exact (append_ne_nil_of_right_ne_nil shared (cons_ne_nil _ _) parted.symm).elim
  | some oldLeafId =>
    have collected := collectEntriesForBranchSummary_of_completePath tree indexed complete complete'
    refine ⟨_, collected, ?_⟩
    have distinct := tree.ids_nodup_of_completePath complete
    obtain ⟨shared, abandoned, ahead, rfl, rfl, apart, apart'⟩ :=
      exists_fork tree complete complete'
    rcases eq_nil_or_concat shared with rfl | ⟨front, fork, rfl⟩
    · have none : commonAncestor ((loadedPath ([] ++ abandoned)).map SessionTreeEntry.id)
          (loadedPath ([] ++ ahead)) = Option.none := by
        apply commonAncestor_none
        intro entry member onOld
        obtain ⟨other, inside, same⟩ := mem_map.mp onOld
        exact apart' entry (mem_of_mem_loadedPath member)
          (same ▸ mem_map_of_mem (mem_of_mem_loadedPath inside))
      have all : (([] ++ abandoned).reverse.takeWhile fun entry : SessionTreeEntry =>
          decide ((Option.none : Option EntryId) ≠ some entry.id)).reverse = abandoned := by
        rw [nil_append, takeWhile_eq_self_iff.mpr, reverse_reverse]
        exact fun _ _ => decide_eq_true (some_ne_none _).symm
      rw [none, all]
      apply iff_of_true
      · exact ⟨⟨[], rfl, rfl⟩, fun _ named => (some_ne_none _ named.symm).elim, apart⟩
      · intro shared fork abandoned' ahead' same same' _
        refine (apart fork ?_ ?_).elim
        · rw [nil_append] at same
          rw [same]
          simp
        · rw [same']
          exact mem_map_of_mem (by simp)
    · simp only [concat_eq_append, append_assoc, singleton_append] at *
      rw [commonAncestor_loaded apart apart', forkLoaded_iff apart]
      by_cases passes : ClimbPasses abandoned ∧ ClimbPasses ahead
      · rw [if_pos passes]
        apply iff_of_true _ passes
        have below : ∀ entry ∈ abandoned.reverse, decide (some fork.id ≠ some entry.id) = true := by
          intro entry member
          rw [decide_eq_true_eq, ne_eq, Option.some.injEq]
          intro same
          apply apart entry (mem_reverse.mp member)
          rw [← same]
          exact mem_map_of_mem (by simp)
        have collectedBelow : ((front ++ fork :: abandoned).reverse.takeWhile fun entry =>
            decide (some fork.id ≠ some entry.id)).reverse = abandoned := by
          rw [reverse_append, reverse_cons, append_assoc, takeWhile_append_of_pos below]
          simp
        rw [collectedBelow]
        refine ⟨⟨front ++ [fork], by simp, by simp⟩, ?_, apart⟩
        intro id named
        rw [← some.inj named]
        exact mem_map_of_mem (by simp)
      · rw [if_neg passes]
        refine iff_of_false (fun abandons => ?_) passes
        refine abandons.deepest fork ?_ (mem_map_of_mem (by simp))
        simp

end Files

section Example

/-- Two messages, a compaction that carries the second one, and a message in its place on
another branch. -/
def compactedFork : List SessionTreeEntry :=
  [⟨.nth 'm' 1, none, 0, .message (.user (.text "hello") 0)⟩,
    ⟨.nth 'm' 2, some (.nth 'm' 1), 1, .message (.user (.text "again") 1)⟩,
    ⟨.nth 'c' 1, some (.nth 'm' 2), 2,
      .compaction ⟨"Greetings.", none, 2, some [.user (.text "again") 1], none, none, none⟩⟩,
    ⟨.nth 'm' 3, some (.nth 'm' 2), 3, .message (.user (.text "instead") 3)⟩]

def compactedForkTree : EntryTree := .ofGrown compactedFork (by decide)

/-- Both branches share two messages. Leaving the compaction collects these too, and finds no
common ancestor. -/
theorem compactedFork_not_abandons :
    ∃ oldPath targetPath, CompletePath compactedForkTree.byId (some (.nth 'c' 1)) oldPath ∧
      CompletePath compactedForkTree.byId (some (.nth 'm' 3)) targetPath ∧
      (oldPath.take 2).map SessionTreeEntry.id = (targetPath.take 2).map SessionTreeEntry.id ∧
      ∃ result, collectEntriesForBranchSummary (JsonlSessionStorage.loadJsonlStorage compactedFork)
          (some (.nth 'c' 1)) (.nth 'm' 3) = .ok result ∧
        result.commonAncestorId = none ∧ result.entries = oldPath ∧
        ¬ Abandons oldPath targetPath result := by
  refine ⟨[compactedFork[0], compactedFork[1], compactedFork[2]],
    [compactedFork[0], compactedFork[1], compactedFork[3]],
    ⟨_, rfl, .step rfl rfl (.step rfl rfl (.root rfl))⟩,
    ⟨_, rfl, .step rfl rfl (.step rfl rfl (.root rfl))⟩, rfl, _, rfl, rfl, rfl, ?_⟩
  intro abandons
  exact abandons.deepest _ mem_cons_self mem_cons_self

/-- The same branches with a compaction that keeps what is above it. -/
def keptFork : List SessionTreeEntry :=
  compactedFork.set 2 ⟨.nth 'c' 1, some (.nth 'm' 2), 2,
    .compaction ⟨"Greetings.", some (.nth 'm' 1), 2, none, none, none, none⟩⟩

def keptForkTree : EntryTree := .ofGrown keptFork (by decide)

/-- Leaving that compaction collects it alone. -/
theorem abandons_iff_forkLoaded_kept :
    ∃ oldPath targetPath result, CompletePath keptForkTree.byId (some (.nth 'c' 1)) oldPath ∧
      CompletePath keptForkTree.byId (some (.nth 'm' 3)) targetPath ∧
      collectEntriesForBranchSummary (JsonlSessionStorage.loadJsonlStorage keptFork)
        (some (.nth 'c' 1)) (.nth 'm' 3) = .ok result ∧
      result.entries.map SessionTreeEntry.id = [.nth 'c' 1] ∧
      Abandons oldPath targetPath result := by
  have complete : CompletePath keptForkTree.byId (some (.nth 'c' 1))
      [keptFork[0], keptFork[1], keptFork[2]] :=
    ⟨_, rfl, .step rfl rfl (.step rfl rfl (.root rfl))⟩
  have complete' : CompletePath keptForkTree.byId (some (.nth 'm' 3))
      [keptFork[0], keptFork[1], keptFork[3]] :=
    ⟨_, rfl, .step rfl rfl (.step rfl rfl (.root rfl))⟩
  obtain ⟨result, collected, abandons⟩ :=
    abandons_iff_forkLoaded keptForkTree rfl complete complete'
  refine ⟨_, _, result, complete, complete', collected, ?_, abandons.mpr ?_⟩
  · cases collected
    rfl
  · exact (@forkLoaded_iff [keptFork[0]] [keptFork[2]] [keptFork[3]] keptFork[1] (by decide)).mpr
      ⟨by decide, by decide⟩

end Example

end Recode.AgentHarness

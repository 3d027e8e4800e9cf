import Recode.SessionV4.Fork

/-! # Forks are faithful

What a fork holds: the entries of the tree, or of the branch up to its target,
numbered anew, with their lanes, labels and name; and what queries along its
branches answer. -/

namespace Recode.SessionV4
namespace SessionState

open List

theorem collect_all {Item : Type} (results items : List Item) :
    collect (fun _ => true) (fun _ => false) none results items = (results ++ items, false) := by
  induction items generalizing results with
  | nil => rw [collect, append_nil]
  | cons item items ih => simp [collect, ih]

theorem matches_oldestFirst :
    (fun entry => matchesEntryQuery entry { order := some .oldestFirst }) = fun _ => true := rfl

/-- Without conditions, a query for entries returns all of them. -/
theorem findEntries_oldestFirst (state : SessionState) :
    state.findEntries { order := some .oldestFirst } = .ok state.entries := by
  rw [findEntries, matches_oldestFirst, collect_all]
  rfl

/-- What a query along a branch answers, when its checks pass, from the path to the root. -/
def branchAnswer (path : List Entry) (query : EntryQuery) (bounds : BranchBounds) : List Entry :=
  if query.order = some .oldestFirst then
    (collect (matchesEntryQuery · query) (reachedBound bounds) query.limit [] path.reverse).1
  else
    (collect (matchesEntryQuery · query) (fun _ => false) query.limit []
      (takeThrough (reachedBound bounds) path)).1

variable {state : SessionState} {copied : List Entry} {fork : SessionState}
  {lanes : List LanePointer} {query forkQuery : EntryQuery} {path : List Entry} {entry : Entry}

theorem Projected.findEntriesOnBranch_eq (projected : state.Projected)
    (stored : entry ∈ state.entries)
    (chain : ParentChain.Chain Entry.parentId state.entriesById.get? entry path)
    (query : EntryQuery) (bounds : BranchBounds) :
    state.findEntriesOnBranch query bounds entry.id = do
      assertValidLimit query.limit
      assertValidCursor query.afterSeq
      return branchAnswer path query bounds := by
  rw [findEntriesOnBranch]
  by_cases order : query.order = some .oldestFirst
  · have walk := projected.walkToRoot_of_chain stored chain {}
    rw [show reachedBound {} = fun _ => false from rfl, takeThrough_never fun _ _ => rfl] at walk
    rw [if_pos order, walk, branchAnswer, if_pos order]
  · rw [if_neg order, projected.walkToRoot_of_chain stored chain bounds, branchAnswer, if_neg order]

/-- Without conditions, a query along a branch returns the path from the root. -/
theorem Projected.findEntriesOnBranch_oldestFirst
    (projected : state.Projected) (stored : entry ∈ state.entries)
    (chain : ParentChain.Chain Entry.parentId state.entriesById.get? entry path) :
    state.findEntriesOnBranch { order := some .oldestFirst } {} entry.id = .ok path.reverse := by
  have unbounded : reachedBound {} = fun _ => false := rfl
  rw [projected.findEntriesOnBranch_eq stored chain, branchAnswer, if_pos rfl,
    matches_oldestFirst, unbounded, collect_all]
  rfl

/-- The entries and lanes a fork keeps. -/
structure Selection (state : SessionState) (copied : List Entry) (lanes : List LanePointer) :
    Prop where
  sublist : copied.Sublist state.entries
  closed : ∀ entry ∈ copied, ∀ parentId, entry.parentId = some parentId →
    parentId ∈ copied.map (·.id)
  leaves : ∀ pointer ∈ lanes, ∀ id, pointer.leafId = some id → id ∈ copied.map (·.id)
  mainLane : ∃ leaf others, lanes = ⟨"main", leaf⟩ :: others
  lanes_distinct : (lanes.map LanePointer.lane).Nodup

/-- The path from the root to a target; no path without a target. -/
def IsPathTo (state : SessionState) (path : List Entry) : Option String → Prop
  | none => path = []
  | some targetId => ∃ entry, state.getEntry targetId = some entry ∧
      ParentChain.Chain Entry.parentId state.getEntry entry path.reverse

theorem Projected.stored_of_get? (projected : state.Projected) {id : String}
    (found : state.entriesById.get? id = some entry) : entry ∈ state.entries ∧ entry.id = id := by
  rw [projected.indexed] at found
  exact (projected.grows.find_iff id entry).mp found

/-- The entry a fork of a branch is selected by: the one named, or else the leaf of lane main. -/
def Selected (state : SessionState) (selectedId : Option String) : Option String → Prop
  | none => ⟨"main", selectedId⟩ ∈ state.getLanes
  | some entryId => selectedId = some entryId

/-- Where the path of a branch ends: at the selected message entry (`at`, and when no entry is
named) or at its parent (`before`, and when one is); nowhere when lane main is empty. -/
inductive EndsBranch (state : SessionState) (entryId : Option String) :
    Option ForkPosition → Option String → Prop
  | empty {position} (selected : state.Selected none entryId) :
    EndsBranch state entryId position none
  | self {position entry} (selected : state.Selected (some entry.id) entryId)
    (stored : entry ∈ state.entries) (message : entry.type = .message)
    (placed : position = some .at ∨ position = none ∧ entryId = none) :
    EndsBranch state entryId position (some entry.id)
  | parent {position entry} (selected : state.Selected (some entry.id) entryId)
    (stored : entry ∈ state.entries) (message : entry.type = .message)
    (placed : position = some .before ∨ position = none ∧ entryId ≠ none) :
    EndsBranch state entryId position entry.parentId

variable {entryId selectedId targetId : Option String} {position : Option ForkPosition}

theorem Projected.endsBranch_of_selectedTarget (projected : state.Projected)
    (selected : state.Selected selectedId entryId)
    (target : state.selectedTarget (position.getD (if entryId = none then .at else .before))
      selectedId = .ok targetId) : state.EndsBranch entryId position targetId := by
  cases selectedId with
  | none =>
    cases target
    exact .empty selected
  | some selectedEntryId =>
    rw [selectedTarget] at target
    cases found : state.getEntry selectedEntryId with
    | none =>
      simp only [found] at target
      cases target
    | some entry =>
      obtain ⟨stored, rfl⟩ := projected.stored_of_get? found
      by_cases message : entry.type = .message
      · simp only [found, message, ne_eq, not_true_eq_false, ↓reduceIte, Except.ok.injEq] at target
        by_cases placed : position.getD (if entryId = none then .at else .before) = .at
        · rw [← target, if_pos placed]
          refine .self selected stored message ?_
          cases position <;> cases entryId <;> simp_all
        · rw [← target, if_neg placed]
          refine .parent selected stored message ?_
          rcases position with - | - | - <;> cases entryId <;> simp_all
      · simp only [found, ne_eq, message, not_false_eq_true, ↓reduceIte] at target
        cases target

theorem Projected.endsBranch_of_forkTarget (projected : state.Projected)
    (target : state.forkTarget entryId position = .ok targetId) :
    state.EndsBranch entryId position targetId := by
  cases entryId with
  | none =>
    obtain ⟨leafId, main, target⟩ := Procedure.bind_eq_ok target
    refine projected.endsBranch_of_selectedTarget (mem_map.mpr ⟨("main", leafId), ?_, rfl⟩) target
    rw [← InsertionMap.get?_eq_some_iff]
    rw [requireLane] at main
    split at main <;> cases main
    assumption
  | some entryId => exact projected.endsBranch_of_selectedTarget rfl target

theorem EndsBranch.stored {id : String} (ends : state.EndsBranch entryId position (some id))
    (projected : state.Projected) : ∃ entry ∈ state.entries, entry.id = id := by
  generalize target : some id = targetId at ends
  cases ends with
  | empty => cases target
  | self selected stored => exact ⟨_, stored, (Option.some.inj target).symm⟩
  | parent selected stored =>
    obtain ⟨above, present, named, -⟩ := projected.parent_earlier stored target.symm
    exact ⟨above, present, named⟩

theorem Projected.selection_tree (projected : state.Projected) :
    state.Selection state.entries state.getLanes where
  sublist := .refl _
  closed entry stored parentId link := by
    obtain ⟨above, present, rfl, -⟩ := projected.parent_earlier stored link
    exact mem_map_of_mem present
  leaves pointer listed id leaf := by
    obtain ⟨entry, member, rfl⟩ := mem_map.mp listed
    refine projected.leaves entry.1 id ?_
    change entry.2 = some id at leaf
    rw [InsertionMap.get?_eq_some_iff, ← leaf]
    exact member
  mainLane := by
    obtain ⟨leaf, others, first⟩ := projected.mainLane
    exact ⟨leaf, others.map fun pointer => ⟨pointer.1, pointer.2⟩, by rw [getLanes, first]; rfl⟩
  lanes_distinct := by
    rw [getLanes, map_map]
    exact state.lanes.keys_nodup

theorem Projected.selection_branch (projected : state.Projected) {targetId : Option String}
    (isPath : state.IsPathTo path targetId) : state.Selection path [⟨"main", targetId⟩] := by
  cases targetId with
  | none =>
    rw [show path = [] from isPath]
    exact ⟨nil_sublist _, by simp, by simp, ⟨_, _, rfl⟩, by simp⟩
  | some targetId =>
    obtain ⟨entry, found, chain⟩ := isPath
    obtain ⟨stored, named⟩ := projected.stored_of_get? found
    obtain ⟨other, same, -, -, sublist⟩ := projected.exists_chain stored
    obtain rfl := chain.unique same
    rw [reverse_reverse] at sublist
    refine ⟨sublist, ?_, ?_, ⟨_, _, rfl⟩, by simp⟩
    · intro below visited parentId link
      obtain ⟨newer, older, split⟩ := append_of_mem (mem_reverse.mpr visited)
      rw [split] at chain
      cases older with
      | nil =>
        rw [chain.parent_of_last] at link
        cases link
      | cons above older =>
        obtain ⟨key, named, found⟩ := chain.parent_of_adjacent
        obtain rfl := Option.some.inj (link.symm.trans named)
        refine mem_map.mpr ⟨above, ?_, (projected.stored_of_get? found).2⟩
        rw [← mem_reverse, split]
        simp
    · intro pointer listed id leaf
      rw [mem_singleton.mp listed] at leaf
      obtain rfl := Option.some.inj leaf
      refine mem_map.mpr ⟨entry, ?_, named⟩
      obtain ⟨rest, first⟩ := chain.head
      rw [← mem_reverse, first]
      exact mem_cons_self

/-- What a fork keeps: the tree with its lanes, or the path to the end of the branch with a lane
main there. -/
def Keeps (state : SessionState) (copied : List Entry) (lanes : List LanePointer) :
    ForkOptions → Prop
  | .tree => copied = state.entries ∧ lanes = state.getLanes
  | .branch entryId position => ∃ targetId, state.EndsBranch entryId position targetId ∧
      state.IsPathTo copied targetId ∧ lanes = [⟨"main", targetId⟩]

theorem Projected.keeps_of_forkSelection (projected : state.Projected) {options : ForkOptions}
    {copied : List Entry} (selected : state.forkSelection options = .ok (copied, lanes)) :
    state.Keeps copied lanes options := by
  cases options with
  | tree =>
    rw [forkSelection, findEntries_oldestFirst] at selected
    cases selected
    exact ⟨rfl, rfl⟩
  | branch entryId position =>
    obtain ⟨targetId, target, selected⟩ := Procedure.bind_eq_ok selected
    have ends := projected.endsBranch_of_forkTarget target
    refine ⟨targetId, ends, ?_⟩
    cases targetId with
    | none =>
      cases selected
      exact ⟨rfl, rfl⟩
    | some targetId =>
      obtain ⟨entry, stored, rfl⟩ := ends.stored projected
      obtain ⟨path, chain, -⟩ := projected.exists_chain stored
      simp only [projected.findEntriesOnBranch_oldestFirst stored chain] at selected
      cases selected
      exact ⟨⟨entry, projected.get?_of_mem stored, by rwa [reverse_reverse]⟩, rfl⟩

theorem Projected.selection_of_keeps (projected : state.Projected)
    {options : ForkOptions} {copied : List Entry}
    (keeps : state.Keeps copied lanes options) : state.Selection copied lanes := by
  cases options with
  | tree =>
    obtain ⟨rfl, rfl⟩ := keeps
    exact projected.selection_tree
  | branch entryId position =>
    obtain ⟨targetId, -, isPath, rfl⟩ := keeps
    exact projected.selection_branch isPath

/-- What a replayed fork holds. -/
structure Holds (state fork : SessionState) (copied : List Entry) (lanes : List LanePointer) :
    Prop where
  entries : fork.entries = renumberFrom 1 copied
  lanes : fork.getLanes = lanes
  name : fork.name = state.name
  labels : ∀ id, fork.getLabel id = if id ∈ copied.map (·.id) then state.getLabel id else none
  records : fork.records = []
  messageCount : fork.stats.messageCount = (copied.filter fun entry => entry.type = .message).length

theorem count_messages (log : List LogItem) (stats : SessionStats) :
    (log.foldl LogItem.count stats).messageCount = stats.messageCount +
      ((log.filterMap LogItem.entry?).filter fun entry => entry.type = .message).length := by
  induction log generalizing stats with
  | nil => rfl
  | cons item log ih =>
    rw [foldl_cons, ih, filterMap_cons]
    cases item with
    | entry seq placed =>
      simp only [LogItem.count, countEntry, LogItem.entry?, filter_cons]
      by_cases message : placed.type = .message
      · simp only [message, ↓reduceIte, decide_true, length_cons]
        omega
      · simp [message]
    | record seq placed =>
      simp only [LogItem.count, countRecord, LogItem.entry?]
      cases placed.content <;> rfl
    | lane => rfl
    | fact => rfl

theorem renumberFrom_messages (sequence : Nat) (entries : List Entry) :
    ((renumberFrom sequence entries).filter fun entry => entry.type = .message).length =
      (entries.filter fun entry => entry.type = .message).length := by
  induction entries generalizing sequence with
  | nil => rfl
  | cons entry entries ih =>
    rw [renumberFrom, filter_cons, filter_cons]
    split <;> simp only [length_cons, ih]

theorem get?_foldl_labels (labels : InsertionMap String String) (copied : List Entry)
    (named : InsertionMap String String) (id : String) :
    (copied.foldl (fun named entry => (labels.get? entry.id).elim named
        fun label => named.insert entry.id label) named).get? id =
      if id ∈ copied.map (·.id) then (labels.get? id).or (named.get? id) else named.get? id := by
  induction copied generalizing named with
  | nil => rfl
  | cons entry copied ih =>
    rw [foldl_cons, ih, map_cons]
    by_cases same : id = entry.id
    · subst same
      cases found : labels.get? entry.id <;> simp
    have unchanged : ((labels.get? entry.id).elim named
        fun label => named.insert entry.id label).get? id = named.get? id := by
      cases labels.get? entry.id with
      | none => rfl
      | some label => exact InsertionMap.get?_insert_of_ne _ _ same
    rw [unchanged]
    simp only [mem_cons, same, false_or]

/-- Naming the kept lanes in an empty session leaves exactly these lanes, in order. -/
theorem Selection.lanes_named (selection : state.Selection copied lanes) :
    (lanes.foldl (fun named pointer => named.insert pointer.lane pointer.leafId)
      initial.lanes).entries = lanes.map fun pointer => (pointer.lane, pointer.leafId) := by
  obtain ⟨leaf, others, rfl⟩ := selection.mainLane
  have distinct : (((initial.lanes.insert "main" leaf).entries ++
      others.map fun pointer => (pointer.lane, pointer.leafId)).map Prod.fst).Nodup := by
    rw [map_append, map_map]
    exact selection.lanes_distinct
  have folded := InsertionMap.entries_foldl_insert distinct
  rw [foldl_map] at folded
  exact folded

theorem Projected.replay_fork (projected : state.Projected) (invalid : String → SessionError)
    {copied : List Entry} (selection : state.Selection copied lanes) :
    ∃ fork, (replay invalid (state.forkMutations copied lanes)).perform initial = (.ok (), fork) ∧
      fork.Projected ∧ state.Holds fork copied lanes := by
  have grows := projected.grows.of_closed_sublist selection.sublist selection.closed
  obtain ⟨copies, replaysEntries, hasEntries⟩ := copies_entries projected_initial rfl grows
  have copiesProjected := replaysEntries.projected projected_initial
  have entries : copies.entries = renumberFrom 1 copied := hasEntries.entries
  have ids : copies.entries.map (·.id) = copied.map (·.id) := by
    rw [entries, renumberFrom_ids]
  obtain ⟨laned, replaysLanes, hasLanes⟩ := names_lanes copiesProjected (ids ▸ selection.leaves)
  obtain ⟨named, replaysName, hasName⟩ := names_session laned state.name
  have namedProjected := replaysName.projected (replaysLanes.projected copiesProjected)
  have stored : ∀ entry ∈ copied, entry.id ∈ named.entries.map (·.id) := by
    intro entry member
    rw [hasName.entries, hasLanes.entries, ids]
    exact mem_map_of_mem member
  obtain ⟨fork, replaysLabels, hasLabels⟩ := labels_entries namedProjected state.labels stored
  have forkProjected := replaysLabels.projected namedProjected
  have replays := replaysEntries.append (replaysLanes.append (replaysName.append replaysLabels))
  have forkEntries : fork.entries = renumberFrom 1 copied := by
    rw [hasLabels.entries, hasName.entries, hasLanes.entries, entries]
  refine ⟨fork, ?_, forkProjected, ?_⟩
  · rw [← replays.leads]
    exact replay_accepted invalid replays.accepted
  constructor
  · exact forkEntries
  · rw [getLanes, hasLabels.lanes, hasName.lanes, hasLanes.lanes, hasEntries.lanes,
      selection.lanes_named, map_map]
    exact map_id _
  · rw [hasLabels.name, hasName.name, hasLanes.name, hasEntries.name]
    exact Option.or_none
  · intro id
    rw [getLabel, hasLabels.labels, hasName.labels, hasLanes.labels, hasEntries.labels,
      get?_foldl_labels]
    simp only [initial, InsertionMap.get?_empty, Option.or_none, getLabel]
  · rw [hasLabels.records, hasName.records, hasLanes.records, hasEntries.records]
    rfl
  · rw [forkProjected.stats, count_messages, ← forkProjected.entries, forkEntries,
      renumberFrom_messages, Nat.zero_add]

/-! Queries along the branches of a fork. -/

/-- A copied entry and its copy. -/
structure Copies (copied : List Entry) (fork : SessionState) (entry copy : Entry) : Prop where
  copied : entry ∈ copied
  stored : copy ∈ fork.entries
  same : copy = { entry with seq := copy.seq }

/-- Two queries that differ at most in a cursor, which both set to the same copied entry. -/
def SameQuery (state fork : SessionState) (query forkQuery : EntryQuery) : Prop :=
  forkQuery = { query with afterSeq := forkQuery.afterSeq } ∧
    (query.afterSeq = none ∧ forkQuery.afterSeq = none ∨
      ∃ id entry copy, state.getEntry id = some entry ∧ fork.getEntry id = some copy ∧
        query.afterSeq = some (entry.seq : Int) ∧ forkQuery.afterSeq = some (copy.seq : Int))

theorem mem_renumberFrom_iff (sequence : Nat) (entries : List Entry) (copy : Entry) :
    copy ∈ renumberFrom sequence entries ↔
      ∃ i, ∃ inside : i < entries.length, copy = { entries[i] with seq := sequence + i } := by
  induction entries generalizing sequence with
  | nil => simp [renumberFrom]
  | cons entry entries ih =>
    rw [renumberFrom, mem_cons, ih]
    constructor
    · rintro (rfl | ⟨i, inside, rfl⟩)
      · exact ⟨0, Nat.succ_pos _, rfl⟩
      · exact ⟨i + 1, Nat.succ_lt_succ inside, by
          rw [Nat.add_assoc, Nat.add_comm 1]
          rfl⟩
    · rintro ⟨i, inside, rfl⟩
      cases i with
      | zero => exact .inl rfl
      | succ i =>
        exact .inr ⟨i, Nat.lt_of_succ_lt_succ inside, by
          rw [Nat.add_assoc, Nat.add_comm 1]
          rfl⟩

theorem copies_of_ids (entries : fork.entries = renumberFrom 1 copied)
    (distinct : (copied.map (·.id)).Nodup) {entry copy : Entry} (member : entry ∈ copied)
    (stored : copy ∈ fork.entries) (ids : copy.id = entry.id) : Copies copied fork entry copy := by
  refine ⟨member, stored, ?_⟩
  rw [entries, mem_renumberFrom_iff] at stored
  obtain ⟨i, inside, made⟩ := stored
  have sameIds : copied[i].id = entry.id := by
    rw [← ids, made]
  rw [made, inj_on_of_nodup_map distinct (getElem_mem inside) member sameIds]

theorem copies_ordered (entries : fork.entries = renumberFrom 1 copied)
    (ordered : copied.Pairwise fun older newer => older.seq < newer.seq)
    (distinct : (copied.map (·.id)).Nodup) {entry copy other otherCopy : Entry}
    (copies : Copies copied fork entry copy) (copies' : Copies copied fork other otherCopy) :
    entry.seq < other.seq ↔ copy.seq < otherCopy.seq := by
  have position {entry copy : Entry} (copies : Copies copied fork entry copy) :
      ∃ i, ∃ inside : i < copied.length, entry = copied[i] ∧ copy.seq = 1 + i := by
    have stored := copies.stored
    rw [entries, mem_renumberFrom_iff] at stored
    obtain ⟨i, inside, made⟩ := stored
    have ids : entry.id = copied[i].id := by
      have both := congrArg (fun made : Entry => made.id) (copies.same.symm.trans made)
      exact both
    exact ⟨i, inside, inj_on_of_nodup_map distinct copies.copied (getElem_mem inside) ids,
      by rw [made]⟩
  obtain ⟨i, insideI, rfl, numberI⟩ := position copies
  obtain ⟨j, insideJ, rfl, numberJ⟩ := position copies'
  have increases := pairwise_iff_getElem.mp ordered
  rw [numberI, numberJ]
  constructor
  · intro before
    by_contra late
    rcases Nat.lt_or_ge j i with less | notLess
    · exact absurd (increases j i insideJ insideI less) (by omega)
    · obtain rfl : i = j := by omega
      exact absurd before (Nat.lt_irrefl _)
  · intro before
    exact increases i j insideI insideJ (by omega)

theorem collect_forall₂ {Item : Type} {Related : Item → Item → Prop}
    {keep keep' bound bound' : Item → Bool} (limit : Option Int)
    (keeps : ∀ item item', Related item item' → keep item = keep' item')
    (bounds : ∀ item item', Related item item' → bound item = bound' item')
    {results results' items items' : List Item} (found : List.Forall₂ Related results results')
    (related : List.Forall₂ Related items items') :
    List.Forall₂ Related (collect keep bound limit results items).1
      (collect keep' bound' limit results' items').1 := by
  induction related generalizing results results' with
  | nil => exact found
  | @cons item item' items items' pair _ ih =>
    rw [collect, collect, keeps item item' pair, bounds item item' pair]
    have further : List.Forall₂ Related (if keep' item' then results ++ [item] else results)
        (if keep' item' then results' ++ [item'] else results') := by
      split
      · exact rel_append found (.cons pair .nil)
      · exact found
    generalize (if keep' item' then results ++ [item] else results) = next at further ⊢
    generalize (if keep' item' then results' ++ [item'] else results') = next' at further ⊢
    rw [further.length_eq]
    split
    · exact further
    · exact ih further

theorem takeThrough_forall₂ {Item : Type} {Related : Item → Item → Prop}
    {stop stop' : Item → Bool} (stops : ∀ item item', Related item item' → stop item = stop' item')
    {items items' : List Item} (related : List.Forall₂ Related items items') :
    List.Forall₂ Related (takeThrough stop items) (takeThrough stop' items') := by
  induction related with
  | nil => exact .nil
  | cons pair _ ih =>
    rw [takeThrough, takeThrough, stops _ _ pair]
    split
    · exact .cons pair .nil
    · exact .cons pair ih

theorem copies_chain {state fork : SessionState} (projected : state.Projected)
    (forkProjected : fork.Projected) {copied : List Entry}
    (selection : state.Selection copied lanes) (entries : fork.entries = renumberFrom 1 copied)
    {entry copy : Entry} (copies : Copies copied fork entry copy)
    (chain : ParentChain.Chain Entry.parentId state.entriesById.get? entry path) :
    ∃ forkPath, ParentChain.Chain Entry.parentId fork.entriesById.get? copy forkPath ∧
      List.Forall₂ (Copies copied fork) path forkPath := by
  induction chain generalizing copy with
  | root top =>
    refine ⟨[copy], .root ?_, .cons copies .nil⟩
    rw [copies.same]
    exact top
  | @step entry above parentId path link found tail ih =>
    have linked : copy.parentId = some parentId := by
      rw [copies.same]
      exact link
    have kept := selection.closed entry copies.copied parentId link
    obtain ⟨other, otherCopied, named⟩ := mem_map.mp kept
    have otherStored := selection.sublist.subset otherCopied
    have same : other = above := by
      have lookup := projected.get?_of_mem otherStored
      rw [named, found] at lookup
      exact (Option.some.inj lookup).symm
    subst same
    have copiedIds : parentId ∈ fork.entries.map (·.id) := by
      rwa [entries, renumberFrom_ids]
    obtain ⟨otherCopy, present, copyNamed⟩ := mem_map.mp copiedIds
    have distinct : (copied.map (·.id)).Nodup :=
      projected.grows.keys_nodup.sublist (selection.sublist.map _)
    have otherCopies : Copies copied fork other otherCopy :=
      copies_of_ids entries distinct otherCopied present (copyNamed.trans named.symm)
    obtain ⟨forkPath, forkChain, related⟩ := ih otherCopies
    refine ⟨copy :: forkPath, .step linked ?_ forkChain, .cons copies related⟩
    rw [← copyNamed]
    exact forkProjected.get?_of_mem present

theorem matches_copies {state fork : SessionState} (projected : state.Projected)
    (forkProjected : fork.Projected) {copied : List Entry}
    (selection : state.Selection copied lanes) (entries : fork.entries = renumberFrom 1 copied)
    (same : SameQuery state fork query forkQuery)
    {entry copy : Entry} (copies : Copies copied fork entry copy) :
    matchesEntryQuery entry query = matchesEntryQuery copy forkQuery := by
  obtain ⟨alike, cursors⟩ := same
  have types : copy.type = entry.type := by rw [copies.same]
  have customTypes : copy.customType = entry.customType := by rw [copies.same]
  have cursor : query.afterSeq.all (fun afterSeq =>
        if query.order = some .oldestFirst then decide ((entry.seq : Int) > afterSeq)
        else decide ((entry.seq : Int) < afterSeq)) =
      forkQuery.afterSeq.all (fun afterSeq =>
        if query.order = some .oldestFirst then decide ((copy.seq : Int) > afterSeq)
        else decide ((copy.seq : Int) < afterSeq)) := by
    rcases cursors with ⟨none, none'⟩ | ⟨id, pivot, pivotCopy, found, found', at_, at_'⟩
    · rw [none, none']
      rfl
    have distinct : (copied.map (·.id)).Nodup :=
      projected.grows.keys_nodup.sublist (selection.sublist.map _)
    obtain ⟨pivotStored, pivotNamed⟩ := projected.stored_of_get? found
    obtain ⟨copyStored, copyNamed⟩ := forkProjected.stored_of_get? found'
    have pivotCopies : Copies copied fork pivot pivotCopy := by
      have kept : id ∈ copied.map (·.id) := by
        rw [← copyNamed, ← renumberFrom_ids 1, ← entries]
        exact mem_map_of_mem copyStored
      obtain ⟨other, member, named⟩ := mem_map.mp kept
      have lookup := projected.get?_of_mem (selection.sublist.subset member)
      rw [named] at lookup
      obtain rfl := Option.some.inj (lookup.symm.trans found)
      exact copies_of_ids entries distinct member copyStored (copyNamed.trans named.symm)
    have ordered := projected.entries_ordered.sublist selection.sublist
    have before := copies_ordered entries ordered distinct copies pivotCopies
    have after := copies_ordered entries ordered distinct pivotCopies copies
    rw [at_, at_']
    simp only [Option.all_some, gt_iff_lt, Int.ofNat_lt, before, after]
  rw [matchesEntryQuery, matchesEntryQuery, alike, types, customTypes]
  simp only [cursor]

theorem ids_of_copies {entries copies : List Entry}
    (related : List.Forall₂ (Copies copied fork) entries copies) :
    copies.map (·.id) = entries.map (·.id) := by
  induction related with
  | nil => rfl
  | cons pair _ ih =>
    rw [map_cons, map_cons, ih, pair.same]

/-- The checks on a query pass in the session exactly when they pass in the fork. -/
theorem cursors_valid {state fork : SessionState} (same : SameQuery state fork query forkQuery) :
    assertValidCursor forkQuery.afterSeq = assertValidCursor query.afterSeq := by
  rcases same.2 with ⟨none, none'⟩ | ⟨_, entry, copy, -, -, at_, at_'⟩
  · rw [none, none']
  · have natural : ∀ seq : Nat, assertValidCursor (some (seq : Int)) = .ok () := by
      intro seq
      simp [assertValidCursor]
    rw [at_, at_', natural, natural]

theorem Projected.findEntriesOnBranch_fork {state fork : SessionState}
    (projected : state.Projected) (forkProjected : fork.Projected) {copied : List Entry}
    (selection : state.Selection copied lanes) (entries : fork.entries = renumberFrom 1 copied)
    (same : SameQuery state fork query forkQuery) (bounds : BranchBounds)
    (member : entry ∈ copied) :
    (fork.findEntriesOnBranch forkQuery bounds entry.id).map (map (·.id)) =
      (state.findEntriesOnBranch query bounds entry.id).map (map (·.id)) := by
  have stored := selection.sublist.subset member
  have distinct : (copied.map (·.id)).Nodup :=
    projected.grows.keys_nodup.sublist (selection.sublist.map _)
  have kept : entry.id ∈ fork.entries.map (·.id) := by
    rw [entries, renumberFrom_ids]
    exact mem_map_of_mem member
  obtain ⟨copy, copyStored, ids⟩ := mem_map.mp kept
  have copies : Copies copied fork entry copy := copies_of_ids entries distinct member copyStored
      ids
  obtain ⟨path, chain, -⟩ := projected.exists_chain stored
  obtain ⟨forkPath, forkChain, related⟩ :=
    copies_chain projected forkProjected selection entries copies chain
  have keeps : ∀ entry copy, Copies copied fork entry copy →
      matchesEntryQuery entry query = matchesEntryQuery copy forkQuery := fun _ _ pair =>
    matches_copies projected forkProjected selection entries same pair
  have stops : ∀ entry copy, Copies copied fork entry copy →
      reachedBound bounds entry = reachedBound bounds copy := by
    intro entry copy pair
    rw [reachedBound, reachedBound, pair.same]
  have order : forkQuery.order = query.order := by rw [same.1]
  have limit : forkQuery.limit = query.limit := by rw [same.1]
  have answers : (branchAnswer forkPath forkQuery bounds).map (·.id) =
      (branchAnswer path query bounds).map (·.id) := by
    apply ids_of_copies
    rw [branchAnswer, branchAnswer, order, limit]
    split
    · exact collect_forall₂ _ keeps stops .nil (rel_reverse related)
    · exact collect_forall₂ _ keeps (fun _ _ _ => rfl) .nil (takeThrough_forall₂ stops related)
  rw [← ids, forkProjected.findEntriesOnBranch_eq copyStored forkChain, ids,
    projected.findEntriesOnBranch_eq stored chain, limit, cursors_valid same]
  cases assertValidLimit query.limit with
  | error error => rfl
  | ok checked =>
    cases assertValidCursor query.afterSeq with
    | error error => rfl
    | ok checked => exact congrArg Except.ok answers

/-- The mutations of a fork replay on an empty state and leave what the fork keeps. -/
theorem createForkMutations_faithful (invalid : String → SessionError)
    (history : List SessionMutation) (options : ForkOptions) (mutations : List SessionMutation)
    (created : (initial.attemptAll invalid history).createForkMutations options = .ok mutations) :
    ∃ fork copied lanes, (replay invalid mutations).perform initial = (.ok (), fork) ∧
      (initial.attemptAll invalid history).Keeps copied lanes options ∧
      (initial.attemptAll invalid history).Holds fork copied lanes ∧ (options = .tree → ∀ id,
        fork.getLabel id = (initial.attemptAll invalid history).getLabel id) ∧
      ∀ entry ∈ copied, ∀ query forkQuery bounds,
        SameQuery (initial.attemptAll invalid history) fork query forkQuery →
          (fork.findEntriesOnBranch forkQuery bounds entry.id).map (map (·.id)) =
            ((initial.attemptAll invalid history).findEntriesOnBranch query bounds entry.id).map
              (map (·.id)) := by
  have projected := attemptAll_projected invalid history
  generalize initial.attemptAll invalid history = state at created projected ⊢
  obtain ⟨⟨copied, lanes⟩, selected, made⟩ := Procedure.bind_eq_ok created
  obtain rfl := Except.ok.inj made
  have keeps := projected.keeps_of_forkSelection selected
  have selection := projected.selection_of_keeps keeps
  obtain ⟨fork, replays, forkProjected, holds⟩ := projected.replay_fork invalid selection
  refine ⟨fork, copied, lanes, replays, keeps, holds, ?_, ?_⟩
  · rintro rfl id
    obtain ⟨rfl, -⟩ := keeps
    rw [holds.labels]
    split
    · rfl
    rename_i absent
    cases labelled : state.getLabel id with
    | none => rfl
    | some label =>
      exact (absent (projected.targets id (Option.isSome_iff_exists.mpr ⟨label, labelled⟩))).elim
  · intro entry member query forkQuery bounds same
    exact projected.findEntriesOnBranch_fork forkProjected selection holds.entries same bounds
        member

/-! ## Forks of forks -/

theorem entries_renumberFrom (sequence : Nat) (entries : List Entry) :
    (renumberFrom sequence entries).map (fun entry seq => .entry none { entry with seq }) =
      entries.map fun entry seq => SessionMutation.entry none { entry with seq } := by
  induction entries generalizing sequence with
  | nil => rfl
  | cons entry entries ih => rw [renumberFrom, map_cons, map_cons, ih]

theorem Holds.forkMutations_eq (holds : state.Holds fork copied lanes) :
    fork.forkMutations fork.entries fork.getLanes = state.forkMutations copied lanes := by
  have byId (labels : InsertionMap String String) (entries : List Entry) :
      entries.filterMap (fun entry => (labels.get? entry.id).map
          fun label seq => SessionMutation.fact seq (.label entry.id (some label))) =
        (entries.map (·.id)).filterMap fun id => (labels.get? id).map
          fun label seq => .fact seq (.label id (some label)) := by
    rw [filterMap_map]
    rfl
  unfold forkMutations
  rw [holds.entries, holds.lanes, holds.name, entries_renumberFrom, byId, byId, renumberFrom_ids,
    filterMap_congr fun id member => by
      rw [show fork.labels.get? id = state.labels.get? id from
        (holds.labels id).trans (if_pos member)]]

theorem createForkMutations_tree (state : SessionState) : state.createForkMutations .tree =
    .ok (state.forkMutations state.entries state.getLanes) := by
  unfold createForkMutations forkSelection
  rw [findEntries_oldestFirst]
  rfl

/-- The mutations of a fork of the whole tree of a fork. -/
def forkAgain (invalid : String → SessionError) (state : SessionState) (options : ForkOptions) :
    Except SessionError (List SessionMutation) := do
  let replayed := (replay invalid (← state.createForkMutations options)).perform initial
  replayed.1
  replayed.2.createForkMutations .tree

/-- A fork of a fork is made by the mutations that made the fork. -/
theorem forkAgain_eq (invalid : String → SessionError) (history : List SessionMutation)
    (options : ForkOptions) :
    (initial.attemptAll invalid history).forkAgain invalid options =
      (initial.attemptAll invalid history).createForkMutations options := by
  have projected := attemptAll_projected invalid history
  generalize initial.attemptAll invalid history = state at projected ⊢
  unfold forkAgain createForkMutations
  cases selected : state.forkSelection options with
  | error error => rfl
  | ok selection =>
    obtain ⟨fork, replayed, -, holds⟩ := projected.replay_fork invalid
      (projected.selection_of_keeps (projected.keeps_of_forkSelection selected))
    change (let replayed := (replay invalid _).perform initial; replayed.1 >>= fun _ => _) = _
    rw [replayed]
    exact fork.createForkMutations_tree.trans (congrArg Except.ok holds.forkMutations_eq)

/-- A message entry at the start of the main lane. -/
def firstMessage : Entry where
  own := [("type", .str "message"), ("id", .str "m1"), ("message", .obj [("role", .str "user")])]
  id := "m1"
  type := .message
  parentId := none
  seq := 1
  timestamp := 0
  own_id := rfl
  own_type := rfl
  own_customType := nofun
  unplaced := by decide

def labelledMessage : List SessionMutation :=
  [.entry (some "main") firstMessage, .fact 2 (.label "m1" (some "start"))]

theorem createForkMutations_faithful_labelled :
    ∃ mutations fork copied lanes,
      (initial.attemptAll invalidMutation labelledMessage).createForkMutations
        (.branch none none) = .ok mutations ∧
      (replay invalidMutation mutations).perform initial = (.ok (), fork) ∧
      (initial.attemptAll invalidMutation labelledMessage).Keeps copied lanes (.branch none none) ∧
      (initial.attemptAll invalidMutation labelledMessage).Holds fork copied lanes := by
  obtain ⟨fork, copied, lanes, replays, keeps, holds, -⟩ :=
    createForkMutations_faithful invalidMutation labelledMessage (.branch none none) _ rfl
  exact ⟨_, fork, copied, lanes, rfl, replays, keeps, holds⟩

end SessionState
end Recode.SessionV4

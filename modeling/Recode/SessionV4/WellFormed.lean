import Recode.SessionV4.Invariant

/-! # Reached session states are well formed

Walks towards the root follow the chain of parents without an error, and every
state reached by mutations has the properties its readers rely on. -/

namespace Recode.SessionV4

open List

/-- A list up to and including the first item that meets a condition. -/
def takeThrough {Item : Type} (stop : Item → Bool) : List Item → List Item
  | [] => []
  | item :: items => if stop item then [item] else item :: takeThrough stop items

theorem takeThrough_never {Item : Type} {stop : Item → Bool} {items : List Item}
    (never : ∀ item ∈ items, stop item = false) : takeThrough stop items = items := by
  induction items with
  | nil => rfl
  | cons item items ih =>
    rw [takeThrough, never item mem_cons_self, if_neg (by simp),
      ih fun other member => never other (mem_cons_of_mem _ member)]

namespace SessionState

variable {state : SessionState}

theorem walkFrom_of_chain (bounds : BranchBounds) {current : Entry} {path : List Entry}
    (chain : ParentChain.Chain Entry.parentId state.entriesById.get? current path)
    {visited : List String} (distinct : (visited ++ path.map (·.id)).Nodup) {fuel : Nat}
    (enough : path.length ≤ fuel) :
    state.walkFrom bounds fuel visited current =
      ⟨takeThrough (reachedBound bounds) path, none⟩ := by
  induction chain generalizing visited fuel with
  | root top =>
    rename_i current
    obtain ⟨fuel, rfl⟩ := Nat.exists_eq_succ_of_ne_zero (Nat.ne_of_gt enough)
    have unvisited : current.id ∉ visited := by
      rw [nodup_append] at distinct
      exact fun seen => distinct.2.2 _ seen _ (by simp) rfl
    rw [walkFrom, if_neg unvisited, takeThrough, top]
    split <;> rfl
  | step link found tail ih =>
    rename_i current above parentId path
    obtain ⟨fuel, rfl⟩ := Nat.exists_eq_succ_of_ne_zero
      (Nat.ne_of_gt (Nat.lt_of_lt_of_le (Nat.succ_pos _) enough))
    have unvisited : current.id ∉ visited := by
      rw [nodup_append] at distinct
      exact fun seen => distinct.2.2 _ seen _ (by simp) rfl
    have further : (visited ++ [current.id] ++ path.map (·.id)).Nodup := by
      rwa [append_assoc, singleton_append]
    rw [walkFrom, if_neg unvisited, takeThrough, link]
    by_cases reached : reachedBound bounds current = true
    · rw [if_pos reached, if_pos reached]
    · simp only [if_neg reached, found]
      rw [ih further (Nat.le_of_succ_le_succ enough)]

variable {entry : Entry}

section

variable (projected : state.Projected) (stored : entry ∈ state.entries)
include projected stored

theorem Projected.exists_chain :
    ∃ path, ParentChain.Chain Entry.parentId state.entriesById.get? entry path ∧
      (path.map (·.id)).Nodup ∧ path.length ≤ state.entriesById.entries.length ∧
      path.reverse.Sublist state.entries := by
  obtain ⟨path, chain⟩ := projected.grows.exists_chain stored
  have lookup : state.entriesById.get? = GrownTree.find (fun entry => entry.id) state.entries := by
    rw [projected.indexed]
    rfl
  have bounded : path.length ≤ state.entriesById.entries.length := by
    have inside : ∀ wanted node, GrownTree.find (fun entry => entry.id) state.entries wanted =
        some node → node.id = wanted ∧ wanted ∈ state.entriesById.entries.map Prod.fst := by
      intro wanted node found
      refine ⟨(projected.grows.inside _ _ found).1, ?_⟩
      rw [← lookup] at found
      exact mem_map_of_mem ((InsertionMap.get?_eq_some_iff _ _ _).mp found)
    have short := chain.length_le inside projected.grows.acyclic
      (projected.grows.find_self stored)
    rwa [length_map] at short
  exact ⟨path, lookup ▸ chain, projected.grows.chain_keys_nodup stored chain, bounded,
    projected.grows.chain_sublist stored chain⟩

theorem Projected.get?_of_mem : state.entriesById.get? entry.id = some entry := by
  rw [projected.indexed]
  exact projected.grows.find_self stored

theorem Projected.walkToRoot_of_chain {path : List Entry}
    (chain : ParentChain.Chain Entry.parentId state.entriesById.get? entry path)
    (bounds : BranchBounds) :
    state.walkToRoot (some entry.id) bounds =
      ⟨takeThrough (reachedBound bounds) path, none⟩ := by
  obtain ⟨other, same, distinct, bounded, -⟩ := projected.exists_chain stored
  obtain rfl := chain.unique same
  simp only [walkToRoot, projected.get?_of_mem stored]
  exact walkFrom_of_chain bounds chain distinct (bounded.trans (Nat.le_succ _))

end

/-- What the readers of a session state rely on. -/
structure WellFormed (state : SessionState) : Prop where
  /-- The log is numbered from 1 without gaps, and the next number follows it. -/
  log_numbered : state.log.map LogItem.seq = range' 1 state.log.length ∧
    state.nextSequence = state.log.length + 1
  /-- Logged entries and records carry their position and are the stored ones, in order. -/
  logged : (∀ item ∈ state.log, item.Numbered) ∧
    state.entries = state.log.filterMap LogItem.entry? ∧
    state.records = state.log.filterMap LogItem.record?
  /-- Identifiers are distinct across entries and records. -/
  ids_distinct : (state.entries.map (·.id) ++ state.records.map (·.id)).Nodup
  /-- The index finds exactly the stored entries. -/
  indexed : ∀ id entry, state.entriesById.get? id = some entry ↔ entry ∈ state.entries ∧
      entry.id = id
  /-- A parent is an entry with a smaller number. -/
  parents : ∀ entry ∈ state.entries, ∀ parentId, entry.parentId = some parentId →
    ∃ above ∈ state.entries, above.id = parentId ∧ above.seq < entry.seq
  /-- A lane's leaf is a stored entry. -/
  leaves : ∀ lane id, state.lanes.get? lane = some (some id) →
    ∃ entry ∈ state.entries, entry.id = id
  /-- A labelled identifier is that of a stored entry. -/
  targets : ∀ id label, state.labels.get? id = some label → ∃ entry ∈ state.entries, entry.id = id
  /-- The totals are those of the log. -/
  stats : state.stats = state.log.foldl LogItem.count ⟨0, 0, 0, 0, 0⟩
  /-- The open operations of a lane are the starts the log does not finish later. -/
  opened : ∀ lane, (openedIn state.openOperationsByLane lane).entries =
    (openOperations lane state.log).map fun record => (record.id, record)
  /-- A walk from a stored entry ends at a root, without an error. -/
  walks : ∀ entry ∈ state.entries, ∃ path,
    ParentChain.Chain Entry.parentId state.entriesById.get? entry path ∧
    ∀ bounds, state.walkToRoot (some entry.id) bounds =
      ⟨takeThrough (reachedBound bounds) path, none⟩

theorem Projected.length_log (projected : state.Projected) : state.log.length = state.sequence := by
  have lengths := congrArg length projected.sequence
  rwa [length_map, length_range'] at lengths

theorem ids_perm (log : List LogItem) :
    (log.filterMap LogItem.id?).Perm
      ((log.filterMap LogItem.entry?).map (·.id) ++ (log.filterMap LogItem.record?).map
          (·.id)) := by
  induction log with
  | nil => exact .nil
  | cons item log ih =>
    cases item with
    | entry seq placed => exact ih.cons placed.id
    | record seq placed => exact (ih.cons placed.id).trans perm_middle.symm
    | _ => exact ih

/-- Stored entries are numbered in the order of their storing. -/
theorem Projected.entries_ordered (projected : state.Projected) :
    state.entries.Pairwise fun older newer => older.seq < newer.seq := by
  have ordered : state.log.Pairwise fun older newer => older.seq < newer.seq := by
    rw [← pairwise_map, projected.sequence]
    exact pairwise_lt_range'
  have carried : ∀ item ∈ state.log, ∀ entry, item.entry? = some entry → entry.seq = item.seq := by
    intro item logged entry stores
    have number := projected.numbered item logged
    cases item with
    | entry seq placed =>
      cases stores
      exact number
    | _ => cases stores
  rw [projected.entries, pairwise_filterMap]
  refine ordered.imp_of_mem ?_
  intro older newer loggedOlder loggedNewer before entry stores other stores'
  rw [carried older loggedOlder entry stores, carried newer loggedNewer other stores']
  exact before

theorem Projected.parent_earlier (projected : state.Projected)
    (stored : entry ∈ state.entries) {parentId : String} (link : entry.parentId = some parentId) :
    ∃ above ∈ state.entries, above.id = parentId ∧ above.seq < entry.seq := by
  obtain ⟨older, newer, split⟩ := append_of_mem stored
  have grows := projected.grows
  have ordered := projected.entries_ordered
  rw [split] at grows ordered
  obtain ⟨above, before, named⟩ := mem_map.mp (grows.parent_before link)
  rw [pairwise_append] at ordered
  exact ⟨above, split ▸ mem_append_left _ before, named,
    ordered.2.2 above before entry mem_cons_self⟩

theorem Projected.wellFormed (projected : state.Projected) :
    state.WellFormed where
  log_numbered := by
    refine ⟨by rw [projected.sequence, projected.length_log], ?_⟩
    rw [nextSequence, projected.length_log]
  logged := ⟨projected.numbered, projected.entries, projected.records⟩
  ids_distinct := by
    rw [projected.entries, projected.records]
    exact (ids_perm state.log).nodup_iff.mp (projected.usedIds ▸ projected.distinct)
  indexed id entry := by
    rw [projected.indexed]
    exact projected.grows.find_iff id entry
  parents _ stored _ link := projected.parent_earlier stored link
  leaves lane id leaf := mem_map.mp (projected.leaves lane id leaf)
  targets id label labelled := by
    apply mem_map.mp
    exact projected.targets id (Option.isSome_iff_exists.mpr ⟨label, labelled⟩)
  stats := projected.stats
  opened := projected.opened
  walks entry stored := by
    obtain ⟨path, chain, -⟩ := projected.exists_chain stored
    exact ⟨path, chain, projected.walkToRoot_of_chain stored chain⟩

theorem attemptAll_projected (invalid : String → SessionError)
    (mutations : List SessionMutation) : (initial.attemptAll invalid mutations).Projected :=
  attemptAll_induction invalid projected_initial
    (fun projected accepted => projected.applied accepted) mutations

end SessionState
end Recode.SessionV4

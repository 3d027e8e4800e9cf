import Recode.CodingAgent.LoadedTree

/-! # Walks over a loaded session file

Branches end and the tree is complete exactly when identifiers are distinct and no entry is its own
ancestor. -/

namespace Recode.CodingAgent

open Recode LoadedLine Function InsertionMap Option ParentChain.Chain Forest List

variable {Line Time : Type} [LoadedLine Line Time]

def branchParent (byId : InsertionMap LoadedId Line) (line : Line) : Option LoadedId :=
  if (parentId line).truthy && byId.contains (parentId line) then some (parentId line) else none

/-- The parent that an entry hangs below in the tree: neither null nor itself, and found. -/
def treeParent (byId : InsertionMap LoadedId Line) (line : Line) : Option LoadedId :=
  if parentId line = .null ∨ parentId line = LoadedLine.id line then none
  else if byId.contains (parentId line) then some (parentId line)
  else none

theorem byId_buildLoadedIndex (fileEntries : List Line) :
    (buildLoadedIndex fileEntries).byId =
      indexBy LoadedLine.id (getEntries fileEntries) := by
  unfold buildLoadedIndex getEntries
  induction fileEntries using reverseRecOn with
  | nil => rfl
  | append_singleton fileEntries line ih =>
    rw [foldl_concat, filter_append, filter_singleton, indexLine]
    cases isSession line with
    | true =>
      rw [if_pos rfl]
      exact ih.trans (congrArg _ (append_nil _).symm)
    | false =>
      rw [if_neg Bool.false_ne_true]
      change insert _ _ _ = _
      rw [ih]
      exact (indexBy_append_singleton _ _ _).symm

section Climb

variable {byId : InsertionMap LoadedId Line}

theorem climbLoaded_succ (fuel : Nat) (current : Line) :
    climbLoaded byId (fuel + 1) (some current) =
      (climbLoaded byId fuel ((branchParent byId current).bind byId.get?)).map (current :: ·) := by
  rw [climbLoaded, branchParent]
  congr 2
  cases truthy : (parentId current).truthy with
  | false => rfl
  | true =>
    rw [if_pos rfl, Bool.true_and]
    cases found : byId.get? (parentId current) with
    | none => simp [InsertionMap.contains, found]
    | some above => simp [InsertionMap.contains, found]

theorem branchParent_eq_some {node : Line} {above : LoadedId}
    (link : branchParent byId node = some above) :
    above.truthy = true ∧ (byId.get? above).isSome := by
  rw [branchParent] at link
  split at link
  · rename_i known
    cases link
    rw [Bool.and_eq_true] at known
    exact known
  · cases link

theorem chain_of_climbLoaded {fuel : Nat} {node : Line} {nodes : List Line}
    (climbs : climbLoaded byId fuel (some node) = some nodes) :
    ParentChain.Chain (branchParent byId) byId.get? node nodes := by
  induction fuel generalizing node nodes with
  | zero => cases climbs
  | succ fuel ih =>
    rw [climbLoaded_succ] at climbs
    obtain ⟨rest, further, rfl⟩ := map_eq_some_iff.mp climbs
    cases link : branchParent byId node with
    | none =>
      rw [link, bind_none, climbLoaded] at further
      cases further
      exact .root link
    | some key =>
      obtain ⟨above, found⟩ := isSome_iff_exists.mp (branchParent_eq_some link).2
      rw [link, bind_some, found] at further
      exact .step link found (ih further)

theorem climbLoaded_of_chain {node : Line} {nodes : List Line}
    (chain : ParentChain.Chain (branchParent byId) byId.get? node nodes) :
    climbLoaded byId nodes.length (some node) = some nodes := by
  induction chain with
  | root top =>
    rw [length_singleton, climbLoaded_succ, top]
    rfl
  | step link found _ ih =>
    rw [length_cons, climbLoaded_succ, link, bind_some, found, ih]
    rfl

end Climb

section Indexed

variable {entries : List Line} {byId : InsertionMap LoadedId Line}
  (indexed : byId = indexBy LoadedLine.id entries)
include indexed

theorem found_inside (wanted : LoadedId) (node : Line) (found : byId.get? wanted = some node) :
    LoadedLine.id node = wanted ∧ wanted ∈ entries.map LoadedLine.id := by
  rw [indexed] at found
  obtain ⟨rfl, member⟩ := key_of_get?_indexBy _ _ found
  exact ⟨rfl, mem_map_of_mem member⟩

/-- Without cycles, the climb from an indexed entry ends and meets no identifier twice. -/
theorem exists_climb (acyclic : ParentChain.Acyclic (branchParent byId) byId.get?)
    (start : Option Line)
    (self : ∀ node, start = some node → byId.get? (LoadedLine.id node) = some node) :
    ∃ fuel path, climbLoaded byId fuel start = some path ∧ (path.map LoadedLine.id).Nodup := by
  cases start with
  | none => exact ⟨0, [], rfl, nodup_nil⟩
  | some node =>
    have resolves : ParentChain.Resolves (branchParent byId) byId.get? :=
      fun _ _ _ _ link => (branchParent_eq_some link).2
    obtain ⟨path, chain⟩ := exists_of_acyclic (found_inside indexed) resolves
      acyclic (self node rfl)
    refine ⟨path.length, path, climbLoaded_of_chain chain, ?_⟩
    exact chain.keys_nodup (fun wanted node found => (found_inside indexed wanted node found).1)
      acyclic (self node rfl)

/-- When the climb from every indexed entry ends, no entry is its own ancestor. -/
theorem acyclic_of_climbs (climbs : ∀ key node, key.truthy = true → byId.get? key = some node →
      ∃ fuel path, climbLoaded byId fuel (some node) = some path) :
    ParentChain.Acyclic (branchParent byId) byId.get? := by
  intro key cycle
  have keyed := fun wanted node found => (found_inside indexed wanted node found).1
  obtain ⟨_, ⟨_, _, link⟩, _⟩ := Relation.TransGen.head'_iff.mp cycle
  obtain ⟨truthy, known⟩ := branchParent_eq_some link
  obtain ⟨node, found⟩ := isSome_iff_exists.mp known
  obtain ⟨fuel, path, climb⟩ := climbs key node truthy found
  have chain := chain_of_climbLoaded climb
  obtain ⟨rest, rfl⟩ := chain.head
  obtain rfl := keyed key node found
  obtain ⟨upper, member, same⟩ := chain.mem_of_transGen keyed found cycle
  have present := chain.found_of_mem keyed found (mem_cons_of_mem _ member)
  rw [same, found, some_inj] at present
  subst present
  obtain ⟨before, after, rfl⟩ := append_of_mem member
  rw [← cons_append] at chain
  have shorter : ParentChain.Chain _ _ node (node :: after) := chain.of_append
  have equal := congrArg length (chain.unique shorter)
  simp only [length_append, length_cons] at equal
  omega

end Indexed

section Tree

variable {nodeMap : InsertionMap LoadedId (SessionTreeNode Line Time)}
  {byId : InsertionMap LoadedId Line}

theorem attach_eq (known : ∀ key, nodeMap.contains key = byId.contains key) (links : TreeLinks)
    (entry : Line) : attach nodeMap links entry = (treeParent byId entry).elim
        { links with roots := links.roots ++ [LoadedLine.id entry] }
        fun above =>
          { links with
            children := update links.children above
              (links.children above ++ [LoadedLine.id entry]) } := by
  unfold attach treeParent
  by_cases top : parentId entry = .null ∨ parentId entry = LoadedLine.id entry
  · rw [if_pos top, if_pos top]
    rfl
  · rw [if_neg top, if_neg top, known]
    cases byId.contains (parentId entry) <;> rfl

/-- Where the first entries of a file hang. -/
structure Attached (byId : InsertionMap LoadedId Line) (keys : List LoadedId) (front : List Line)
    (links : TreeLinks) : Prop where
  places : (links.roots ++ keys.flatMap links.children).Perm (front.map LoadedLine.id)
  roots : ∀ entry ∈ front, treeParent byId entry = none → LoadedLine.id entry ∈ links.roots
  below : ∀ entry ∈ front, ∀ above, treeParent byId entry = some above →
    LoadedLine.id entry ∈ links.children above
  inside : ∀ above node, node ∈ links.children above → node ∈ front.map LoadedLine.id

section Attach

variable {keys : List LoadedId} {front : List Line} {links : TreeLinks} {entry : Line}

/-- Hanging an entry among the roots. -/
theorem Attached.root (attached : Attached byId keys front links)
    (top : treeParent byId entry = none) : Attached byId keys (front ++ [entry])
      { links with roots := links.roots ++ [LoadedLine.id entry] } where
  places := by
    rw [map_append, map_singleton]
    refine List.Perm.trans ?_ (attached.places.append_right _)
    rw [append_assoc, append_assoc]
    exact perm_append_comm.append_left _
  roots other member otherTop := by
    rcases mem_append.mp member with earlier | only
    · exact mem_append_left _ (attached.roots other earlier otherTop)
    · rw [mem_singleton.mp only]
      exact mem_append_right _ (mem_singleton_self _)
  below other member above link := by
    rcases mem_append.mp member with earlier | only
    · exact attached.below other earlier above link
    · rw [mem_singleton.mp only, top] at link
      cases link
  inside above node hangs := by
    rw [map_append]
    exact mem_append_left _ (attached.inside above node hangs)

theorem Attached.under (attached : Attached byId keys front links) (distinct : keys.Nodup)
    {above : LoadedId} (known : above ∈ keys) (link : treeParent byId entry = some above) :
    Attached byId keys (front ++ [entry])
      { links with
        children := update links.children above
          (links.children above ++ [LoadedLine.id entry]) } where
  places := by
    rw [map_append, map_singleton]
    refine List.Perm.trans ?_ (attached.places.append_right _)
    rw [append_assoc]
    exact (flatMap_update_perm distinct known _ _).append_left _
  roots other member top := by
    rcases mem_append.mp member with earlier | only
    · exact attached.roots other earlier top
    · rw [mem_singleton.mp only, link] at top
      cases top
  below other member wanted otherLink := by
    change LoadedLine.id other ∈ update links.children above _ wanted
    by_cases same : wanted = above
    · subst same
      rw [update_self]
      rcases mem_append.mp member with earlier | only
      · exact mem_append_left _ (attached.below other earlier wanted otherLink)
      · rw [mem_singleton.mp only]
        exact mem_append_right _ (mem_singleton_self _)
    · rw [update_of_ne same]
      rcases mem_append.mp member with earlier | only
      · exact attached.below other earlier wanted otherLink
      · rw [mem_singleton.mp only, link, some_inj] at otherLink
        exact (same otherLink.symm).elim
  inside wanted node hangs := by
    rw [map_append, map_singleton]
    change node ∈ update links.children above _ wanted at hangs
    by_cases same : wanted = above
    · subst same
      rw [update_self] at hangs
      rcases mem_append.mp hangs with earlier | only
      · exact mem_append_left _ (attached.inside wanted node earlier)
      · exact mem_append_right _ only
    · rw [update_of_ne same] at hangs
      exact mem_append_left _ (attached.inside wanted node hangs)

end Attach

theorem treeParent_known {entry : Line} {above : LoadedId}
    (link : treeParent byId entry = some above) : byId.contains above = true := by
  rw [treeParent] at link
  split at link
  · cases link
  split at link
  · rename_i known
    cases link
    exact known
  · cases link

theorem attached_foldl (known : ∀ key, nodeMap.contains key = byId.contains key)
    {keys : List LoadedId} (distinct : keys.Nodup)
    (inKeys : ∀ key, byId.contains key = true → key ∈ keys) (front : List Line) :
    Attached byId keys front (front.foldl (attach nodeMap) ⟨[], fun _ => []⟩) := by
  induction front using reverseRecOn with
  | nil =>
    refine ⟨?_, fun _ member => ?_, fun _ member => ?_, fun _ _ member => ?_⟩
    · rw [foldl_nil, flatMap_eq_nil_iff.mpr fun _ _ => rfl]
      exact .nil
    · cases member
    · cases member
    · cases member
  | append_singleton front entry ih =>
    rw [foldl_concat, attach_eq known]
    cases link : treeParent byId entry with
    | none => exact ih.root link
    | some above => exact ih.under distinct (inKeys above (treeParent_known link)) link

section Sorting

variable (getTime : Time → Option Int) {children : LoadedId → List LoadedId}

variable (nodeMap) in
theorem perm_sortNode {links : TreeLinks}
    (same : ∀ node, (links.children node).Perm (children node)) (node other : LoadedId) :
    ((sortNode getTime nodeMap links node).children other).Perm (children other) := by
  change (update links.children node _ other).Perm (children other)
  by_cases equal : other = node
  · subst equal
    rw [update_self]
    exact (mergeSort_perm _ _).trans (same other)
  · rw [update_of_ne equal]
    exact same other

variable (nodeMap) in
theorem walks_of_sortChildren {fuel : Nat} {links after : TreeLinks} {stack visited : List LoadedId}
    (same : ∀ node, (links.children node).Perm (children node))
    (sorts : sortChildren getTime nodeMap fuel links stack = some (after, visited)) :
    Forest.Walks children stack visited := by
  induction fuel generalizing links stack visited with
  | zero =>
    cases stack with
    | nil =>
      cases sorts
      exact .done
    | cons node stack => cases sorts
  | succ fuel ih =>
    cases stack with
    | nil =>
      cases sorts
      exact .done
    | cons node stack =>
      rw [sortChildren] at sorts
      obtain ⟨⟨last, rest⟩, further, equal⟩ := map_eq_some_iff.mp sorts
      cases equal
      have sameNext := perm_sortNode nodeMap getTime same node
      exact .step ((reverse_perm _).trans (sameNext node)) (ih sameNext further)

variable (nodeMap) in
theorem exists_sortChildren {roots keys places : List LoadedId}
    (hangs : Forest.Hangs roots keys places children) (apart : places.Nodup) {fuel : Nat}
    {links : TreeLinks} {visited stack : List LoadedId}
    (reached : Forest.Reached roots keys children visited stack)
    (same : ∀ node, (links.children node).Perm (children node))
    (enough : places.length ≤ fuel + visited.length) :
    ∃ after rest, sortChildren getTime nodeMap fuel links stack = some (after, rest) ∧
      Forest.Reached roots keys children (visited ++ rest) [] := by
  induction fuel generalizing links visited stack with
  | zero =>
    cases stack with
    | nil => exact ⟨links, [], rfl, (append_nil visited).symm ▸ reached⟩
    | cons node stack =>
      have bound := reached.length_le hangs
      rw [length_cons] at bound
      omega
  | succ fuel ih =>
    cases stack with
    | nil => exact ⟨links, [], rfl, (append_nil visited).symm ▸ reached⟩
    | cons node stack =>
      have sameNext := perm_sortNode nodeMap getTime same node
      have next := reached.pop hangs apart ((reverse_perm _).trans (sameNext node))
      have enoughNext : places.length ≤ fuel + (visited ++ [node]).length := by
        rw [length_append, length_singleton]
        omega
      obtain ⟨after, rest, sorts, final⟩ := ih next sameNext enoughNext
      refine ⟨after, node :: rest, ?_, ?_⟩
      · rw [sortChildren, sorts]
        rfl
      · rw [append_assoc, singleton_append] at final
        exact final

end Sorting

end Tree

/-- Walks over a loaded file end and are complete: for every entry, its branch ends and lists no
identifier twice, and the context of its leaf ends; and the tree is built and contains every
indexed entry exactly once. -/
structure WalksComplete (getTime : Time → Option Int) (fileEntries : List Line) : Prop where
  branch : ∀ entry ∈ getEntries fileEntries, ∃ fuel path,
    (buildLoadedIndex fileEntries).getBranch fuel (LoadedLine.id entry) = some path ∧
      (path.map LoadedLine.id).Nodup
  context : ∀ entry ∈ getEntries fileEntries, ∃ fuel context,
    (buildLoadedIndex fileEntries).buildSessionContext fuel (getEntries fileEntries)
      (LoadedLine.id entry) = some context
  tree : ∃ fuel tree, getTree getTime (buildLoadedIndex fileEntries) fileEntries fuel = some tree ∧
    ∀ entry ∈ getEntries fileEntries, tree.visited.count (LoadedLine.id entry) = 1

/-- Identifiers are distinct, and no entry is its own ancestor, neither on branches nor in the
tree. -/
structure Treelike (fileEntries : List Line) : Prop where
  distinct : ((getEntries fileEntries).map LoadedLine.id).Nodup
  branches : ParentChain.Acyclic (branchParent (buildLoadedIndex fileEntries).byId)
    (buildLoadedIndex fileEntries).byId.get?
  tree : ParentChain.Acyclic (treeParent (buildLoadedIndex fileEntries).byId)
    (buildLoadedIndex fileEntries).byId.get?

section Complete

variable {fileEntries : List Line}

/-- The tree links of a file, with the places of its entries. -/
theorem attached_file (fileEntries : List Line) :
    Attached (buildLoadedIndex fileEntries).byId
      ((buildLoadedIndex fileEntries).byId.entries.map Prod.fst) (getEntries fileEntries)
      ((getEntries fileEntries).foldl
        (attach (treeNodes (buildLoadedIndex fileEntries) (getEntries fileEntries)))
        ⟨[], fun _ => []⟩) := by
  apply attached_foldl
  · intro key
    rw [Bool.eq_iff_iff, InsertionMap.contains, InsertionMap.contains, treeNodes,
      byId_buildLoadedIndex, isSome_get?_indexBy, isSome_get?_indexBy,
      List.map_map]
    rfl
  · exact (buildLoadedIndex fileEntries).byId.keys_nodup
  · intro key known
    exact (mem_keys_iff _ key).mpr known

def fileLinks (fileEntries : List Line) : TreeLinks :=
  (getEntries fileEntries).foldl
    (attach (treeNodes (buildLoadedIndex fileEntries) (getEntries fileEntries))) ⟨[], fun _ => []⟩

theorem found_iff {entry : Line} (distinct : ((getEntries fileEntries).map LoadedLine.id).Nodup)
    (key : LoadedId) : (buildLoadedIndex fileEntries).byId.get? key = some entry ↔
      entry ∈ getEntries fileEntries ∧ LoadedLine.id entry = key := by
  rw [byId_buildLoadedIndex]
  constructor
  · intro found
    exact (key_of_get?_indexBy _ _ found).symm
  · intro present
    obtain ⟨member, rfl⟩ := present
    exact get?_indexBy_of_mem _ distinct member

theorem hangs_file (fileEntries : List Line) :
    Forest.Hangs (fileLinks fileEntries).roots.reverse
      ((buildLoadedIndex fileEntries).byId.entries.map Prod.fst)
      ((getEntries fileEntries).map LoadedLine.id) (fileLinks fileEntries).children where
  distinct := (buildLoadedIndex fileEntries).byId.keys_nodup
  everywhere :=
    ((reverse_perm _).append_right _).trans (attached_file fileEntries).places
  known node member := by
    rw [mem_keys_iff, byId_buildLoadedIndex]
    exact (isSome_get?_indexBy _ _ _).mpr member

theorem getTree_eq_some {getTime : Time → Option Int} {fuel : Nat} {tree : SessionTree Line Time} :
    getTree getTime (buildLoadedIndex fileEntries) fileEntries fuel = some tree ↔
      ∃ after visited, sortChildren getTime
          (treeNodes (buildLoadedIndex fileEntries) (getEntries fileEntries)) fuel
          (fileLinks fileEntries) (fileLinks fileEntries).roots.reverse = some (after, visited) ∧
        tree =
          ⟨treeNodes (buildLoadedIndex fileEntries) (getEntries fileEntries), after, visited⟩ := by
  change Option.map _ _ = _ ↔ _
  rw [map_eq_some_iff]
  constructor
  · intro found
    obtain ⟨⟨after, visited⟩, sorts, rfl⟩ := found
    exact ⟨after, visited, sorts, rfl⟩
  · intro found
    obtain ⟨after, visited, sorts, rfl⟩ := found
    exact ⟨(after, visited), sorts, rfl⟩

theorem mem_visited (distinct : ((getEntries fileEntries).map LoadedLine.id).Nodup)
    {visited : List LoadedId}
    (walks : Forest.Walks (fileLinks fileEntries).children (fileLinks fileEntries).roots.reverse
      visited) {entry : Line} {nodes : List Line}
    (chain : ParentChain.Chain (treeParent (buildLoadedIndex fileEntries).byId)
      (buildLoadedIndex fileEntries).byId.get? entry nodes)
    (member : entry ∈ getEntries fileEntries) : LoadedLine.id entry ∈ visited := by
  have attached : Attached _ _ _ (fileLinks fileEntries) := attached_file fileEntries
  induction chain with
  | root top => exact walks.mem_of_mem_stack (mem_reverse.mpr (attached.roots _ member top))
  | step link found _ ih =>
    obtain ⟨stored, rfl⟩ := (found_iff distinct _).mp found
    exact walks.mem_of_hangs (ih stored) (attached.below _ member _ link)

theorem tree_of_treelike (getTime : Time → Option Int) (treelike : Treelike fileEntries) :
    ∃ fuel tree, getTree getTime (buildLoadedIndex fileEntries) fileEntries fuel = some tree ∧
      ∀ entry ∈ getEntries fileEntries, tree.visited.count (LoadedLine.id entry) = 1 := by
  obtain ⟨after, visited, sorts, reached⟩ := exists_sortChildren
    (treeNodes (buildLoadedIndex fileEntries) (getEntries fileEntries)) getTime
    (hangs_file fileEntries) treelike.distinct reached_roots (fun _ => .refl _)
    (Nat.le_refl _)
  rw [nil_append] at reached
  refine ⟨_, _, getTree_eq_some.mpr ⟨after, visited, sorts, rfl⟩, ?_⟩
  intro entry member
  have walks := walks_of_sortChildren _ getTime (fun _ => .refl _) sorts
  have resolves : ParentChain.Resolves (treeParent (buildLoadedIndex fileEntries).byId)
      (buildLoadedIndex fileEntries).byId.get? := fun _ _ _ _ link => treeParent_known link
  obtain ⟨nodes, chain⟩ := exists_of_acyclic
    (found_inside (byId_buildLoadedIndex fileEntries)) resolves treelike.tree
    ((found_iff treelike.distinct _).mpr ⟨member, rfl⟩)
  exact count_eq_one_of_mem reached.apart (mem_visited treelike.distinct walks chain member)

theorem distinct_and_acyclic_of_tree {getTime : Time → Option Int} {fuel : Nat}
    {tree : SessionTree Line Time}
    (built : getTree getTime (buildLoadedIndex fileEntries) fileEntries fuel = some tree)
    (once : ∀ entry ∈ getEntries fileEntries, tree.visited.count (LoadedLine.id entry) = 1) :
    ((getEntries fileEntries).map LoadedLine.id).Nodup ∧
      ParentChain.Acyclic (treeParent (buildLoadedIndex fileEntries).byId)
        (buildLoadedIndex fileEntries).byId.get? := by
  obtain ⟨after, visited, sorts, rfl⟩ := getTree_eq_some.mp built
  have attached : Attached _ _ _ (fileLinks fileEntries) := attached_file fileEntries
  have walks := walks_of_sortChildren _ getTime (fun _ => .refl _) sorts
  have hangs := hangs_file fileEntries
  have onceKey : ∀ key ∈ (buildLoadedIndex fileEntries).byId.entries.map Prod.fst,
      visited.count key = 1 := by
    intro key known
    rw [mem_keys_iff, byId_buildLoadedIndex, isSome_get?_indexBy] at known
    obtain ⟨entry, member, rfl⟩ := mem_map.mp known
    exact once entry member
  have inside : ∀ node ∈ visited,
      node ∈ (buildLoadedIndex fileEntries).byId.entries.map Prod.fst := by
    intro node member
    refine hangs.known node ?_
    rcases mem_append.mp (walks.perm.mem_iff.mp member) with root | below
    · exact hangs.everywhere.subset (mem_append_left _ root)
    · obtain ⟨above, -, child⟩ := mem_flatMap.mp below
      exact attached.inside above node child
  have distinct := hangs.places_nodup walks onceKey inside
  have apart := nodup_of_once onceKey inside
  refine ⟨distinct, ParentChain.acyclic_of_rank visited.idxOf ?_⟩
  intro key entry found above link
  obtain ⟨member, rfl⟩ := (found_iff distinct key).mp found
  refine walks.idxOf_lt apart ?_ (attached.below entry member above link)
  rw [← count_pos_iff, onceKey above ((mem_keys_iff _ _).mpr (treeParent_known link))]
  exact Nat.one_pos

theorem found_self {wanted : LoadedId} {node : Line}
    (found : (buildLoadedIndex fileEntries).byId.get? wanted = some node) :
    (buildLoadedIndex fileEntries).byId.get? (LoadedLine.id node) = some node := by
  obtain ⟨rfl, -⟩ := found_inside (byId_buildLoadedIndex fileEntries) wanted node found
  exact found

theorem found_of_truthy {wanted : LoadedId} {node : Line}
    (start : (if wanted.truthy then (buildLoadedIndex fileEntries).byId.get? wanted else none) =
      some node) : (buildLoadedIndex fileEntries).byId.get? (LoadedLine.id node) = some node := by
  cases truthy : wanted.truthy with
  | false =>
    rw [truthy] at start
    cases start
  | true =>
    rw [truthy, if_pos rfl] at start
    exact found_self start

theorem not_nullish_of_truthy {key : LoadedId} (truthy : key.truthy = true) :
    key.nullish = false := by
  cases key with
  | undefined => cases truthy
  | null => cases truthy
  | text _ => rfl
  | other _ _ => rfl

theorem branch_of_treelike (treelike : Treelike fileEntries) (fromId : LoadedId) :
    ∃ fuel path, (buildLoadedIndex fileEntries).getBranch fuel fromId = some path ∧
      (path.map LoadedLine.id).Nodup := by
  obtain ⟨fuel, path, climb, distinct⟩ := exists_climb (byId_buildLoadedIndex fileEntries)
    treelike.branches _ fun _ start => found_of_truthy start
  refine ⟨fuel, path.reverse, congrArg (Option.map List.reverse) climb, ?_⟩
  rw [map_reverse, nodup_reverse]
  exact distinct

theorem context_of_treelike (treelike : Treelike fileEntries) (leafId : LoadedId) :
    ∃ fuel context, (buildLoadedIndex fileEntries).buildSessionContext fuel
      (getEntries fileEntries) leafId = some context := by
  by_cases top : leafId = .null
  · refine ⟨0, ?_⟩
    rw [LoadedIndex.buildSessionContext, LoadedIndex.buildSessionPath, if_pos top]
    exact ⟨_, rfl⟩
  have self : ∀ node,
      ((if leafId.truthy then (buildLoadedIndex fileEntries).byId.get? leafId else none).or
        (getEntries fileEntries).getLast?) = some node →
      (buildLoadedIndex fileEntries).byId.get? (LoadedLine.id node) = some node := by
    intro node start
    rcases or_eq_some_iff.mp start with found | ⟨-, last⟩
    · exact found_of_truthy found
    · exact (found_iff treelike.distinct _).mpr ⟨mem_of_getLast? last, rfl⟩
  obtain ⟨fuel, path, climb, -⟩ := exists_climb (byId_buildLoadedIndex fileEntries)
    treelike.branches _ self
  refine ⟨fuel, ?_⟩
  rw [LoadedIndex.buildSessionContext, LoadedIndex.buildSessionPath, if_neg top, climb]
  exact ⟨_, rfl⟩

/-- Walks over a loaded file end and are complete exactly when identifiers are distinct and no
entry is its own ancestor. -/
theorem walksComplete_iff_treelike (getTime : Time → Option Int) (fileEntries : List Line) :
    WalksComplete getTime fileEntries ↔ Treelike fileEntries := by
  constructor
  · intro complete
    obtain ⟨fuel, tree, built, once⟩ := complete.tree
    obtain ⟨distinct, acyclic⟩ := distinct_and_acyclic_of_tree built once
    refine ⟨distinct, ?_, acyclic⟩
    refine acyclic_of_climbs (byId_buildLoadedIndex fileEntries) fun key node truthy found => ?_
    obtain ⟨member, rfl⟩ := (found_iff distinct key).mp found
    obtain ⟨fuel, path, branch, -⟩ := complete.branch node member
    rw [LoadedIndex.getBranch, not_nullish_of_truthy truthy] at branch
    obtain ⟨nodes, climb, -⟩ := map_eq_some_iff.mp branch
    refine ⟨fuel, nodes, ?_⟩
    rw [if_neg Bool.false_ne_true, truthy, if_pos rfl, found] at climb
    exact climb
  · intro treelike
    exact
      { branch := fun entry _ => branch_of_treelike treelike (LoadedLine.id entry)
        context := fun entry _ => context_of_treelike treelike (LoadedLine.id entry)
        tree := tree_of_treelike getTime treelike }

end Complete

theorem climbLoaded_ownParent {byId : InsertionMap LoadedId Line} {node : Line}
    (own : branchParent byId node = some (LoadedLine.id node))
    (found : byId.get? (LoadedLine.id node) = some node) (fuel : Nat) :
    climbLoaded byId fuel (some node) = none := by
  induction fuel with
  | zero => rfl
  | succ fuel ih =>
    rw [climbLoaded_succ, own, bind_some, found, ih]
    rfl

/-- A line of which only its place matters. -/
structure PlacedLine where
  isHeader : Bool
  id : LoadedId
  parentId : LoadedId
deriving DecidableEq

instance : LoadedLine PlacedLine Unit where
  isSession := PlacedLine.isHeader
  id := PlacedLine.id
  parentId := PlacedLine.parentId
  timestamp _ := ()
  leafTarget? _ := none
  label? _ := none
  compaction? _ := none
  settings current _ := current
  messages _ := []

/-- A header, and an entry that is its own parent. -/
def ownParentFile : List PlacedLine :=
  [⟨true, .text "session", .undefined⟩, ⟨false, .text "e1", .text "e1"⟩]

theorem ownParent_not_walksComplete : ¬ WalksComplete (fun _ => none) ownParentFile := by
  intro complete
  obtain ⟨fuel, path, branch, -⟩ :=
    complete.branch ⟨false, .text "e1", .text "e1"⟩ (by decide)
  obtain ⟨nodes, climb, -⟩ := map_eq_some_iff.mp branch
  have endless : climbLoaded (buildLoadedIndex ownParentFile).byId fuel
      (some ⟨false, .text "e1", .text "e1"⟩) = none :=
    climbLoaded_ownParent (by decide) (by decide) fuel
  cases endless.symm.trans climb

end Recode.CodingAgent

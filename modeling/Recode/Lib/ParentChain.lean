import Mathlib.Data.Set.Finite.Basic

/-! # Chains of parent links

Nodes name their parent by a key, and a partial lookup resolves keys. A *chain*
from a node lists the node, its parent, and so on up to a node without a parent.
When every parent key resolves and no key is its own ancestor, every node has
exactly one chain (`ParentChain.Chain.exists_of_acyclic`, `ParentChain.Chain.unique`),
the chain names no key twice, and it is no longer than the number of keys.
-/

namespace ParentChain

open List Relation.TransGen

variable {Key Node : Type*} (parent : Node → Option Key) (find : Key → Option Node)

/-- `Chain node nodes`: climbing parent links from `node` visits exactly `nodes`
and ends at a node without a parent. -/
inductive Chain : Node → List Node → Prop
  | root {node : Node} : parent node = none → Chain node [node]
  | step {node above : Node} {key : Key} {nodes : List Node} :
      parent node = some key → find key = some above → Chain above nodes →
        Chain node (node :: nodes)

/-- `IsParent above below`: the key `above` is the parent of the node found at `below`. -/
def IsParent (above below : Key) : Prop :=
  ∃ node, find below = some node ∧ parent node = some above

/-- No key is reached from itself along parent links. -/
def Acyclic : Prop := ∀ key, ¬ Relation.TransGen (IsParent parent find) key key

def Resolves : Prop :=
  ∀ key node, find key = some node → ∀ above, parent node = some above → (find above).isSome

def climb : Nat → Option Node → List Node
  | 0, _ => []
  | _ + 1, none => []
  | fuel + 1, some current => current :: climb fuel ((parent current).bind find)

variable {parent find}

theorem climb_of_chain {node : Node} {nodes : List Node} (chain : Chain parent find node nodes)
    {fuel : Nat} (enough : nodes.length ≤ fuel) : climb parent find fuel (some node) = nodes := by
  induction chain generalizing fuel with
  | root top =>
    cases fuel with
    | zero => cases enough
    | succ fuel =>
      rw [climb, top]
      cases fuel <;> rfl
  | step link found _ ih =>
    cases fuel with
    | zero => cases enough
    | succ fuel =>
      rw [climb, link, Option.bind_some, found, ih (Nat.le_of_succ_le_succ enough)]

namespace Chain

variable {node : Node} {nodes : List Node}

theorem head (chain : Chain parent find node nodes) : ∃ rest, nodes = node :: rest := by
  cases chain with
  | root _ => exact ⟨[], rfl⟩
  | step _ _ _ => exact ⟨_, rfl⟩

theorem ne_nil (chain : Chain parent find node nodes) : nodes ≠ [] := by
  obtain ⟨rest, rfl⟩ := chain.head
  exact cons_ne_nil _ _

theorem unique {nodes others : List Node} (chain : Chain parent find node nodes)
    (other : Chain parent find node others) : nodes = others := by
  induction chain generalizing others with
  | root top =>
    cases other with
    | root _ => rfl
    | step named _ _ => rw [top] at named; cases named
  | step named found _ ih =>
    cases other with
    | root top => rw [top] at named; cases named
    | step named' found' tail =>
      rw [named] at named'
      cases named'
      rw [found] at found'
      cases found'
      rw [ih tail]

theorem of_append {node below : Node} {newer older : List Node}
    (chain : Chain parent find node (newer ++ below :: older)) :
    Chain parent find below (below :: older) := by
  induction newer generalizing node with
  | nil =>
    obtain ⟨rest, same⟩ := chain.head
    simp only [nil_append, cons.injEq] at same
    obtain ⟨rfl, -⟩ := same
    exact chain
  | cons first newer ih =>
    rw [cons_append] at chain
    generalize equal : first :: (newer ++ below :: older) = nodes at chain
    cases chain with
    | root _ => simp at equal
    | step _ _ tail =>
      simp only [cons.injEq] at equal
      obtain ⟨-, rfl⟩ := equal
      exact ih tail

theorem parent_of_adjacent {node below above : Node} (newer : List Node) {older : List Node}
    (chain : Chain parent find node (newer ++ below :: above :: older)) :
    ∃ key, parent below = some key ∧ find key = some above := by
  have tail := chain.of_append
  cases tail with
  | step named found rest =>
    obtain ⟨_, same⟩ := rest.head
    simp only [cons.injEq] at same
    obtain ⟨rfl, -⟩ := same
    exact ⟨_, named, found⟩

theorem parent_of_last {node last : Node} (newer : List Node)
    (chain : Chain parent find node (newer ++ [last])) : parent last = none := by
  have tail := chain.of_append
  cases tail with
  | root top => exact top
  | step _ _ rest => exact (rest.ne_nil rfl).elim

section Keyed

variable {key : Node → Key} (keyed : ∀ wanted node, find wanted = some node → key node = wanted)
include keyed

variable {nodes : List Node}

theorem found_of_mem {node below : Node} (self : find (key node) = some node)
    (chain : Chain parent find node nodes) (member : below ∈ nodes) :
    find (key below) = some below := by
  induction chain with
  | root _ =>
    rw [mem_singleton] at member
    exact member ▸ self
  | step _ found _ ih =>
    rcases mem_cons.mp member with rfl | above
    · exact self
    · exact ih (keyed _ _ found ▸ found) above

theorem transfer {find' : Key → Option Node} {node : Node} (chain : Chain parent find node nodes)
    (finds : ∀ other ∈ nodes, find' (key other) = some other) : Chain parent find' node nodes := by
  induction chain with
  | root top => exact .root top
  | @step node above wanted nodes named found tail ih =>
    obtain ⟨rest, rfl⟩ := tail.head
    have here := finds above (by simp)
    rw [keyed _ _ found] at here
    exact .step named here (ih fun other member => finds other (mem_cons_of_mem _ member))

/-- Every later node of a chain is a proper ancestor of the chain's node. -/
theorem transGen_of_mem {node below : Node} (self : find (key node) = some node)
    (chain : Chain parent find node (node :: nodes)) (member : below ∈ nodes) :
    Relation.TransGen (IsParent parent find) (key below) (key node) := by
  generalize equal : node :: nodes = whole at chain
  induction chain generalizing nodes with
  | root _ =>
    simp only [cons.injEq, true_and] at equal
    subst equal
    cases member
  | @step node above keyAbove rest named found tail ih =>
    simp only [cons.injEq, true_and] at equal
    subst equal
    have here := keyed _ _ found
    have edge : IsParent parent find (key above) (key node) := ⟨node, self, here ▸ named⟩
    obtain ⟨older, rfl⟩ := tail.head
    rcases mem_cons.mp member with rfl | further
    · exact .single edge
    · exact (ih (here.symm ▸ found) further rfl).tail edge

theorem mem_of_transGen {node : Node} {above : Key}
    (self : find (key node) = some node) (chain : Chain parent find node (node :: nodes))
    (ancestor : Relation.TransGen (IsParent parent find) above (key node)) :
    ∃ upper ∈ nodes, key upper = above := by
  generalize equal : node :: nodes = whole at chain
  induction chain generalizing nodes with
  | root top =>
    obtain ⟨_, _, _, found, link⟩ := tail'_iff.mp ancestor
    rw [self, Option.some.injEq] at found
    rw [← found, top] at link
    cases link
  | @step first parentNode keyAbove rest named found tail ih =>
    simp only [cons.injEq, true_and] at equal
    subst equal
    obtain ⟨middle, further, _, same, link⟩ := tail'_iff.mp ancestor
    rw [self, Option.some.injEq] at same
    rw [← same, named, Option.some.injEq] at link
    subst link
    have here := keyed _ _ found
    obtain ⟨older, rfl⟩ := tail.head
    rcases Relation.reflTransGen_iff_eq_or_transGen.mp further with same | further
    · exact ⟨parentNode, mem_cons_self, here.trans same⟩
    · rw [← here] at further
      obtain ⟨upper, member, equal⟩ := ih (here.symm ▸ found) further rfl
      exact ⟨upper, mem_cons_of_mem _ member, equal⟩

theorem keys_nodup (acyclic : Acyclic parent find) {node : Node}
    (self : find (key node) = some node) (chain : Chain parent find node nodes) :
    (nodes.map key).Nodup := by
  induction chain with
  | root _ => simp
  | @step node above keyAbove nodes named found tail ih =>
    have aboveSelf := (keyed _ _ found).symm ▸ found
    rw [map_cons, nodup_cons]
    refine ⟨?_, ih aboveSelf⟩
    intro repeated
    obtain ⟨below, member, same⟩ := mem_map.mp repeated
    have loop := transGen_of_mem keyed self (.step named found tail) member
    rw [same] at loop
    exact acyclic _ loop

end Keyed

/-- When keys resolve within a finite set and links are acyclic, every found node
has a chain. -/
theorem exists_of_acyclic {key : Node → Key} {keys : List Key}
    (inside : ∀ wanted node, find wanted = some node → key node = wanted ∧ wanted ∈ keys)
    (resolves : Resolves parent find) (acyclic : Acyclic parent find)
    (self : find (key node) = some node) : ∃ nodes, Chain parent find node nodes := by
  classical
  let Present := {wanted : Key // wanted ∈ keys}
  have finite : Finite Present := (finite_toSet keys).to_subtype
  let above : Present → Present → Prop := fun upper lower =>
    Relation.TransGen (IsParent parent find) upper.1 lower.1
  have transitive : IsTrans Present above := ⟨fun _ _ _ => Relation.TransGen.trans⟩
  have irreflexive : Std.Irrefl above := ⟨fun present loop => acyclic _ loop⟩
  have wellFounded : WellFounded above := Finite.wellFounded_of_trans_of_irrefl above
  suffices climb : ∀ present : Present, ∀ node, key node = present.1 →
      find (key node) = some node → ∃ nodes, Chain parent find node nodes from
    climb ⟨key node, (inside _ _ self).2⟩ node rfl self
  intro present
  induction present using wellFounded.induction with
  | _ present ih =>
    intro node named self
    cases link : parent node with
    | none => exact ⟨_, .root link⟩
    | some wanted =>
      obtain ⟨upper, found⟩ := Option.isSome_iff_exists.mp (resolves _ _ self _ link)
      obtain ⟨sameKey, memberKey⟩ := inside _ _ found
      have edge : IsParent parent find wanted present.1 := ⟨node, named ▸ self, link⟩
      obtain ⟨nodes, chain⟩ := ih ⟨wanted, memberKey⟩ (.single edge) upper sameKey
        (sameKey.symm ▸ found)
      exact ⟨_, .step link found chain⟩

theorem length_le {key : Node → Key} {keys : List Key}
    (inside : ∀ wanted node, find wanted = some node → key node = wanted ∧ wanted ∈ keys)
    (acyclic : Acyclic parent find) (self : find (key node) = some node)
    (chain : Chain parent find node nodes) : nodes.length ≤ keys.length := by
  have keyed := fun wanted node found => (inside wanted node found).1
  have nodup := chain.keys_nodup keyed acyclic self
  have within : nodes.map key ⊆ keys := by
    intro wanted member
    obtain ⟨below, present, rfl⟩ := mem_map.mp member
    exact (inside _ _ (chain.found_of_mem keyed self present)).2
  calc nodes.length = (nodes.map key).length := (length_map _).symm
    _ ≤ keys.length := (nodup.subperm within).length_le

end Chain

theorem acyclic_of_rank (rank : Key → Nat)
    (smaller : ∀ key node, find key = some node → ∀ above, parent node = some above →
      rank above < rank key) : Acyclic parent find := by
  have descends : ∀ upper lower, Relation.TransGen (IsParent parent find) upper lower →
      rank upper < rank lower := by
    intro upper lower path
    induction path with
    | single edge =>
      obtain ⟨node, found, link⟩ := edge
      exact smaller _ _ found _ link
    | tail _ edge ih =>
      obtain ⟨node, found, link⟩ := edge
      exact ih.trans (smaller _ _ found _ link)
  exact fun key loop => (descends key key loop).ne rfl

end ParentChain

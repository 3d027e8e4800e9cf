import Recode.Lib.InsertionMap
import Recode.Lib.ParentChain

/-! # Trees that grow by appending

A list of nodes grows a tree when every node brings a new key and names as its
parent only a key that is already there. Looking nodes up by key then resolves
every parent, no node is its own ancestor, and every node keeps the same chain
to the root when further nodes are appended. -/

namespace GrownTree

open List InsertionMap

variable {Key Node : Type*} [DecidableEq Key] (key : Node → Key) (parent : Node → Option Key)

/-- Every node brings a new key and names a known parent, starting from known keys. -/
def GrowsFrom : List Key → List Node → Prop
  | _, [] => True
  | known, node :: nodes =>
    key node ∉ known ∧ (parent node).all (· ∈ known) = true ∧
      GrowsFrom (known ++ [key node]) nodes

/-- Every node brings a new key and names an earlier node as its parent. -/
def Grows (nodes : List Node) : Prop := GrowsFrom key parent [] nodes

def LinkedFrom : Option Key → List Node → Prop
  | _, [] => True
  | above, node :: nodes => parent node = above ∧ LinkedFrom (some (key node)) nodes

def find (nodes : List Node) (wanted : Key) : Option Node :=
  (indexBy key nodes).get? wanted

instance decidableGrowsFrom : ∀ known nodes, Decidable (GrowsFrom key parent known nodes)
  | _, [] => .isTrue trivial
  | known, node :: nodes =>
    have := decidableGrowsFrom (known ++ [key node]) nodes
    inferInstanceAs (Decidable (_ ∧ _ ∧ _))

instance (nodes : List Node) : Decidable (Grows key parent nodes) :=
  decidableGrowsFrom key parent [] nodes

variable {key parent}

theorem growsFrom_append (known : List Key) (nodes more : List Node) :
    GrowsFrom key parent known (nodes ++ more) ↔ GrowsFrom key parent known nodes ∧
        GrowsFrom key parent (known ++ nodes.map key) more := by
  induction nodes generalizing known with
  | nil => simp [GrowsFrom]
  | cons node nodes ih =>
    simp only [cons_append, GrowsFrom, ih, map_cons, append_assoc,
      nil_append, and_assoc]

theorem grows_append_singleton (nodes : List Node) (node : Node) :
    Grows key parent (nodes ++ [node]) ↔ Grows key parent nodes ∧ key node ∉ nodes.map key ∧
        ∀ above, parent node = some above → above ∈ nodes.map key := by
  rw [Grows, growsFrom_append]
  cases link : parent node <;> simp [GrowsFrom, Grows, link]

omit [DecidableEq Key] in
theorem linkedFrom_append (above : Option Key) (nodes more : List Node) :
    LinkedFrom key parent above (nodes ++ more) ↔ LinkedFrom key parent above nodes ∧
        LinkedFrom key parent ((nodes.getLast?.map key).or above) more := by
  induction nodes generalizing above with
  | nil => simp [LinkedFrom]
  | cons node nodes ih =>
    have last : ((node :: nodes).getLast?.map key).or above =
        (nodes.getLast?.map key).or (some (key node)) := by
      rw [getLast?_cons]
      cases nodes.getLast? <;> rfl
    simp only [cons_append, LinkedFrom, ih, last, and_assoc]

variable {nodes : List Node}

theorem growsFrom_of_linked {known : List Key} {above : Option Key}
    (linked : LinkedFrom key parent above nodes) (inside : ∀ key, above = some key → key ∈ known)
    (distinct : (known ++ nodes.map key).Nodup) : GrowsFrom key parent known nodes := by
  induction nodes generalizing known above with
  | nil => trivial
  | cons node nodes ih =>
    obtain ⟨link, further⟩ := linked
    rw [map_cons, ← singleton_append, ← append_assoc] at distinct
    have fresh : key node ∉ known := by
      have front := distinct.of_append_left
      rw [nodup_append] at front
      exact fun member => front.2.2 _ member _ (by simp) rfl
    refine ⟨fresh, ?_, ih further (by simp) distinct⟩
    rw [link, Option.all_eq_true]
    intro wanted named
    exact decide_eq_true (inside wanted named)

theorem grows_of_linked (linked : LinkedFrom key parent none nodes)
    (distinct : (nodes.map key).Nodup) : Grows key parent nodes :=
  growsFrom_of_linked linked (by simp) (by simpa using distinct)

theorem chain_of_linked (linked : LinkedFrom key parent none nodes)
    (distinct : (nodes.map key).Nodup) {front rest : List Node} {node : Node}
    (split : nodes = front ++ node :: rest) :
    ParentChain.Chain parent (find key nodes) node (node :: front.reverse) := by
  have link := split ▸ linked
  rw [linkedFrom_append] at link
  obtain ⟨-, link, -⟩ := link
  induction front using reverseRecOn generalizing node rest with
  | nil => exact .root link
  | append_singleton front above ih =>
    rw [getLast?_concat, Option.map_some, Option.some_or] at link
    have member : above ∈ nodes := by simp [split]
    have found := get?_indexBy_of_mem key distinct member
    rw [append_assoc, singleton_append] at split
    have before := split ▸ linked
    rw [linkedFrom_append] at before
    rw [reverse_append]
    exact .step link found (ih split before.2.1)

namespace Grows

variable {nodes : List Node}

theorem nil : Grows key parent [] := trivial

theorem keys_nodup (grows : Grows key parent nodes) : (nodes.map key).Nodup := by
  induction nodes using reverseRecOn with
  | nil => exact nodup_nil
  | append_singleton nodes node ih =>
    obtain ⟨earlier, fresh, -⟩ := (grows_append_singleton nodes node).mp grows
    rw [map_append, nodup_append]
    refine ⟨ih earlier, by simp, ?_⟩
    intro old member new single same
    simp only [map_cons, map_nil, mem_singleton] at single
    exact fresh (single ▸ same ▸ member)

variable {path : List Node} {node : Node}

/-- A parent is found among the nodes before its child. -/
theorem parent_before {older newer : List Node} (grows : Grows key parent (older ++ node :: newer))
    {above : Key} (link : parent node = some above) : above ∈ older.map key := by
  rw [Grows, growsFrom_append] at grows
  have known := grows.2.2.1
  simpa [link] using known

theorem of_append {more : List Node} (grows : Grows key parent (nodes ++ more)) :
    Grows key parent nodes := ((growsFrom_append [] nodes more).mp grows).1

theorem find_iff (grows : Grows key parent nodes) (wanted : Key) (node : Node) :
    find key nodes wanted = some node ↔ node ∈ nodes ∧ key node = wanted := by
  constructor
  · intro found
    obtain ⟨named, member⟩ := key_of_get?_indexBy key nodes found
    exact ⟨member, named⟩
  · rintro ⟨member, rfl⟩
    exact get?_indexBy_of_mem key grows.keys_nodup member

theorem find_self (grows : Grows key parent nodes) (member : node ∈ nodes) :
    find key nodes (key node) = some node :=
  (grows.find_iff _ _).mpr ⟨member, rfl⟩

theorem inside (grows : Grows key parent nodes) (wanted : Key) (node : Node)
    (found : find key nodes wanted = some node) : key node = wanted ∧ wanted ∈ nodes.map key := by
  obtain ⟨member, rfl⟩ := (grows.find_iff _ _).mp found
  exact ⟨rfl, mem_map_of_mem member⟩

theorem find_of_mem_keys {wanted : Key} (member : wanted ∈ nodes.map key)
    (grows : Grows key parent nodes) :
    ∃ node ∈ nodes, key node = wanted ∧ find key nodes wanted = some node := by
  obtain ⟨node, present, rfl⟩ := mem_map.mp member
  exact ⟨node, present, rfl, grows.find_self present⟩

section

variable (grows : Grows key parent nodes)
include grows

theorem resolves : ParentChain.Resolves parent (find key nodes) := by
  intro wanted node found above link
  obtain ⟨member, rfl⟩ := (grows.find_iff _ _).mp found
  obtain ⟨older, newer, rfl⟩ := append_of_mem member
  obtain ⟨up, present, rfl⟩ := mem_map.mp (grows.parent_before link)
  rw [grows.find_self (mem_append_left _ present)]
  rfl

theorem acyclic : ParentChain.Acyclic parent (find key nodes) := by
  apply ParentChain.acyclic_of_rank fun wanted => (nodes.map key).idxOf wanted
  intro wanted node found above link
  obtain ⟨member, rfl⟩ := (grows.find_iff _ _).mp found
  obtain ⟨older, newer, rfl⟩ := append_of_mem member
  have before := grows.parent_before link
  have fresh : key node ∉ older.map key := by
    have distinct := grows.keys_nodup
    rw [map_append, nodup_append] at distinct
    exact fun repeated => distinct.2.2 _ repeated _ (by simp) rfl
  rw [map_append, idxOf_append_of_mem before, idxOf_append_of_notMem fresh]
  have inside := idxOf_lt_length_of_mem before
  omega

section

variable (member : node ∈ nodes)
include member

theorem exists_chain : ∃ path, ParentChain.Chain parent (find key nodes) node path :=
  ParentChain.Chain.exists_of_acyclic grows.inside grows.resolves grows.acyclic
    (grows.find_self member)

theorem chain_keys_nodup (chain : ParentChain.Chain parent (find key nodes) node path) :
    (path.map key).Nodup :=
  chain.keys_nodup (fun _ _ found => (grows.inside _ _ found).1) grows.acyclic
    (grows.find_self member)

theorem chain_length_le (chain : ParentChain.Chain parent (find key nodes) node path) :
    path.length ≤ nodes.length := by
  have bounded := chain.length_le grows.inside grows.acyclic (grows.find_self member)
  simpa using bounded

theorem climb_eq (chain : ParentChain.Chain parent (find key nodes) node path) :
    ParentChain.climb parent (indexBy key nodes).get?
      (indexBy key nodes).entries.length (some node) = path := by
  refine ParentChain.climb_of_chain chain ?_
  have keys : ∀ wanted above, find key nodes wanted = some above →
      key above = wanted ∧ wanted ∈ (indexBy key nodes).entries.map Prod.fst := by
    intro wanted above found
    refine ⟨(grows.inside _ _ found).1, ?_⟩
    exact mem_map_of_mem ((get?_eq_some_iff _ _ _).mp found)
  have bounded := chain.length_le keys grows.acyclic (grows.find_self member)
  rwa [length_map] at bounded

/-- Read from the root, a chain visits nodes in the order of their appending. -/
theorem chain_sublist (chain : ParentChain.Chain parent (find key nodes) node path) :
    path.reverse.Sublist nodes := by
  suffices upTo : ∀ older newer, nodes = older ++ node :: newer →
      path.reverse.Sublist (older ++ [node]) by
    obtain ⟨older, newer, same⟩ := append_of_mem member
    refine (upTo older newer same).trans ?_
    rw [same]
    exact (singleton_sublist.mpr mem_cons_self).append_left older
  clear member
  induction chain with
  | root _ =>
    intro older newer _
    exact sublist_append_right older _
  | @step node above wanted path link found tail ih =>
    intro older newer same
    have before : wanted ∈ older.map key := by
      rw [same] at grows
      exact grows.parent_before link
    obtain ⟨upper, inside, named⟩ := mem_map.mp before
    have equal : above = upper := by
      have foundUpper := grows.find_self (same ▸ mem_append_left (node :: newer) inside)
      rw [named, found] at foundUpper
      exact Option.some.inj foundUpper
    subst equal
    obtain ⟨first, between, rfl⟩ := append_of_mem inside
    have shorter := ih first (between ++ node :: newer) (by rw [same]; simp)
    rw [reverse_cons]
    refine (shorter.append_right [node]).trans ?_
    rw [append_assoc, append_assoc]
    refine List.Sublist.append_left ?_ first
    rw [singleton_append, cons_append]
    exact (sublist_append_right between [node]).cons_cons above

end

end

theorem chain_append_singleton {node added : Node} (grows : Grows key parent (nodes ++ [added]))
    (member : node ∈ nodes) (chain : ParentChain.Chain parent (find key nodes) node path) :
    ParentChain.Chain parent (find key (nodes ++ [added])) node path := by
  have earlier := grows.of_append
  induction chain with
  | root top => exact .root top
  | @step node above wanted path link found tail ih =>
    obtain ⟨present, rfl⟩ := (earlier.find_iff _ _).mp found
    refine .step link ?_ (ih present)
    exact grows.find_self (mem_append_left _ present)

theorem chain_of_parent {node above : Node} (grows : Grows key parent (nodes ++ [node]))
    (member : above ∈ nodes) (link : parent node = some (key above))
    (chain : ParentChain.Chain parent (find key nodes) above path) :
    ParentChain.Chain parent (find key (nodes ++ [node])) node (node :: path) :=
  .step link (grows.find_self (mem_append_left _ member))
    (grows.chain_append_singleton member chain)

theorem of_closed_sublist {selected : List Node} (grows : Grows key parent nodes)
    (sublist : selected.Sublist nodes)
    (closed : ∀ node ∈ selected, ∀ above, parent node = some above → above ∈ selected.map key) :
    Grows key parent selected := by
  induction nodes using reverseRecOn generalizing selected with
  | nil =>
    rw [sublist_nil.mp sublist]
    exact nil
  | append_singleton nodes node ih =>
    obtain ⟨earlier, fresh, known⟩ := (grows_append_singleton nodes node).mp grows
    have linked_earlier : ∀ other ∈ nodes, ∀ above, parent other = some above →
        above ∈ nodes.map key := by
      intro other member above link
      obtain ⟨older, newer, rfl⟩ := append_of_mem member
      rw [map_append]
      exact mem_append_left _ (earlier.parent_before link)
    obtain ⟨front, last, rfl, inFront, inLast⟩ := sublist_append_iff.mp sublist
    have front_closed : ∀ other ∈ front, ∀ above, parent other = some above →
        above ∈ front.map key := by
      intro other member above link
      have present := closed other (mem_append_left _ member) above link
      rw [map_append, mem_append] at present
      refine present.resolve_right fun late => ?_
      obtain ⟨found, inside, rfl⟩ := mem_map.mp late
      rw [mem_singleton.mp (inLast.subset inside)] at link
      exact fresh (linked_earlier other (inFront.subset member) _ link)
    have front_grows := ih earlier inFront front_closed
    rcases sublist_singleton.mp inLast with rfl | rfl
    · rwa [append_nil]
    rw [grows_append_singleton]
    refine ⟨front_grows, ?_, ?_⟩
    · intro repeated
      obtain ⟨other, member, same⟩ := mem_map.mp repeated
      exact fresh (same ▸ mem_map_of_mem (inFront.subset member))
    · intro above link
      have present := closed node (by simp) above link
      rw [map_append, mem_append] at present
      refine present.resolve_right fun late => ?_
      rw [map_singleton, mem_singleton] at late
      exact fresh (late ▸ known above link)

end Grows
end GrownTree

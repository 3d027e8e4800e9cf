import Mathlib.Data.List.Perm.Subperm
import Mathlib.Data.List.Nodup
import Mathlib.Data.List.Induction
import Mathlib.Data.List.Flatten

/-! # Walking a forest with a stack

Nodes hang below roots and below other nodes. A walk pops a node from a stack and pushes the
nodes that hang below it, in any order. Nothing keeps a node from hanging at several places or
below itself: then the walk meets it several times or never ends. -/

namespace Forest

open List

variable {Node : Type*} (children : Node → List Node)

/-- The walk of a stack visits these nodes. -/
inductive Walks : List Node → List Node → Prop
  | done : Walks [] []
  | step {node : Node} {pushed stack visited : List Node} : pushed.Perm (children node) →
      Walks (pushed ++ stack) visited → Walks (node :: stack) (node :: visited)

variable {children}

namespace Walks

variable {stack visited : List Node}

/-- A walk visits the stack and everything that hangs below what it visits. -/
theorem perm (walks : Walks children stack visited) :
    visited.Perm (stack ++ visited.flatMap children) := by
  induction walks with
  | done => exact .nil
  | @step node pushed stack visited same _ ih =>
    rw [cons_append, flatMap_cons]
    refine .cons node (ih.trans ?_)
    calc (pushed ++ stack ++ visited.flatMap children).Perm
          (stack ++ pushed ++ visited.flatMap children) :=
        perm_append_comm.append_right _
      _ = stack ++ (pushed ++ visited.flatMap children) := append_assoc ..
      _ |>.Perm (stack ++ (children node ++ visited.flatMap children)) :=
        (same.append_right _).append_left _

variable {node below : Node}

section

variable (walks : Walks children stack visited)
include walks

theorem visited_after {before after : List Node} (split : visited = before ++ node :: after)
    (hangs : below ∈ children node) : below ∈ after := by
  induction walks generalizing before with
  | done => exact (append_ne_nil_of_right_ne_nil _ (cons_ne_nil _ _) split.symm).elim
  | @step first pushed stack visited same walks ih =>
    cases before with
    | nil =>
      rw [nil_append, cons.injEq] at split
      obtain ⟨rfl, rfl⟩ := split
      refine walks.perm.mem_iff.mpr (mem_append_left _ (mem_append_left _ ?_))
      exact same.mem_iff.mpr hangs
    | cons other before =>
      rw [cons_append, cons.injEq] at split
      exact ih split.2

theorem mem_of_mem_stack {node : Node} (member : node ∈ stack) : node ∈ visited :=
  walks.perm.mem_iff.mpr (mem_append_left _ member)

theorem mem_of_hangs (member : node ∈ visited) (hangs : below ∈ children node) : below ∈ visited :=
  walks.perm.mem_iff.mpr (mem_append_right _ (mem_flatMap.mpr ⟨node, member, hangs⟩))

theorem idxOf_lt [DecidableEq Node] (apart : visited.Nodup) (member : node ∈ visited)
    (hangs : below ∈ children node) : visited.idxOf node < visited.idxOf below := by
  obtain ⟨before, after, rfl⟩ := append_of_mem member
  have later := walks.visited_after rfl hangs
  rw [nodup_append, nodup_cons] at apart
  have first : node ∉ before := fun earlier =>
    apart.2.2 node earlier node mem_cons_self rfl
  have second : below ∉ before := fun earlier =>
    apart.2.2 below earlier below (mem_cons_of_mem _ later) rfl
  have different : node ≠ below := fun same => apart.2.1.1 (same ▸ later)
  rw [idxOf_append_of_notMem first, idxOf_append_of_notMem second, idxOf_cons_self,
    idxOf_cons_ne _ different]
  omega

end

end Walks

/-- The nodes of a forest hang below its roots and below its nodes, one place after the other. -/
structure Hangs (roots keys places : List Node) (children : Node → List Node) : Prop where
  distinct : keys.Nodup
  everywhere : (roots ++ keys.flatMap children).Perm places
  known : ∀ node ∈ places, node ∈ keys

variable {roots keys places : List Node}

/-- A walk that visits every node once, and nothing else, visits nothing twice. -/
theorem nodup_of_once [DecidableEq Node] {visited : List Node}
    (once : ∀ node ∈ keys, visited.count node = 1) (inside : ∀ node ∈ visited, node ∈ keys) :
    visited.Nodup := by
  refine nodup_iff_count_le_one.mpr fun node => ?_
  by_cases member : node ∈ visited
  · exact Nat.le_of_eq (once node (inside node member))
  · rw [count_eq_zero_of_not_mem member]
    exact Nat.zero_le 1

theorem Hangs.places_nodup [DecidableEq Node] (hangs : Hangs roots keys places children)
    {visited : List Node} (walks : Walks children roots visited)
    (once : ∀ node ∈ keys, visited.count node = 1) (inside : ∀ node ∈ visited, node ∈ keys) :
    places.Nodup := by
  have apart := nodup_of_once once inside
  have same : visited.Perm keys := by
    refine (perm_ext_iff_of_nodup apart hangs.distinct).mpr fun node =>
      ⟨inside node, fun member => ?_⟩
    rw [← count_pos_iff, once node member]
    exact Nat.one_pos
  have visits := walks.perm.trans ((same.flatMap_right children).append_left roots)
  exact (visits.trans hangs.everywhere).nodup_iff.mp apart

/-- Hanging one more node below a key adds one place. -/
theorem flatMap_update_perm [DecidableEq Node] (distinct : keys.Nodup) {node : Node}
    (member : node ∈ keys) (children : Node → List Node) (below : Node) :
    (keys.flatMap (Function.update children node (children node ++ [below]))).Perm
      (keys.flatMap children ++ [below]) := by
  obtain ⟨before, after, rfl⟩ := append_of_mem member
  rw [nodup_append, nodup_cons] at distinct
  have same (part : List Node) (absent : node ∉ part) :
      part.flatMap (Function.update children node (children node ++ [below])) =
        part.flatMap children := by
    apply flatMap_congr
    intro other inside
    refine Function.update_of_ne (fun equal => absent ?_) _ _
    exact equal ▸ inside
  have front : node ∉ before := fun earlier =>
    distinct.2.2 node earlier node mem_cons_self rfl
  rw [flatMap_append, flatMap_cons, flatMap_append, flatMap_cons,
    same before front, same after distinct.2.1.1, Function.update_self, append_assoc,
    append_assoc, append_assoc]
  exact (perm_append_comm.append_left _).append_left _

/-- Where a walk stands: what it visited and what is on its stack are the roots and what hangs
below the visited nodes. -/
structure Reached (roots keys : List Node) (children : Node → List Node)
    (visited stack : List Node) : Prop where
  apart : visited.Nodup
  inside : ∀ node ∈ visited, node ∈ keys
  places : (visited ++ stack).Perm (roots ++ visited.flatMap children)

theorem reached_roots : Reached roots keys children [] roots where
  apart := nodup_nil
  inside _ member := (not_mem_nil member).elim
  places := by rw [nil_append, flatMap_nil, append_nil]

variable {visited stack : List Node}

/-- What a walk has met lies among the places of the forest. -/
theorem Reached.subperm (reached : Reached roots keys children visited stack)
    (hangs : Hangs roots keys places children) : (visited ++ stack).Subperm places := by
  have known : visited.Subperm keys := reached.apart.subperm reached.inside
  have below : (visited.flatMap children).Subperm (keys.flatMap children) := by
    obtain ⟨part, same, sublist⟩ := known
    exact ⟨part.flatMap children, same.flatMap_right children, sublist.flatMap children⟩
  exact (reached.places.subperm.trans ((subperm_append_left roots).mpr below)).trans
    hangs.everywhere.subperm

/-- In a forest without repeated places, a walk never meets a node twice. -/
theorem Reached.nodup (reached : Reached roots keys children visited stack)
    (hangs : Hangs roots keys places children) (apart : places.Nodup) :
    (visited ++ stack).Nodup := by
  obtain ⟨part, same, sublist⟩ := reached.subperm hangs
  exact same.nodup_iff.mp (apart.sublist sublist)

theorem Reached.pop {node : Node} (reached : Reached roots keys children visited (node :: stack))
    (hangs : Hangs roots keys places children) (apart : places.Nodup) {pushed : List Node}
    (same : pushed.Perm (children node)) :
    Reached roots keys children (visited ++ [node]) (pushed ++ stack) where
  apart := by
    have met := reached.nodup hangs apart
    rw [append_cons] at met
    exact (nodup_append.mp met).1
  inside other member := by
    rcases mem_append.mp member with earlier | only
    · exact reached.inside other earlier
    · rw [mem_singleton.mp only]
      exact hangs.known node ((reached.subperm hangs).subset
        (mem_append_right visited mem_cons_self))
  places := by
    rw [flatMap_append, flatMap_singleton, ← append_assoc roots]
    calc (visited ++ [node] ++ (pushed ++ stack)).Perm
          (visited ++ [node] ++ (stack ++ pushed)) := perm_append_comm.append_left _
      _ = visited ++ node :: stack ++ pushed := by simp
      _ |>.Perm (roots ++ visited.flatMap children ++ children node) :=
        reached.places.append same

/-- A walk of a forest without repeated places meets no more nodes than there are places. -/
theorem Reached.length_le (reached : Reached roots keys children visited stack)
    (hangs : Hangs roots keys places children) : visited.length + stack.length ≤ places.length := by
  rw [← length_append]
  exact (reached.subperm hangs).length_le

end Forest

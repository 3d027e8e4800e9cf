import Mathlib.Data.List.Perm.Subperm
import Mathlib.Data.List.Nodup

/-! # Assigning distinct slots

Items and slots belong to classes. The items can be given distinct slots, each of its own class,
exactly when no class has more items than slots. -/

namespace Matching

open List

variable {Item Slot Class : Type*} [DecidableEq Class]

def ofClass (classOf : Item → Class) (items : List Item) (cls : Class) : List Item :=
  items.filter fun item => classOf item = cls

/-- Every item has a slot of its class, and no two items have the same. -/
structure Assigns (classOf : Item → Class) (slotClass : Slot → Class) (items : List Item)
    (slots : List Slot) (assign : Item → Slot) : Prop where
  inside : ∀ item ∈ items, assign item ∈ slots
  sameClass : ∀ item ∈ items, slotClass (assign item) = classOf item
  injective : ∀ item ∈ items, ∀ other ∈ items, assign item = assign other → item = other

variable {classOf : Item → Class} {slotClass : Slot → Class} {items : List Item}
  {slots : List Slot}

omit [DecidableEq Class] in
/-- An assignment needs as many slots as there are items. -/
theorem Assigns.length_le {assign : Item → Slot} (distinct : items.Nodup)
    (assigns : Assigns classOf slotClass items slots assign) : items.length ≤ slots.length := by
  have apart : (items.map assign).Nodup :=
    List.Nodup.map_on assigns.injective distinct
  have within : items.map assign ⊆ slots := by
    intro slot member
    obtain ⟨item, listed, rfl⟩ := mem_map.mp member
    exact assigns.inside item listed
  calc items.length = (items.map assign).length := (length_map _).symm
    _ ≤ slots.length := (apart.subperm within).length_le

theorem Assigns.ofClass {assign : Item → Slot}
    (assigns : Assigns classOf slotClass items slots assign) (cls : Class) :
    Assigns classOf slotClass (ofClass classOf items cls) (ofClass slotClass slots cls) assign where
  inside item member := by
    rw [Matching.ofClass, mem_filter, decide_eq_true_eq] at member ⊢
    exact ⟨assigns.inside item member.1, (assigns.sameClass item member.1).trans member.2⟩
  sameClass item member := assigns.sameClass item (mem_filter.mp member).1
  injective item member other member' :=
    assigns.injective item (mem_filter.mp member).1 other (mem_filter.mp member').1

def slotOf [DecidableEq Item] (classOf : Item → Class) (slotClass : Slot → Class)
    (items : List Item) (slots : List Slot) (default : Slot) (item : Item) : Slot :=
  ((ofClass slotClass slots (classOf item))[
      (ofClass classOf items (classOf item)).idxOf item]?).getD
    default

theorem assigns_slotOf [DecidableEq Item] (distinct : slots.Nodup)
    (enough : ∀ cls, (ofClass classOf items cls).length ≤ (ofClass slotClass slots cls).length)
    (default : Slot) :
    Assigns classOf slotClass items slots (slotOf classOf slotClass items slots default) := by
  have place : ∀ item ∈ items, ∃ bound : (ofClass classOf items (classOf item)).idxOf item <
      (ofClass slotClass slots (classOf item)).length,
      slotOf classOf slotClass items slots default item = (ofClass slotClass slots (classOf item))[
          (ofClass classOf items (classOf item)).idxOf item] := by
    intro item member
    have listed : item ∈ ofClass classOf items (classOf item) :=
      mem_filter.mpr ⟨member, decide_eq_true rfl⟩
    have bound := Nat.lt_of_lt_of_le (idxOf_lt_length_of_mem listed) (enough (classOf item))
    exact ⟨bound, by rw [slotOf, getElem?_eq_getElem bound, Option.getD_some]⟩
  have chosen : ∀ item ∈ items, slotOf classOf slotClass items slots default item ∈
      ofClass slotClass slots (classOf item) := by
    intro item member
    obtain ⟨bound, same⟩ := place item member
    rw [same]
    exact getElem_mem bound
  have classed : ∀ item ∈ items, slotClass (slotOf classOf slotClass items slots default item) =
      classOf item := fun item member =>
    of_decide_eq_true (mem_filter.mp (chosen item member)).2
  refine ⟨fun item member => (mem_filter.mp (chosen item member)).1, classed, ?_⟩
  intro item member other member' same
  have sameClass : classOf item = classOf other := by
    rw [← classed item member, same, classed other member']
  obtain ⟨bound, first⟩ := place item member
  obtain ⟨bound', second⟩ := place other member'
  rw [first, second] at same
  simp only [sameClass] at same bound
  have index := (distinct.filter _).getElem_inj_iff.mp same
  have listed : item ∈ ofClass classOf items (classOf other) :=
    mem_filter.mpr ⟨member, decide_eq_true sameClass⟩
  exact (idxOf_inj listed).mp index

theorem exists_assigns_iff [DecidableEq Item] [Nonempty Slot] (distinct : items.Nodup)
    (distinctSlots : slots.Nodup) :
    (∃ assign, Assigns classOf slotClass items slots assign) ↔
      ∀ cls, (ofClass classOf items cls).length ≤ (ofClass slotClass slots cls).length := by
  constructor
  · rintro ⟨assign, assigns⟩ cls
    exact (assigns.ofClass cls).length_le (distinct.filter _)
  · intro enough
    exact ⟨_, assigns_slotOf distinctSlots enough (Classical.arbitrary Slot)⟩

end Matching

import Mathlib.Data.List.Basic

/-! # Replacing ranges of a text

Ranges of a text that are in order and apart are replaced, and the items between them are rendered.
Replacing goes with splitting the text between two ranges, and with what renders the items. -/

namespace Splice

open List

variable {Item Output : Type}

/-- A range of a text, and what replaces it. -/
structure Range (Output : Type) where
  start : Nat
  length : Nat
  new : List Output
deriving DecidableEq

def Range.stop (range : Range Output) : Nat := range.start + range.length

/-- A range with other output in its place. -/
def Range.map {Output' : Type} (rewrite : List Output → List Output') (range : Range Output) :
    Range Output' where
  start := range.start
  length := range.length
  new := rewrite range.new

/-- Ranges between two positions that are in order and apart. -/
def Ordered (limit : Nat) : Nat → List (Range Output) → Prop
  | offset, [] => offset ≤ limit
  | offset, range :: ranges => offset ≤ range.start ∧ Ordered limit range.stop ranges

/-- The items of a text that begins at a position, rendered, with the ranges replaced. -/
def splice (render : Item → List Output) : Nat → List Item → List (Range Output) → List Output
  | _, text, [] => text.flatMap render
  | offset, text, range :: ranges =>
    (text.take (range.start - offset)).flatMap render ++
      (range.new ++ splice render range.stop (text.drop (range.stop - offset)) ranges)

def kept : Nat → List Item → List (Range Output) → List Item
  | _, text, [] => text
  | offset, text, range :: ranges =>
    text.take (range.start - offset) ++ kept range.stop (text.drop (range.stop - offset)) ranges

variable {limit offset : Nat} {ranges : List (Range Output)}

theorem Ordered.le (ordered : Ordered limit offset ranges) : offset ≤ limit := by
  induction ranges generalizing offset with
  | nil => exact ordered
  | cons range ranges ih =>
    exact Nat.le_trans ordered.1 (Nat.le_trans (Nat.le_add_right ..) (ih ordered.2))

theorem Ordered.bounds (ordered : Ordered limit offset ranges) :
    ∀ range ∈ ranges, offset ≤ range.start ∧ range.stop ≤ limit := by
  induction ranges generalizing offset with
  | nil => exact nofun
  | cons first ranges ih =>
    intro range member
    rcases mem_cons.mp member with rfl | later
    · exact ⟨ordered.1, ordered.2.le⟩
    · have bounds := ih ordered.2 range later
      have within : first.start ≤ first.stop := Nat.le_add_right ..
      exact ⟨Nat.le_trans ordered.1 (Nat.le_trans within bounds.1), bounds.2⟩

theorem Ordered.left {limit offset middle : Nat} {ranges more : List (Range Output)}
    (ordered : Ordered limit offset (ranges ++ more)) (upTo : offset ≤ middle)
    (before : ∀ range ∈ ranges, range.stop ≤ middle) : Ordered middle offset ranges := by
  induction ranges generalizing offset with
  | nil => exact upTo
  | cons range ranges ih =>
    obtain ⟨here, later⟩ := forall_mem_cons.mp before
    exact ⟨ordered.1, ih ordered.2 here later⟩

theorem Ordered.right {limit offset middle : Nat} {ranges more : List (Range Output)}
    (ordered : Ordered limit offset (ranges ++ more)) (upTo : middle ≤ limit)
    (after : ∀ range ∈ more, middle ≤ range.start) : Ordered limit middle more := by
  induction ranges generalizing offset with
  | nil =>
    cases more with
    | nil => exact upTo
    | cons range more => exact ⟨after range mem_cons_self, ordered.2⟩
  | cons range ranges ih => exact ih ordered.2

theorem Ordered.map {Output' : Type} {limit offset : Nat} {ranges : List (Range Output)}
    (rewrite : List Output → List Output') (ordered : Ordered limit offset ranges) :
    Ordered limit offset (ranges.map (Range.map rewrite)) := by
  induction ranges generalizing offset with
  | nil => exact ordered
  | cons range ranges ih => exact ⟨ordered.1, ih ordered.2⟩

theorem ordered_of_pairwise (apart : ranges.Pairwise fun before after => before.stop ≤ after.start)
    (bounds : ∀ range ∈ ranges, offset ≤ range.start ∧ range.stop ≤ limit)
    (nonempty : offset ≤ limit) : Ordered limit offset ranges := by
  induction ranges generalizing offset with
  | nil => exact nonempty
  | cons first ranges ih =>
    obtain ⟨before, rest⟩ := pairwise_cons.mp apart
    have here := bounds first mem_cons_self
    refine ⟨here.1, ih rest (fun range member => ⟨before range member, ?_⟩) here.2⟩
    exact (bounds range (mem_cons_of_mem _ member)).2

section Rendering

variable {render : Item → List Output} {limit offset : Nat} {ranges : List (Range Output)}

theorem splice_front (front back : List Item)
    (ordered : Ordered limit (offset + front.length) ranges) :
    splice render offset (front ++ back) ranges =
      front.flatMap render ++ splice render (offset + front.length) back ranges := by
  cases ranges with
  | nil => rw [splice, splice, flatMap_append]
  | cons range ranges =>
    have before := ordered.1
    have within : range.start ≤ range.stop := Nat.le_add_right ..
    have start : range.start - offset = front.length + (range.start - (offset + front.length)) := by
      omega
    have stop : range.stop - offset = front.length + (range.stop - (offset + front.length)) := by
      omega
    rw [splice, splice, start, stop, take_length_add_append, drop_length_add_append,
      flatMap_append, append_assoc]

theorem splice_append (front back : List Item) {more : List (Range Output)}
    (ordered : Ordered (offset + front.length) offset ranges)
    (later : Ordered limit (offset + front.length) more) :
    splice render offset (front ++ back) (ranges ++ more) =
      splice render offset front ranges ++ splice render (offset + front.length) back more := by
  induction ranges generalizing offset front with
  | nil => rw [nil_append, splice_front front back later, splice]
  | cons range ranges ih =>
    have before := ordered.1
    have within : range.start ≤ range.stop := Nat.le_add_right ..
    have inside := ordered.2.le
    have rest : range.stop + (front.drop (range.stop - offset)).length =
        offset + front.length := by
      rw [length_drop]
      omega
    have next := ih (front.drop (range.stop - offset)) (rest ▸ ordered.2) (rest ▸ later)
    rw [cons_append, splice, splice, take_append_of_le_length (by omega),
      drop_append_of_le_length (by omega), next, rest]
    simp only [append_assoc]

theorem splice_map {Item' : Type} (text : List Item') (view : Item' → Item) :
    splice render offset (text.map view) ranges =
      splice (fun item => render (view item)) offset text ranges := by
  induction ranges generalizing offset text with
  | nil => rw [splice, splice, flatMap_map]
  | cons range ranges ih =>
    rw [splice, splice, ← map_take, ← map_drop, flatMap_map, ih]

theorem flatMap_splice {Output' : Type} (text : List Item) (rewrite : Output → List Output') :
    (splice render offset text ranges).flatMap rewrite =
      splice (fun item => (render item).flatMap rewrite) offset text
        (ranges.map (Range.map fun new => new.flatMap rewrite)) := by
  induction ranges generalizing offset text with
  | nil => rw [map_nil, splice, splice, flatMap_assoc]
  | cons range ranges ih =>
    rw [map_cons, splice, splice, flatMap_append, flatMap_append, ih,
      flatMap_assoc]
    rfl

end Rendering

/-! ## Two ways to render -/

/-- A measure of output that adds up. -/
structure Additive (measure : List Output → Nat) : Prop where
  nil : measure [] = 0
  append (front back : List Output) : measure (front ++ back) = measure front + measure back

section Compare

variable {render render' : Item → List Output} {measure : List Output → Nat}

theorem splice_congr {offset : Nat} {text : List Item} {ranges : List (Range Output)}
    (same : ∀ item ∈ kept offset text ranges, render item = render' item) :
    splice render offset text ranges = splice render' offset text ranges := by
  induction ranges generalizing offset text with
  | nil => exact flatMap_congr same
  | cons range ranges ih =>
    rw [kept, forall_mem_append] at same
    rw [splice, splice, flatMap_congr same.1, ih same.2]

section Measure

variable (additive : Additive measure)

include additive

variable {text : List Item}

section

variable (le : ∀ item ∈ text, measure (render item) ≤ measure (render' item))
include le

theorem measure_flatMap_le : measure (text.flatMap render) ≤ measure (text.flatMap render') := by
  induction text with
  | nil => exact Nat.le_refl _
  | cons item text ih =>
    obtain ⟨here, later⟩ := forall_mem_cons.mp le
    rw [flatMap_cons, flatMap_cons, additive.append, additive.append]
    exact Nat.add_le_add here (ih later)

theorem measure_splice_le (offset : Nat) (ranges : List (Range Output)) :
    measure (splice render offset text ranges) ≤ measure (splice render' offset text ranges) := by
  induction ranges generalizing offset text with
  | nil => exact measure_flatMap_le additive le
  | cons range ranges ih =>
    have front := measure_flatMap_le additive fun item member =>
      le item (mem_of_mem_take (i := range.start - offset) member)
    have back := ih (fun item member =>
      le item (mem_of_mem_drop (i := range.stop - offset) member)) range.stop
    simp only [splice, additive.append]
    omega

theorem measure_of_flatMap (same : measure (text.flatMap render) = measure (text.flatMap render')) :
    ∀ item ∈ text, measure (render item) = measure (render' item) := by
  induction text with
  | nil => exact nofun
  | cons first text ih =>
    obtain ⟨here, later⟩ := forall_mem_cons.mp le
    rw [flatMap_cons, flatMap_cons, additive.append, additive.append] at same
    have rest := measure_flatMap_le additive later
    exact forall_mem_cons.mpr ⟨by omega, ih later (by omega)⟩

/-- A measure that no item lowers tells two ways to render apart on the items between the ranges. -/
theorem measure_of_splice {offset : Nat}
    {ranges : List (Range Output)} (same : measure (splice render offset text ranges) =
      measure (splice render' offset text ranges)) :
    ∀ item ∈ kept offset text ranges, measure (render item) = measure (render' item) := by
  induction ranges generalizing offset text with
  | nil => exact measure_of_flatMap additive le same
  | cons range ranges ih =>
    have leFront : ∀ item ∈ text.take (range.start - offset),
        measure (render item) ≤ measure (render' item) :=
      fun item member => le item (mem_of_mem_take member)
    have leBack : ∀ item ∈ text.drop (range.stop - offset),
        measure (render item) ≤ measure (render' item) :=
      fun item member => le item (mem_of_mem_drop member)
    have before := measure_flatMap_le additive leFront
    have after := measure_splice_le additive leBack range.stop ranges
    simp only [splice, additive.append] at same
    rw [kept, forall_mem_append]
    exact ⟨measure_of_flatMap additive leFront (by omega), ih leBack (by omega)⟩

end

end Measure

end Compare

theorem mem_of_mem_kept {offset : Nat} {text : List Item} {ranges : List (Range Output)}
    {item : Item} (member : item ∈ kept offset text ranges) : item ∈ text := by
  induction ranges generalizing offset text with
  | nil => exact member
  | cons range ranges ih =>
    rw [kept] at member
    rcases mem_append.mp member with front | back
    · exact mem_of_mem_take front
    · exact mem_of_mem_drop (ih back)

end Splice

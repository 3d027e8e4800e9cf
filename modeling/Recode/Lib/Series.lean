import Mathlib.Data.List.SplitBy

/-! # Numbered series

Items are numbered one by one: an item that continues the one before it has the next number, and
any other item is number one. Then the items fall into series that are numbered from one on. -/

namespace Series

open List Option

variable {Item : Type*} (numberOf : Item → Nat) (continues : Item → Item → Bool)

/-- The number that is due for an item. -/
def numberAfter (previous : Option Item) (item : Item) : Nat :=
  match previous with
  | none => 1
  | some previous => if continues previous item then numberOf previous + 1 else 1

/-- Every item has the number that is due after the item before it. -/
def Numbered (items : List Item) : Prop :=
  ∀ before item after, items = before ++ item :: after →
    numberOf item = numberAfter numberOf continues before.getLast? item

variable {numberOf : Item → Nat} {continues : Item → Item → Bool}

theorem numbered_nil : Numbered numberOf continues [] :=
  fun before item after none =>
    (append_ne_nil_of_right_ne_nil before (cons_ne_nil item after) none.symm).elim

variable {items : List Item}

/-- Numbered items may be followed by one with the number that is due. -/
theorem Numbered.concat {last : Item} (numbered : Numbered numberOf continues items)
    (next : numberOf last = numberAfter numberOf continues items.getLast? last) :
    Numbered numberOf continues (items ++ [last]) := by
  intro before item after split
  rcases eq_nil_or_concat after with rfl | ⟨front, other, rfl⟩
  · obtain ⟨rfl, same⟩ := append_inj' split rfl
    cases same
    exact next
  · rw [concat_eq_append, ← cons_append, ← append_assoc] at split
    obtain ⟨rfl, -⟩ := append_inj' split rfl
    exact numbered before item front rfl

/-- Series that are not continued by the next one are numbered from one on. -/
theorem Numbered.map_of_mem {all : List (List Item)}
    (numbered : Numbered numberOf continues all.flatten) (nonempty : [] ∉ all)
    (chained : ∀ series ∈ all, series.IsChain fun previous item => continues previous item)
    (apart : all.IsChain fun earlier later => ∃ hasLast hasHead,
      continues (earlier.getLast hasLast) (later.head hasHead) = false)
    {series : List Item} (member : series ∈ all) :
    series.map numberOf = range' 1 series.length := by
  obtain ⟨earlier, later, rfl⟩ := append_of_mem member
  have chain := chained series member
  -- The items of the series are numbered one by one.
  suffices numbers : ∀ front rest, series = front ++ rest →
      front.map numberOf = range' 1 front.length from
    numbers series [] (append_nil series).symm
  intro front
  induction front using reverseRecOn with
  | nil => exact fun _ _ => rfl
  | append_singleton front item ih =>
    intro rest split
    rw [append_assoc] at split
    have before := ih ([item] ++ rest) split
    suffices next : numberOf item = front.length + 1 by
      rw [map_append, length_append, length_singleton, range'_1_concat,
        before, map_singleton, next, Nat.add_comm]
    have whole : (earlier ++ series :: later).flatten =
        (earlier.flatten ++ front) ++ item :: (rest ++ later.flatten) := by
      rw [split]
      simp
    have number := numbered _ _ _ whole
    rcases eq_nil_or_concat front with rfl | ⟨older, previous, rfl⟩
    · rw [append_nil] at number
      rcases eq_nil_or_concat earlier with rfl | ⟨others, neighbour, rfl⟩
      · exact number
      rw [concat_eq_append, append_assoc, singleton_append, isChain_append_cons_cons] at apart
      obtain ⟨hasLast, hasHead, cut⟩ := apart.2.1
      have head : series.head hasHead = item := by
        simp only [split, nil_append, singleton_append, head_cons]
      rw [head] at cut
      rw [concat_eq_append, flatten_append, flatten_singleton,
        getLast?_append, getLast?_eq_some_getLast hasLast, some_or,
        numberAfter, cut] at number
      simpa using number
    · rw [concat_eq_append] at *
      have continued : continues previous item := by
        rw [split, append_assoc, singleton_append, singleton_append,
          isChain_append_cons_cons] at chain
        exact chain.2.1
      rw [← append_assoc, getLast?_concat, numberAfter, if_pos continued] at number
      have last : numberOf previous = older.length + 1 := by
        rw [map_append, length_append, length_singleton, range'_1_concat] at before
        have same := (append_inj' before rfl).2
        rw [map_singleton, singleton_inj] at same
        omega
      rw [number, last, length_append, length_singleton]

theorem Numbered.map_of_mem_splitBy (numbered : Numbered numberOf continues items)
    {series : List Item} (member : series ∈ items.splitBy continues) :
    series.map numberOf = range' 1 series.length := by
  rw [← flatten_splitBy continues items] at numbered
  exact numbered.map_of_mem (nil_notMem_splitBy continues items)
    (fun _ inside => isChain_of_mem_splitBy inside)
    (isChain_getLast_head_splitBy continues items) member

/-- The number of the last item is the length of the last series. -/
theorem Numbered.getLast_series (numbered : Numbered numberOf continues items) {newest : Item}
    (last : items.getLast? = some newest) :
    (items.splitBy continues).getLast?.map length = some (numberOf newest) := by
  have hasItems : items ≠ [] := by
    rintro rfl
    cases last
  rw [getLast?_eq_some_getLast hasItems, some_inj] at last
  subst last
  have hasSeries : items.splitBy continues ≠ [] := splitBy_ne_nil.mpr hasItems
  have inside := getLast_mem hasSeries
  have numbers := numbered.map_of_mem_splitBy inside
  have hasLast := ne_nil_of_mem_splitBy inside
  rw [getLast?_eq_some_getLast hasSeries, map_some, some_inj,
    ← getLast_getLast_splitBy continues hasItems]
  have same : (((items.splitBy continues).getLast hasSeries).map numberOf).getLast? =
      (range' 1 ((items.splitBy continues).getLast hasSeries).length).getLast? := by
    rw [numbers]
  rw [getLast?_map, getLast?_eq_some_getLast hasLast, getLast?_range',
    if_neg (length_pos_iff.mpr hasLast).ne', map_some, some_inj] at same
  omega

end Series

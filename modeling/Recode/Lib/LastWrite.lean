import Mathlib.Data.List.Basic

/-! # The last write of a sequence

Some elements of a sequence write a register and the others leave it alone.
After the sequence the register holds the value written last. -/

namespace LastWrite

open List

variable {Element Value : Type*} (writes : Element → Option Value)

/-- The value that a sequence writes last. -/
def last (elements : List Element) : Option Value :=
  elements.reverse.findSome? writes

variable {writes}

theorem last_append (earlier later : List Element) :
    last writes (earlier ++ later) = (last writes later).or (last writes earlier) := by
  simp only [last, reverse_append, findSome?_append]

theorem last_append_singleton (earlier : List Element) (element : Element) :
    last writes (earlier ++ [element]) = (writes element).or (last writes earlier) := by
  rw [last_append]
  simp [last]

theorem last_cons (element : Element) (later : List Element) :
    last writes (element :: later) = (last writes later).or (writes element) := by
  rw [← singleton_append, last_append]
  simp [last]

variable (elements : List Element)

theorem last_eq_none_iff :
    last writes elements = none ↔ ∀ element ∈ elements, writes element = none := by
  simp [last, findSome?_eq_none_iff]

theorem last_eq_some_iff (value : Value) :
    last writes elements = some value ↔
      ∃ earlier element later, elements = earlier ++ element :: later ∧
        writes element = some value ∧ ∀ other ∈ later, writes other = none := by
  rw [last, findSome?_eq_some_iff]
  constructor
  · rintro ⟨later, element, earlier, same, wrote, silent⟩
    refine ⟨earlier.reverse, element, later.reverse, ?_, wrote, ?_⟩
    · rw [← reverse_reverse elements, same]
      simp
    · exact fun other member => silent other (mem_reverse.mp member)
  · rintro ⟨earlier, element, later, same, wrote, silent⟩
    refine ⟨later.reverse, element, earlier.reverse, ?_, wrote, ?_⟩
    · rw [same]
      simp
    · exact fun other member => silent other (mem_reverse.mp member)

/-- Elements may be left out as long as the last one that writes stays. -/
theorem last_filter {elements : List Element} {keep : Element → Bool}
    (keeps : ∀ earlier element later, elements = earlier ++ element :: later →
      (writes element).isSome → (∀ other ∈ later, writes other = none) → keep element = true) :
    last writes (elements.filter keep) = last writes elements := by
  cases found : last writes elements with
  | none =>
    rw [last_eq_none_iff] at found ⊢
    exact fun element member => found element (mem_of_mem_filter member)
  | some value =>
    obtain ⟨earlier, element, later, same, wrote, silent⟩ := (last_eq_some_iff _ _).mp found
    have kept := keeps earlier element later same (by rw [wrote]; rfl) silent
    refine (last_eq_some_iff _ _).mpr
      ⟨earlier.filter keep, element, later.filter keep, ?_, wrote, ?_⟩
    · rw [same, filter_append, filter_cons_of_pos kept]
    · exact fun other member => silent other (mem_of_mem_filter member)

/-- There is one way to split a sequence at its last write. -/
theorem split_unique {earlier later earlier' later' : List Element} {element element' : Element}
    (same : earlier ++ element :: later = earlier' ++ element' :: later')
    (wrote : (writes element).isSome) (wrote' : (writes element').isSome)
    (silent : ∀ other ∈ later, writes other = none)
    (silent' : ∀ other ∈ later', writes other = none) :
    earlier = earlier' ∧ element = element' ∧ later = later' := by
  have shortest : ∀ (front back : List Element) (last : Element), (writes last).isSome →
      (∀ other ∈ back, writes other = none) →
        (front ++ last :: back).reverse.takeWhile (fun other => (writes other).isNone) =
          back.reverse := by
    intro front back last wrote silent
    rw [reverse_append, reverse_cons, append_assoc, takeWhile_append_of_pos (by simpa using silent)]
    simp [Option.isSome_iff_ne_none.mp wrote]
  have laters : later.reverse = later'.reverse := by
    rw [← shortest earlier later element wrote silent, same,
      shortest earlier' later' element' wrote' silent']
  have equal := reverse_injective laters
  subst equal
  rw [append_cons earlier, append_cons earlier'] at same
  have fronts := append_cancel_right same
  obtain ⟨front, last⟩ := append_inj' fronts rfl
  exact ⟨front, by simpa using last, rfl⟩

variable (writes)

/-- A register that every write replaces holds the last one in the end. -/
theorem foldl_or (initial : Option Value) :
    elements.foldl (fun register element => (writes element).or register) initial =
      (last writes elements).or initial := by
  induction elements generalizing initial with
  | nil => rfl
  | cons element elements ih =>
    rw [foldl_cons, ih, last_cons]
    cases last writes elements <;> simp

end LastWrite

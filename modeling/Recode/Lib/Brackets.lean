import Mathlib.Data.List.Induction
import Mathlib.Data.List.TakeWhile

/-! # Works that are opened and closed in a sequence

Some elements of a sequence open a work and some close one. The elements that
close a work after it was opened, and before it is opened again, are the ones
that match its opening. -/

namespace Brackets

open List

variable {Element Work : Type*} [DecidableEq Work] (opens closes : Element → Option Work)

def matching (work : Work) (after : List Element) : Nat :=
  (after.takeWhile fun element => opens element ≠ some work).countP fun element =>
    closes element = some work

def AtMostOnce (elements : List Element) : Prop :=
  ∀ before element after work, elements = before ++ element :: after →
    opens element = some work → matching opens closes work after ≤ 1

def ExactlyOnce (elements : List Element) : Prop :=
  ∀ before element after work, elements = before ++ element :: after →
    opens element = some work → matching opens closes work after = 1

/-- What an element makes of the number of closings since the last opening. -/
def count (work : Work) (closings : Option Nat) (element : Element) : Option Nat :=
  if opens element = some work then some 0
  else if closes element = some work then closings.map (· + 1) else closings

def closings (work : Work) (elements : List Element) : Option Nat :=
  elements.foldl (count opens closes work) none

variable {opens closes}

@[simp] theorem closings_nil (work : Work) : closings opens closes work [] = none := rfl

theorem closings_append_singleton (work : Work) (elements : List Element) (element : Element) :
    closings opens closes work (elements ++ [element]) =
      count opens closes work (closings opens closes work elements) element := by
  rw [closings, foldl_append]
  rfl

variable {work : Work} {elements : List Element} {element : Element}

theorem closings_append_of_opens (opened : opens element = some work) (elements : List Element) :
    closings opens closes work (elements ++ [element]) = some 0 := by
  rw [closings_append_singleton, count, if_pos opened]

theorem closings_append_of_closes (opened : opens element ≠ some work)
    (closed : closes element = some work) (elements : List Element) :
    closings opens closes work (elements ++ [element]) =
      (closings opens closes work elements).map (· + 1) := by
  rw [closings_append_singleton, count, if_neg opened, if_pos closed]

theorem closings_append_of_ne (opened : opens element ≠ some work)
    (closed : closes element ≠ some work) (elements : List Element) :
    closings opens closes work (elements ++ [element]) = closings opens closes work elements := by
  rw [closings_append_singleton, count, if_neg opened, if_neg closed]

theorem exists_opens {closed : Nat} (counted : closings opens closes work elements = some closed) :
    ∃ element ∈ elements, opens element = some work := by
  induction elements using reverseRecOn generalizing closed with
  | nil => cases counted
  | append_singleton elements last ih =>
    by_cases opened : opens last = some work
    · exact ⟨last, by simp, opened⟩
    have earlier : ∃ closed, closings opens closes work elements = some closed := by
      by_cases closed : closes last = some work
      · rw [closings_append_of_closes opened closed, Option.map_eq_some_iff] at counted
        obtain ⟨before, known, -⟩ := counted
        exact ⟨before, known⟩
      · rw [closings_append_of_ne opened closed] at counted
        exact ⟨_, counted⟩
    obtain ⟨closed, counted⟩ := earlier
    obtain ⟨element, member, opened⟩ := ih counted
    exact ⟨element, mem_append_left _ member, opened⟩

theorem exists_closes {closed : Nat} (counted : closings opens closes work elements = some closed)
    (some_ : closed ≠ 0) : ∃ element ∈ elements, closes element = some work := by
  induction elements using reverseRecOn generalizing closed with
  | nil => cases counted
  | append_singleton elements last ih =>
    by_cases opened : opens last = some work
    · rw [closings_append_of_opens opened] at counted
      exact absurd (Option.some.inj counted).symm some_
    by_cases closes_ : closes last = some work
    · exact ⟨last, by simp, closes_⟩
    · rw [closings_append_of_ne opened closes_] at counted
      obtain ⟨element, member, closes_⟩ := ih counted some_
      exact ⟨element, mem_append_left _ member, closes_⟩

theorem closings_of_opening {before after : List Element} {element : Element}
    (opened : opens element = some work) (later : ∀ other ∈ after, opens other ≠ some work) :
    closings opens closes work (before ++ element :: after) =
      some (after.countP fun other => closes other = some work) := by
  induction after using reverseRecOn with
  | nil =>
    rw [closings_append_singleton, count, if_pos opened]
    rfl
  | append_singleton after last ih =>
    have earlier := ih fun other member => later other (mem_append_left _ member)
    rw [← cons_append, ← append_assoc, closings_append_singleton, earlier, count,
      if_neg (later last (by simp)), countP_append]
    by_cases closed : closes last = some work
    · simp [closed]
    · simp [closed]

theorem closings_eq_matching (before after : List Element) {work : Work} {element : Element}
    (opened : opens element = some work) :
    closings opens closes work
      (before ++ element :: after.takeWhile fun other => opens other ≠ some work) =
        some (matching opens closes work after) := by
  apply closings_of_opening opened
  intro other member
  have passes := mem_takeWhile_imp member
  exact of_decide_eq_true passes

theorem atMostOnce_of_prefixes (prefixes : ∀ initial work closed, initial <+: elements →
      closings opens closes work initial = some closed → closed ≤ 1) :
    AtMostOnce opens closes elements := by
  rintro before element after work rfl opened
  refine prefixes _ work _ ?_ (closings_eq_matching before after opened)
  exact (prefix_append_right_inj before).mpr
    ((prefix_cons_inj element).mpr (List.takeWhile_prefix _))

variable (opens) in
/-- Either a work is not opened among some elements, or they split where it is opened first. -/
theorem exists_next (work : Work) (elements : List Element) :
    (elements.takeWhile fun other => opens other ≠ some work) = elements ∨
      ∃ next rest, opens next = some work ∧
        elements = (elements.takeWhile fun other => opens other ≠ some work) ++ next :: rest := by
  induction elements with
  | nil => exact Or.inl rfl
  | cons first elements ih =>
    by_cases opened : opens first = some work
    · refine Or.inr ⟨first, elements, opened, ?_⟩
      rw [takeWhile_cons_of_neg (by simpa using opened), nil_append]
    · rw [takeWhile_cons_of_pos (by simpa using opened)]
      rcases ih with whole | ⟨next, rest, again, split⟩
      · exact Or.inl (congrArg (first :: ·) whole)
      · exact Or.inr ⟨next, rest, again, congrArg (first :: ·) split⟩

/-- Openings are matched exactly once when moreover no work is opened while it is open, and none
is open in the end. -/
theorem exactlyOnce_of_prefixes (once : AtMostOnce opens closes elements)
    (reopened : ∀ initial element work, initial ++ [element] <+: elements →
      opens element = some work → closings opens closes work initial ≠ some 0)
    (closed : ∀ work, closings opens closes work elements ≠ some 0) :
    ExactlyOnce opens closes elements := by
  rintro before element after work rfl opened
  have most := once before element after work rfl opened
  have some_ : matching opens closes work after ≠ 0 := by
    intro zero
    have open_ : closings opens closes work _ = _ := closings_eq_matching before after opened
    rw [zero] at open_
    rcases exists_next opens work after with whole | ⟨next, rest, again, split⟩
    · rw [whole] at open_
      exact closed work open_
    · refine reopened _ next work ?_ again open_
      refine ⟨rest, ?_⟩
      conv_rhs => rw [split]
      simp
  omega

end Brackets

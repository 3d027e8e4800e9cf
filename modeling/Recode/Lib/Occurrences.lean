import Mathlib.Data.List.Infix

/-! # Occurrences of a pattern in a text

A pattern occurs in a text at positions. A search finds the first one, and a split counts
occurrences that are apart, from the left. -/

namespace Occurrences

open List Option

variable {Symbol : Type}

def OccursAt (text pattern : List Symbol) (position : Nat) : Prop :=
  ∃ before after, text = before ++ (pattern ++ after) ∧ before.length = position

def Twice (text pattern : List Symbol) : Prop :=
  ∃ first second, OccursAt text pattern first ∧ OccursAt text pattern second ∧
    first + pattern.length ≤ second

/-- The pattern occurs twice, and the second occurrence begins within the first. -/
def Overlaps (text pattern : List Symbol) : Prop :=
  ∃ first second, OccursAt text pattern first ∧ OccursAt text pattern second ∧
    first < second ∧ second < first + pattern.length

def Unique (text pattern : List Symbol) : Prop :=
  ∃ position, ∀ other, OccursAt text pattern other ↔ other = position

section Positions

variable {text pattern : List Symbol} {position : Nat}

theorem occursAt_zero : OccursAt text pattern 0 ↔ pattern <+: text := by
  constructor
  · rintro ⟨before, after, rfl, empty⟩
    rw [length_eq_zero_iff.mp empty]
    exact ⟨after, rfl⟩
  · rintro ⟨after, rfl⟩
    exact ⟨[], after, rfl, rfl⟩

theorem occursAt_cons {symbol : Symbol} :
    OccursAt (symbol :: text) pattern (position + 1) ↔ OccursAt text pattern position := by
  constructor
  · rintro ⟨before, after, split, length⟩
    cases before with
    | nil => cases length
    | cons first before =>
      rw [cons_append, cons.injEq] at split
      exact ⟨before, after, split.2, Nat.succ.inj length⟩
  · rintro ⟨before, after, rfl, length⟩
    exact ⟨symbol :: before, after, rfl, congrArg Nat.succ length⟩

theorem occursAt_nil : OccursAt [] pattern position ↔ pattern = [] ∧ position = 0 := by
  constructor
  · rintro ⟨before, after, split, length⟩
    have parts := append_eq_nil_iff.mp split.symm
    exact ⟨(append_eq_nil_iff.mp parts.2).1, by rw [← length, parts.1]; rfl⟩
  · rintro ⟨rfl, rfl⟩
    exact ⟨[], [], rfl, rfl⟩

theorem occursAt_drop {count : Nat} (inside : count ≤ text.length) :
    OccursAt (text.drop count) pattern position ↔ OccursAt text pattern (count + position) := by
  induction count generalizing text with
  | zero => rw [drop_zero, Nat.zero_add]
  | succ count ih =>
    cases text with
    | nil => cases inside
    | cons symbol text =>
      rw [drop_succ_cons, ih (Nat.le_of_succ_le_succ inside), Nat.add_right_comm, occursAt_cons]

theorem OccursAt.le_length (occurs : OccursAt text pattern position) :
    position + pattern.length ≤ text.length := by
  obtain ⟨before, after, rfl, rfl⟩ := occurs
  simp only [length_append]
  omega

theorem OccursAt.slice (occurs : OccursAt text pattern position) :
    (text.drop position).take pattern.length = pattern := by
  obtain ⟨before, after, rfl, rfl⟩ := occurs
  rw [drop_left, take_left]

theorem occursAt_of_slice {length : Nat} (inside : position + length ≤ text.length)
    (slice : (text.drop position).take length = pattern) : OccursAt text pattern position := by
  refine ⟨text.take position, (text.drop position).drop length, ?_, ?_⟩
  · rw [← slice, take_append_drop, take_append_drop]
  · rw [length_take]
    omega

end Positions

section Search

variable [DecidableEq Symbol] {text pattern : List Symbol}

def indexOf (pattern : List Symbol) : List Symbol → Option Nat
  | [] => if pattern.isPrefixOf [] then some 0 else none
  | symbol :: text =>
    if pattern.isPrefixOf (symbol :: text) then some 0 else (indexOf pattern text).map (· + 1)

/-- The occurrences that a split finds after a number of symbols that it skips. -/
def countFrom (pattern : List Symbol) : Nat → List Symbol → Nat
  | _, [] => 0
  | skip + 1, _ :: text => countFrom pattern skip text
  | 0, symbol :: text =>
    if pattern.isPrefixOf (symbol :: text) then countFrom pattern (pattern.length - 1) text + 1
    else countFrom pattern 0 text

/-- The occurrences that a split at a pattern that is not empty finds. -/
def count (pattern text : List Symbol) : Nat := countFrom pattern 0 text

theorem indexOf_eq_none :
    indexOf pattern text = none ↔ ∀ position, ¬ OccursAt text pattern position := by
  induction text with
  | nil =>
    rw [indexOf]
    cases pattern with
    | nil => exact iff_of_false nofun fun never => never 0 ⟨[], [], rfl, rfl⟩
    | cons symbol pattern =>
      refine iff_of_true rfl fun position occurs => ?_
      cases (occursAt_nil.mp occurs).1
  | cons symbol text ih =>
    rw [indexOf]
    by_cases here : pattern.isPrefixOf (symbol :: text) = true
    · rw [if_pos here]
      refine iff_of_false nofun fun never => never 0 ?_
      exact occursAt_zero.mpr (List.isPrefixOf_iff_prefix.mp here)
    rw [if_neg here, map_eq_none_iff, ih]
    constructor
    · intro never position occurs
      cases position with
      | zero => exact here (List.isPrefixOf_iff_prefix.mpr (occursAt_zero.mp occurs))
      | succ position => exact never position (occursAt_cons.mp occurs)
    · exact fun never position occurs => never (position + 1) (occursAt_cons.mpr occurs)

theorem indexOf_eq_some {position : Nat} : indexOf pattern text = some position ↔
    OccursAt text pattern position ∧ ∀ other < position, ¬ OccursAt text pattern other := by
  induction text generalizing position with
  | nil =>
    rw [indexOf]
    cases pattern with
    | nil =>
      rw [occursAt_nil]
      constructor
      · intro found
        cases found
        exact ⟨⟨rfl, rfl⟩, fun other less => absurd less (Nat.not_lt_zero other)⟩
      · exact fun ⟨⟨_, first⟩, _⟩ => congrArg some first.symm
    | cons symbol pattern =>
      refine iff_of_false nofun fun ⟨occurs, _⟩ => ?_
      cases (occursAt_nil.mp occurs).1
  | cons symbol text ih =>
    rw [indexOf]
    by_cases here : pattern.isPrefixOf (symbol :: text) = true
    · have first : OccursAt (symbol :: text) pattern 0 :=
        occursAt_zero.mpr (List.isPrefixOf_iff_prefix.mp here)
      rw [if_pos here, some_inj]
      constructor
      · rintro rfl
        exact ⟨first, fun other less => absurd less (Nat.not_lt_zero other)⟩
      · rintro ⟨-, least⟩
        by_contra later
        exact least 0 (Nat.pos_of_ne_zero (Ne.symm later)) first
    · have notFirst : ¬ OccursAt (symbol :: text) pattern 0 := fun occurs =>
        here (List.isPrefixOf_iff_prefix.mpr (occursAt_zero.mp occurs))
      rw [if_neg here, map_eq_some_iff]
      constructor
      · rintro ⟨before, found, rfl⟩
        obtain ⟨occurs, least⟩ := ih.mp found
        refine ⟨occursAt_cons.mpr occurs, fun other less => ?_⟩
        cases other with
        | zero => exact notFirst
        | succ other =>
          exact fun sooner => least other (Nat.lt_of_succ_lt_succ less) (occursAt_cons.mp sooner)
      · rintro ⟨occurs, least⟩
        cases position with
        | zero => exact absurd occurs notFirst
        | succ position =>
          refine ⟨position, ih.mpr ⟨occursAt_cons.mp occurs, fun other less sooner => ?_⟩, rfl⟩
          exact least (other + 1) (Nat.succ_lt_succ less) (occursAt_cons.mpr sooner)

theorem indexOf_of_unique {position : Nat}
    (unique : ∀ other, OccursAt text pattern other ↔ other = position) :
    indexOf pattern text = some position := by
  refine indexOf_eq_some.mpr ⟨(unique position).mpr rfl, fun other less occurs => ?_⟩
  exact Nat.ne_of_lt less ((unique other).mp occurs)

theorem countFrom_eq (skip : Nat) (text : List Symbol) :
    countFrom pattern skip text = countFrom pattern 0 (text.drop skip) := by
  induction skip generalizing text with
  | zero => rw [drop_zero]
  | succ skip ih =>
    cases text with
    | nil => rfl
    | cons symbol text => rw [countFrom, ih, drop_succ_cons]

section

variable (nonempty : pattern ≠ [])
include nonempty

/-- A split goes on after the first occurrence. -/
theorem count_eq (text : List Symbol) :
    count pattern text = match indexOf pattern text with
      | none => 0
      | some position => count pattern (text.drop (position + pattern.length)) + 1 := by
  have positive := length_pos_iff.mpr nonempty
  induction text with
  | nil =>
    cases pattern with
    | nil => exact absurd rfl nonempty
    | cons symbol pattern => rfl
  | cons symbol text ih =>
    rw [count, countFrom, indexOf]
    by_cases here : pattern.isPrefixOf (symbol :: text) = true
    · obtain ⟨less, length⟩ := Nat.exists_eq_add_of_lt positive
      rw [if_pos here, if_pos here, countFrom_eq, length]
      simp only [Nat.zero_add, Nat.add_sub_cancel]
      rfl
    rw [if_neg here, if_neg here]
    rw [count] at ih
    rw [ih]
    cases indexOf pattern text with
    | none => rfl
    | some position =>
      have shift : position + 1 + pattern.length = position + pattern.length + 1 := by omega
      rw [map_some]
      dsimp only
      rw [shift, drop_succ_cons]

theorem count_pos :
    0 < count pattern text ↔ ∃ position, OccursAt text pattern position := by
  rw [count_eq nonempty]
  cases found : indexOf pattern text with
  | none =>
    refine iff_of_false (Nat.lt_irrefl 0) fun ⟨position, occurs⟩ => ?_
    exact indexOf_eq_none.mp found position occurs
  | some position =>
    exact iff_of_true (Nat.succ_pos _) ⟨position, (indexOf_eq_some.mp found).1⟩

/-- A split finds more than one occurrence when two are apart. -/
theorem one_lt_count : 1 < count pattern text ↔ Twice text pattern := by
  rw [count_eq nonempty]
  cases found : indexOf pattern text with
  | none =>
    refine iff_of_false (Nat.not_lt_zero 1) fun ⟨first, _, occurs, _⟩ => ?_
    exact indexOf_eq_none.mp found first occurs
  | some first =>
    obtain ⟨occurs, least⟩ := indexOf_eq_some.mp found
    have inside := occurs.le_length
    dsimp only
    rw [Nat.lt_add_left_iff_pos, count_pos nonempty]
    constructor
    · rintro ⟨position, later⟩
      rw [occursAt_drop inside] at later
      exact ⟨first, _, occurs, later, Nat.le_add_right ..⟩
    · rintro ⟨front, back, before, after, apart⟩
      have le : first ≤ front := Nat.le_of_not_lt fun less => least front less before
      obtain ⟨distance, rfl⟩ : ∃ distance, back = first + pattern.length + distance :=
        ⟨back - (first + pattern.length), by omega⟩
      exact ⟨distance, (occursAt_drop inside).mpr after⟩

theorem unique_iff : Unique text pattern ↔
    (∃ position, OccursAt text pattern position) ∧ count pattern text ≤ 1 ∧
      ¬ Overlaps text pattern := by
  have positive := length_pos_iff.mpr nonempty
  rw [← Nat.not_lt, one_lt_count nonempty]
  constructor
  · rintro ⟨position, only⟩
    refine ⟨⟨position, (only position).mpr rfl⟩, ?_, ?_⟩
    · rintro ⟨first, second, before, after, apart⟩
      rw [(only first).mp before, (only second).mp after] at apart
      omega
    · rintro ⟨first, second, before, after, less, -⟩
      rw [(only first).mp before, (only second).mp after] at less
      exact Nat.lt_irrefl _ less
  · rintro ⟨⟨position, occurs⟩, notTwice, notOverlaps⟩
    have ordered : ∀ first second, OccursAt text pattern first → OccursAt text pattern second →
        ¬ first < second := by
      intro first second before after less
      by_cases apart : first + pattern.length ≤ second
      · exact notTwice ⟨first, second, before, after, apart⟩
      · exact notOverlaps ⟨first, second, before, after, less, Nat.lt_of_not_le apart⟩
    refine ⟨position, fun other => ⟨fun found => ?_, fun same => same ▸ occurs⟩⟩
    exact Nat.le_antisymm (Nat.le_of_not_lt (ordered position other occurs found))
      (Nat.le_of_not_lt (ordered other position found occurs))

end

end Search

end Occurrences

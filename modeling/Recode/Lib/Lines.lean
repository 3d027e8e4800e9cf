import Mathlib.Algebra.Ring.Nat
import Mathlib.Data.List.Basic
import Mathlib.Data.List.TakeWhile

/-! # Lines of a text within limits

A text over any alphabet is split at a newline. A size of texts is additive at newlines, so the
size of joined lines is that of the lines and of the newlines between them, in any order. -/

namespace Lines

open List

variable {Symbol : Type} (newline : Symbol)

/-- The lines of a text. A final newline starts no further line. -/
def counted [DecidableEq Symbol] (text : List Symbol) : List (List Symbol) :=
  if text.length = 0 then []
  else if text.getLast? = some newline then (text.splitOn newline).dropLast
  else text.splitOn newline

abbrev joined (lines : List (List Symbol)) : List Symbol := [newline].intercalate lines

/-- Lines that can be split apart again. -/
def Single (lines : List (List Symbol)) : Prop := ∀ line ∈ lines, newline ∉ line

/-- A size of texts that is additive at newlines. -/
structure Additive (size : List Symbol → Nat) : Prop where
  nil : size [] = 0
  append (front back : List Symbol) : size (front ++ newline :: back) = size front + 1 + size back

/-- The size of lines with a newline between any two of them. -/
def cost (size : List Symbol → Nat) (lines : List (List Symbol)) : Nat :=
  (lines.map size).sum + (lines.length - 1)

variable {newline} {size : List Symbol → Nat}

section Counted

variable [DecidableEq Symbol]

theorem joined_splitOn (text : List Symbol) : joined newline (text.splitOn newline) = text :=
  intercalate_splitOn newline

theorem single_splitOn (text : List Symbol) : Single newline (text.splitOn newline) := by
  induction text with
  | nil =>
    rw [splitOn_nil]
    intro line member
    rw [mem_singleton.mp member]
    exact not_mem_nil
  | cons unit text ih =>
    obtain ⟨first, rest, split⟩ := exists_cons_of_ne_nil (splitOn_ne_nil newline text)
    rw [split] at ih
    rw [splitOn_cons_eq_if_modifyHead, split]
    by_cases same : unit = newline
    · rw [if_pos (beq_iff_eq.mpr same)]
      intro line member
      rcases mem_cons.mp member with rfl | inside
      · exact not_mem_nil
      · exact ih line inside
    · rw [if_neg (fun equal => same (beq_iff_eq.mp equal)), modifyHead_cons]
      intro line member
      rcases mem_cons.mp member with rfl | inside
      · intro found
        rcases mem_cons.mp found with equal | found
        · exact same equal.symm
        · exact ih first mem_cons_self found
      · exact ih line (mem_cons_of_mem _ inside)

theorem single_counted (text : List Symbol) : Single newline (counted newline text) := by
  intro line member
  rw [counted] at member
  split_ifs at member
  · cases member
  · exact single_splitOn text line ((dropLast_sublist _).subset member)
  · exact single_splitOn text line member

variable {text : List Symbol}

/-- A final newline starts an empty line that is not counted. -/
theorem splitOn_finished (finished : text.getLast? = some newline) :
    text.splitOn newline = counted newline text ++ [[]] := by
  have whole : text = text.dropLast ++ newline :: [] :=
    (dropLast_append_getLast? newline finished).symm
  have long : ¬ text.length = 0 := by
    rw [whole]
    simp
  rw [counted, if_neg long, if_pos finished]
  conv_lhs => rw [whole, splitOn_append_cons_self]
  conv_rhs => rw [whole, splitOn_append_cons_self]
  rw [splitOn_nil, dropLast_concat]

theorem splitOn_open (nonempty : text ≠ [])
    (opened : text.getLast? ≠ some newline) : text.splitOn newline = counted newline text := by
  have long : ¬ text.length = 0 := fun none => nonempty (length_eq_zero_iff.mp none)
  rw [counted, if_neg long, if_neg opened]

theorem counted_ne_nil (nonempty : text ≠ []) : counted newline text ≠ [] := by
  by_cases finished : text.getLast? = some newline
  · intro none
    have whole : text = text.dropLast ++ newline :: [] :=
      (dropLast_append_getLast? newline finished).symm
    have split := splitOn_finished finished
    rw [none, whole, splitOn_append_cons_self, splitOn_nil] at split
    exact splitOn_ne_nil newline _ (append_left_eq_self.mp split)
  · rw [← splitOn_open nonempty finished]
    exact splitOn_ne_nil _ _

theorem joined_counted (text : List Symbol) :
    joined newline (counted newline text) ++
      (if text.getLast? = some newline then [newline] else []) = text := by
  by_cases finished : text.getLast? = some newline
  · have whole : text = text.dropLast ++ newline :: [] :=
      (dropLast_append_getLast? newline finished).symm
    have front : (text.dropLast).splitOn newline = counted newline text := by
      have split := splitOn_finished finished
      conv_lhs at split => rw [whole, splitOn_append_cons_self, splitOn_nil]
      exact append_inj_left' split rfl
    rw [if_pos finished, ← front, joined_splitOn]
    exact whole.symm
  · rw [if_neg finished, append_nil]
    by_cases empty : text = []
    · rw [empty]
      rfl
    · rw [← splitOn_open empty finished, joined_splitOn]

end Counted

theorem joined_cons (line : List Symbol) {lines : List (List Symbol)} (nonempty : lines ≠ []) :
    joined newline (line :: lines) = line ++ newline :: joined newline lines := by
  rw [joined, intercalate_cons_of_ne_nil nonempty, append_assoc, singleton_append]

theorem joined_append {front back : List (List Symbol)} (some_front : front ≠ [])
    (some_back : back ≠ []) :
    joined newline (front ++ back) = joined newline front ++ newline :: joined newline back := by
  induction front with
  | nil => exact absurd rfl some_front
  | cons line front ih =>
    cases front with
    | nil =>
      rw [singleton_append, joined_cons line some_back, joined, joined, intercalate_singleton]
    | cons next front =>
      have more : next :: front ++ back ≠ [] := append_ne_nil_of_right_ne_nil _ some_back
      rw [cons_append, joined_cons line more,
        joined_cons line (cons_ne_nil next front), ih (cons_ne_nil next front), append_assoc,
          cons_append]

theorem size_joined (additive : Additive newline size) (lines : List (List Symbol)) :
    size (joined newline lines) = cost size lines := by
  induction lines with
  | nil => exact additive.nil
  | cons line lines ih =>
    cases lines with
    | nil => simp [joined, cost]
    | cons next lines =>
      rw [joined_cons line (cons_ne_nil next lines), additive.append, ih]
      simp only [cost, map_cons, sum_cons, length_cons]
      omega

theorem size_eq [DecidableEq Symbol] (additive : Additive newline size) (text : List Symbol) :
    size text = cost size (counted newline text) +
      if text.getLast? = some newline then 1 else 0 := by
  have whole : joined newline (counted newline text) ++
      (if text.getLast? = some newline then [newline] else []) = text := joined_counted text
  conv_lhs => rw [← whole]
  by_cases finished : text.getLast? = some newline
  · rw [if_pos finished, if_pos finished, ← size_joined additive]
    exact (additive.append _ []).trans (by rw [additive.nil])
  · rw [if_neg finished, if_neg finished, append_nil, size_joined additive]
    rfl

theorem cost_reverse (lines : List (List Symbol)) : cost size lines.reverse = cost size lines := by
  rw [cost, cost, map_reverse, sum_reverse, length_reverse]

theorem cost_concat (lines : List (List Symbol)) (line : List Symbol) :
    cost size (lines ++ [line]) =
      cost size lines + (size line + if lines.length > 0 then 1 else 0) := by
  simp only [cost, map_append, sum_append, length_append, map_cons,
    map_nil, sum_cons, sum_nil, length_cons, length_nil]
  split <;> omega

theorem cost_le_append (lines more : List (List Symbol)) :
    cost size lines ≤ cost size (lines ++ more) := by
  simp only [cost, map_append, sum_append, length_append]
  omega

theorem cost_lt_append {lines more : List (List Symbol)} (nonempty : lines ≠ [])
    (some_more : more ≠ []) : cost size lines < cost size (lines ++ more) := by
  have := length_pos_iff.mpr nonempty
  have := length_pos_iff.mpr some_more
  simp only [cost, map_append, sum_append, length_append]
  omega

theorem size_le_cost {line : List Symbol} {lines : List (List Symbol)} (member : line ∈ lines) :
    size line ≤ cost size lines := by
  obtain ⟨front, back, rfl⟩ := append_of_mem member
  simp only [cost, map_append, map_cons, sum_append, sum_cons]
  omega

/-! ## The longest front within the limits -/

def Within (size : List Symbol → Nat) (maxLines maxSize : Nat) (lines : List (List Symbol)) :
    Prop :=
  lines.length ≤ maxLines ∧ cost size lines ≤ maxSize

/-- The first lines, as many as are within both limits. -/
structure Longest (size : List Symbol → Nat) (maxLines maxSize : Nat)
    (lines kept : List (List Symbol)) : Prop where
  front : kept <+: lines
  within : Within size maxLines maxSize kept
  longest : ∀ other, other <+: lines → Within size maxLines maxSize other →
    other.length ≤ kept.length

variable {maxLines maxSize : Nat}

theorem Within.of_append {lines more : List (List Symbol)}
    (within : Within size maxLines maxSize (lines ++ more)) :
    Within size maxLines maxSize lines := by
  refine ⟨?_, (cost_le_append lines more).trans within.2⟩
  have := within.1
  rw [length_append] at this
  omega

/-- Lines that end, or whose next line exceeds a limit, are the longest. -/
theorem longest_of_stop {lines kept rest : List (List Symbol)} (split : lines = kept ++ rest)
    (within : Within size maxLines maxSize kept)
    (stop : ∀ line, rest.head? = some line → ¬ Within size maxLines maxSize (kept ++ [line])) :
    Longest size maxLines maxSize lines kept := by
  refine ⟨⟨rest, split.symm⟩, within, fun other front fits => ?_⟩
  by_contra longer
  obtain ⟨after, whole⟩ := front
  cases rest with
  | nil =>
    have := congrArg length (whole.trans split)
    rw [length_append, append_nil] at this
    omega
  | cons line rest =>
    have more : kept ++ [line] <+: other := by
      apply prefix_of_prefix_length_le ⟨rest, ?_⟩ ⟨after, whole⟩
      · rw [length_append, length_singleton]
        omega
      · rw [split, append_assoc, singleton_append]
    obtain ⟨tail, rfl⟩ := more
    exact stop line rfl fits.of_append

/-! ## Keeping lines one after the other -/

/-- Keep lines while they are within the limits, and whether the size stopped it. -/
def keep (size : List Symbol → Nat) (maxLines maxSize : Nat) :
    List (List Symbol) → List (List Symbol) → List (List Symbol) × Bool
  | kept, [] => (kept, false)
  | kept, line :: lines =>
    if kept.length < maxLines then
      if maxSize < cost size (kept ++ [line]) then (kept, true)
      else keep size maxLines maxSize (kept ++ [line]) lines
    else (kept, false)

/-- The next line has room in the number of lines, but not in their size. -/
def TooLarge (size : List Symbol → Nat) (maxLines maxSize : Nat)
    (lines kept : List (List Symbol)) : Prop :=
  ∃ line, lines[kept.length]? = some line ∧ kept.length + 1 ≤ maxLines ∧
    maxSize < cost size (kept ++ [line])

theorem keep_spec {kept : List (List Symbol)} (within : Within size maxLines maxSize kept)
    (lines : List (List Symbol)) :
    Longest size maxLines maxSize (kept ++ lines) (keep size maxLines maxSize kept lines).1 ∧
      ((keep size maxLines maxSize kept lines).2 = true ↔
        TooLarge size maxLines maxSize (kept ++ lines)
          (keep size maxLines maxSize kept lines).1) := by
  induction lines generalizing kept with
  | nil =>
    refine ⟨longest_of_stop rfl within nofun,
      iff_of_false Bool.false_ne_true fun ⟨line, next, _⟩ => ?_⟩
    rw [append_nil, keep, getElem?_eq_none (Nat.le_refl _)] at next
    cases next
  | cons line lines ih =>
    have next : (kept ++ line :: lines)[kept.length]? = some line := by simp
    rw [keep]
    by_cases room : kept.length < maxLines
    · rw [if_pos room]
      by_cases large : maxSize < cost size (kept ++ [line])
      · rw [if_pos large]
        refine ⟨longest_of_stop rfl within fun other same => ?_,
          iff_of_true rfl ⟨line, next, room, large⟩⟩
        cases same
        exact fun fits => Nat.not_le.mpr large fits.2
      · rw [if_neg large]
        have more : Within size maxLines maxSize (kept ++ [line]) :=
          ⟨by rw [length_append]; exact room, Nat.not_lt.mp large⟩
        have rest := ih more
        rw [append_assoc, singleton_append] at rest
        exact rest
    · rw [if_neg room]
      refine ⟨longest_of_stop rfl within fun other same fits => ?_,
        iff_of_false Bool.false_ne_true fun ⟨_, _, few, _⟩ => room few⟩
      have few := fits.1
      rw [length_append, length_singleton] at few
      exact room few

end Lines

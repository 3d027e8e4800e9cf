import Mathlib.Data.List.Find
import Recode.Compaction.Cut

/-! # What the cut keeps

The search for the cut counts back to the entry at which the budget is reached and goes on to the
next valid cut point. That is the oldest valid cut point with fewer tokens behind it than the
budget. When there are as many behind every one, the cut is the first valid cut point. -/

namespace Recode.CutRules

open Recode List Option

variable (rules : CutRules) (entries : List SessionTreeEntry)

def charge (i : Nat) : Nat := (entries[i]?.bind rules.tokens).getD 0

def tokensBetween (first last : Nat) : Nat := ((indices first last).map (charge rules entries)).sum

def ReachedAt (startIndex endIndex budget : Nat) : Option Nat → Prop
  | some i => tokensBetween rules entries (i + 1) endIndex < budget ∧
      budget ≤ tokensBetween rules entries i endIndex
  | none => tokensBetween rules entries startIndex endIndex < budget

/-- The cut point that a budget asks for. -/
structure AtBudget (startIndex endIndex budget cutPoint : Nat) : Prop where
  valid : cutPoint ∈ findValidCutPoints rules entries startIndex endIndex
  /-- No older cut point stays below the budget. -/
  oldest : ∀ other ∈ findValidCutPoints rules entries startIndex endIndex, other < cutPoint →
    budget ≤ tokensBetween rules entries (other + 1) endIndex
  /-- This one does, or none does and it is the first. -/
  below : tokensBetween rules entries (cutPoint + 1) endIndex < budget ∨
    ∀ other ∈ findValidCutPoints rules entries startIndex endIndex,
      cutPoint ≤ other ∧ budget ≤ tokensBetween rules entries (other + 1) endIndex

/-- The latest entry of a range at which a turn begins. -/
structure LatestTurnStart (startIndex last turnStart : Nat) : Prop where
  inRange : startIndex ≤ turnStart ∧ turnStart < last
  starts : entries[turnStart]?.any rules.isTurnStart = true
  latest : ∀ i, turnStart < i → i < last → entries[i]?.any rules.isTurnStart = false

/-- Two versions of the search see the same in a range. -/
structure AgreeOn (other : CutRules) (startIndex endIndex : Nat) : Prop where
  isCutPoint : ∀ i, startIndex ≤ i → i < endIndex →
    entries[i]?.any rules.isCutPoint = entries[i]?.any other.isCutPoint
  charge : ∀ i, startIndex ≤ i → i < endIndex → charge rules entries i = charge other entries i
  staysBefore : ∀ i, startIndex ≤ i → i < endIndex →
    entries[i]?.any rules.staysBefore = entries[i]?.any other.staysBefore
  isWholeTurn : ∀ i, startIndex ≤ i → i < endIndex →
    entries[i]?.any rules.isWholeTurn = entries[i]?.any other.isWholeTurn
  isTurnStart : ∀ i, startIndex ≤ i → i < endIndex →
    entries[i]?.any rules.isTurnStart = entries[i]?.any other.isTurnStart

variable {rules entries}

theorem tokensBetween_step {first last : Nat} (before : first < last) :
    tokensBetween rules entries first last =
      charge rules entries first + tokensBetween rules entries (first + 1) last := by
  obtain ⟨length, rfl⟩ := Nat.exists_eq_add_of_lt before
  have whole : first + length + 1 - first = length + 1 := by omega
  have rest : first + length + 1 - (first + 1) = length := by omega
  rw [tokensBetween, tokensBetween, indices, indices, whole, rest, range'_succ, map_cons,
    sum_cons]

theorem tokensBetween_of_le {first last : Nat} (past : last ≤ first) :
    tokensBetween rules entries first last = 0 := by
  rw [tokensBetween, indices, Nat.sub_eq_zero_of_le past]
  rfl

/-- A range that begins later has no more tokens. -/
theorem tokensBetween_anti {first second last : Nat} (later : first ≤ second) :
    tokensBetween rules entries second last ≤ tokensBetween rules entries first last := by
  induction second, later using Nat.le_induction with
  | base => exact Nat.le_refl _
  | succ second _ ih =>
    by_cases before : second < last
    · rw [tokensBetween_step before] at ih
      omega
    · rw [tokensBetween_of_le (by omega)]
      exact Nat.zero_le _

theorem indices_succ_reverse {startIndex last : Nat} (inside : startIndex ≤ last) :
    (indices startIndex (last + 1)).reverse = last :: (indices startIndex last).reverse := by
  obtain ⟨length, rfl⟩ := Nat.exists_eq_add_of_le inside
  have whole : startIndex + length + 1 - startIndex = length + 1 := by omega
  rw [indices, indices, whole, Nat.add_sub_cancel_left, range'_concat, reverse_append,
    Nat.one_mul]
  rfl

theorem reachedAt_budgetIndex {startIndex last endIndex budget : Nat} (inside : startIndex ≤ last)
    (short : last ≤ endIndex) (below : tokensBetween rules entries last endIndex < budget) :
    ReachedAt rules entries startIndex endIndex budget
      (budgetIndex rules entries budget (indices startIndex last).reverse
        (tokensBetween rules entries last endIndex)) := by
  induction last, inside using Nat.le_induction with
  | base =>
    have empty : (indices startIndex startIndex).reverse = [] := by
      rw [indices, Nat.sub_self]
      rfl
    rw [empty, budgetIndex]
    exact below
  | succ last inside ih =>
    have step : tokensBetween rules entries last endIndex =
        charge rules entries last + tokensBetween rules entries (last + 1) endIndex :=
      tokensBetween_step (Nat.lt_of_succ_le short)
    have charged : charge rules entries last = (entries[last]?.bind rules.tokens).getD 0 := rfl
    rw [indices_succ_reverse inside, budgetIndex]
    cases tokens : entries[last]?.bind rules.tokens with
    | none =>
      rw [tokens, getD_none] at charged
      rw [charged, Nat.zero_add] at step
      have further := ih (Nat.le_of_succ_le short) (step ▸ below)
      rw [step] at further
      exact further
    | some messageTokens =>
      rw [tokens, getD_some] at charged
      rw [charged, Nat.add_comm] at step
      by_cases reached :
          tokensBetween rules entries (last + 1) endIndex + messageTokens ≥ budget
      · simp only [if_pos reached]
        exact ⟨below, step ▸ reached⟩
      · simp only [if_neg reached]
        rw [← step] at reached ⊢
        exact ih (Nat.le_of_succ_le short) (Nat.lt_of_not_le reached)

theorem atBudget_budgetCut {startIndex endIndex budget first : Nat} {rest : List Nat}
    (inside : startIndex ≤ endIndex) (positive : 0 < budget)
    (points : findValidCutPoints rules entries startIndex endIndex = first :: rest) :
    AtBudget rules entries startIndex endIndex budget
      (budgetCut rules entries (first :: rest) first startIndex endIndex budget) := by
  have nothing : tokensBetween rules entries endIndex endIndex = 0 :=
    tokensBetween_of_le (Nat.le_refl endIndex)
  have reached : ReachedAt rules entries startIndex endIndex budget
      (budgetIndex rules entries budget (indices startIndex endIndex).reverse
        (tokensBetween rules entries endIndex endIndex)) :=
    reachedAt_budgetIndex inside (Nat.le_refl endIndex) (nothing ▸ positive)
  have ordered : (first :: rest).Pairwise (· < ·) := by
    rw [← points, findValidCutPoints, indices]
    exact List.Pairwise.filter _ pairwise_lt_range'
  have least : ∀ other ∈ first :: rest, first ≤ other := by
    intro other member
    rcases mem_cons.mp member with same | later
    · exact Nat.le_of_eq same.symm
    · exact Nat.le_of_lt (rel_of_pairwise_cons ordered later)
  have valid : ∀ other ∈ first :: rest,
      other ∈ findValidCutPoints rules entries startIndex endIndex := by
    rw [points]
    exact fun _ member => member
  rw [nothing] at reached
  unfold budgetCut
  cases found : budgetIndex rules entries budget (indices startIndex endIndex).reverse 0 with
  | none =>
    rw [found] at reached
    change AtBudget _ _ _ _ _ first
    have inRange := valid first mem_cons_self
    refine ⟨inRange, ?_, .inl ?_⟩
    · intro other member older
      rw [points] at member
      exact absurd (least other member) (Nat.not_le_of_lt older)
    · rw [findValidCutPoints, mem_filter, mem_indices] at inRange
      exact Nat.lt_of_le_of_lt (tokensBetween_anti (by omega)) reached
  | some i =>
    rw [found] at reached
    obtain ⟨short, full⟩ := reached
    have early : ∀ other < i, budget ≤ tokensBetween rules entries (other + 1) endIndex :=
      fun other older => Nat.le_trans full (tokensBetween_anti older)
    change AtBudget _ _ _ _ _
      (((first :: rest).find? fun cutPoint => decide (cutPoint ≥ i)).getD first)
    cases next : (first :: rest).find? fun cutPoint => decide (cutPoint ≥ i) with
    | none =>
      have before : ∀ other ∈ first :: rest, other < i := by
        intro other member
        have missed := find?_eq_none.mp next other member
        rw [decide_eq_true_eq] at missed
        exact Nat.lt_of_not_le missed
      refine ⟨valid first mem_cons_self, ?_, .inr ?_⟩
      · intro other member _
        exact early other (before other (points ▸ member))
      · intro other member
        exact ⟨least other (points ▸ member), early other (before other (points ▸ member))⟩
    | some cutPoint =>
      obtain ⟨behind, older, newer, split, skipped⟩ := find?_eq_some_iff_append.mp next
      rw [decide_eq_true_eq] at behind
      change AtBudget _ _ _ _ _ cutPoint
      refine ⟨valid cutPoint (mem_of_find?_eq_some next), ?_, .inl ?_⟩
      · intro other member before
        rw [points, split] at member
        rcases mem_append.mp member with earlier | later
        · have missed := skipped other earlier
          rw [Bool.not_eq_true', decide_eq_false_iff_not] at missed
          exact early other (Nat.lt_of_not_le missed)
        rw [split, pairwise_append] at ordered
        rcases mem_cons.mp later with same | after
        · omega
        · have above := rel_of_pairwise_cons ordered.2.1 after
          omega
      · exact Nat.lt_of_le_of_lt (tokensBetween_anti (Nat.succ_le_succ behind)) short

theorem AtBudget.unique {startIndex endIndex budget cutPoint other : Nat}
    (atBudget : AtBudget rules entries startIndex endIndex budget cutPoint)
    (otherAtBudget : AtBudget rules entries startIndex endIndex budget other) :
    cutPoint = other := by
  rcases Nat.lt_trichotomy cutPoint other with before | same | behind
  · have full := otherAtBudget.oldest cutPoint atBudget.valid before
    rcases atBudget.below with short | none
    · omega
    rcases otherAtBudget.below with short | first
    · have full := (none other otherAtBudget.valid).2
      omega
    · have least := (first cutPoint atBudget.valid).1
      omega
  · exact same
  · have full := atBudget.oldest other otherAtBudget.valid behind
    rcases otherAtBudget.below with short | none
    · omega
    rcases atBudget.below with short | first
    · have full := (none cutPoint atBudget.valid).2
      omega
    · have least := (first other otherAtBudget.valid).1
      omega

variable (rules entries) in
theorem includeMetadata_silent (startIndex cutIndex : Nat) :
    ∀ i, includeMetadata rules entries startIndex cutIndex ≤ i → i < cutIndex →
      entries[i]?.any rules.staysBefore = false := by
  induction cutIndex with
  | zero => exact fun i _ before => absurd before (Nat.not_lt_zero i)
  | succ previous ih =>
    intro i behind before
    rw [includeMetadata] at behind
    split at behind
    · omega
    split at behind
    · omega
    rename_i stays
    by_cases deeper : i < previous
    · exact ih i behind deeper
    · have same : i = previous := by omega
      subst same
      exact Bool.eq_false_iff.mpr stays

theorem find?_indices_reverse {startIndex last turnStart : Nat} (inside : startIndex ≤ last) :
    ((indices startIndex last).reverse.find? fun i => entries[i]?.any rules.isTurnStart) =
        some turnStart ↔
      LatestTurnStart rules entries startIndex last turnStart := by
  induction last, inside using Nat.le_induction with
  | base =>
    rw [indices, Nat.sub_self]
    constructor
    · intro found
      cases found
    · intro latest
      have inRange := latest.inRange
      omega
  | succ last inside ih =>
    rw [indices_succ_reverse inside]
    cases starts : entries[last]?.any rules.isTurnStart with
    | true =>
      simp only [find?_cons, starts, some_inj]
      constructor
      · intro same
        subst same
        exact ⟨⟨inside, Nat.lt_succ_self last⟩, starts, fun i later before => by omega⟩
      · intro latest
        by_contra different
        have inRange := latest.inRange
        have none := latest.latest last (by omega) (Nat.lt_succ_self last)
        exact Bool.false_ne_true (none.symm.trans starts)
    | false =>
      simp only [find?_cons, starts]
      rw [ih]
      constructor
      · intro latest
        refine ⟨⟨latest.inRange.1, Nat.lt_succ_of_lt latest.inRange.2⟩, latest.starts, ?_⟩
        intro i later before
        rcases Nat.lt_succ_iff_lt_or_eq.mp before with inner | same
        · exact latest.latest i later inner
        · exact same ▸ starts
      · intro latest
        have different : turnStart ≠ last := by
          intro same
          exact Bool.false_ne_true (starts.symm.trans (same ▸ latest.starts))
        have inRange := latest.inRange
        refine ⟨⟨inRange.1, by omega⟩, latest.starts, ?_⟩
        intro i later before
        exact latest.latest i later (Nat.lt_succ_of_lt before)

theorem exists_latestTurnStart_iff {startIndex last : Nat} (inside : startIndex ≤ last) :
    (∃ turnStart, LatestTurnStart rules entries startIndex last turnStart) ↔
      ∃ earlier, startIndex ≤ earlier ∧ earlier < last ∧
        entries[earlier]?.any rules.isTurnStart = true := by
  constructor
  · intro found
    obtain ⟨turnStart, latest⟩ := found
    exact ⟨turnStart, latest.inRange.1, latest.inRange.2, latest.starts⟩
  · intro found
    obtain ⟨earlier, after, before, starts⟩ := found
    have present : ((indices startIndex last).reverse.find? fun i =>
        entries[i]?.any rules.isTurnStart).isSome :=
      find?_isSome.mpr
        ⟨earlier, mem_reverse.mpr (mem_indices.mpr ⟨after, before⟩), starts⟩
    obtain ⟨turnStart, named⟩ := isSome_iff_exists.mp present
    exact ⟨turnStart, (find?_indices_reverse inside).mp named⟩

theorem findCutPoint_spec {startIndex endIndex keepRecentTokens : Nat}
    (inside : startIndex ≤ endIndex) (positive : 0 < keepRecentTokens)
    (points : findValidCutPoints rules entries startIndex endIndex ≠ []) :
    ∃ cutPoint, AtBudget rules entries startIndex endIndex keepRecentTokens cutPoint ∧
      findCutPoint rules entries startIndex endIndex keepRecentTokens =
        if entries[includeMetadata rules entries startIndex cutPoint]?.any rules.isWholeTurn then
          ⟨includeMetadata rules entries startIndex cutPoint, none, false⟩
        else
          ⟨includeMetadata rules entries startIndex cutPoint,
            findTurnStartIndex rules entries (includeMetadata rules entries startIndex cutPoint)
              startIndex,
            (findTurnStartIndex rules entries (includeMetadata rules entries startIndex cutPoint)
              startIndex).isSome⟩ := by
  cases found : findValidCutPoints rules entries startIndex endIndex with
  | nil => exact absurd found points
  | cons first rest =>
    refine ⟨_, atBudget_budgetCut inside positive found, ?_⟩
    unfold findCutPoint
    rw [found]

section Agree

variable {other : CutRules} {startIndex endIndex : Nat}

section

variable (agree : AgreeOn rules entries other startIndex endIndex)
include agree

theorem findValidCutPoints_congr :
    findValidCutPoints rules entries startIndex endIndex =
      findValidCutPoints other entries startIndex endIndex := by
  refine filter_congr fun i member => ?_
  rw [mem_indices] at member
  exact agree.isCutPoint i member.1 member.2

theorem tokensBetween_congr {first : Nat} (inside : startIndex ≤ first) :
    tokensBetween rules entries first endIndex = tokensBetween other entries first endIndex := by
  unfold tokensBetween
  congr 1
  refine map_congr_left fun i member => ?_
  rw [mem_indices] at member
  exact agree.charge i (Nat.le_trans inside member.1) member.2

theorem AtBudget.congr {budget cutPoint : Nat}
    (atBudget : AtBudget rules entries startIndex endIndex budget cutPoint) :
    AtBudget other entries startIndex endIndex budget cutPoint := by
  obtain ⟨valid, oldest, below⟩ := atBudget
  have behind : ∀ point ∈ findValidCutPoints other entries startIndex endIndex,
      tokensBetween rules entries (point + 1) endIndex =
        tokensBetween other entries (point + 1) endIndex := by
    intro point member
    rw [findValidCutPoints, mem_filter, mem_indices] at member
    exact tokensBetween_congr agree (by omega)
  rw [findValidCutPoints_congr agree] at valid oldest below
  refine ⟨valid, ?_, ?_⟩
  · intro point member before
    rw [← behind point member]
    exact oldest point member before
  · refine below.imp (fun short => behind cutPoint valid ▸ short) fun none point member => ?_
    rw [← behind point member]
    exact none point member

theorem includeMetadata_congr {cutIndex : Nat} (inside : cutIndex ≤ endIndex) :
    includeMetadata rules entries startIndex cutIndex =
      includeMetadata other entries startIndex cutIndex := by
  induction cutIndex with
  | zero => rfl
  | succ previous ih =>
    rw [includeMetadata, includeMetadata, ih (Nat.le_of_succ_le inside)]
    by_cases atStart : previous + 1 ≤ startIndex
    · rw [if_pos atStart, if_pos atStart]
    · rw [if_neg atStart, if_neg atStart, agree.staysBefore previous (by omega) inside]

end

/-- Versions that see the same in a range cut it alike. -/
theorem findCutPoint_congr {keepRecentTokens : Nat} (inside : startIndex ≤ endIndex)
    (positive : 0 < keepRecentTokens) (agree : AgreeOn rules entries other startIndex endIndex) :
    findCutPoint rules entries startIndex endIndex keepRecentTokens =
      findCutPoint other entries startIndex endIndex keepRecentTokens := by
  have same := findValidCutPoints_congr agree
  by_cases points : findValidCutPoints rules entries startIndex endIndex = []
  · unfold findCutPoint
    rw [← same, points]
  obtain ⟨cutPoint, atBudget, cut⟩ := findCutPoint_spec inside positive points
  obtain ⟨otherPoint, otherAtBudget, otherCut⟩ :=
    findCutPoint_spec inside positive (same ▸ points)
  obtain rfl := (atBudget.congr agree).unique otherAtBudget
  have inRange := atBudget.valid
  rw [findValidCutPoints, mem_filter, mem_indices] at inRange
  have bounds := includeMetadata_bounds other entries inRange.1.1
  rw [includeMetadata_congr agree (Nat.le_of_lt inRange.1.2)] at cut
  have starts : findTurnStartIndex rules entries
      (includeMetadata other entries startIndex cutPoint) startIndex =
        findTurnStartIndex other entries
          (includeMetadata other entries startIndex cutPoint) startIndex := by
    refine find?_congr fun i member => ?_
    rw [mem_reverse, mem_indices] at member
    exact agree.isTurnStart i member.1 (by omega)
  rw [cut, otherCut, starts, agree.isWholeTurn _ bounds.1 (by omega)]

end Agree

end Recode.CutRules

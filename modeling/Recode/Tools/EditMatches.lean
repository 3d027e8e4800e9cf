import Mathlib.Data.List.Pairwise
import Recode.Tools.EditDiff

/-! # What edits match

A call that finds matches for all edits determines them: each is the first place of its old text,
and in order they are apart. Only the edits count, not their order. -/

namespace Recode.EditDiff

open List

open Occurrences (OccursAt indexOf)
open Splice (Range Ordered splice)

abbrev single (unit : UInt16) : List UInt16 := [unit]

theorem flatMap_single (text : List UInt16) : text.flatMap single = text :=
  flatMap_singleton' text

/-! ## Replacing from the last one on -/

variable {ranges : List (Range UInt16)}

theorem Ordered.weaken {limit offset offset' : Nat} (ordered : Ordered limit offset ranges)
    (le : offset' ≤ offset) : Ordered limit offset' ranges := by
  cases ranges with
  | nil => exact Nat.le_trans le ordered
  | cons range ranges => exact ⟨Nat.le_trans le ordered.1, ordered.2⟩

theorem splice_split {offset place limit : Nat} {content : List UInt16} (after : offset ≤ place)
    (inside : place ≤ offset + content.length) (ordered : Ordered limit place ranges) :
    splice single offset content ranges =
      content.take (place - offset) ++ splice single place (content.drop
          (place - offset)) ranges := by
  have length : offset + (content.take (place - offset)).length = place := by
    rw [length_take]
    omega
  have split : splice single offset
      (content.take (place - offset) ++ content.drop (place - offset)) ranges = _ :=
    Splice.splice_front _ _ (length.symm ▸ ordered)
  rw [take_append_drop, length, flatMap_single] at split
  exact split

theorem applyReplacements_eq {offset : Nat} {content : List UInt16}
    (ordered : Ordered (offset + content.length) offset ranges) :
    applyReplacements content ranges offset = splice single offset content ranges := by
  induction ranges with
  | nil => exact (flatMap_single content).symm
  | cons range ranges ih =>
    have before := ordered.1
    have inside := ordered.2.le
    have within : range.stop = range.start + range.length := rfl
    have whole := splice_split (Nat.le_trans before (by omega)) inside ordered.2
    rw [splice, flatMap_single]
    rw [applyReplacements, foldr_cons, ← applyReplacements,
      ih (Ordered.weaken ordered.2 (by omega)), whole]
    have place : range.start - offset + range.length = range.stop - offset := by omega
    have length : (content.take (range.stop - offset)).length = range.stop - offset := by
      rw [length_take]
      omega
    rw [place, drop_left' length, take_append_of_le_length (by omega), take_take,
      Nat.min_eq_left (by omega)]

/-! ## The matches -/

section Matches

variable (nfkc : List UInt16 → List UInt16) (base : List UInt16)

def Found (edit : Edit) : Prop :=
  (fuzzyFindText nfkc base edit.oldText).found = true ∧
    ¬ countOccurrences nfkc base edit.oldText > 1

def matchOf (edit : Edit) (i : Nat) : MatchedEdit where
  editIndex := i
  matchIndex := (fuzzyFindText nfkc base edit.oldText).index.getD 0
  matchLength := (fuzzyFindText nfkc base edit.oldText).matchLength
  newText := edit.newText

def rangeOf (edit : Edit) : Range UInt16 := (matchOf nfkc base edit 0).range

theorem findMatches_ok {path : String} {total i : Nat} {edits : List Edit}
    {matched : List MatchedEdit} :
    findMatches nfkc path total base i edits = .ok matched ↔
      (∀ edit ∈ edits, Found nfkc base edit) ∧
        matched = (edits.zipIdx i).map fun item => matchOf nfkc base item.1 item.2 := by
  induction edits generalizing i matched with
  | nil =>
    rw [findMatches]
    constructor
    · intro same
      cases same
      exact ⟨nofun, rfl⟩
    · rintro ⟨-, rfl⟩
      rfl
  | cons edit edits ih =>
    rw [findMatches]
    cases found : (fuzzyFindText nfkc base edit.oldText).index with
    | none =>
      refine iff_of_false nofun fun ⟨all, _⟩ => ?_
      have here := (all edit mem_cons_self).1
      rw [FuzzyMatchResult.found, found] at here
      cases here
    | some index =>
      dsimp only
      by_cases many : countOccurrences nfkc base edit.oldText > 1
      · rw [if_pos many]
        refine iff_of_false nofun fun ⟨all, _⟩ => ?_
        exact (all edit mem_cons_self).2 many
      rw [if_neg many, zipIdx_cons, map_cons, forall_mem_cons]
      have here : matchOf nfkc base edit i =
          ⟨i, index, (fuzzyFindText nfkc base edit.oldText).matchLength, edit.newText⟩ := by
        rw [matchOf, found]
        rfl
      have isFound : Found nfkc base edit := by
        refine ⟨?_, many⟩
        rw [FuzzyMatchResult.found, found]
        rfl
      rw [here]
      cases rest : findMatches nfkc path total base (i + 1) edits with
      | error message =>
        refine iff_of_false nofun fun ⟨⟨_, all⟩, _⟩ => ?_
        have succeeds : findMatches nfkc path total base (i + 1) edits = .ok _ :=
          ih.mpr ⟨all, rfl⟩
        rw [rest] at succeeds
        cases succeeds
      | ok more =>
        obtain ⟨all, same⟩ := ih.mp rest
        constructor
        · intro equal
          cases equal
          exact ⟨⟨isFound, all⟩, by rw [same]⟩
        · rintro ⟨-, equal⟩
          rw [equal, ← same]
          rfl

end Matches

theorem findEmptyOldText_none {path : String} {total i : Nat} {edits : List Edit} :
    findEmptyOldText path total i edits = none ↔ ∀ edit ∈ edits, edit.oldText ≠ [] := by
  induction edits generalizing i with
  | nil => exact iff_of_true rfl nofun
  | cons edit edits ih =>
    rw [findEmptyOldText, forall_mem_cons]
    by_cases empty : edit.oldText.length = 0
    · rw [if_pos empty]
      refine iff_of_false nofun fun ⟨some_text, _⟩ => ?_
      exact some_text (length_eq_zero_iff.mp empty)
    · rw [if_neg empty, ih]
      exact (and_iff_right fun none => empty (length_eq_zero_iff.mpr none)).symm

def Apart (ranges : List (Range UInt16)) : Prop :=
  ranges.Pairwise fun before after => before.stop ≤ after.start

theorem findOverlap_none {path : String} {matched : List MatchedEdit} :
    findOverlap path matched = none ↔ Apart (matched.map MatchedEdit.range) := by
  have transitive : ∀ {first second third : Range UInt16}, first.stop ≤ second.start →
      second.stop ≤ third.start → first.stop ≤ third.start := fun {_ second _} before after =>
    Nat.le_trans before (Nat.le_trans (Nat.le_add_right second.start second.length) after)
  have : IsTrans (Range UInt16) fun before after => before.stop ≤ after.start :=
    ⟨fun _ _ _ before after => transitive before after⟩
  rw [Apart, ← isChain_iff_pairwise]
  induction matched with
  | nil => exact iff_of_true rfl List.IsChain.nil
  | cons previous matched ih =>
    cases matched with
    | nil => exact iff_of_true rfl (List.IsChain.singleton _)
    | cons current matched =>
      rw [findOverlap, map_cons, map_cons, isChain_cons_cons]
      by_cases overlap : previous.matchIndex + previous.matchLength > current.matchIndex
      · rw [if_pos overlap]
        exact iff_of_false nofun fun ⟨apart, _⟩ =>
          Nat.not_lt.mpr apart overlap
      · rw [if_neg overlap]
        exact ih.trans (and_iff_right (Nat.not_lt.mp overlap)).symm

theorem map_sortMatches (matched : List MatchedEdit) :
    (sortMatches matched).map MatchedEdit.range =
      sortReplacements (matched.map MatchedEdit.range) :=
  map_mergeSort fun _ _ _ _ => rfl

variable (ranges : List (Range UInt16))

theorem sortReplacements_perm : (sortReplacements ranges).Perm ranges :=
  mergeSort_perm ..

theorem sortReplacements_sorted :
    (sortReplacements ranges).Pairwise fun a b => a.start ≤ b.start := by
  have sorted : (sortReplacements ranges).Pairwise fun a b => decide (a.start ≤ b.start) = true :=
    pairwise_mergeSort
    (fun a b c ab bc => by simp only [decide_eq_true_eq] at *; omega)
    (fun a b => by simp only [Bool.or_eq_true, decide_eq_true_eq]; omega) ranges
  exact sorted.imp fun le => of_decide_eq_true le

theorem sortReplacements_idem :
    sortReplacements (sortReplacements ranges) = sortReplacements ranges :=
  mergeSort_of_pairwise ((sortReplacements_sorted ranges).imp fun le => decide_eq_true le)

theorem sortReplacements_unique {ranges ranges' : List (Range UInt16)}
    (apart : Apart (sortReplacements ranges)) (nonempty : ∀ range ∈ ranges, 0 < range.length)
    (perm : ranges'.Perm ranges) : sortReplacements ranges' = sortReplacements ranges := by
  have increasing : (sortReplacements ranges).Pairwise fun a b => a.start < b.start := by
    refine apart.imp_of_mem fun {a b} inside _ before => ?_
    have positive := nonempty a ((sortReplacements_perm ranges).mem_iff.mp inside)
    exact Nat.lt_of_lt_of_le (Nat.lt_add_of_pos_right positive) before
  have symmetric : Std.Symm fun a b : Range UInt16 => a.start ≠ b.start :=
    ⟨fun _ _ different => different.symm⟩
  have distinct := (increasing.imp Nat.ne_of_lt).forall
  refine List.Perm.eq_of_pairwise ?_ (sortReplacements_sorted ranges')
    (sortReplacements_sorted ranges) ?_
  · intro a b left right ab ba
    rw [(sortReplacements_perm ranges').mem_iff, perm.mem_iff,
      ← (sortReplacements_perm ranges).mem_iff] at left
    by_contra different
    exact distinct left right different (Nat.le_antisymm ab ba)
  · exact (sortReplacements_perm ranges').trans (perm.trans (sortReplacements_perm ranges).symm)

/-! ## All edits of a call -/

section Call

variable (nfkc : List UInt16 → List UInt16) (content : List UInt16)

def baseOf (edits : List Edit) : List UInt16 :=
  replacementBase nfkc content (edits.map Edit.normalized)

/-- The fuzzy space is used in a call. -/
def Fuzzy (edits : List Edit) : Prop :=
  usesFuzzyMatch nfkc content (edits.map Edit.normalized) = true

instance (edits : List Edit) : Decidable (Fuzzy nfkc content edits) :=
  inferInstanceAs (Decidable (_ = true))

def rangesOf (edits : List Edit) : List (Range UInt16) :=
  sortReplacements (edits.map fun edit => rangeOf nfkc (baseOf nfkc content edits) edit.normalized)

/-- What a call needs to find matches for all edits. -/
structure Matched (edits : List Edit) : Prop where
  nonempty : ∀ edit ∈ edits, edit.normalized.oldText ≠ []
  found : ∀ edit ∈ edits, Found nfkc (baseOf nfkc content edits) edit.normalized
  apart : Apart (rangesOf nfkc content edits)

variable {nfkc content}

/-- The matches of a call that succeeds. -/
def matchesOf (nfkc : List UInt16 → List UInt16) (content : List UInt16) (edits : List Edit) :
    List MatchedEdit :=
  sortMatches ((edits.map Edit.normalized).zipIdx.map fun item =>
    matchOf nfkc (baseOf nfkc content edits) item.1 item.2)

theorem map_range_matchesOf (edits : List Edit) :
    (matchesOf nfkc content edits).map MatchedEdit.range = rangesOf nfkc content edits := by
  rw [matchesOf, map_sortMatches, map_map, rangesOf]
  have forget : (MatchedEdit.range ∘ fun item : Edit × Nat =>
      matchOf nfkc (baseOf nfkc content edits) item.1 item.2) =
        (rangeOf nfkc (baseOf nfkc content edits)) ∘ Prod.fst := rfl
  rw [forget, ← map_map, zipIdx_map_fst, map_map]
  rfl

variable {path : String}

theorem matchEdits_ok {edits : List Edit} {matched : List MatchedEdit} :
    matchEdits nfkc content edits path = .ok matched ↔
      Matched nfkc content edits ∧ matched = matchesOf nfkc content edits := by
  let normalized := edits.map Edit.normalized
  have every : ∀ {P : Edit → Prop}, (∀ edit ∈ normalized, P edit) ↔
      ∀ edit ∈ edits, P edit.normalized := forall_mem_map
  rw [matchEdits]
  cases empty : findEmptyOldText path normalized.length 0 normalized with
  | some message =>
    refine iff_of_false nofun fun ⟨holds, _⟩ => ?_
    rw [findEmptyOldText_none.mpr (every.mpr holds.nonempty)] at empty
    cases empty
  | none =>
    have nonempty := every.mp (findEmptyOldText_none.mp empty)
    dsimp only
    cases found : findMatches nfkc path normalized.length
        (replacementBase nfkc content normalized) 0 normalized with
    | error message =>
      refine iff_of_false nofun fun ⟨holds, _⟩ => ?_
      have succeeds : findMatches nfkc path normalized.length
          (replacementBase nfkc content normalized) 0 normalized = .ok _ :=
        (findMatches_ok nfkc _).mpr ⟨every.mpr holds.found, rfl⟩
      rw [found] at succeeds
      cases succeeds
    | ok all =>
      obtain ⟨isFound, same⟩ := (findMatches_ok nfkc _).mp found
      have sorted : sortMatches all = matchesOf nfkc content edits := by
        rw [same]
        rfl
      dsimp only
      rw [sorted]
      cases overlap : findOverlap path (matchesOf nfkc content edits) with
      | some message =>
        refine iff_of_false nofun fun ⟨holds, _⟩ => ?_
        rw [findOverlap_none.mpr (map_range_matchesOf edits ▸ holds.apart)] at overlap
        cases overlap
      | none =>
        have apart := findOverlap_none.mp overlap
        rw [map_range_matchesOf] at apart
        constructor
        · intro equal
          cases equal
          exact ⟨⟨nonempty, every.mp isFound, apart⟩, rfl⟩
        · rintro ⟨-, rfl⟩
          rfl

def rewrite (nfkc : List UInt16 → List UInt16) (content : List UInt16) (edits : List Edit) :
    Except String (List UInt16) :=
  if Fuzzy nfkc content edits then
    applyReplacementsPreservingUnchangedLines content (baseOf nfkc content edits)
      (rangesOf nfkc content edits)
  else .ok (applyReplacements (baseOf nfkc content edits) (rangesOf nfkc content edits) 0)

theorem applyEdits_ok {edits : List Edit} {result : AppliedEditsResult} :
    applyEditsToNormalizedContent nfkc content edits path = .ok result ↔
      Matched nfkc content edits ∧ result.baseContent = content ∧
        rewrite nfkc content edits = .ok result.newContent ∧ content ≠ result.newContent := by
  rw [applyEditsToNormalizedContent]
  dsimp only
  cases matched : matchEdits nfkc content edits path with
  | error message =>
    refine iff_of_false (fun same => by cases same) ?_
    rintro ⟨holds, -⟩
    rw [matchEdits_ok.mpr ⟨holds, rfl⟩] at matched
    cases matched
  | ok matches_ =>
    obtain ⟨holds, rfl⟩ := matchEdits_ok.mp matched
    dsimp only
    rw [map_range_matchesOf]
    split
    · rename_i message failed
      have rewritten : rewrite nfkc content edits = .error message := failed
      refine iff_of_false (fun same => by cases same) ?_
      rintro ⟨-, -, same, -⟩
      rw [rewritten] at same
      cases same
    · rename_i newContent done
      have rewritten : rewrite nfkc content edits = .ok newContent := done
      rw [rewritten]
      by_cases unchanged : content = newContent
      · rw [if_pos unchanged]
        refine iff_of_false (fun same => by cases same) ?_
        rintro ⟨-, -, ⟨⟩, changed⟩
        exact changed unchanged
      rw [if_neg unchanged]
      constructor
      · intro same
        cases same
        exact ⟨holds, rfl, rfl, unchanged⟩
      · rintro ⟨-, same, equal, -⟩
        cases equal
        cases result
        cases same
        rfl

/-! ## The order of the edits -/

theorem fuzzy_perm {edits edits' : List Edit} (perm : edits'.Perm edits) :
    usesFuzzyMatch nfkc content (edits'.map Edit.normalized) =
      usesFuzzyMatch nfkc content (edits.map Edit.normalized) :=
  (perm.map _).any_eq

theorem baseOf_perm {edits edits' : List Edit} (perm : edits'.Perm edits) :
    baseOf nfkc content edits' = baseOf nfkc content edits := by
  rw [baseOf, baseOf, replacementBase, replacementBase, fuzzy_perm perm]

theorem rangesOf_perm {edits edits' : List Edit} (perm : edits'.Perm edits)
    (apart : Apart (rangesOf nfkc content edits))
    (nonempty : ∀ range ∈ rangesOf nfkc content edits, 0 < range.length) :
    rangesOf nfkc content edits' = rangesOf nfkc content edits := by
  rw [rangesOf, baseOf_perm perm]
  refine sortReplacements_unique apart (fun range member => ?_) (perm.map _)
  exact nonempty range ((sortReplacements_perm _).mem_iff.mpr member)

/-- A call with the edits in another order does the same when no range is empty. -/
theorem applyEdits_perm {edits edits' : List Edit} (perm : edits'.Perm edits)
    {result : AppliedEditsResult}
    (applied : applyEditsToNormalizedContent nfkc content edits path = .ok result)
    (nonempty : ∀ range ∈ rangesOf nfkc content edits, 0 < range.length) :
    applyEditsToNormalizedContent nfkc content edits' path = .ok result := by
  obtain ⟨holds, same, rewritten, changed⟩ := applyEdits_ok.mp applied
  have ranges := rangesOf_perm perm holds.apart nonempty
  have base : baseOf nfkc content edits' = baseOf nfkc content edits := baseOf_perm perm
  refine applyEdits_ok.mpr ⟨⟨fun edit member => ?_, fun edit member => ?_, ?_⟩, same, ?_, changed⟩
  · exact holds.nonempty edit (perm.mem_iff.mp member)
  · rw [base]
    exact holds.found edit (perm.mem_iff.mp member)
  · rw [ranges]
    exact holds.apart
  · have fuzzy : Fuzzy nfkc content edits' ↔ Fuzzy nfkc content edits := by
      rw [Fuzzy, Fuzzy, fuzzy_perm perm]
    rw [← rewritten, rewrite, rewrite, base, ranges]
    simp only [fuzzy]

end Call

end Recode.EditDiff

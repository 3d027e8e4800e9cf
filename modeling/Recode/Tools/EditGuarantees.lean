import Recode.Tools.EditOverlay

/-! # What an edit replaces

A call that succeeds replaces the only place of each old text, unless normalising empties an old
text, occurrences overlap, or normalising hides an occurrence. -/

namespace Recode.EditDiff

open List Option

open Occurrences (OccursAt Unique Overlaps indexOf count)
open Splice (Range Ordered splice)

section Call

variable (nfkc : List UInt16 → List UInt16) (content : List UInt16) (edits : List Edit)

def patternOf (edit : Edit) : List UInt16 :=
  if Fuzzy nfkc content edits then normalizeForFuzzyMatch nfkc (normalizeToLF edit.oldText)
  else normalizeToLF edit.oldText

/-- The base text holds the old text of an edit in the range of its match. -/
structure Held (i : Nat) (edit : Edit) (matched : MatchedEdit) : Prop where
  index : matched.editIndex = i
  newText : matched.newText = normalizeToLF edit.newText
  oldText : slice (baseOf nfkc content edits) matched.range.start matched.range.stop =
      patternOf nfkc content edits edit ∨
    slice (baseOf nfkc content edits) matched.range.start matched.range.stop =
      normalizeToLF edit.oldText

/-- The matches of a call, and what it makes of the content. -/
structure Rewritten (matched : List MatchedEdit) (newContent : List UInt16) : Prop where
  length : matched.length = edits.length
  held : ∀ i edit, edits[i]? = some edit → ∃ found ∈ matched, Held nfkc content edits i edit found
  disjoint : (matched.map MatchedEdit.range).Pairwise fun before after => before.stop ≤ after.start
  exact : ¬ Fuzzy nfkc content edits →
    newContent = splice single 0 (baseOf nfkc content edits) (matched.map MatchedEdit.range)
  fuzzy : Fuzzy nfkc content edits →
    Overlaid content (baseOf nfkc content edits) (matched.map MatchedEdit.range) newContent

/-- A call replaces exactly the unique matches, in whatever order its edits are. -/
structure Replaced (path : String) (newContent : List UInt16) : Prop where
  unique : ∀ edit ∈ edits, patternOf nfkc content edits edit ≠ [] ∧
    Unique (baseOf nfkc content edits) (patternOf nfkc content edits edit)
  rewritten : ∃ matched, matchEdits nfkc content edits path = .ok matched ∧
    Rewritten nfkc content edits matched newContent
  permuted : ∀ edits' : List Edit, edits'.Perm edits →
    applyEditsToNormalizedContent nfkc content edits' path = .ok ⟨content, newContent⟩

/-- What an old text and the base text must be for the match to be the only one. -/
structure Distinct (edit : Edit) : Prop where
  /-- Normalising leaves something of the old text. -/
  blank : Fuzzy nfkc content edits → patternOf nfkc content edits edit ≠ []
  /-- No occurrence begins within another. -/
  overlapping : ¬ Overlaps (baseOf nfkc content edits) (patternOf nfkc content edits edit)
  /-- What occurs more than once does so after normalising. -/
  hidden : 1 < count (patternOf nfkc content edits edit) (baseOf nfkc content edits) →
    1 < countOccurrences nfkc (baseOf nfkc content edits) (normalizeToLF edit.oldText)
  /-- Normalising a normalised text again moves nothing that is searched. -/
  stable : Fuzzy nfkc content edits →
    if indexOf (normalizeToLF edit.oldText) (baseOf nfkc content edits) = none then
      indexOf (patternOf nfkc content edits edit)
          (normalizeForFuzzyMatch nfkc (baseOf nfkc content edits)) =
        indexOf (patternOf nfkc content edits edit) (baseOf nfkc content edits)
    else indexOf (patternOf nfkc content edits edit) (baseOf nfkc content edits) ≠ none

end Call

section Guarantees

variable {nfkc : List UInt16 → List UInt16} {content : List UInt16} {edits : List Edit}

theorem baseOf_exact (exact : ¬ Fuzzy nfkc content edits) : baseOf nfkc content edits =
    content := by
  rw [baseOf, replacementBase]
  exact if_neg exact

theorem fuzzyFindText_exact {text oldText : List UInt16} {index : Nat}
    (found : indexOf oldText text = some index) :
    fuzzyFindText nfkc text oldText = ⟨some index, oldText.length, false, text⟩ := by
  rw [fuzzyFindText, found]

theorem fuzzyFindText_fuzzy {text oldText : List UInt16} (absent : indexOf oldText text = none)
    (found : (fuzzyFindText nfkc text oldText).found = true) :
    ∃ index, indexOf (normalizeForFuzzyMatch nfkc oldText) (normalizeForFuzzyMatch nfkc text) =
        some index ∧
      fuzzyFindText nfkc text oldText = ⟨some index, (normalizeForFuzzyMatch nfkc oldText).length,
        true, normalizeForFuzzyMatch nfkc text⟩ := by
  rw [fuzzyFindText, absent] at found ⊢
  dsimp only at found ⊢
  cases place : indexOf (normalizeForFuzzyMatch nfkc oldText)
      (normalizeForFuzzyMatch nfkc text) with
  | none =>
    rw [place] at found
    cases found
  | some index => exact ⟨index, rfl, rfl⟩

variable {edit : Edit}

/-- Without the fuzzy space all old texts are found as they are. -/
theorem found_exact (exact : ¬ Fuzzy nfkc content edits) (holds : Matched nfkc content edits)
    (member : edit ∈ edits) :
    ∃ index, indexOf (normalizeToLF edit.oldText) (baseOf nfkc content edits) = some index := by
  cases place : indexOf (normalizeToLF edit.oldText) (baseOf nfkc content edits) with
  | some index => exact ⟨index, rfl⟩
  | none =>
    refine absurd ?_ exact
    obtain ⟨index, -, result⟩ := fuzzyFindText_fuzzy place (holds.found edit member).1
    refine any_eq_true.mpr ⟨edit.normalized, mem_map_of_mem member, ?_⟩
    rw [baseOf_exact exact] at result
    exact congrArg FuzzyMatchResult.usedFuzzyMatch result

theorem slice_of_occursAt {text pattern : List UInt16} {position : Nat}
    (occurs : OccursAt text pattern position) :
    slice text position (position + pattern.length) = pattern := by
  rw [slice, drop_take, Nat.add_sub_cancel_left, occurs.slice]

theorem occursAt_of_slice {text pattern : List UInt16} {start stop : Nat} (nonempty : pattern ≠ [])
    (held : slice text start stop = pattern) : OccursAt text pattern start := by
  rw [slice, drop_take] at held
  have inside : start ≤ text.length := by
    by_contra outside
    rw [drop_eq_nil_of_le (Nat.le_of_not_le outside), take_nil] at held
    exact nonempty held.symm
  have front : OccursAt (text.drop start) pattern 0 :=
    Occurrences.occursAt_zero.mpr (held ▸ take_prefix ..)
  exact (Occurrences.occursAt_drop inside).mp front

/-- The match of an edit is where its old text is, in the base text. -/
structure InPlace (nfkc : List UInt16 → List UInt16) (content : List UInt16) (edits : List Edit)
    (edit : Edit) (range : Range UInt16) : Prop where
  positive : 0 < range.length
  inside : range.stop ≤ (baseOf nfkc content edits).length
  oldText : slice (baseOf nfkc content edits) range.start range.stop =
      patternOf nfkc content edits edit ∨
    slice (baseOf nfkc content edits) range.start range.stop = normalizeToLF edit.oldText

theorem inPlace_of_occursAt {pattern : List UInt16} {index : Nat}
    (occurs : OccursAt (baseOf nfkc content edits) pattern index) (nonempty : pattern ≠ [])
    (oldText : pattern = patternOf nfkc content edits edit ∨ pattern = normalizeToLF edit.oldText) :
    InPlace nfkc content edits edit ⟨index, pattern.length, normalizeToLF edit.newText⟩ := by
  refine ⟨length_pos_iff.mpr nonempty, occurs.le_length, ?_⟩
  have held := slice_of_occursAt occurs
  exact oldText.imp (fun same => held.trans same) (fun same => held.trans same)

theorem patternOf_fuzzy (fuzzy : Fuzzy nfkc content edits) (edit : Edit) :
    patternOf nfkc content edits edit =
      normalizeForFuzzyMatch nfkc (normalizeToLF edit.oldText) :=
  if_pos fuzzy

theorem patternOf_exact (exact : ¬ Fuzzy nfkc content edits) (edit : Edit) :
    patternOf nfkc content edits edit = normalizeToLF edit.oldText :=
  if_neg exact

theorem rangeOf_eq {base : List UInt16} (edit : Edit) {result : FuzzyMatchResult}
    (found : fuzzyFindText nfkc base edit.oldText = result) :
    rangeOf nfkc base edit = ⟨result.index.getD 0, result.matchLength, edit.newText⟩ := by
  subst found
  rfl

section

variable (holds : Matched nfkc content edits) (member : edit ∈ edits)
include holds member

theorem inPlace_of_found {index : Nat}
    (place : indexOf (normalizeToLF edit.oldText) (baseOf nfkc content edits) = some index) :
    InPlace nfkc content edits edit
      (rangeOf nfkc (baseOf nfkc content edits) edit.normalized) := by
  have range : rangeOf nfkc (baseOf nfkc content edits) edit.normalized =
      ⟨index, (normalizeToLF edit.oldText).length, normalizeToLF edit.newText⟩ :=
    rangeOf_eq edit.normalized (fuzzyFindText_exact place)
  rw [range]
  exact inPlace_of_occursAt (Occurrences.indexOf_eq_some.mp place).1 (holds.nonempty edit member)
    (.inr rfl)

section

variable (distinct : Distinct nfkc content edits edit)
include distinct

/-- The place of an edit that the condition holds for, and that of its old text. -/
theorem inPlace :
    InPlace nfkc content edits edit (rangeOf nfkc (baseOf nfkc content edits) edit.normalized) ∧
      ∃ position, OccursAt (baseOf nfkc content edits) (patternOf nfkc content edits edit)
        position := by
  cases place : indexOf (normalizeToLF edit.oldText) (baseOf nfkc content edits) with
  | some index =>
    have occurs := (Occurrences.indexOf_eq_some.mp place).1
    refine ⟨inPlace_of_found holds member place, ?_⟩
    by_cases fuzzy : Fuzzy nfkc content edits
    · have stable := distinct.stable fuzzy
      rw [place, if_neg (some_ne_none index)] at stable
      obtain ⟨position, found⟩ := ne_none_iff_exists'.mp stable
      exact ⟨position, (Occurrences.indexOf_eq_some.mp found).1⟩
    · rw [patternOf_exact fuzzy]
      exact ⟨index, occurs⟩
  | none =>
    have fuzzy : Fuzzy nfkc content edits := by
      by_contra exact
      obtain ⟨index, found⟩ := found_exact exact holds member
      rw [place] at found
      cases found
    obtain ⟨index, found, result⟩ := fuzzyFindText_fuzzy place (holds.found edit member).1
    have stable := distinct.stable fuzzy
    rw [if_pos place, patternOf_fuzzy fuzzy, found] at stable
    have occurs := (Occurrences.indexOf_eq_some.mp stable.symm).1
    have range : rangeOf nfkc (baseOf nfkc content edits) edit.normalized =
        ⟨index, (normalizeForFuzzyMatch nfkc (normalizeToLF edit.oldText)).length,
          normalizeToLF edit.newText⟩ :=
      rangeOf_eq edit.normalized result
    have nonempty := distinct.blank fuzzy
    rw [patternOf_fuzzy fuzzy] at nonempty
    refine ⟨range ▸ inPlace_of_occursAt occurs nonempty (.inl (patternOf_fuzzy fuzzy edit).symm),
      index, ?_⟩
    rw [patternOf_fuzzy fuzzy]
    exact occurs

theorem patternOf_ne_nil : patternOf nfkc content edits edit ≠ [] := by
  by_cases fuzzy : Fuzzy nfkc content edits
  · exact distinct.blank fuzzy
  · rw [patternOf_exact fuzzy]
    exact holds.nonempty edit member

theorem unique_of_distinct :
    Unique (baseOf nfkc content edits) (patternOf nfkc content edits edit) := by
  rw [Occurrences.unique_iff (patternOf_ne_nil holds member distinct)]
  refine ⟨(inPlace holds member distinct).2, Nat.not_lt.mp fun many => ?_, distinct.overlapping⟩
  exact (holds.found edit member).2 (distinct.hidden many)

end

end

/-! ## The matches of a call -/

theorem mem_matchesOf {matched : MatchedEdit} : matched ∈ matchesOf nfkc content edits ↔
    ∃ i edit, edits[i]? = some edit ∧
      matched = matchOf nfkc (baseOf nfkc content edits) edit.normalized i := by
  rw [matchesOf, sortMatches, mem_mergeSort, List.mem_map]
  constructor
  · rintro ⟨item, member, rfl⟩
    have place := mem_zipIdx_iff_getElem?.mp member
    rw [getElem?_map, map_eq_some_iff] at place
    obtain ⟨edit, found, same⟩ := place
    exact ⟨item.2, edit, found, by rw [same]⟩
  · rintro ⟨i, edit, found, rfl⟩
    refine ⟨(edit.normalized, i), mem_zipIdx_iff_getElem?.mpr ?_, rfl⟩
    rw [getElem?_map, found]
    rfl

theorem length_matchesOf : (matchesOf nfkc content edits).length = edits.length := by
  rw [matchesOf, sortMatches, length_mergeSort, length_map, length_zipIdx, length_map]

theorem mem_rangesOf {range : Range UInt16} : range ∈ rangesOf nfkc content edits ↔
    ∃ edit ∈ edits, rangeOf nfkc (baseOf nfkc content edits) edit.normalized = range := by
  rw [rangesOf, (sortReplacements_perm _).mem_iff, List.mem_map]

section Placed

variable (holds : Matched nfkc content edits)
  (placed : ∀ edit ∈ edits, InPlace nfkc content edits edit
    (rangeOf nfkc (baseOf nfkc content edits) edit.normalized))

include placed

theorem ranges_inPlace : ∀ range ∈ rangesOf nfkc content edits,
    0 < range.length ∧ range.stop ≤ (baseOf nfkc content edits).length := by
  intro range member
  obtain ⟨edit, inside, rfl⟩ := mem_rangesOf.mp member
  exact ⟨(placed edit inside).positive, (placed edit inside).inside⟩

include holds

theorem ranges_ordered :
    Ordered (baseOf nfkc content edits).length 0 (rangesOf nfkc content edits) :=
  Splice.ordered_of_pairwise holds.apart
    (fun range member => ⟨Nat.zero_le _, (ranges_inPlace placed range member).2⟩)
    (Nat.zero_le _)

theorem rewrite_exact (exact : ¬ Fuzzy nfkc content edits) : rewrite nfkc content edits =
    .ok (splice single 0 (baseOf nfkc content edits) (rangesOf nfkc content edits)) := by
  rw [rewrite, if_neg exact, applyReplacements_eq]
  rw [Nat.zero_add]
  exact ranges_ordered holds placed

end Placed

section Holds

variable (holds : Matched nfkc content edits)
  (distinct : ∀ edit ∈ edits, Distinct nfkc content edits edit)

include holds distinct

theorem placed_of_distinct : ∀ edit ∈ edits, InPlace nfkc content edits edit
    (rangeOf nfkc (baseOf nfkc content edits) edit.normalized) :=
  fun edit member => (inPlace holds member (distinct edit member)).1

theorem rewritten_of_distinct {newContent : List UInt16}
    (result : rewrite nfkc content edits = .ok newContent) :
    Rewritten nfkc content edits (matchesOf nfkc content edits) newContent := by
  have placed := placed_of_distinct holds distinct
  refine ⟨length_matchesOf, fun i edit found => ?_, ?_, fun exact => ?_, fun fuzzy => ?_⟩
  · have member := mem_of_getElem? found
    exact ⟨_, mem_matchesOf.mpr ⟨i, edit, found, rfl⟩, rfl, rfl, (placed edit member).oldText⟩
  · rw [map_range_matchesOf]
    exact holds.apart
  · rw [rewrite_exact holds placed exact] at result
    cases result
    rw [map_range_matchesOf]
  · rw [rewrite, if_pos fuzzy] at result
    rw [map_range_matchesOf]
    have same : sortReplacements (rangesOf nfkc content edits) = rangesOf nfkc content edits :=
      sortReplacements_idem _
    have apart := holds.apart
    rw [← same] at apart
    have written := overlaid apart
      (fun range member => (ranges_inPlace placed range member).1) result
    rwa [same] at written

theorem replaced_of_distinct {path : String} {result : AppliedEditsResult}
    (applied : applyEditsToNormalizedContent nfkc content edits path = .ok result) :
    Replaced nfkc content edits path result.newContent := by
  obtain ⟨-, same, written, -⟩ := applyEdits_ok.mp applied
  have placed := placed_of_distinct holds distinct
  refine ⟨fun edit member => ?_, ⟨_, matchEdits_ok.mpr ⟨holds, rfl⟩,
    rewritten_of_distinct holds distinct written⟩, fun edits' perm => ?_⟩
  · exact ⟨patternOf_ne_nil holds member (distinct edit member),
      unique_of_distinct holds member (distinct edit member)⟩
  · rw [applyEdits_perm perm applied
      (fun range member => (ranges_inPlace placed range member).1), ← same]

end Holds

/-- A call that replaces the unique matches meets the condition. -/
theorem distinct_of_replaced {path : String} {newContent : List UInt16}
    (replaced : Replaced nfkc content edits path newContent)
    (member : edit ∈ edits) : Distinct nfkc content edits edit := by
  obtain ⟨nonempty, unique⟩ := replaced.unique edit member
  obtain ⟨⟨position, occurs⟩, few, apart⟩ := (Occurrences.unique_iff nonempty).mp unique
  refine ⟨fun _ => nonempty, apart, fun many => absurd many (Nat.not_lt.mpr few), fun fuzzy => ?_⟩
  have some_place : indexOf (patternOf nfkc content edits edit)
      (baseOf nfkc content edits) ≠ none :=
    fun none_ => Occurrences.indexOf_eq_none.mp none_ position occurs
  by_cases absent : indexOf (normalizeToLF edit.oldText) (baseOf nfkc content edits) = none
  · rw [if_pos absent]
    obtain ⟨matched, result, rewritten⟩ := replaced.rewritten
    obtain ⟨holds, rfl⟩ := matchEdits_ok.mp result
    obtain ⟨i, place⟩ := mem_iff_getElem?.mp member
    obtain ⟨found, inside, held⟩ := rewritten.held i edit place
    obtain ⟨j, other, place', rfl⟩ := mem_matchesOf.mp inside
    obtain rfl : j = i := held.index
    rw [place, some_inj] at place'
    subst place'
    obtain ⟨index, first, same⟩ := fuzzyFindText_fuzzy absent (holds.found edit member).1
    have range : (matchOf nfkc (baseOf nfkc content edits) edit.normalized j).range =
        ⟨index, (normalizeForFuzzyMatch nfkc (normalizeToLF edit.oldText)).length,
          normalizeToLF edit.newText⟩ :=
      rangeOf_eq edit.normalized same
    have oldText := held.oldText
    rw [range] at oldText
    rcases oldText with here | exact_
    · have found := occursAt_of_slice nonempty here
      obtain ⟨only, all⟩ := unique
      obtain rfl : index = only := (all index).mp found
      rw [patternOf_fuzzy fuzzy] at all ⊢
      exact first.trans (Occurrences.indexOf_of_unique all).symm
    · have found := occursAt_of_slice (holds.nonempty edit member) exact_
      exact absurd found (Occurrences.indexOf_eq_none.mp absent index)
  · rw [if_neg absent]
    exact some_place

/-! ## A call of the tool -/

def contentOf (file : List UInt8) : List UInt16 :=
  normalizeToLF (stripBom (Utf16.encode (Utf8.decode file))).2

theorem execute_error {path : String} {file : List UInt8} {message : String}
    (fails : applyEditsToNormalizedContent nfkc (contentOf file) edits path = .error message) :
    ∃ message, execute nfkc path edits file = ⟨file, .error message⟩ := by
  rw [execute]
  by_cases empty : edits.length = 0
  · rw [if_pos empty]
    exact ⟨_, rfl⟩
  · rw [if_neg empty]
    dsimp only
    rw [← contentOf, fails]
    exact ⟨message, rfl⟩

end Guarantees

/-- A call that returns replaces the unique matches if and only if each old text is distinct, and
where it throws nothing is written. -/
theorem applyEdits_replaces (nfkc : List UInt16 → List UInt16) (edits : List Edit) (path : String) :
    (∀ content result, applyEditsToNormalizedContent nfkc content edits path = .ok result →
      (Replaced nfkc content edits path result.newContent ↔
        ∀ edit ∈ edits, Distinct nfkc content edits edit)) ∧
    ∀ file message, applyEditsToNormalizedContent nfkc (contentOf file) edits path =
        .error message →
      ∃ message, execute nfkc path edits file = ⟨file, .error message⟩ := by
  refine ⟨fun content result applied => ⟨fun replaced edit member => ?_, fun distinct => ?_⟩,
    fun file message fails => execute_error fails⟩
  · exact distinct_of_replaced replaced member
  · exact replaced_of_distinct (applyEdits_ok.mp applied).1 distinct applied

theorem applyEdits_single {nfkc : List UInt16 → List UInt16} {content newContent : List UInt16}
    {edit : Edit} (path : String) (nonempty : edit.normalized.oldText ≠ [])
    (exact : ¬ Fuzzy nfkc content [edit])
    (found : Found nfkc (baseOf nfkc content [edit]) edit.normalized)
    (result : applyReplacements (baseOf nfkc content [edit])
      [rangeOf nfkc (baseOf nfkc content [edit]) edit.normalized] 0 = newContent)
    (changed : content ≠ newContent) :
    applyEditsToNormalizedContent nfkc content [edit] path = .ok ⟨content, newContent⟩ := by
  have ranges : rangesOf nfkc content [edit] =
      [rangeOf nfkc (baseOf nfkc content [edit]) edit.normalized] :=
    mergeSort_singleton _
  refine applyEdits_ok.mpr ⟨⟨?_, ?_, ?_⟩, rfl, ?_, changed⟩
  · exact fun other member => mem_singleton.mp member ▸ nonempty
  · exact fun other member => mem_singleton.mp member ▸ found
  · rw [ranges]
    exact pairwise_singleton ..
  · rw [rewrite, if_neg exact, ranges, result]

/-- A quotation mark that is found after normalising and a letter are replaced. -/
theorem applyEdits_replaces_quote :
    Replaced id [0x2019, newline, 98] [⟨[0x27], [120]⟩, ⟨[98], [99]⟩] "notes"
      [120, newline, 99] := by
  have ranges : rangesOf id [0x2019, newline, 98] [⟨[0x27], [120]⟩, ⟨[98], [99]⟩] =
      [⟨0, 1, [120]⟩, ⟨2, 1, [99]⟩] := (mergeSort_of_pairwise (by decide)).trans (by decide)
  have applied : applyEditsToNormalizedContent id [0x2019, newline, 98]
      [⟨[0x27], [120]⟩, ⟨[98], [99]⟩] "notes" =
        .ok ⟨[0x2019, newline, 98], [120, newline, 99]⟩ := by
    refine applyEdits_ok.mpr ⟨⟨by decide, ?_, ?_⟩, rfl, ?_, by decide⟩
    · exact forall_mem_cons.mpr ⟨⟨by decide, by decide⟩,
        forall_mem_singleton.mpr ⟨by decide, by decide⟩⟩
    · rw [ranges, Apart]
      decide
    · rw [rewrite, if_pos (by decide), ranges, applyReplacementsPreservingUnchangedLines,
        sortReplacements, mergeSort_of_pairwise (by decide)]
      decide
  refine ((applyEdits_replaces id _ "notes").1 _ _ applied).mpr fun edit member => ?_
  have apart {text pattern : List UInt16} (one : pattern.length = 1) : ¬ Overlaps text pattern := by
    rintro ⟨first, second, -, -, before, after⟩
    omega
  rcases mem_cons.mp member with rfl | member
  · exact ⟨by decide, apart (by decide), by decide, by decide⟩
  · obtain rfl := mem_singleton.mp member
    exact ⟨by decide, apart (by decide), by decide, by decide⟩

/-- Of two occurrences that overlap the first one is replaced. -/
theorem overlapping_accepted :
    applyEditsToNormalizedContent id [97, 97, 97] [⟨[97, 97], [98]⟩] "notes" =
        .ok ⟨[97, 97, 97], [98, 97]⟩ ∧
      OccursAt [97, 97, 97] [97, 97] 0 ∧ OccursAt [97, 97, 97] [97, 97] 1 :=
  ⟨applyEdits_single "notes" (by decide) (by decide) ⟨by decide, by decide⟩ (by decide) (by decide),
    ⟨[], [97], rfl, rfl⟩, ⟨[97], [], rfl, rfl⟩⟩

end Recode.EditDiff

import Recode.Tools.EditMatches

/-! # Writing back lines

In the fuzzy space only the lines that a range touches are written from the normalised text. Lines
that are touched one after the other are rewritten as one text. -/

namespace Recode.EditDiff

open List Option

open Splice (Range Ordered splice)

/-! ## Lines and offsets -/

def lineStart (lines : List (List UInt16)) (i : Nat) : Nat := (lines.take i).flatten.length

theorem flatten_splitLinesWithEndings (content : List UInt16) :
    (splitLinesWithEndings content).flatten = content := by
  induction content with
  | nil => rfl
  | cons unit content ih =>
    rw [splitLinesWithEndings]
    by_cases ends : unit = newline
    · rw [if_pos ends, flatten_cons, ih]
      rfl
    rw [if_neg ends]
    cases lines : splitLinesWithEndings content with
    | nil =>
      rw [lines] at ih
      rw [← ih]
      rfl
    | cons line lines' =>
      rw [lines] at ih
      rw [← ih]
      rfl

theorem length_spansFrom (offset : Nat) (lines : List (List UInt16)) :
    (spansFrom offset lines).length = lines.length := by
  induction lines generalizing offset with
  | nil => rfl
  | cons line lines ih => rw [spansFrom, length_cons, length_cons, ih]

theorem lineStart_zero (lines : List (List UInt16)) : lineStart lines 0 = 0 := rfl

theorem lineStart_cons (line : List UInt16) (lines : List (List UInt16)) (i : Nat) :
    lineStart (line :: lines) (i + 1) = line.length + lineStart lines i := by
  rw [lineStart, take_succ_cons, flatten_cons, length_append, lineStart]

theorem spansFrom_getElem {offset : Nat} {lines : List (List UInt16)} {i : Nat}
    (inside : i < lines.length) : (spansFrom offset lines)[i]? =
      some ⟨offset + lineStart lines i, offset + lineStart lines (i + 1)⟩ := by
  induction lines generalizing offset i with
  | nil => cases inside
  | cons line lines ih =>
    rw [spansFrom]
    cases i with
    | zero =>
      rw [getElem?_cons_zero, lineStart_zero, lineStart_cons, lineStart_zero]
      rfl
    | succ i =>
      rw [getElem?_cons_succ, ih (Nat.lt_of_succ_lt_succ inside), lineStart_cons,
        lineStart_cons, Nat.add_assoc, Nat.add_assoc]

section Lines

variable (content : List UInt16)

abbrev startOf (i : Nat) : Nat := lineStart (splitLinesWithEndings content) i

variable {content}

theorem startOf_le {i j : Nat} (le : i ≤ j) : startOf content i ≤ startOf content j := by
  have split := take_add (l := splitLinesWithEndings content) (i := i) (j := j - i)
  rw [Nat.add_sub_cancel' le] at split
  rw [startOf, startOf, lineStart, lineStart, split, flatten_append, length_append]
  exact Nat.le_add_right ..

theorem startOf_all : startOf content (splitLinesWithEndings content).length = content.length := by
  rw [startOf, lineStart, take_length, flatten_splitLinesWithEndings]

theorem le_of_startOf_lt {i j : Nat} (less : startOf content i < startOf content j) : i < j := by
  by_contra other
  exact Nat.not_lt.mpr (startOf_le (Nat.not_lt.mp other)) less

variable (content)

theorem length_getLineSpans :
    (getLineSpans content).length = (splitLinesWithEndings content).length :=
  length_spansFrom ..

theorem getLineSpans_getElem {i : Nat} (inside : i < (splitLinesWithEndings content).length) :
    (getLineSpans content)[i]? = some ⟨startOf content i, startOf content (i + 1)⟩ := by
  rw [getLineSpans, spansFrom_getElem inside, Nat.zero_add, Nat.zero_add]

end Lines

/-- A range shares a unit with a line. -/
def Touches (content : List UInt16) (range : Range UInt16) (i : Nat) : Prop :=
  range.start < startOf content (i + 1) ∧ startOf content i < range.stop

/-- The lines that a range touches. -/
structure LineRange (content : List UInt16) (range : Range UInt16) (startLine endLine : Nat) :
    Prop where
  nonempty : startLine < endLine
  inside : endLine ≤ (splitLinesWithEndings content).length
  starts : startOf content startLine ≤ range.start
  stops : range.stop ≤ startOf content endLine
  touches : ∀ i, startLine ≤ i → i < endLine → Touches content range i

variable {content : List UInt16} {originalLines : List (List UInt16)} {ranges : List (Range UInt16)}
  {startLine endLine : Nat} {range : Range UInt16} {groups : List Group}

theorem getReplacementLineRange_spec (positive : 0 < range.length)
    (found : getReplacementLineRange (getLineSpans content) range = .ok (startLine, endLine)) :
    LineRange content range startLine endLine := by
  have longer : range.start < range.stop := Nat.lt_add_of_pos_right positive
  rw [getReplacementLineRange] at found
  cases first : (getLineSpans content).findIdx? fun line =>
      range.start ≥ line.start && range.start < line.stop with
  | none =>
    rw [first] at found
    cases found
  | some start =>
    rw [first] at found
    dsimp only at found
    cases last : ((getLineSpans content).drop start).findIdx? fun line =>
        !decide (line.stop < range.stop) with
    | none =>
      rw [last] at found
      cases found
    | some more =>
      rw [last] at found
      cases found
      obtain ⟨inside, here, -⟩ := findIdx?_eq_some_iff_getElem.mp first
      obtain ⟨within, ends, before⟩ := findIdx?_eq_some_iff_getElem.mp last
      rw [length_drop] at within
      have total := length_getLineSpans content
      have span : ∀ i (small : i < (getLineSpans content).length),
          (getLineSpans content)[i] = ⟨startOf content i, startOf content (i + 1)⟩ := by
        intro i small
        have at_ := getLineSpans_getElem content (total ▸ small)
        rwa [getElem?_eq_getElem small, some_inj] at at_
      rw [span] at here
      rw [getElem_drop, span] at ends
      simp only [Bool.and_eq_true, decide_eq_true_eq] at here
      simp only [Bool.not_eq_true', decide_eq_false_iff_not, Nat.not_lt] at ends
      refine ⟨by omega, by omega, here.1, ends, fun i from_ upTo => ⟨?_, ?_⟩⟩
      · exact Nat.lt_of_lt_of_le here.2 (startOf_le (Nat.succ_le_succ from_))
      · rcases Nat.eq_or_lt_of_le from_ with same | later
        · rw [← same]
          exact Nat.lt_of_le_of_lt here.1 longer
        have previous := before (i - 1 - startLine) (by omega)
        rw [getElem_drop, span] at previous
        simp only [Bool.not_eq_true', decide_eq_false_iff_not, Nat.not_lt, Nat.not_le]
          at previous
        have place : startLine + (i - 1 - startLine) + 1 = i := by omega
        rwa [place] at previous

/-! ## Groups of lines -/

/-- A group holds its replacements, and each of its lines is touched by one. -/
structure GroupOf (content : List UInt16) (group : Group) : Prop where
  nonempty : group.startLine < group.endLine
  inside : group.endLine ≤ (splitLinesWithEndings content).length
  within : ∀ range ∈ group.replacements, startOf content group.startLine ≤ range.start ∧
    range.stop ≤ startOf content group.endLine
  touched : ∀ i, group.startLine ≤ i → i < group.endLine →
    ∃ range ∈ group.replacements, Touches content range i

/-- The groups of ranges, in order. -/
structure Grouped (content : List UInt16) (ranges : List (Range UInt16)) (groups : List Group) :
    Prop where
  each : ∀ group ∈ groups, GroupOf content group
  ordered : groups.Pairwise fun before after => before.endLine ≤ after.startLine
  all : groups.flatMap Group.replacements = ranges

theorem LineRange.group (touched : LineRange content range startLine endLine) :
    GroupOf content ⟨startLine, endLine, [range]⟩ := by
  refine ⟨touched.nonempty, touched.inside, fun other member => ?_, fun i from_ upTo => ?_⟩
  · rw [mem_singleton.mp member]
    exact ⟨touched.starts, touched.stops⟩
  · exact ⟨range, mem_singleton_self _, touched.touches i from_ upTo⟩

/-- A group that takes in a range that begins in its lines. -/
theorem GroupOf.extend {group : Group} (good : GroupOf content group)
    (touched : LineRange content range startLine endLine) (after : group.startLine ≤ startLine)
    (shared : startLine < group.endLine) :
    GroupOf content { group with
      endLine := max group.endLine endLine
      replacements := group.replacements ++ [range] } := by
  refine ⟨Nat.lt_of_lt_of_le good.nonempty (Nat.le_max_left ..),
    Nat.max_le.mpr ⟨good.inside, touched.inside⟩, fun other member => ?_, fun i from_ upTo => ?_⟩
  · rcases mem_append.mp member with old | new
    · obtain ⟨starts, stops⟩ := good.within other old
      exact ⟨starts, Nat.le_trans stops (startOf_le (Nat.le_max_left ..))⟩
    · rw [mem_singleton.mp new]
      exact ⟨Nat.le_trans (startOf_le after) touched.starts,
        Nat.le_trans touched.stops (startOf_le (Nat.le_max_right ..))⟩
  · by_cases old : i < group.endLine
    · obtain ⟨other, member, touches⟩ := good.touched i from_ old
      exact ⟨other, mem_append_left _ member, touches⟩
    · have new : i < max group.endLine endLine := upTo
      exact ⟨range, mem_append_right _ (mem_singleton_self _),
        touched.touches i (by omega) (by omega)⟩

/-- What the loop over the ranges keeps: the groups so far, the newest one first. -/
structure GroupsSoFar (content : List UInt16) (groups : List Group) (rest : List (Range UInt16)) :
    Prop where
  each : ∀ group ∈ groups, GroupOf content group
  ordered : groups.Pairwise fun after before => before.endLine ≤ after.startLine
  later : ∀ group ∈ groups, ∀ range ∈ rest, startOf content group.startLine ≤ range.start

theorem GroupsSoFar.push (sofar : GroupsSoFar content groups (range :: ranges))
    (touched : LineRange content range startLine endLine)
    (after : ∀ group ∈ groups, group.endLine ≤ startLine)
    (before : ∀ other ∈ ranges, range.start ≤ other.start) :
    GroupsSoFar content (⟨startLine, endLine, [range]⟩ :: groups) ranges := by
  refine ⟨forall_mem_cons.mpr ⟨touched.group, sofar.each⟩,
    pairwise_cons.mpr ⟨after, sofar.ordered⟩, forall_mem_cons.mpr ⟨?_, ?_⟩⟩
  · exact fun other member => Nat.le_trans touched.starts (before other member)
  · exact fun group member other later =>
      sofar.later group member other (mem_cons_of_mem _ later)

theorem GroupsSoFar.extend {current : Group}
    (sofar : GroupsSoFar content (current :: groups) (range :: ranges))
    (touched : LineRange content range startLine endLine) (after : current.startLine ≤ startLine)
    (shared : startLine < current.endLine) :
    GroupsSoFar content ({ current with
      endLine := max current.endLine endLine
      replacements := current.replacements ++ [range] } :: groups) ranges := by
  obtain ⟨here, each⟩ := forall_mem_cons.mp sofar.each
  obtain ⟨starts, later⟩ := forall_mem_cons.mp sofar.later
  refine ⟨forall_mem_cons.mpr ⟨here.extend touched after shared, each⟩, ?_,
    forall_mem_cons.mpr ⟨?_, ?_⟩⟩
  · exact pairwise_cons.mpr (pairwise_cons.mp sofar.ordered)
  · exact fun other member => starts other (mem_cons_of_mem _ member)
  · exact fun group member other more => later group member other (mem_cons_of_mem _ more)

theorem groupReplacements_spec {groups result : List Group}
    (sofar : GroupsSoFar content groups ranges)
    (apart : Apart ranges) (positive : ∀ range ∈ ranges, 0 < range.length)
    (grouped : groupReplacements (getLineSpans content) groups ranges = .ok result) :
    Grouped content (groups.reverse.flatMap Group.replacements ++ ranges) result := by
  induction ranges generalizing groups with
  | nil =>
    cases grouped
    refine ⟨fun group member => sofar.each group (mem_reverse.mp member),
      pairwise_reverse.mpr sofar.ordered, (append_nil _).symm⟩
  | cons range ranges ih =>
    obtain ⟨before, apart'⟩ := pairwise_cons.mp apart
    obtain ⟨here, positive'⟩ := forall_mem_cons.mp positive
    have before' : ∀ other ∈ ranges, range.start ≤ other.start := fun other member =>
      Nat.le_trans (Nat.le_add_right ..) (before other member)
    rw [groupReplacements] at grouped
    cases lines : getReplacementLineRange (getLineSpans content) range with
    | error message =>
      rw [lines] at grouped
      cases grouped
    | ok found =>
      obtain ⟨startLine, endLine⟩ := found
      have touched := getReplacementLineRange_spec here lines
      rw [lines] at grouped
      dsimp only at grouped
      cases groups with
      | nil =>
        have none_ : ∀ group ∈ ([] : List Group), group.endLine ≤ startLine :=
          nofun
        exact ih (sofar.push touched none_ before') apart' positive' grouped
      | cons current groups =>
        dsimp only at grouped
        have starts := sofar.later current mem_cons_self range mem_cons_self
        have start := (touched.touches startLine (Nat.le_refl _) touched.nonempty).1
        have after : current.startLine ≤ startLine :=
          Nat.le_of_lt_succ (le_of_startOf_lt (Nat.lt_of_le_of_lt starts start))
        by_cases shared : startLine < current.endLine
        · rw [if_pos shared] at grouped
          have result := ih (sofar.extend touched after shared) apart' positive' grouped
          simp only [reverse_cons, flatMap_append, flatMap_singleton, append_assoc] at result ⊢
          exact result
        rw [if_neg shared] at grouped
        have earlier : ∀ group ∈ current :: groups, group.endLine ≤ startLine := by
          intro group member
          rcases mem_cons.mp member with rfl | old
          · exact Nat.not_lt.mp shared
          · exact Nat.le_trans ((pairwise_cons.mp sofar.ordered).1 group old) after
        have result := ih (sofar.push touched earlier before') apart' positive' grouped
        simp only [reverse_cons, flatMap_append, flatMap_singleton, append_assoc] at result ⊢
        exact result

/-! ## The text that is written -/

/-- The lines written from an original line on: groups from the base content, and the lines between
them from the original. -/
def assembled (originalLines : List (List UInt16)) (baseContent : List UInt16) :
    Nat → List Group → List UInt16
  | originalLineIndex, [] => (originalLines.drop originalLineIndex).flatten
  | originalLineIndex, group :: groups =>
    (slice originalLines originalLineIndex group.startLine).flatten ++
      (splice single (startOf baseContent group.startLine)
        (slice baseContent (startOf baseContent group.startLine)
          (startOf baseContent group.endLine)) group.replacements ++
        assembled originalLines baseContent group.endLine groups)

theorem GroupOf.ordered {group : Group} (good : GroupOf content group)
    (apart : Apart group.replacements) :
    Ordered (startOf content group.endLine) (startOf content group.startLine) group.replacements :=
  Splice.ordered_of_pairwise apart good.within (startOf_le good.nonempty.le)

theorem length_slice {i j : Nat} (le : i ≤ j)
    (inside : j ≤ (splitLinesWithEndings content).length) :
    startOf content i + (slice content (startOf content i) (startOf content j)).length =
      startOf content j := by
  have upTo : startOf content j ≤ content.length := by
    rw [← startOf_all]
    exact startOf_le inside
  have front : startOf content i ≤ startOf content j := startOf_le le
  rw [slice, length_drop, length_take]
  omega

theorem overlayGroups_eq {content : List UInt16} (grouped : Grouped content ranges groups)
    (apart : Apart ranges) (originalLineIndex : Nat) :
    overlayGroups originalLines (getLineSpans content) content originalLineIndex groups =
      assembled originalLines content originalLineIndex groups := by
  induction groups generalizing originalLineIndex ranges with
  | nil => rfl
  | cons group groups ih =>
    obtain ⟨here, each⟩ := forall_mem_cons.mp grouped.each
    have ordered := (pairwise_cons.mp grouped.ordered).2
    have all := grouped.all
    rw [flatMap_cons] at all
    rw [← all, Apart, pairwise_append] at apart
    have first := getLineSpans_getElem content
      (Nat.lt_of_lt_of_le here.nonempty here.inside)
    have positive : 0 < group.endLine := Nat.zero_lt_of_lt here.nonempty
    have last := getLineSpans_getElem content
      (Nat.lt_of_lt_of_le (Nat.sub_lt positive Nat.one_pos) here.inside)
    rw [Nat.sub_add_cancel positive] at last
    rw [overlayGroups, first, last, assembled, ih ⟨each, ordered, rfl⟩ apart.2.1]
    simp only [map_some, getD_some]
    rw [applyReplacements_eq]
    rw [length_slice here.nonempty.le here.inside]
    exact here.ordered apart.1

theorem slice_append {Item : Type} (items : List Item) {start middle stop : Nat}
    (first : start ≤ middle) (second : middle ≤ stop) :
    slice items start stop = slice items start middle ++ slice items middle stop := by
  have length : stop - start = (middle - start) + (stop - middle) := by omega
  rw [slice, slice, slice, drop_take, drop_take, drop_take, length, take_add,
    drop_drop, Nat.add_sub_cancel' first]

theorem GroupOf.append {group next : Group} (good : GroupOf content group)
    (goodNext : GroupOf content next) (adjacent : group.endLine = next.startLine) :
    GroupOf content
      ⟨group.startLine, next.endLine, group.replacements ++ next.replacements⟩ := by
  have nonempty := good.nonempty
  have before : group.endLine ≤ next.endLine := adjacent ▸ goodNext.nonempty.le
  have after : group.startLine ≤ next.startLine := adjacent ▸ good.nonempty.le
  refine ⟨Nat.lt_of_lt_of_le nonempty before, goodNext.inside, fun range member => ?_,
    fun i from_ upTo => ?_⟩
  · rcases mem_append.mp member with old | new
    · obtain ⟨starts, stops⟩ := good.within range old
      exact ⟨starts, Nat.le_trans stops (startOf_le before)⟩
    · obtain ⟨starts, stops⟩ := goodNext.within range new
      exact ⟨Nat.le_trans (startOf_le after) starts, stops⟩
  · by_cases old : i < group.endLine
    · obtain ⟨range, member, touches⟩ := good.touched i from_ old
      exact ⟨range, mem_append_left _ member, touches⟩
    · obtain ⟨range, member, touches⟩ := goodNext.touched i (by omega) upTo
      exact ⟨range, mem_append_right _ member, touches⟩

theorem assembled_merge {content : List UInt16} {group next : Group} (good : GroupOf content group)
    (goodNext : GroupOf content next) (apart : Apart (group.replacements ++ next.replacements))
    (adjacent : group.endLine = next.startLine) (groups : List Group) (originalLineIndex : Nat) :
    assembled originalLines content originalLineIndex
        (⟨group.startLine, next.endLine, group.replacements ++ next.replacements⟩ :: groups) =
      assembled originalLines content originalLineIndex (group :: next :: groups) := by
  obtain ⟨apartGroup, apartNext, -⟩ := pairwise_append.mp apart
  have length := length_slice good.nonempty.le good.inside
  have ordered := good.ordered apartGroup
  have orderedNext := goodNext.ordered apartNext
  rw [← length] at ordered
  rw [← adjacent, ← length] at orderedNext
  have none_ : slice originalLines group.endLine group.endLine = [] := by
    rw [slice, drop_eq_nil_iff, length_take]
    exact Nat.min_le_left ..
  have le : startOf content group.endLine ≤ startOf content next.endLine := by
    rw [adjacent]
    exact startOf_le goodNext.nonempty.le
  have whole : slice content (startOf content group.startLine) (startOf content next.endLine) =
      slice content (startOf content group.startLine) (startOf content group.endLine) ++
        slice content (startOf content group.endLine) (startOf content next.endLine) :=
    slice_append content (startOf_le good.nonempty.le) le
  have joined : splice single (startOf content group.startLine)
      (slice content (startOf content group.startLine) (startOf content group.endLine) ++
        slice content (startOf content group.endLine) (startOf content next.endLine))
      (group.replacements ++ next.replacements) = _ :=
    Splice.splice_append _ _ ordered orderedNext
  rw [length] at joined
  simp only [assembled]
  rw [whole, joined, ← adjacent, none_]
  simp only [flatten_nil, nil_append, append_assoc]

theorem exists_separate {content : List UInt16} (grouped : Grouped content ranges groups)
    (apart : Apart ranges) :
    ∃ separate : List Group, Grouped content ranges separate ∧
      separate.Pairwise (fun before after => before.endLine < after.startLine) ∧
      (separate.head?.map Group.startLine = groups.head?.map Group.startLine) ∧
      ∀ originalLineIndex, assembled originalLines content originalLineIndex separate =
        assembled originalLines content originalLineIndex groups := by
  induction groups generalizing ranges with
  | nil => exact ⟨[], grouped, List.Pairwise.nil, rfl, fun _ => rfl⟩
  | cons group groups ih =>
    obtain ⟨here, each⟩ := forall_mem_cons.mp grouped.each
    obtain ⟨before, ordered⟩ := pairwise_cons.mp grouped.ordered
    have all := grouped.all
    rw [flatMap_cons] at all
    subst all
    have apart' := pairwise_append.mp apart
    obtain ⟨separate, good, strict, first, same⟩ := ih ⟨each, ordered, rfl⟩ apart'.2.1
    cases separate with
    | nil =>
      have empty : groups = [] := by
        cases groups with
        | nil => rfl
        | cons next groups => cases first
      subst empty
      exact ⟨[group], grouped, pairwise_singleton .., rfl, fun _ => rfl⟩
    | cons next separate =>
      obtain ⟨hereNext, eachNext⟩ := forall_mem_cons.mp good.each
      obtain ⟨beforeNext, strictNext⟩ := pairwise_cons.mp strict
      have le : group.endLine ≤ next.startLine := by
        cases groups with
        | nil => cases first
        | cons old groups =>
          rw [head?_cons, head?_cons, map_some, map_some, some_inj] at first
          rw [first]
          exact before old mem_cons_self
      have rest : next.replacements ++ separate.flatMap Group.replacements =
          groups.flatMap Group.replacements := good.all
      by_cases adjacent : group.endLine = next.startLine
      · refine ⟨⟨group.startLine, next.endLine, group.replacements ++ next.replacements⟩ ::
          separate, ⟨?_, ?_, ?_⟩, ?_, rfl, fun originalLineIndex => ?_⟩
        · exact forall_mem_cons.mpr ⟨here.append hereNext adjacent, eachNext⟩
        · exact pairwise_cons.mpr (pairwise_cons.mp good.ordered)
        · rw [flatMap_cons, append_assoc, rest]
        · exact pairwise_cons.mpr ⟨beforeNext, strictNext⟩
        · have both : Apart (group.replacements ++ next.replacements) := by
            rw [← rest, ← append_assoc] at apart
            exact (pairwise_append.mp apart).1
          rw [assembled_merge here hereNext both adjacent, assembled, same, assembled]
      · have less : group.endLine < next.startLine := Nat.lt_of_le_of_ne le adjacent
        have separated : ∀ other ∈ next :: separate, group.endLine < other.startLine := by
          intro other member
          rcases mem_cons.mp member with rfl | later
          · exact less
          · exact Nat.lt_trans less
              (Nat.lt_trans hereNext.nonempty (beforeNext other later))
        refine ⟨group :: next :: separate, ⟨?_, ?_, ?_⟩, ?_, rfl, fun originalLineIndex => ?_⟩
        · exact forall_mem_cons.mpr ⟨here, good.each⟩
        · exact pairwise_cons.mpr
            ⟨fun other member => Nat.le_of_lt (separated other member), good.ordered⟩
        · rw [flatMap_cons, good.all]
        · exact pairwise_cons.mpr ⟨separated, strict⟩
        · rw [assembled, same, assembled]

theorem Grouped.touched_iff (grouped : Grouped content ranges groups) (i : Nat) :
    (∃ range ∈ ranges, Touches content range i) ↔
      ∃ group ∈ groups, group.startLine ≤ i ∧ i < group.endLine := by
  constructor
  · rintro ⟨range, member, starts, stops⟩
    rw [← grouped.all] at member
    obtain ⟨group, inside, held⟩ := mem_flatMap.mp member
    have within := (grouped.each group inside).within range held
    refine ⟨group, inside, ?_, le_of_startOf_lt (Nat.lt_of_lt_of_le stops within.2)⟩
    exact Nat.le_of_lt_succ (le_of_startOf_lt (Nat.lt_of_le_of_lt within.1 starts))
  · rintro ⟨group, inside, from_, upTo⟩
    obtain ⟨range, held, touches⟩ := (grouped.each group inside).touched i from_ upTo
    refine ⟨range, ?_, touches⟩
    rw [← grouped.all]
    exact mem_flatMap.mpr ⟨group, inside, held⟩

/-- Text over the lines of another text of as many lines: lines that no range touches are those of
the original, and every maximal group of touched lines is that of the base with its ranges
replaced. -/
structure Overlaid (originalContent baseContent : List UInt16) (ranges : List (Range UInt16))
    (newContent : List UInt16) : Prop where
  lines : (splitLinesWithEndings originalContent).length =
    (splitLinesWithEndings baseContent).length
  groups : ∃ groups : List Group, groups.flatMap Group.replacements = ranges ∧
    (∀ group ∈ groups, group.endLine ≤ (splitLinesWithEndings baseContent).length ∧
      ∀ range ∈ group.replacements, startOf baseContent group.startLine ≤ range.start ∧
        range.stop ≤ startOf baseContent group.endLine) ∧
    groups.Pairwise (fun before after => before.endLine < after.startLine) ∧
    (∀ i, (∃ range ∈ ranges, Touches baseContent range i) ↔
      ∃ group ∈ groups, group.startLine ≤ i ∧ i < group.endLine) ∧ newContent =
      assembled (splitLinesWithEndings originalContent) baseContent 0 groups

theorem overlaid {originalContent baseContent newContent : List UInt16}
    (apart : Apart (sortReplacements ranges)) (positive : ∀ range ∈ ranges, 0 < range.length)
    (written : applyReplacementsPreservingUnchangedLines originalContent baseContent ranges =
      .ok newContent) :
    Overlaid originalContent baseContent (sortReplacements ranges) newContent := by
  rw [applyReplacementsPreservingUnchangedLines] at written
  by_cases different : (splitLinesWithEndings originalContent).length ≠
      (getLineSpans baseContent).length
  · rw [if_pos different] at written
    cases written
  · rw [if_neg different] at written
    rw [length_getLineSpans, not_not] at different
    cases grouped : groupReplacements (getLineSpans baseContent) [] (sortReplacements ranges) with
    | error message =>
      rw [grouped] at written
      cases written
    | ok groups =>
      rw [grouped] at written
      cases written
      have start : GroupsSoFar baseContent [] (sortReplacements ranges) :=
        ⟨nofun, List.Pairwise.nil, nofun⟩
      have positive' : ∀ range ∈ sortReplacements ranges, 0 < range.length :=
        fun range member => positive range ((sortReplacements_perm ranges).mem_iff.mp member)
      have good : Grouped baseContent (sortReplacements ranges) groups :=
        groupReplacements_spec start apart positive' grouped
      obtain ⟨separate, goodSeparate, strict, -, same⟩ := exists_separate good apart
      refine ⟨different, separate, goodSeparate.all, fun group member => ?_, strict,
        goodSeparate.touched_iff, ?_⟩
      · have each := goodSeparate.each group member
        exact ⟨each.inside, each.within⟩
      · rw [overlayGroups_eq good apart, same]

end Recode.EditDiff

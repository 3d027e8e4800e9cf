import Mathlib.Tactic.IntervalCases
import Recode.CodingAgent.Compaction
import Recode.Compaction.Budget

/-! # The cut of the coding agent

What the cut keeps stays below the budget where a valid cut point allows it, and no more is
dropped than that takes. The turn that the cut splits is the one of the first entry that is kept
and seen. On plain conversations the harness cuts alike. -/

namespace Recode.CodingAgent

open Recode List Option CutRules

def isVisible (entry : SessionTreeEntry) : Bool := !(sessionEntryToContextMessages entry).isEmpty

def rangeTokens (entries : List SessionTreeEntry) (first last : Nat) : Nat :=
  ((((entries.take last).drop first).flatMap sessionEntryToContextMessages).map estimateTokens).sum

/-- What a cut keeps, from the first entry that is seen. -/
structure KeptFrom (entries : List SessionTreeEntry) (startIndex endIndex budget : Nat)
    (cut : CutPointResult) (first : Nat) : Prop where
  inRange : startIndex ≤ cut.firstKeptEntryIndex ∧ cut.firstKeptEntryIndex ≤ first ∧
    first < endIndex
  visible : entries[first]?.any isVisible = true
  silent : ∀ i, cut.firstKeptEntryIndex ≤ i → i < first → entries[i]?.any isVisible = false
  /-- The messages after the first one stay below the budget. When they do so behind no valid cut
  point, the first valid cut point is taken. -/
  below : rangeTokens entries (first + 1) endIndex < budget ∨
    ∀ other ∈ cutRules.findValidCutPoints entries startIndex endIndex,
      first ≤ other ∧ budget ≤ rangeTokens entries (other + 1) endIndex
  /-- Behind an older valid cut point they would not. -/
  oldest : ∀ other ∈ cutRules.findValidCutPoints entries startIndex endIndex, other < first →
    budget ≤ rangeTokens entries (other + 1) endIndex
  /-- When the budget is reached at a valid cut point, what is kept reaches it. -/
  enough : ∀ reached ∈ cutRules.findValidCutPoints entries startIndex endIndex,
    rangeTokens entries (reached + 1) endIndex < budget →
      budget ≤ rangeTokens entries reached endIndex →
        budget ≤ rangeTokens entries cut.firstKeptEntryIndex endIndex
  /-- The turn of the first entry is split when it began before. -/
  turn : (entries[first]?.any isTurnStartEntry = true → cut.firstKeptEntryIndex = first) →
    (cut.isSplitTurn = true ↔ entries[first]?.any isTurnStartEntry = false ∧
      ∃ earlier, startIndex ≤ earlier ∧ earlier < first ∧
        entries[earlier]?.any isTurnStartEntry = true) ∧
    ∀ turnStart, cut.turnStartIndex = some turnStart ↔
      entries[first]?.any isTurnStartEntry = false ∧
        cutRules.LatestTurnStart entries startIndex first turnStart

/-- An entry of a plain conversation: a message of the user, the model or a tool, or an entry
without messages. -/
def isPlain (entry : SessionTreeEntry) : Bool :=
  match entry.body with
  | .message (.user _ _) => true
  | .message (.assistant _) => true
  | .message (.toolResult _ _ _ _ _ _) => true
  | .message _ => false
  | .compaction _ => false
  | .branchSummary _ => false
  | .customMessage _ _ _ _ => false
  | _ => true

theorem staysBefore_eq : cutRules.staysBefore = isVisible := by
  funext ⟨id, parentId, timestamp, body⟩
  cases body with
  | compaction data => rfl
  | _ => rfl

theorem visible_of_any {entry : SessionTreeEntry} {property : AgentMessage → Bool}
    (shows : (sessionEntryToContextMessages entry).any property = true) :
    isVisible entry = true := by
  rw [isVisible]
  cases messages : sessionEntryToContextMessages entry with
  | nil =>
    rw [messages] at shows
    cases shows
  | cons message messages => rfl

theorem visible_of_isTurnStart {entry : SessionTreeEntry} (starts : isTurnStartEntry entry = true) :
    isVisible entry = true := by
  rw [isTurnStartEntry, Bool.and_eq_true] at starts
  exact visible_of_any starts.2

theorem visible_of_isCutPoint {entry : Option SessionTreeEntry}
    (valid : entry.any cutRules.isCutPoint = true) : entry.any isVisible = true := by
  cases entry with
  | none => cases valid
  | some entry =>
    change (_ && _) = true at valid
    rw [Bool.and_eq_true] at valid
    exact visible_of_any valid.2

section Tokens

variable {entries : List SessionTreeEntry}

theorem tokens_getD (entry : SessionTreeEntry) : (cutRules.tokens entry).getD 0 =
    ((sessionEntryToContextMessages entry).map estimateTokens).sum := by
  change Option.getD (ite _ _ _) 0 = _
  split
  · rename_i nothing
    exact nothing.symm
  · rfl

theorem tokensBetween_eq (first last : Nat) :
    cutRules.tokensBetween entries first last = rangeTokens entries first last := by
  induction length : last - first generalizing first with
  | zero =>
    have past : last ≤ first := Nat.le_of_sub_eq_zero length
    rw [tokensBetween_of_le past, rangeTokens,
      drop_eq_nil_of_le (Nat.le_trans (length_take_le _ _) past)]
    rfl
  | succ length ih =>
    rw [tokensBetween_step (by omega), ih (first + 1) (by omega), charge]
    by_cases inside : first < entries.length
    · have short : first < (entries.take last).length := by
        rw [length_take]
        omega
      rw [getElem?_eq_getElem inside, bind_some, tokens_getD, rangeTokens,
        rangeTokens, drop_eq_getElem_cons short, flatMap_cons, map_append,
        sum_append, getElem_take]
    · have past : (entries.take last).length ≤ first :=
        Nat.le_trans (length_take_le' _ _) (Nat.le_of_not_lt inside)
      rw [getElem?_eq_none (Nat.le_of_not_lt inside), rangeTokens, rangeTokens,
        drop_eq_nil_of_le past, drop_eq_nil_of_le (Nat.le_succ_of_le past)]
      rfl

theorem findCutPoint_positive (startIndex endIndex keepRecentTokens : Nat) :
    findCutPoint entries startIndex endIndex keepRecentTokens =
      findCutPoint entries startIndex endIndex (max keepRecentTokens 1) := by
  have counts (indices : List Nat) (accumulatedTokens : Nat) :
      cutRules.budgetIndex entries 0 indices accumulatedTokens =
        cutRules.budgetIndex entries 1 indices accumulatedTokens := by
    induction indices generalizing accumulatedTokens with
    | nil => rfl
    | cons i older ih =>
      rw [budgetIndex, budgetIndex]
      cases charged : entries[i]?.bind cutRules.tokens with
      | none => exact ih accumulatedTokens
      | some messageTokens =>
        have positive : 0 < messageTokens := by
          obtain ⟨entry, -, tokens⟩ := bind_eq_some_iff.mp charged
          change ite _ _ _ = _ at tokens
          split at tokens
          · cases tokens
          · cases tokens
            exact Nat.pos_of_ne_zero (by assumption)
        simp only [if_pos (Nat.zero_le _ : accumulatedTokens + messageTokens ≥ 0),
          if_pos (by omega : accumulatedTokens + messageTokens ≥ 1)]
  cases keepRecentTokens with
  | zero =>
    unfold findCutPoint CutRules.findCutPoint budgetCut
    simp only [counts, Nat.zero_max]
  | succ tokens => rw [Nat.max_eq_left (Nat.succ_le_succ (Nat.zero_le tokens))]

end Tokens

section Cut

variable {entries : List SessionTreeEntry} {startIndex endIndex : Nat} {kept first : Nat}

theorem no_turnStart (silent : ∀ i, kept ≤ i → i < first → entries[i]?.any isVisible = false)
    (starts : entries[first]?.any isTurnStartEntry = false) :
    ∀ i, kept ≤ i → i ≤ first → entries[i]?.any isTurnStartEntry = false := by
  intro i behind before
  rcases Nat.lt_or_eq_of_le before with inside | same
  · have unseen := silent i behind inside
    cases found : entries[i]? with
    | none => rfl
    | some entry =>
      rw [found, any_some] at unseen
      rw [any_some, Bool.eq_false_iff]
      intro begins
      exact Bool.false_ne_true (unseen.symm.trans (visible_of_isTurnStart begins))
  · exact same ▸ starts

theorem latestTurnStart_iff (inRange : kept ≤ first)
    (quiet : ∀ i, kept ≤ i → i ≤ first → entries[i]?.any isTurnStartEntry = false)
    (turnStart : Nat) :
    cutRules.LatestTurnStart entries startIndex (kept + 1) turnStart ↔
      cutRules.LatestTurnStart entries startIndex first turnStart := by
  constructor
  · intro latest
    have before : turnStart < first := by
      by_contra late
      have inside := latest.inRange
      have none := quiet turnStart (by omega) (by omega)
      exact Bool.false_ne_true (none.symm.trans latest.starts)
    refine ⟨⟨latest.inRange.1, before⟩, latest.starts, ?_⟩
    intro i later inside
    by_cases old : i < kept + 1
    · exact latest.latest i later old
    · exact quiet i (by omega) (Nat.le_of_lt inside)
  · intro latest
    have before : turnStart < kept := by
      by_contra late
      have none := quiet turnStart (Nat.le_of_not_lt late) (Nat.le_of_lt latest.inRange.2)
      exact Bool.false_ne_true (none.symm.trans latest.starts)
    refine ⟨⟨latest.inRange.1, Nat.lt_succ_of_lt before⟩, latest.starts, ?_⟩
    intro i later inside
    rcases Nat.lt_or_eq_of_le (Nat.le_trans (Nat.le_of_lt_succ inside) inRange) with old | same
    · exact latest.latest i later old
    · exact quiet i (by omega) (Nat.le_of_eq same)

/-- Without an entry that moves the cut off the beginning of a turn, the cut splits the turn of
the first entry that is seen. -/
theorem splits_iff (inRange : startIndex ≤ kept ∧ kept ≤ first)
    (silent : ∀ i, kept ≤ i → i < first → entries[i]?.any isVisible = false)
    (together : entries[first]?.any isTurnStartEntry = true → kept = first) (turnStart : Nat) :
    (entries[kept]?.any isTurnStartEntry = false ∧
        cutRules.findTurnStartIndex entries kept startIndex = some turnStart) ↔
      entries[first]?.any isTurnStartEntry = false ∧
        cutRules.LatestTurnStart entries startIndex first turnStart := by
  have found : cutRules.findTurnStartIndex entries kept startIndex = some turnStart ↔
      cutRules.LatestTurnStart entries startIndex (kept + 1) turnStart :=
    find?_indices_reverse (Nat.le_succ_of_le inRange.1)
  rw [found]
  cases starts : entries[first]?.any isTurnStartEntry with
  | true =>
    obtain rfl := together starts
    rw [starts]
    simp only [Bool.true_eq_false, false_and]
  | false =>
    have quiet := no_turnStart silent starts
    rw [latestTurnStart_iff inRange.2 quiet, quiet kept (Nat.le_refl kept) inRange.2]

theorem cutRules_plain {entry : SessionTreeEntry} (plain : isPlain entry = true) :
    AgentHarness.cutRules.isCutPoint entry = cutRules.isCutPoint entry ∧
      (AgentHarness.cutRules.tokens entry).getD 0 = (cutRules.tokens entry).getD 0 ∧
      AgentHarness.cutRules.staysBefore entry = cutRules.staysBefore entry ∧
      AgentHarness.cutRules.isWholeTurn entry = cutRules.isWholeTurn entry ∧
      AgentHarness.cutRules.isTurnStart entry = cutRules.isTurnStart entry := by
  rw [tokens_getD]
  obtain ⟨id, parentId, timestamp, body⟩ := entry
  cases body with
  | message message =>
    cases message with
    | user content time => exact ⟨rfl, (Nat.add_zero _).symm, rfl, rfl, rfl⟩
    | assistant answer => exact ⟨rfl, (Nat.add_zero _).symm, rfl, rfl, rfl⟩
    | toolResult toolCallId toolName content details isError time =>
      exact ⟨rfl, (Nat.add_zero _).symm, rfl, rfl, rfl⟩
    | _ => cases plain
  | compaction data => cases plain
  | branchSummary data => cases plain
  | customMessage customType content display details => cases plain
  | _ => exact ⟨rfl, rfl, rfl, rfl, rfl⟩

theorem agreeOn_plain
    (plain : ∀ i, startIndex ≤ i → i < endIndex → entries[i]?.all isPlain = true) :
    AgentHarness.cutRules.AgreeOn entries cutRules startIndex endIndex := by
  have each {first second : SessionTreeEntry → Bool}
      (same : ∀ entry, isPlain entry = true → first entry = second entry) :
      ∀ i, startIndex ≤ i → i < endIndex → entries[i]?.any first = entries[i]?.any second := by
    intro i after before
    have here := plain i after before
    cases found : entries[i]? with
    | none => rfl
    | some entry =>
      rw [found] at here
      exact same entry here
  refine ⟨each fun _ simple => (cutRules_plain simple).1, ?_,
    each fun _ simple => (cutRules_plain simple).2.2.1,
    each fun _ simple => (cutRules_plain simple).2.2.2.1,
    each fun _ simple => (cutRules_plain simple).2.2.2.2⟩
  intro i after before
  have here := plain i after before
  unfold charge
  cases found : entries[i]? with
  | none => rfl
  | some entry =>
    rw [found] at here
    exact (cutRules_plain here).2.1

theorem result_of_cut {kept : Nat} {cut : CutPointResult}
    (found : cut = if entries[kept]?.any cutRules.isWholeTurn then ⟨kept, none, false⟩
      else ⟨kept, cutRules.findTurnStartIndex entries kept startIndex,
        (cutRules.findTurnStartIndex entries kept startIndex).isSome⟩) :
    cut.firstKeptEntryIndex = kept ∧ (∀ turnStart, cut.turnStartIndex = some turnStart ↔
        entries[kept]?.any cutRules.isWholeTurn = false ∧
          cutRules.findTurnStartIndex entries kept startIndex = some turnStart) ∧
      cut.isSplitTurn = cut.turnStartIndex.isSome := by
  subst found
  cases whole : entries[kept]?.any cutRules.isWholeTurn with
  | true =>
    rw [if_pos rfl]
    refine ⟨rfl, fun turnStart => ?_, rfl⟩
    simp only [Bool.true_eq_false, false_and, reduceCtorEq]
  | false =>
    rw [if_neg Bool.false_ne_true]
    exact ⟨rfl, fun turnStart => (and_iff_right rfl).symm, rfl⟩

theorem keptFrom_of_cut {budget first : Nat} {cut : CutPointResult}
    (atBudget : cutRules.AtBudget entries startIndex endIndex budget first) (found : cut =
      if entries[cutRules.includeMetadata entries startIndex first]?.any cutRules.isWholeTurn then
        ⟨cutRules.includeMetadata entries startIndex first, none, false⟩
      else
        ⟨cutRules.includeMetadata entries startIndex first, cutRules.findTurnStartIndex entries
            (cutRules.includeMetadata entries startIndex first) startIndex,
          (cutRules.findTurnStartIndex entries
            (cutRules.includeMetadata entries startIndex first) startIndex).isSome⟩) :
    KeptFrom entries startIndex endIndex budget cut first := by
  have valid := atBudget.valid
  rw [findValidCutPoints, mem_filter, mem_indices] at valid
  have bounds := includeMetadata_bounds cutRules entries valid.1.1
  have silent := includeMetadata_silent cutRules entries startIndex first
  rw [staysBefore_eq] at silent
  have below := atBudget.below
  have oldest := atBudget.oldest
  simp only [tokensBetween_eq] at below oldest
  obtain ⟨kept, turnStarts, split⟩ := result_of_cut found
  refine ⟨?_, visible_of_isCutPoint valid.2, ?_, below, oldest, ?_, ?_⟩
  · rw [kept]
    exact ⟨bounds.1, bounds.2, valid.1.2⟩
  · rw [kept]
    exact silent
  · intro reached member short full
    have behind : first ≤ reached := by
      by_contra older
      have enough := oldest reached member (Nat.lt_of_not_le older)
      omega
    rw [kept, ← tokensBetween_eq]
    rw [← tokensBetween_eq] at full
    exact Nat.le_trans full (tokensBetween_anti (Nat.le_trans bounds.2 behind))
  · intro together
    rw [kept] at together
    have splits : ∀ turnStart, _ ↔ _ := fun turnStart =>
      (turnStarts turnStart).trans (splits_iff bounds silent together turnStart)
    refine ⟨?_, splits⟩
    rw [split, isSome_iff_exists, exists_congr splits, exists_and_left]
    exact and_congr_right' (exists_latestTurnStart_iff valid.1.1)

theorem inside_of_cutPoints
    (points : cutRules.findValidCutPoints entries startIndex endIndex ≠ []) :
    startIndex ≤ endIndex := by
  obtain ⟨point, member⟩ := exists_mem_of_ne_nil _ points
  rw [findValidCutPoints, mem_filter, mem_indices] at member
  omega

theorem exists_keptFrom (keepRecentTokens : Nat)
    (points : cutRules.findValidCutPoints entries startIndex endIndex ≠ []) :
    ∃ first, cutRules.AtBudget entries startIndex endIndex (max keepRecentTokens 1) first ∧
      KeptFrom entries startIndex endIndex (max keepRecentTokens 1)
        (findCutPoint entries startIndex endIndex keepRecentTokens) first := by
  rw [findCutPoint_positive]
  obtain ⟨first, atBudget, cut⟩ := findCutPoint_spec (inside_of_cutPoints points)
    (Nat.lt_of_lt_of_le Nat.one_pos (Nat.le_max_right keepRecentTokens 1)) points
  exact ⟨first, atBudget, keptFrom_of_cut atBudget cut⟩

end Cut

section Example

def longResult : List SessionTreeEntry :=
  [⟨.nth 'm' 1, none, 1, .message (.user (.text "read") 1)⟩, ⟨.nth 'm' 2, some (.nth 'm' 1), 2,
      .message (.assistant { textAnswer "" with content := [.toolCall "t1" "read" []] })⟩,
    ⟨.nth 'm' 3, some (.nth 'm' 2), 3,
      .message (.toolResult "t1" "read" [.text "0123456789ab" none] none false 3)⟩,
    ⟨.nth 'm' 4, some (.nth 'm' 3), 4, .message (.user (.text "bye") 4)⟩]

def askedAndRan : List SessionTreeEntry :=
  [⟨.nth 'm' 1, none, 1, .message (.user (.text "list") 1)⟩, ⟨.nth 'm' 2, some (.nth 'm' 1), 2,
      .message (.bashExecution ⟨"ls", "", some 0, false, false, none, 2, false⟩)⟩]

end Example

end Recode.CodingAgent

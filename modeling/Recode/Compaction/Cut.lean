import Recode.Session.Context

/-! # Cut points

Compaction keeps the recent end of a branch and summarizes what lies before. The
cut is found by counting estimated tokens back from the newest entry, moved to a
valid cut point, and moved further back over entries that carry no message. Two
implementations differ in what they count, where they may cut, what a turn begins
with and what stops the last step; they share the search. -/

namespace Recode

open List

/-- What the implementations of the cut search differ in. -/
structure CutRules where
  /-- The entry is a valid cut point. -/
  isCutPoint : SessionTreeEntry → Bool
  /-- The tokens the entry is charged with, when the search looks at it at all. -/
  tokens : SessionTreeEntry → Option Nat
  /-- The entry is not moved behind the cut. -/
  staysBefore : SessionTreeEntry → Bool
  /-- A cut at the entry does not split a turn. -/
  isWholeTurn : SessionTreeEntry → Bool
  /-- A turn begins at the entry. -/
  isTurnStart : SessionTreeEntry → Bool

/-- Where to cut. The turn start is only set when the cut splits a turn. -/
structure CutPointResult where
  firstKeptEntryIndex : Nat
  turnStartIndex : Option Nat
  isSplitTurn : Bool
deriving DecidableEq

namespace CutRules

variable (rules : CutRules) (entries : List SessionTreeEntry)

/-- The indices of a range, in order. -/
def indices (startIndex endIndex : Nat) : List Nat :=
  range' startIndex (endIndex - startIndex)

def findValidCutPoints (startIndex endIndex : Nat) : List Nat :=
  (indices startIndex endIndex).filter fun i => entries[i]?.any rules.isCutPoint

def findTurnStartIndex (entryIndex startIndex : Nat) : Option Nat :=
  (indices startIndex (entryIndex + 1)).reverse.find? fun i => entries[i]?.any rules.isTurnStart

/-- The index at which the tokens counted so far reach the budget. -/
def budgetIndex (keepRecentTokens : Nat) : List Nat → Nat → Option Nat
  | [], _ => none
  | i :: older, accumulatedTokens =>
    match entries[i]?.bind rules.tokens with
    | none => budgetIndex keepRecentTokens older accumulatedTokens
    | some messageTokens =>
      if accumulatedTokens + messageTokens ≥ keepRecentTokens then some i
      else budgetIndex keepRecentTokens older (accumulatedTokens + messageTokens)

/-- Move the cut back over entries that need not stay before it. -/
def includeMetadata (startIndex : Nat) : Nat → Nat
  | 0 => 0
  | previous + 1 =>
    if previous + 1 ≤ startIndex then previous + 1
    else if entries[previous]?.any rules.staysBefore then previous + 1
    else includeMetadata startIndex previous

def budgetCut (cutPoints : List Nat) (first startIndex endIndex keepRecentTokens : Nat) : Nat :=
  match budgetIndex rules entries keepRecentTokens (indices startIndex endIndex).reverse 0 with
  | none => first
  | some i => (cutPoints.find? fun cutPoint => cutPoint ≥ i).getD first

/-- Find the cut that keeps approximately the requested number of recent tokens. -/
def findCutPoint (startIndex endIndex keepRecentTokens : Nat) : CutPointResult :=
  match findValidCutPoints rules entries startIndex endIndex with
  | [] => ⟨startIndex, none, false⟩
  | first :: rest =>
    let cutIndex := includeMetadata rules entries startIndex
      (budgetCut rules entries (first :: rest) first startIndex endIndex keepRecentTokens)
    if entries[cutIndex]?.any rules.isWholeTurn then ⟨cutIndex, none, false⟩
    else
      let turnStartIndex := findTurnStartIndex rules entries cutIndex startIndex
      ⟨cutIndex, turnStartIndex, turnStartIndex.isSome⟩

variable {rules entries}

theorem mem_indices {startIndex endIndex i : Nat} :
    i ∈ indices startIndex endIndex ↔ startIndex ≤ i ∧ i < endIndex := by
  rw [indices, mem_range'_1]
  omega

variable (rules entries) in
theorem includeMetadata_bounds {startIndex cutIndex : Nat} (inside : startIndex ≤ cutIndex) :
    startIndex ≤ includeMetadata rules entries startIndex cutIndex ∧
      includeMetadata rules entries startIndex cutIndex ≤ cutIndex := by
  induction cutIndex with
  | zero => exact ⟨inside, Nat.le_refl _⟩
  | succ previous ih =>
    unfold includeMetadata
    split
    · exact ⟨inside, Nat.le_refl _⟩
    · split
      · exact ⟨inside, Nat.le_refl _⟩
      · have deeper := ih (by omega)
        omega

theorem budgetCut_bounds {first : Nat} {rest : List Nat} {startIndex endIndex : Nat}
    (points : findValidCutPoints rules entries startIndex endIndex = first :: rest)
    (keepRecentTokens : Nat) :
    startIndex ≤ budgetCut rules entries (first :: rest) first startIndex endIndex
        keepRecentTokens ∧
      budgetCut rules entries (first :: rest) first startIndex endIndex keepRecentTokens <
        endIndex := by
  have inRange : ∀ cutPoint ∈ first :: rest, startIndex ≤ cutPoint ∧ cutPoint < endIndex := by
    intro cutPoint member
    rw [← points, findValidCutPoints, mem_filter, mem_indices] at member
    exact member.1
  apply inRange
  unfold budgetCut
  split
  · exact mem_cons_self
  next i _ =>
    cases found : (first :: rest).find? fun cutPoint => decide (cutPoint ≥ i) with
    | none => exact mem_cons_self
    | some cutPoint => exact mem_of_find?_eq_some found

theorem findCutPoint_bounds {startIndex endIndex : Nat} (inside : startIndex ≤ endIndex)
    (keepRecentTokens : Nat) {cut : CutPointResult}
    (found : findCutPoint rules entries startIndex endIndex keepRecentTokens = cut) :
    startIndex ≤ cut.firstKeptEntryIndex ∧ cut.firstKeptEntryIndex ≤ endIndex ∧
      (cut.isSplitTurn = true ↔ cut.turnStartIndex.isSome) ∧
      ∀ turnStart, cut.turnStartIndex = some turnStart →
        startIndex ≤ turnStart ∧ turnStart ≤ cut.firstKeptEntryIndex := by
  subst found
  unfold findCutPoint
  cases points : findValidCutPoints rules entries startIndex endIndex with
  | nil => simp [inside]
  | cons first rest =>
    have budget := budgetCut_bounds points keepRecentTokens
    have back := includeMetadata_bounds rules entries budget.1
    simp only []
    split
    · simp
      omega
    refine ⟨back.1, Nat.le_trans back.2 (Nat.le_of_lt budget.2), Iff.rfl, ?_⟩
    intro turnStart named
    have inRange := mem_of_find?_eq_some named
    rw [mem_reverse, mem_indices] at inRange
    exact ⟨inRange.1, Nat.le_of_lt_succ inRange.2⟩

end CutRules

/-- Whether a message may come first after a cut: every message but a tool's result. -/
def isCutPointMessage (message : AgentMessage) : Bool := !message.isToolResult

namespace AgentHarness

def isTurnStartEntry (entry : SessionTreeEntry) : Bool :=
  match entry.body with
  | .branchSummary _ => true
  | .customMessage _ _ _ _ => true
  | .message (.user _ _) => true
  | .message (.bashExecution _) => true
  | _ => false

/-- The harness counts the messages of message entries, cuts at messages, branch summaries and
custom messages, and moves the cut back to the entry after a message or a compaction. -/
def cutRules : CutRules where
  isCutPoint := fun entry =>
    match entry.body with
    | .message message => isCutPointMessage message
    | .branchSummary _ => true
    | .customMessage _ _ _ _ => true
    | _ => false
  tokens := fun entry => entry.message?.map estimateTokens
  staysBefore := fun entry => entry.isCompaction || entry.message?.isSome
  isWholeTurn := fun entry => entry.message?.any AgentMessage.isUser
  isTurnStart := isTurnStartEntry

def findCutPoint (entries : List SessionTreeEntry) (startIndex endIndex keepRecentTokens : Nat) :
    CutPointResult :=
  cutRules.findCutPoint entries startIndex endIndex keepRecentTokens

end AgentHarness
end Recode

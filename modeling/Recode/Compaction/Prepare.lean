import Recode.Compaction.Cut
import Recode.Compaction.FileOperations

/-! # Preparing a compaction

A branch is divided at its cut: what lies before is summarized, in two parts when
the cut splits a turn, and what lies after is kept. The part to divide begins at
the boundary of the previous compaction. Both implementations divide alike. -/

namespace Recode

open List Option SessionTreeEntry FileOperations

/-- When to compact and how much to keep. -/
structure CompactionSettings where
  enabled : Bool
  reserveTokens : Nat
  keepRecentTokens : Nat
deriving DecidableEq

/-- The default settings. -/
def defaultCompactionSettings : CompactionSettings := ⟨true, 16384, 20000⟩

/-- The inputs of a compaction. -/
structure CompactionPreparation where
  firstKeptEntryId : EntryId
  messagesToSummarize : List AgentMessage
  turnPrefixMessages : List AgentMessage
  isSplitTurn : Bool
  tokensBefore : Nat
  previousSummary : Option String
  fileOps : FileOperations
  settings : CompactionSettings

/-- What the implementations of the preparation differ in. -/
structure PreparationRules where
  cutRules : CutRules
  /-- The message an entry contributes to what is summarized and kept. -/
  getMessageFromEntryForCompaction : SessionTreeEntry → Option AgentMessage
  /-- The messages of the context before compaction. -/
  contextMessages : List SessionTreeEntry → List AgentMessage

/-- The index of the newest compaction. -/
def prevCompactionIndex (pathEntries : List SessionTreeEntry) : Option Nat :=
  (pathEntries.reverse.findIdx? isCompaction).map fun fromEnd =>
    pathEntries.length - 1 - fromEnd

def prevCompaction (pathEntries : List SessionTreeEntry) : Option CompactionData :=
  (prevCompactionIndex pathEntries).bind fun index =>
    pathEntries[index]?.bind compaction?

/-- Where the part of the branch to divide begins: at the first kept entry of the newest
compaction, or behind the compaction when that entry is not on the branch. -/
def boundaryStart (pathEntries : List SessionTreeEntry) : Nat :=
  match prevCompactionIndex pathEntries with
  | none => 0
  | some index =>
    let firstKeptEntryIndex :=
      ((prevCompaction pathEntries).bind CompactionData.firstKeptEntryId).bind fun id =>
        pathEntries.findIdx? fun entry => entry.id = id
    firstKeptEntryIndex.getD (index + 1)

namespace PreparationRules

variable (rules : PreparationRules) (pathEntries : List SessionTreeEntry)
  (settings : CompactionSettings)

def messagesBetween (startIndex endIndex : Nat) : List AgentMessage :=
  ((pathEntries.take endIndex).drop startIndex).filterMap rules.getMessageFromEntryForCompaction

def cutPoint : CutPointResult :=
  rules.cutRules.findCutPoint pathEntries (boundaryStart pathEntries) pathEntries.length
    settings.keepRecentTokens

def historyEnd (cut : CutPointResult) : Nat := cut.turnStartIndex.getD cut.firstKeptEntryIndex

/-- Divide a branch at its cut; `none` when there is no first kept entry. -/
def prepare : Option CompactionPreparation :=
  let cut := rules.cutPoint pathEntries settings
  match pathEntries[cut.firstKeptEntryIndex]? with
  | none => none
  | some firstKeptEntry =>
    let messagesToSummarize :=
      rules.messagesBetween pathEntries (boundaryStart pathEntries) (historyEnd cut)
    let turnPrefixMessages :=
      match cut.turnStartIndex with
      | none => []
      | some turnStartIndex =>
        rules.messagesBetween pathEntries turnStartIndex cut.firstKeptEntryIndex
    some
      { firstKeptEntryId := firstKeptEntry.id
        messagesToSummarize
        turnPrefixMessages
        isSplitTurn := cut.isSplitTurn
        tokensBefore := (estimateContextTokens (rules.contextMessages pathEntries)).tokens
        previousSummary := (prevCompaction pathEntries).map CompactionData.summary
        fileOps := turnPrefixMessages.foldl extractFileOpsFromMessage
          (extractFileOperations messagesToSummarize (prevCompaction pathEntries))
        settings }

end PreparationRules

/-- What went wrong in a compaction. -/
inductive CompactionErrorCode where
  | invalidSession | aborted | summarizationFailed
deriving DecidableEq

/-- A compaction error. -/
structure CompactionError where
  code : CompactionErrorCode
  message : String
deriving DecidableEq

/-- The branch has no entry to keep. -/
def CompactionError.noFirstKeptEntry : CompactionError :=
  ⟨.invalidSession, "First kept entry has no UUID - session may need migration"⟩

/-- Whether the newest entry of a branch is a compaction. -/
def endsInCompaction (pathEntries : List SessionTreeEntry) : Bool :=
  pathEntries.getLast?.any isCompaction

namespace AgentHarness

/-- The message of an entry. An empty branch summary has one here, though not in a context. -/
def getMessageFromEntry (entry : SessionTreeEntry) : Option AgentMessage :=
  match entry.body with
  | .message message => some message
  | .customMessage customType content display details =>
    some (.custom customType content display details entry.timestamp)
  | .branchSummary data => some (.branchSummary data.summary data.fromId entry.timestamp)
  | .compaction data => some (.compactionSummary data.summary data.tokensBefore entry.timestamp)
  | _ => none

def getMessageFromEntryForCompaction (entry : SessionTreeEntry) : Option AgentMessage :=
  if entry.isCompaction then none else getMessageFromEntry entry

def preparationRules : PreparationRules where
  cutRules := cutRules
  getMessageFromEntryForCompaction := getMessageFromEntryForCompaction
  contextMessages := fun pathEntries => (buildSessionContext pathEntries).messages

/-- The inputs of a compaction in the harness, with the messages it retains. -/
structure CompactionPreparation extends Recode.CompactionPreparation where
  retainedTail : List AgentMessage

/-- Prepare a compaction, unless there is nothing to compact. -/
def prepareCompaction (pathEntries : List SessionTreeEntry) (settings : CompactionSettings) :
    Except CompactionError (Option CompactionPreparation) :=
  if pathEntries = [] ∨ endsInCompaction pathEntries then .ok none
  else
    match preparationRules.prepare pathEntries settings with
    | none => .error .noFirstKeptEntry
    | some prepared =>
      .ok (some
        { prepared with
          retainedTail := preparationRules.messagesBetween pathEntries
            (preparationRules.cutPoint pathEntries settings).firstKeptEntryIndex
            pathEntries.length })

end AgentHarness

theorem prevCompactionIndex_of_split {older newer : List SessionTreeEntry}
    {compaction : SessionTreeEntry} {data : CompactionData}
    (found : compaction.compaction? = some data)
    (newest : ∀ entry ∈ newer, entry.compaction? = none) :
    prevCompactionIndex (older ++ compaction :: newer) = some older.length := by
  have none : newer.reverse.findIdx? isCompaction = none := by
    rw [findIdx?_eq_none_iff]
    intro entry member
    simp [isCompaction, newest entry (mem_reverse.mp member)]
  have here : compaction.isCompaction = true := by
    simp [isCompaction, found]
  rw [prevCompactionIndex, reverse_append, reverse_cons, append_assoc,
    findIdx?_append, none, singleton_append, findIdx?_cons, if_pos here]
  simp

theorem prevCompaction_of_split {older newer : List SessionTreeEntry}
    {compaction : SessionTreeEntry} {data : CompactionData}
    (found : compaction.compaction? = some data)
    (newest : ∀ entry ∈ newer, entry.compaction? = none) :
    prevCompaction (older ++ compaction :: newer) = some data := by
  rw [prevCompaction, prevCompactionIndex_of_split found newest]
  simp [found]

theorem prevCompactionIndex_of_none {pathEntries : List SessionTreeEntry}
    (none : ∀ entry ∈ pathEntries, entry.compaction? = none) :
    prevCompactionIndex pathEntries = Option.none := by
  rw [prevCompactionIndex, map_eq_none_iff, List.findIdx?_eq_none_iff]
  intro entry member
  simp [isCompaction, none entry (mem_reverse.mp member)]

namespace PreparationRules

variable (rules : PreparationRules) {pathEntries : List SessionTreeEntry}

theorem messagesBetween_append (pathEntries : List SessionTreeEntry) {first middle last : Nat}
    (before : first ≤ middle) (after : middle ≤ last) :
    rules.messagesBetween pathEntries first middle ++
        rules.messagesBetween pathEntries middle last =
      rules.messagesBetween pathEntries first last := by
  rw [messagesBetween, messagesBetween, messagesBetween, ← filterMap_append]
  congr 1
  have front : (pathEntries.take last).take middle = pathEntries.take middle := by
    rw [take_take, Nat.min_eq_left after]
  have back : (pathEntries.take last).drop middle =
      ((pathEntries.take last).drop first).drop (middle - first) := by
    rw [drop_drop, Nat.add_sub_cancel' before]
  rw [← front, drop_take, back, take_append_drop]

theorem boundaryStart_le (pathEntries : List SessionTreeEntry) :
    boundaryStart pathEntries ≤ pathEntries.length := by
  unfold boundaryStart
  cases newest : prevCompactionIndex pathEntries with
  | none => exact Nat.zero_le _
  | some index =>
    obtain ⟨fromEnd, found, rfl⟩ := map_eq_some_iff.mp newest
    have short := (findIdx?_eq_some_iff_findIdx_eq.mp found).1
    rw [length_reverse] at short
    cases located : ((prevCompaction pathEntries).bind CompactionData.firstKeptEntryId).bind
        fun id => pathEntries.findIdx? fun entry => entry.id = id with
    | none =>
      simp only [getD_none]
      omega
    | some start =>
      obtain ⟨id, -, found⟩ := bind_eq_some_iff.mp located
      exact Nat.le_of_lt (findIdx?_eq_some_iff_findIdx_eq.mp found).1

theorem prepare_parts {settings : CompactionSettings} {prepared : CompactionPreparation}
    (found : rules.prepare pathEntries settings = some prepared) :
    prepared.messagesToSummarize ++ prepared.turnPrefixMessages ++
        rules.messagesBetween pathEntries (rules.cutPoint pathEntries settings).firstKeptEntryIndex
          pathEntries.length = (pathEntries.drop (boundaryStart pathEntries)).filterMap
        rules.getMessageFromEntryForCompaction := by
  obtain ⟨startsBefore, endsBefore, -, turn⟩ :=
    CutRules.findCutPoint_bounds (boundaryStart_le pathEntries) settings.keepRecentTokens
      (rfl : _ = rules.cutPoint pathEntries settings)
  have whole : rules.messagesBetween pathEntries (boundaryStart pathEntries) pathEntries.length =
      (pathEntries.drop (boundaryStart pathEntries)).filterMap
        rules.getMessageFromEntryForCompaction := by
    rw [messagesBetween, take_length]
  rw [← whole, ← messagesBetween_append rules pathEntries startsBefore endsBefore]
  congr 1
  cases first : pathEntries[(rules.cutPoint pathEntries settings).firstKeptEntryIndex]? with
  | none => simp [prepare, first] at found
  | some firstKeptEntry =>
    simp only [prepare, first, some.injEq] at found
    subst found
    cases split : (rules.cutPoint pathEntries settings).turnStartIndex with
    | none => simp [historyEnd, split]
    | some turnStart =>
      obtain ⟨after, before⟩ := turn turnStart split
      simp only [historyEnd, split, getD_some]
      exact messagesBetween_append rules pathEntries after before

end PreparationRules
end Recode

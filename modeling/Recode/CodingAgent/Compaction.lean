import Recode.CodingAgent.Context
import Recode.Compaction.Summary

/-! # Compaction in the coding agent

The coding agent cuts at entries that are visible in the context, keeps what lies
behind the cut as entries, and has nothing to compact when nothing lies before it. -/

namespace Recode.CodingAgent

open Recode

def isTurnStartMessage : AgentMessage → Bool
  | .assistant _ => false
  | .toolResult _ _ _ _ _ _ => false
  | _ => true

def isTurnStartEntry (entry : SessionTreeEntry) : Bool :=
  !entry.isCompaction && (sessionEntryToContextMessages entry).any isTurnStartMessage

/-- The coding agent counts, cuts at and stops at entries by their context messages. -/
def cutRules : CutRules where
  isCutPoint := fun entry =>
    !entry.isCompaction && (sessionEntryToContextMessages entry).any isCutPointMessage
  tokens := fun entry =>
    let messageTokens := ((sessionEntryToContextMessages entry).map estimateTokens).sum
    if messageTokens = 0 then none else some messageTokens
  staysBefore := fun entry =>
    entry.isCompaction || !(sessionEntryToContextMessages entry).isEmpty
  isWholeTurn := isTurnStartEntry
  isTurnStart := isTurnStartEntry

def findCutPoint (entries : List SessionTreeEntry) (startIndex endIndex keepRecentTokens : Nat) :
    CutPointResult :=
  cutRules.findCutPoint entries startIndex endIndex keepRecentTokens

def getMessageFromEntryForCompaction (entry : SessionTreeEntry) : Option AgentMessage :=
  if entry.isCompaction then none else (sessionEntryToContextMessages entry).head?

def preparationRules : PreparationRules where
  cutRules := cutRules
  getMessageFromEntryForCompaction := getMessageFromEntryForCompaction
  contextMessages := fun pathEntries =>
    (buildSessionContext pathEntries .unspecified (buildEntryIndex pathEntries)).messages

def prepareCompaction (pathEntries : List SessionTreeEntry) (settings : CompactionSettings) :
    Option CompactionPreparation :=
  if endsInCompaction pathEntries then none
  else
    (preparationRules.prepare pathEntries settings).filter fun prepared =>
      !(prepared.messagesToSummarize.isEmpty && prepared.turnPrefixMessages.isEmpty)

/-- The text of an answer, unless it failed. An aborted answer counts with what it has. -/
def readAnswer (what : String) (answer : AssistantMessage) : Except String (String × Usage) :=
  match answer.stopReason with
  | .error =>
    .error (what ++ " failed: " ++ (Text.truthy answer.errorMessage).getD "Unknown error")
  | _ => .ok (assistantText answer, answer.usage)

/-- The result of a compaction in the coding agent. -/
structure CompactionResult where
  summary : String
  firstKeptEntryId : EntryId
  tokensBefore : Nat
  usage : Option Usage
  details : Option Json

/-- Generate the summary of a prepared compaction. -/
def compact (summarize : SummarizationRequest → AssistantMessage) (options : SummaryOptions)
    (preparation : CompactionPreparation) :
    List SummarizationRequest × Except String CompactionResult :=
  let (requests, result) := summarizePreparation readAnswer summarize options preparation
  (requests, result.map fun result =>
    { summary := result.summary
      firstKeptEntryId := preparation.firstKeptEntryId
      tokensBefore := preparation.tokensBefore
      usage := some result.usage
      details := some result.details })

end Recode.CodingAgent

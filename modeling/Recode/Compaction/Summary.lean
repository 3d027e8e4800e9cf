import Recode.Compaction.Prepare

/-! # Summarizing

The requests a compaction sends to a model, and the summary it makes of the
answers. The model is an arbitrary function from requests to answers. -/

namespace Recode

open FileOperations Text

/-- The messages a model accepts. -/
inductive LlmMessage where
  | user (content : InputContent) (timestamp : Nat)
  | assistant (message : AssistantMessage)
  | toolResult (toolCallId toolName : String) (content : List InputBlock)
      (details : Option Json) (isError : Bool) (timestamp : Nat)

/-- The text of a command the user ran. -/
def bashExecutionToText (message : BashExecutionMessage) : String :=
  "Ran `" ++ message.command ++ "`\n" ++
    (if message.output ≠ "" then "```\n" ++ message.output ++ "\n```" else "(no output)") ++
    (if message.cancelled then "\n\n(command cancelled)"
      else
        match message.exitCode with
        | none => ""
        | some code =>
          if code ≠ 0 then "\n\nCommand exited with code " ++ toString code else "") ++
    (match message.truncated, truthy message.fullOutputPath with
      | true, some path => "\n\n[Output truncated. Full output: " ++ path ++ "]"
      | _, _ => "")

def compactionSummaryPrefix : String :=
  "The conversation history before this point was compacted into the following summary:\n\n" ++
    "<summary>\n"

def compactionSummarySuffix : String := "\n</summary>"

def branchSummaryPrefix : String :=
  "The following is a summary of a branch that this conversation came back from:\n\n<summary>\n"

def branchSummarySuffix : String := "</summary>"

def textContent (text : String) : InputContent := .blocks [.text text none]

/-- The message a model sees for an agent message. -/
def toLlm : AgentMessage → Option LlmMessage
  | .bashExecution message =>
    if message.excludeFromContext then none
    else some (.user (textContent (bashExecutionToText message)) message.timestamp)
  | .custom _ content _ _ timestamp =>
    match content with
    | .text text => some (.user (textContent text) timestamp)
    | .blocks blocks => some (.user (.blocks blocks) timestamp)
  | .branchSummary summary _ timestamp =>
    some (.user (textContent (branchSummaryPrefix ++ summary ++ branchSummarySuffix)) timestamp)
  | .compactionSummary summary _ timestamp =>
    some (.user (textContent (compactionSummaryPrefix ++ summary ++ compactionSummarySuffix))
      timestamp)
  | .user content timestamp => some (.user content timestamp)
  | .assistant message => some (.assistant message)
  | .toolResult toolCallId toolName content details isError timestamp =>
    some (.toolResult toolCallId toolName content details isError timestamp)

def convertToLlm (messages : List AgentMessage) : List LlmMessage := messages.filterMap toLlm

def inputTexts (blocks : List InputBlock) : List String :=
  blocks.filterMap fun
    | .text text _ => some text
    | .image _ _ => none

def inputText : InputContent → String
  | .text text => text
  | .blocks blocks => joinWith "" (inputTexts blocks)

def assistantTexts (blocks : List AssistantBlock) : List String :=
  blocks.filterMap fun
    | .text text _ => some text
    | _ => none

def assistantText (message : AssistantMessage) : String :=
  joinWith "\n" (assistantTexts message.content)

def toolResultMaxChars : Nat := 2000

def truncateForSummary (text : String) (maxChars : Nat) : String :=
  if utf16Length text ≤ maxChars then text
  else
    sliceFront text maxChars ++ "\n\n[... " ++
      toString (utf16Length text - maxChars) ++ " more characters truncated]"

def toolCallText (name : String) (arguments : List (String × Json)) : String :=
  name ++ "(" ++ joinWith ", " (arguments.map fun argument =>
    argument.1 ++ "=" ++ String.ofList argument.2.stringify) ++ ")"

def messageParts : LlmMessage → List String
  | .user content _ =>
    let text := inputText content
    if text ≠ "" then ["[User]: " ++ text] else []
  | .assistant message =>
    let thinkingParts := message.content.filterMap fun
      | .thinking thinking _ _ => some thinking
      | _ => none
    let toolCalls := message.content.filterMap fun
      | .toolCall _ name arguments => some (toolCallText name arguments)
      | _ => none
    (if thinkingParts = [] then []
      else ["[Assistant thinking]: " ++ joinWith "\n" thinkingParts]) ++
    (if assistantTexts message.content = [] then []
      else ["[Assistant]: " ++ assistantText message]) ++ (if toolCalls = [] then []
      else ["[Assistant tool calls]: " ++ joinWith "; " toolCalls])
  | .toolResult _ _ content _ _ _ =>
    let text := joinWith "" (inputTexts content)
    if text ≠ "" then ["[Tool result]: " ++ truncateForSummary text toolResultMaxChars] else []

def serializeConversation (messages : List LlmMessage) : String :=
  joinWith "\n\n" (messages.flatMap messageParts)

def summarizationSystemPrompt : String :=
  "You are a context summarization assistant. Your task is to read a conversation between a " ++
  "user and an AI assistant, then produce a structured summary following the exact format " ++
  "specified.\n\nDo NOT continue the conversation. Do NOT respond to any questions in the " ++
  "conversation. ONLY output the structured summary."

def summarizationPrompt : String :=
  "The messages above are a conversation to summarize. Create a structured context checkpoint " ++
  "summary that another LLM will use to continue the work.\n\n" ++ "Use this EXACT format:\n\n" ++
  "## Goal\n[What is the user trying to accomplish? Can be multiple items if the session covers " ++
  "different tasks.]\n\n" ++
  "## Constraints & Preferences\n- [Any constraints, preferences, or requirements mentioned by " ++
  "user]\n- [Or \"(none)\" if none were mentioned]\n\n" ++
  "## Progress\n### Done\n- [x] [Completed tasks/changes]\n\n" ++
  "### In Progress\n- [ ] [Current work]\n\n" ++
  "### Blocked\n- [Issues preventing progress, if any]\n\n" ++
  "## Key Decisions\n- **[Decision]**: [Brief rationale]\n\n" ++
  "## Next Steps\n1. [Ordered list of what should happen next]\n\n" ++
  "## Critical Context\n- [Any data, examples, or references needed to continue]\n" ++
  "- [Or \"(none)\" if not applicable]\n\n" ++
  "Keep each section concise. Preserve exact file paths, function names, and error messages."

def updateSummarizationPrompt : String :=
  "The messages above are NEW conversation messages to incorporate into the existing summary " ++
  "provided in <previous-summary> tags.\n\n" ++
  "Update the existing structured summary with new information. RULES:\n" ++
  "- PRESERVE all existing information from the previous summary\n" ++
  "- ADD new progress, decisions, and context from the new messages\n" ++
  "- UPDATE the Progress section: move items from \"In Progress\" to \"Done\" when completed\n" ++
  "- UPDATE \"Next Steps\" based on what was accomplished\n" ++
  "- PRESERVE exact file paths, function names, and error messages\n" ++
  "- If something is no longer relevant, you may remove it\n\n" ++ "Use this EXACT format:\n\n" ++
  "## Goal\n[Preserve existing goals, add new ones if the task expanded]\n\n" ++
  "## Constraints & Preferences\n- [Preserve existing, add new ones discovered]\n\n" ++
  "## Progress\n### Done\n- [x] [Include previously done items AND newly completed items]\n\n" ++
  "### In Progress\n- [ ] [Current work - update based on progress]\n\n" ++
  "### Blocked\n- [Current blockers - remove if resolved]\n\n" ++
  "## Key Decisions\n- **[Decision]**: [Brief rationale] (preserve all previous, add new)\n\n" ++
  "## Next Steps\n1. [Update based on current state]\n\n" ++
  "## Critical Context\n- [Preserve important context, add new if needed]\n\n" ++
  "Keep each section concise. Preserve exact file paths, function names, and error messages."

def turnPrefixSummarizationPrompt : String :=
  "This is the PREFIX of a turn that was too large to keep. The SUFFIX (recent work) is " ++
  "retained.\n\nSummarize the prefix to provide context for the retained suffix:\n\n" ++
  "## Original Request\n[What did the user ask for in this turn?]\n\n" ++
  "## Early Progress\n- [Key decisions and work done in the prefix]\n\n" ++
  "## Context for Suffix\n- [Information needed to understand the retained recent work]\n\n" ++
  "Be concise. Focus on what's needed to understand the kept suffix."

/-- The model that summarizes, and what the user asks of it. -/
structure SummaryOptions where
  modelMaxTokens : Nat
  modelReasoning : Bool
  thinkingLevel : Option String
  customInstructions : Option String
deriving DecidableEq

/-- A summarization request. -/
structure SummarizationRequest where
  systemPrompt : String
  promptText : String
  maxTokens : Nat
  reasoning : Option String
deriving DecidableEq

/-- A token budget, limited by the model when it states a limit. -/
def limitedTokens (options : SummaryOptions) (budget : Nat) : Nat :=
  if options.modelMaxTokens > 0 then min budget options.modelMaxTokens else budget

def summarizationRequest (options : SummaryOptions) (budget : Nat) (promptText : String) :
    SummarizationRequest where
  systemPrompt := summarizationSystemPrompt
  promptText := promptText
  maxTokens := limitedTokens options budget
  reasoning :=
    if options.modelReasoning then
      (truthy options.thinkingLevel).filter fun level => level ≠ "off"
    else none

def textAnswer (text : String) : AssistantMessage where
  content := [.text text none]
  api := "messages"
  provider := "provider"
  model := "model"
  usage := ⟨0, 0, 0, 0, none, none, 0, ⟨.ofInt 0, .ofInt 0, .ofInt 0, .ofInt 0, .ofInt 0⟩⟩
  stopReason := .stop
  errorMessage := none
  timestamp := 0

def conversationText (messages : List AgentMessage) : String :=
  "<conversation>\n" ++ serializeConversation (convertToLlm messages) ++ "\n</conversation>\n\n"

def basePrompt (customInstructions previousSummary : Option String) : String :=
  (if (truthy previousSummary).isSome then updateSummarizationPrompt
    else summarizationPrompt) ++
    match truthy customInstructions with
    | some instructions => "\n\nAdditional focus: " ++ instructions
    | none => ""

def summaryRequest (options : SummaryOptions) (settings : CompactionSettings)
    (messages : List AgentMessage) (previousSummary : Option String) : SummarizationRequest :=
  summarizationRequest options (settings.reserveTokens * 4 / 5)
    (conversationText messages ++
      (match truthy previousSummary with
        | some previous => "<previous-summary>\n" ++ previous ++ "\n</previous-summary>\n\n"
        | none => "") ++ basePrompt options.customInstructions previousSummary)

def turnPrefixRequest (options : SummaryOptions) (settings : CompactionSettings)
    (messages : List AgentMessage) : SummarizationRequest :=
  summarizationRequest options (settings.reserveTokens / 2)
    (conversationText messages ++ turnPrefixSummarizationPrompt)

/-- Add an optional count that at least one side reports. -/
def addReported : Option Nat → Option Nat → Option Nat
  | none, none => none
  | first, second => some (first.getD 0 + second.getD 0)

def combineUsage (first second : Usage) : Usage where
  input := first.input + second.input
  output := first.output + second.output
  cacheRead := first.cacheRead + second.cacheRead
  cacheWrite := first.cacheWrite + second.cacheWrite
  cacheWrite1h := addReported first.cacheWrite1h second.cacheWrite1h
  reasoning := addReported first.reasoning second.reasoning
  totalTokens := first.totalTokens + second.totalTokens
  cost :=
    { input := first.cost.input + second.cost.input
      output := first.cost.output + second.cost.output
      cacheRead := first.cost.cacheRead + second.cost.cacheRead
      cacheWrite := first.cost.cacheWrite + second.cost.cacheWrite
      total := first.cost.total + second.cost.total }

/-- What a compaction makes of the answers. -/
structure CompactionSummary where
  summary : String
  usage : Usage
  readFiles : List String
  modifiedFiles : List String

/-- The details stored with a compaction. -/
def CompactionSummary.details (result : CompactionSummary) : Json :=
  .obj [("readFiles", .arr (result.readFiles.map .str)),
    ("modifiedFiles", .arr (result.modifiedFiles.map .str))]

def noPriorHistory : String := "No prior history."

def turnContextHeading : String := "\n\n---\n\n**Turn Context (split turn):**\n\n"

section Summarize

variable {Error : Type}
  (readAnswer : String → AssistantMessage → Except Error (String × Usage))
  (summarize : SummarizationRequest → AssistantMessage) (options : SummaryOptions)
  (preparation : CompactionPreparation)

def historyPart : List SummarizationRequest × Except Error (String × Option Usage) :=
  if preparation.messagesToSummarize.isEmpty then ([], .ok (noPriorHistory, none))
  else
    let request := summaryRequest options preparation.settings preparation.messagesToSummarize
      preparation.previousSummary
    ([request], (readAnswer "Summarization" (summarize request)).map fun answer =>
      (answer.1, some answer.2))

def finishSummary (text : String) (usage : Usage) : CompactionSummary :=
  let lists := computeFileLists preparation.fileOps
  { summary := text ++ formatFileOperations lists.1 lists.2
    usage
    readFiles := lists.1
    modifiedFiles := lists.2 }

/-- Summarize a prepared compaction: the requests it sends and what it makes of the
answers. `readAnswer` tells a usable answer from a failure of the named request. -/
def summarizePreparation : List SummarizationRequest × Except Error CompactionSummary :=
  if preparation.isSplitTurn ∧ preparation.turnPrefixMessages.isEmpty = false then
    let (requests, history) := historyPart readAnswer summarize options preparation
    match history with
    | .error error => (requests, .error error)
    | .ok (historyText, historyUsage) =>
      let request :=
        turnPrefixRequest options preparation.settings preparation.turnPrefixMessages
      (requests ++ [request],
        (readAnswer "Turn prefix summarization" (summarize request)).map fun answer =>
          finishSummary preparation (historyText ++ turnContextHeading ++ answer.1)
            (match historyUsage with
              | some usage => combineUsage usage answer.2
              | none => answer.2))
  else
    let request := summaryRequest options preparation.settings preparation.messagesToSummarize
      preparation.previousSummary
    ([request], (readAnswer "Summarization" (summarize request)).map fun answer =>
      finishSummary preparation answer.1 answer.2)

end Summarize

namespace AgentHarness

def readAnswer (what : String) (answer : AssistantMessage) :
    Except CompactionError (String × Usage) :=
  match answer.stopReason with
  | .aborted =>
    .error ⟨.aborted, (truthy answer.errorMessage).getD (what ++ " aborted")⟩
  | .error =>
    .error ⟨.summarizationFailed,
      what ++ " failed: " ++ (truthy answer.errorMessage).getD "Unknown error"⟩
  | _ => .ok (assistantText answer, answer.usage)

/-- The result of a compaction in the harness. -/
structure CompactionResult where
  summary : String
  firstKeptEntryId : Option EntryId
  tokensBefore : Nat
  usage : Option Usage
  retainedTail : Option (List AgentMessage)
  details : Option Json

/-- Generate the summary of a prepared compaction. -/
def compact (summarize : SummarizationRequest → AssistantMessage) (options : SummaryOptions)
    (preparation : CompactionPreparation) :
    List SummarizationRequest × Except CompactionError CompactionResult :=
  let (requests, result) := summarizePreparation readAnswer summarize options
    preparation.toCompactionPreparation
  (requests, result.map fun result =>
    { summary := result.summary
      firstKeptEntryId := some preparation.firstKeptEntryId
      tokensBefore := preparation.tokensBefore
      usage := some result.usage
      retainedTail := some preparation.retainedTail
      details := some result.details })

end AgentHarness
end Recode

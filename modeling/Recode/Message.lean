import Recode.Lib.Json.Value
import Recode.Text

/-! # Agent messages

The messages an agent exchanges with a model, the messages the harness adds to
them, and their estimated size. Times are instants in milliseconds. -/

namespace Recode

open Text

/-- The monetary cost of a request. -/
structure UsageCost where
  input : Decimal
  output : Decimal
  cacheRead : Decimal
  cacheWrite : Decimal
  total : Decimal
deriving DecidableEq

/-- The tokens a provider reports for a request. -/
structure Usage where
  input : Nat
  output : Nat
  cacheRead : Nat
  cacheWrite : Nat
  cacheWrite1h : Option Nat
  reasoning : Option Nat
  totalTokens : Nat
  cost : UsageCost
deriving DecidableEq

/-- A block of user or tool content. -/
inductive InputBlock where
  | text (text : String) (textSignature : Option String)
  | image (data mimeType : String)
deriving DecidableEq

/-- The content of a user or custom message. -/
inductive InputContent where
  | text (text : String)
  | blocks (blocks : List InputBlock)
deriving DecidableEq

/-- A block of assistant content. -/
inductive AssistantBlock where
  | text (text : String) (textSignature : Option String)
  | thinking (thinking : String) (thinkingSignature : Option String) (redacted : Option Bool)
  | toolCall (id name : String) (arguments : List (String × Json))

/-- Why a model stopped. -/
inductive StopReason where
  | pending | stop | length | toolUse | error | aborted | deferred
deriving DecidableEq

/-- A model's answer. -/
structure AssistantMessage where
  content : List AssistantBlock
  api : String
  provider : String
  model : String
  usage : Usage
  stopReason : StopReason
  errorMessage : Option String
  timestamp : Nat

/-- A command the user ran outside the model. -/
structure BashExecutionMessage where
  command : String
  output : String
  exitCode : Option Int
  cancelled : Bool
  truncated : Bool
  fullOutputPath : Option String
  timestamp : Nat
  excludeFromContext : Bool

/-- The messages of a conversation, by role. -/
inductive AgentMessage where
  | user (content : InputContent) (timestamp : Nat)
  | assistant (message : AssistantMessage)
  | toolResult (toolCallId toolName : String) (content : List InputBlock)
      (details : Option Json) (isError : Bool) (timestamp : Nat)
  | bashExecution (message : BashExecutionMessage)
  | custom (customType : String) (content : InputContent) (display : Bool)
      (details : Option Json) (timestamp : Nat)
  | branchSummary (summary fromId : String) (timestamp : Nat)
  | compactionSummary (summary : String) (tokensBefore timestamp : Nat)

namespace AgentMessage

/-- Whether a message is the user's. -/
def isUser : AgentMessage → Bool
  | .user _ _ => true
  | _ => false

/-- Whether a message is a model's answer. -/
def isAssistant : AgentMessage → Bool
  | .assistant _ => true
  | _ => false

def isToolResult : AgentMessage → Bool
  | .toolResult _ _ _ _ _ _ => true
  | _ => false

end AgentMessage

def calculateContextTokens (usage : Usage) : Nat :=
  if usage.totalTokens ≠ 0 then usage.totalTokens
  else usage.input + usage.output + usage.cacheRead + usage.cacheWrite

def getAssistantUsage : AgentMessage → Option Usage
  | .assistant message =>
    if message.stopReason ≠ .aborted ∧ message.stopReason ≠ .error ∧
        calculateContextTokens message.usage > 0 then
      some message.usage
    else none
  | _ => none

def estimatedImageChars : Nat := 4800

/-- Characters of user, tool or custom content. -/
def estimateTextAndImageContentChars : InputContent → Nat
  | .text text => utf16Length text
  | .blocks blocks => (blocks.map fun
      | .text text _ => utf16Length text
      | .image _ _ => estimatedImageChars).sum

def assistantBlockChars : AssistantBlock → Nat
  | .text text _ => utf16Length text
  | .thinking thinking _ _ => utf16Length thinking
  | .toolCall _ name arguments =>
    utf16Length name + utf16Length (String.ofList (Json.obj arguments).stringify)

/-- A quarter of a number of characters, rounded up. -/
def charsToTokens (chars : Nat) : Nat := (chars + 3) / 4

def estimateTokens : AgentMessage → Nat
  | .user content _ => charsToTokens (estimateTextAndImageContentChars content)
  | .assistant message => charsToTokens (message.content.map assistantBlockChars).sum
  | .custom _ content _ _ _ => charsToTokens (estimateTextAndImageContentChars content)
  | .toolResult _ _ content _ _ _ =>
    charsToTokens (estimateTextAndImageContentChars (.blocks content))
  | .bashExecution message =>
    charsToTokens (utf16Length message.command + utf16Length message.output)
  | .branchSummary summary _ _ => charsToTokens (utf16Length summary)
  | .compactionSummary summary _ _ => charsToTokens (utf16Length summary)

/-- Estimated context tokens of a message list. -/
structure ContextUsageEstimate where
  tokens : Nat
  usageTokens : Nat
  trailingTokens : Nat
  lastUsageIndex : Option Nat
deriving DecidableEq

/-- The usage reported last, with its index. -/
def getLastAssistantUsageInfo (messages : List AgentMessage) : Option (Usage × Nat) :=
  (messages.zipIdx.reverse).findSome? fun indexed =>
    (getAssistantUsage indexed.1).map fun usage => (usage, indexed.2)

def estimateContextTokens (messages : List AgentMessage) : ContextUsageEstimate :=
  match getLastAssistantUsageInfo messages with
  | none =>
    let estimated := (messages.map estimateTokens).sum
    ⟨estimated, 0, estimated, none⟩
  | some (usage, index) =>
    let usageTokens := calculateContextTokens usage
    let trailingTokens := ((messages.drop (index + 1)).map estimateTokens).sum
    ⟨usageTokens + trailingTokens, usageTokens, trailingTokens, some index⟩

end Recode

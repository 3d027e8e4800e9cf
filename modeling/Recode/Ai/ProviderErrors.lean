import Recode.Message

/-! # Errors of providers

The text of a failed answer tells whether the context was too long for the model, and whether
the failure may pass when the model is asked again. -/

namespace Recode.Ai

/-- A pattern that a text is searched for. -/
inductive TextPattern where
  | empty
  | char (accepts : Char → Bool)
  | seq (first second : TextPattern)
  | alt (first second : TextPattern)
  | many (accepts : Char → Bool)

namespace TextPattern

/-- What may be left of a text behind characters that are accepted. -/
def restsOfMany (accepts : Char → Bool) : List Char → List (List Char)
  | [] => [[]]
  | first :: text =>
    if accepts first then restsOfMany accepts text ++ [first :: text] else [first :: text]

/-- What may be left of a text behind a pattern that it begins with. -/
def rests : TextPattern → List Char → List (List Char)
  | .empty, text => [text]
  | .char _, [] => []
  | .char accepts, first :: text => if accepts first then [text] else []
  | .seq first second, text => (rests first text).flatMap (rests second)
  | .alt first second, text => rests first text ++ rests second text
  | .many accepts, text => restsOfMany accepts text

def startsText (pattern : TextPattern) (text : String) : Bool :=
  !(pattern.rests text.toList).isEmpty

def test (pattern : TextPattern) (text : String) : Bool :=
  text.toList.tails.any fun rest => !(pattern.rests rest).isEmpty

def all (patterns : List TextPattern) : TextPattern := patterns.foldr .seq .empty

def optional (pattern : TextPattern) : TextPattern := .alt pattern .empty

/-- Letters match in either case. -/
def literal (text : String) : TextPattern :=
  all (text.toList.map fun letter => .char fun found => found.toLower = letter.toLower)

def oneOf (letters : String) : TextPattern := .char fun found => letters.toList.contains found

def isLineEnd (char : Char) : Bool :=
  char = '\n' || char = '\r' || char = '\u2028' || char = '\u2029'

def isSpace (char : Char) : Bool :=
  isLineEnd char || ['\t', '\x0b', '\x0c', ' ', '\u00a0', '\u1680', '\u202f', '\u205f', '\u3000',
    '\ufeff'].contains char || (0x2000 ≤ char.toNat && char.toNat ≤ 0x200a)

def any : TextPattern := .char fun found => !isLineEnd found && found.toNat < 0x10000

def digits : TextPattern := .seq (.char Char.isDigit) (.many Char.isDigit)

def grouped : TextPattern :=
  .seq (.char fun found => found.isDigit || found = ',')
    (.many fun found => found.isDigit || found = ',')

def anything : TextPattern := .many fun found => !isLineEnd found

def spaces : TextPattern := .many isSpace

end TextPattern

section Overflow

open TextPattern

/-- Errors of a context that is too long, wherever they are in the text. -/
def OVERFLOW_PATTERNS : List TextPattern :=
  [ literal "prompt is too long", literal "request_too_large",
    literal "input is too long for requested model", literal "exceeds the context window",
    all [literal "exceeds ", optional (literal "the "),
      optional (all [literal "model", optional (literal "'"), literal "s "]),
      literal "maximum context length",
      .alt (all [literal " of ", grouped, literal " token", optional (literal "s")])
        (all [spaces, literal "(", grouped, literal ")"])],
    all [literal "input token count", anything, literal "exceeds the maximum"],
    all [literal "maximum prompt length is ", digits], literal "reduce the length of the messages",
    all [literal "maximum context length is ", digits, literal " tokens"],
    all [literal "exceeds ", optional (literal "the "),
      literal "maximum allowed input length of ", grouped, literal " token",
      optional (literal "s")],
    all [literal "input (", digits, literal " tokens) is longer than the model",
      optional (literal "'"), literal "s context length (", digits, literal " tokens)"],
    all [literal "exceeds the limit of ", digits], literal "exceeds the available context size",
    literal "greater than the context length", literal "context window exceeds limit",
    literal "exceeded model token limit",
    all [literal "too large for model with ", digits, literal " maximum context length"],
    all [literal "prompt has ", grouped, literal " token", optional (literal "s"),
      literal ", but the configured context size is ", grouped, literal " token",
      optional (literal "s")], literal "model_context_window_exceeded",
    all [literal "prompt too long; exceeded ", optional (literal "max "), literal "context length"],
    literal "range of input length should be",
    all [literal "context", oneOf "_ ", literal "length", oneOf "_ ", literal "exceeded"],
    literal "too many tokens", literal "token limit exceeded" ]

/-- An error of a context that is too long, at the start of the text. -/
def overflowStart : TextPattern :=
  all [literal "4", .alt (literal "00") (literal "13"), spaces, optional (literal "status code"),
    spaces, literal "(no body)"]

/-- Errors that are not about the context though their text may look so. -/
def nonOverflowStart : TextPattern :=
  all [.alt (literal "Throttling error") (literal "Service unavailable"), literal ":"]

def NON_OVERFLOW_PATTERNS : List TextPattern := [literal "rate limit", literal "too many requests"]

/-- Whether the text of an error tells that the context was too long. -/
def isOverflowError (text : String) : Bool :=
  !(nonOverflowStart.startsText text || NON_OVERFLOW_PATTERNS.any (·.test text)) &&
    (overflowStart.startsText text || OVERFLOW_PATTERNS.any (·.test text))

/-- Whether an answer tells that the context was too long: by its error, by more input than the
window holds, or by an input that fills the window and leaves no room for an output. A window of
zero is not known. -/
def isContextOverflow (message : AssistantMessage) (contextWindow : Nat) : Bool :=
  let inputTokens := message.usage.input + message.usage.cacheRead
  (message.stopReason = .error && (Text.truthy message.errorMessage).any isOverflowError) ||
    (contextWindow ≠ 0 && message.stopReason = .stop && contextWindow < inputTokens) ||
    (contextWindow ≠ 0 && message.stopReason = .length && message.usage.output = 0 &&
      contextWindow * 99 ≤ inputTokens * 100)

end Overflow

section Retry

open TextPattern

def NON_RETRYABLE_PROVIDER_LIMIT_ERROR_PATTERN : List TextPattern :=
  [literal "GoUsageLimitError", literal "FreeUsageLimitError",
    literal "Monthly usage limit reached", literal "available balance",
    literal "insufficient_quota", literal "out of budget", literal "quota exceeded",
    literal "billing"]

/-- Two words, with or without a character between them. -/
def joined (first second : String) : TextPattern :=
  all [literal first, optional any, literal second]

/-- Errors of a provider or of the way to it that may pass. -/
def RETRYABLE_PROVIDER_ERROR_PATTERN : List TextPattern :=
  [literal "overloaded", joined "rate" "limit", literal "too many requests", literal "429",
    literal "500", literal "502", literal "503", literal "504", literal "524",
    joined "service" "unavailable", joined "server" "error", joined "internal" "error",
    all [literal "provider", optional any, literal "returned", optional any, literal "error"],
    literal "exceeded request buffer limit while retrying upstream",
    joined "network" "error", joined "connection" "error", joined "connection" "refused",
    joined "connection" "lost", literal "other side closed", literal "fetch failed",
    literal "getaddrinfo", literal "ENOTFOUND", literal "EAI_AGAIN",
    joined "upstream" "connect", literal "reset before headers", literal "socket hang up",
    literal "socket connection was closed",
    all [literal "time", optional (literal "d"), literal " out"], literal "timeout",
    literal "terminated", joined "websocket" "closed", joined "websocket" "error",
    literal "ended without", literal "stream ended before message_stop",
    literal "stream ended before a terminal response event",
    literal "http2 request did not get a response", literal "retry delay",
    literal "you can retry your request", literal "try your request again",
    literal "please retry your request", literal "ResourceExhausted"]

/-- Whether an answer failed with an error that may pass. -/
def isRetryableAssistantError (message : AssistantMessage) : Bool :=
  message.stopReason = .error && (Text.truthy message.errorMessage).any fun text =>
    !NON_RETRYABLE_PROVIDER_LIMIT_ERROR_PATTERN.any (·.test text) &&
      RETRYABLE_PROVIDER_ERROR_PATTERN.any (·.test text)

end Retry

end Recode.Ai

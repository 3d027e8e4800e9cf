import Recode.Ai.ProviderErrors
import Recode.Lib.Monitor

/-! # Retrying an assistant call

The loop of `retryAssistantCall` waits for several promises in each round. What a promise comes
to is given for every round, and it may stay pending, so a call is followed up to any moment. -/

namespace Recode.Ai

/-- What a promise has come to, if it is not pending any longer. -/
abbrev Awaited (Value : Type) := Option (Except String Value)

/-- A policy: how many times a call is tried again, and the first delay. -/
structure RetryPolicy where
  enabled : Bool
  maxRetries : Nat
  baseDelayMs : Nat

/-- What the promises of a round come to: those of `produce`, of the callbacks, and the backoff,
which the signal may abort before it begins or while it lasts. -/
structure RetryRound where
  produced : Awaited AssistantMessage
  onRetryScheduled : Awaited Unit := some (.ok ())
  backoffAborted : Option Bool := some false
  onRetryAttemptStart : Awaited Unit := some (.ok ())
  onRetryFinished : Awaited Unit := some (.ok ())

/-- What a retried call does, and what it sees of the answers and the backoff. -/
inductive RetryEntry
  | produce
  | responded (reason : StopReason)
  | onRetryScheduled (attempt maxAttempts delayMs : Nat) (errorMessage : String)
  | backoffAborted
  | onRetryAttemptStart
  | onRetryFinished (success : Bool) (attempt : Nat) (finalError : Option String)
deriving DecidableEq

namespace RetryEntry

def isProduce : RetryEntry → Bool
  | .produce => true
  | _ => false

def isScheduled : RetryEntry → Bool
  | .onRetryScheduled .. => true
  | _ => false

def isFinished : RetryEntry → Bool
  | .onRetryFinished .. => true
  | _ => false

end RetryEntry

/-- What a retried call has done, and what its own promise has come to. -/
structure RetryTrace where
  log : List RetryEntry
  result : Awaited AssistantMessage

structure LastRetry where
  attempt : Nat
  errorMessage : String

def maxAttempts : Option RetryPolicy → Nat
  | some policy => if policy.enabled then policy.maxRetries else 0
  | none => 0

def RetryTrace.after (entry : RetryEntry) (trace : RetryTrace) : RetryTrace :=
  { trace with log := entry :: trace.log }

/-- Make a call, and go on once its promise is fulfilled. -/
def awaitCall {Value : Type} (entry : RetryEntry) (promise : Awaited Value)
    (next : Value → RetryTrace) : RetryTrace :=
  match promise with
  | none => ⟨[entry], none⟩
  | some (.error error) => ⟨[entry], some (.error error)⟩
  | some (.ok value) => (next value).after entry

/-- Return an answer, after telling so if a retry was scheduled. -/
def leaveLoop (round : RetryRound) (lastRetry : Option LastRetry) (success : Bool)
    (finalError : Option String) (response : AssistantMessage) : RetryTrace :=
  match lastRetry with
  | none => ⟨[], some (.ok response)⟩
  | some lastRetry =>
    awaitCall (.onRetryFinished success lastRetry.attempt finalError) round.onRetryFinished
      fun _ => ⟨[], some (.ok response)⟩

/-- The loop from an attempt on. -/
def retryLoop (policy : Option RetryPolicy) (rounds : Nat → RetryRound) (attempt : Nat)
    (lastRetry : Option LastRetry) : RetryTrace :=
  let round := rounds attempt
  awaitCall .produce round.produced fun response =>
    .after (.responded response.stopReason) <|
      if response.stopReason = .aborted then leaveLoop round lastRetry false none response
      else if response.stopReason ≠ .error then leaveLoop round lastRetry true none response
      else if _ : attempt ≥ maxAttempts policy ∨ !isRetryableAssistantError response then
        leaveLoop round lastRetry false response.errorMessage response
      else
        let retry : LastRetry :=
          ⟨attempt + 1, (Text.truthy response.errorMessage).getD "Unknown error"⟩
        let delayMs := (policy.map RetryPolicy.baseDelayMs).getD 0 * 2 ^ attempt
        awaitCall (.onRetryScheduled retry.attempt (maxAttempts policy) delayMs retry.errorMessage)
          round.onRetryScheduled fun _ =>
            match round.backoffAborted with
            | none => ⟨[], none⟩
            | some true =>
              .after .backoffAborted <| leaveLoop round (some retry) false
                (some retry.errorMessage)
                { response with stopReason := .aborted, errorMessage := none }
            | some false =>
              awaitCall .onRetryAttemptStart round.onRetryAttemptStart fun _ =>
                retryLoop policy rounds (attempt + 1) (some retry)
termination_by maxAttempts policy - attempt

def retryAssistantCall (policy : Option RetryPolicy) (rounds : Nat → RetryRound) : RetryTrace :=
  retryLoop policy rounds 0 none

/-! ## The protocol -/

/-- Where a retried call is, seen from what it has done, with the retries it has started. -/
inductive RetryPhase
  | ready (retries : Nat)
  | calling (retries : Nat)
  | answered (retries : Nat) (reason : StopReason)
  | backingOff (retries : Nat)
  | interrupted (retries : Nat)
  | finished
deriving DecidableEq

/-- The order in which the callbacks and the calls of `produce` may be made. -/
def retryProtocol (maxRetries : Nat) : Monitor RetryEntry RetryPhase where
  start := .ready 0
  next
    | .ready retries, .produce => if retries ≤ maxRetries then some (.calling retries) else none
    | .calling retries, .responded reason => some (.answered retries reason)
    | .answered retries .error, .onRetryScheduled attempt _ _ _ =>
      if attempt = retries + 1 then some (.backingOff attempt) else none
    | .backingOff retries, .onRetryAttemptStart => some (.ready retries)
    | .backingOff retries, .backoffAborted => some (.interrupted retries)
    | .interrupted retries, .onRetryFinished false attempt _ =>
      if attempt = retries then some .finished else none
    | .answered retries reason, .onRetryFinished success attempt _ =>
      if 0 < retries ∧ attempt = retries ∧ success = decide (reason ≠ .error ∧ reason ≠ .aborted)
      then some .finished else none
    | _, _ => none

/-- The callbacks and the calls are in order, there are not too many calls, and a call that has
ended has told so once if it had scheduled a retry, and otherwise not. -/
structure RetryTrace.FollowsProtocol (trace : RetryTrace) (maxRetries : Nat) : Prop where
  ordered : (retryProtocol maxRetries).Accepts trace.log
  bounded : trace.log.countP RetryEntry.isProduce ≤ maxRetries + 1
  finishes : trace.result.isSome →
    trace.log.countP RetryEntry.isFinished = if trace.log.any RetryEntry.isScheduled then 1 else 0

/-- A round is answered by an error after which the call is tried again. -/
def Retries (policy : Option RetryPolicy) (rounds : Nat → RetryRound) (attempt : Nat) : Prop :=
  ∃ response, (rounds attempt).produced = some (.ok response) ∧ response.stopReason = .error ∧
    isRetryableAssistantError response = true ∧ attempt < maxAttempts policy

/-- From an attempt on, a call is rejected after a retry was scheduled, and it is not the last
callback. -/
@[mk_iff]
inductive RejectsLate (policy : Option RetryPolicy) (rounds : Nat → RetryRound) : Nat → Prop
  | produce {attempt : Nat} {error : String} (retried : attempt ≠ 0)
    (rejected : (rounds attempt).produced = some (.error error)) : RejectsLate policy rounds attempt
  | scheduled {attempt : Nat} {error : String} (retries : Retries policy rounds attempt)
    (rejected : (rounds attempt).onRetryScheduled = some (.error error)) :
    RejectsLate policy rounds attempt
  | started {attempt : Nat} {error : String} (retries : Retries policy rounds attempt)
    (scheduled : (rounds attempt).onRetryScheduled = some (.ok ()))
    (slept : (rounds attempt).backoffAborted = some false)
    (rejected : (rounds attempt).onRetryAttemptStart = some (.error error)) :
    RejectsLate policy rounds attempt
  | later {attempt : Nat} (retries : Retries policy rounds attempt)
    (scheduled : (rounds attempt).onRetryScheduled = some (.ok ()))
    (slept : (rounds attempt).backoffAborted = some false)
    (started : (rounds attempt).onRetryAttemptStart = some (.ok ()))
    (late : RejectsLate policy rounds (attempt + 1)) : RejectsLate policy rounds attempt

/-- From a phase on a trace is in order, with so many calls at most, and it ends as it has to
unless a call is rejected late. -/
structure RetryTrace.Continues (trace : RetryTrace) (maxRetries : Nat) (phase : RetryPhase)
    (calls : Nat) (retried : Bool) (late : Prop) : Prop where
  ordered : (trace.log.foldlM (retryProtocol maxRetries).next phase).isSome
  bounded : trace.log.countP RetryEntry.isProduce ≤ calls
  finishes : (trace.result.isSome → trace.log.countP RetryEntry.isFinished =
    if trace.log.any RetryEntry.isScheduled || retried then 1 else 0) ↔ ¬ late

namespace RetryTrace

variable {Value : Type} {maxRetries calls : Nat} {phase q : RetryPhase} {retried : Bool}
  {late : Prop} {entry : RetryEntry} {trace : RetryTrace}

theorem Continues.after (continues : trace.Continues maxRetries q calls
      (entry.isScheduled || retried) late)
    (allowed : (retryProtocol maxRetries).next phase entry = some q)
    (early : entry.isFinished = false) :
    (trace.after entry).Continues maxRetries phase (calls + entry.isProduce.toNat) retried
      late := by
  obtain ⟨ordered, bounded, finishes⟩ := continues
  refine ⟨?_, ?_, ?_⟩
  · simpa [RetryTrace.after, allowed] using ordered
  · cases produces : entry.isProduce <;> simpa [RetryTrace.after, produces] using bounded
  · simpa [RetryTrace.after, early, Bool.or_assoc, Bool.or_left_comm] using finishes

theorem Continues.await {promise : Awaited Value} {next : Value → RetryTrace}
    (allowed : (retryProtocol maxRetries).next phase entry = some q)
    (early : entry.isFinished = false) (pending : promise = none → ¬ late)
    (rejected : ∀ error, promise = some (.error error) → ((entry.isScheduled || retried) ↔ late))
    (fulfilled : ∀ value, promise = some (.ok value) →
      (next value).Continues maxRetries q calls (entry.isScheduled || retried) late) :
    (awaitCall entry promise next).Continues maxRetries phase (calls + entry.isProduce.toNat)
      retried late := by
  unfold awaitCall
  cases promise with
  | none =>
    refine ⟨by simp [allowed], ?_, iff_of_true (fun ends => by cases ends) (pending rfl)⟩
    cases produces : entry.isProduce <;> simp [produces]
  | some settled =>
    cases settled with
    | error error =>
      refine ⟨by simp [allowed], ?_, ?_⟩
      · cases produces : entry.isProduce <;> simp [produces]
      · rw [← rejected error rfl]
        simp [early]
    | ok value => exact (fulfilled value rfl).after allowed early

theorem Continues.leave {round : RetryRound} {lastRetry : Option LastRetry} {success : Bool}
    {finalError : Option String} (response : AssistantMessage)
    (told : retried = lastRetry.isSome) (prompt : ¬ late)
    (allowed : ∀ last ∈ lastRetry, (retryProtocol maxRetries).next phase
      (.onRetryFinished success last.attempt finalError) = some .finished) :
    (leaveLoop round lastRetry success finalError response).Continues maxRetries phase calls retried
      late := by
  subst told
  cases lastRetry with
  | none => exact ⟨rfl, Nat.zero_le _, iff_of_true (fun _ => rfl) prompt⟩
  | some last =>
    have allowed := allowed last rfl
    unfold leaveLoop awaitCall
    rcases round.onRetryFinished with _ | _ | _ <;>
      exact ⟨by simp [RetryTrace.after, allowed], Nat.zero_le _, iff_of_true (fun _ => rfl) prompt⟩

theorem Continues.follows_iff
    (continues : trace.Continues maxRetries (.ready 0) (maxRetries + 1) false late) :
    trace.FollowsProtocol maxRetries ↔ ¬ late := by
  obtain ⟨ordered, bounded, finishes⟩ := continues
  rw [Bool.or_false] at finishes
  exact ⟨fun follows => finishes.mp follows.finishes,
    fun prompt => ⟨ordered, bounded, finishes.mpr prompt⟩⟩

end RetryTrace

variable {policy : Option RetryPolicy} {rounds : Nat → RetryRound}

theorem retryLoop_continues (attempt : Nat) (lastRetry : Option LastRetry)
    (within : attempt ≤ maxAttempts policy)
    (numbered : lastRetry.map LastRetry.attempt = if attempt = 0 then none else some attempt) :
    (retryLoop policy rounds attempt lastRetry).Continues (maxAttempts policy) (.ready attempt)
      (maxAttempts policy - attempt + 1) (attempt ≠ 0) (RejectsLate policy rounds attempt) := by
  have told : decide (attempt ≠ 0) = lastRetry.isSome := by
    rw [← Option.isSome_map (f := LastRetry.attempt), numbered]
    split <;> simp [*]
  have numbers : ∀ last ∈ lastRetry, 0 < attempt ∧ last.attempt = attempt := by
    rintro last rfl
    split at numbered
    · cases numbered
    · exact ⟨Nat.pos_of_ne_zero ‹_›, Option.some.inj numbered⟩
  unfold retryLoop
  refine .await (q := .calling attempt) (if_pos within) rfl ?_ ?_ ?_
  · intro pending
    rw [rejectsLate_iff]
    simp [Retries, pending]
  · intro error rejected
    rw [rejectsLate_iff]
    simp [Retries, rejected, RetryEntry.isScheduled]
  intro response produced
  have closes (reason : StopReason) (success : Bool) (finalError : Option String)
      (succeeds : success = decide (reason ≠ .error ∧ reason ≠ .aborted)) :
      ∀ last ∈ lastRetry, (retryProtocol (maxAttempts policy)).next (.answered attempt reason)
        (.onRetryFinished success last.attempt finalError) = some .finished := by
    intro last isLast
    obtain ⟨some_, same⟩ := numbers last isLast
    cases reason <;> exact if_pos ⟨some_, same, succeeds⟩
  refine .after (q := .answered attempt response.stopReason) ?_ rfl rfl
  by_cases retries : Retries policy rounds attempt
  · have ⟨_, produced', failed, retryable, few⟩ := retries
    obtain rfl : response = _ := by simpa [produced] using produced'
    rw [if_neg (by simp [failed]), if_neg (by simp [failed]),
      dif_neg (by simp [retryable, few]), failed]
    refine .await (q := .backingOff (attempt + 1)) (if_pos rfl) rfl ?_ ?_ ?_
    · intro pending
      rw [rejectsLate_iff]
      simp [produced, pending]
    · intro error rejected
      rw [rejectsLate_iff]
      simp [retries, rejected, RetryEntry.isScheduled]
    intro _ scheduled
    have late : RejectsLate policy rounds attempt ↔ (rounds attempt).backoffAborted = some false ∧
        ((∃ error, (rounds attempt).onRetryAttemptStart = some (.error error)) ∨
          (rounds attempt).onRetryAttemptStart = some (.ok ()) ∧
            RejectsLate policy rounds (attempt + 1)) := by
      rw [rejectsLate_iff]
      simp only [produced, retries, scheduled, true_and, and_or_left]
      simp
    cases backoff : (rounds attempt).backoffAborted with
    | none =>
      exact ⟨rfl, Nat.zero_le _, iff_of_true (fun ends => by cases ends) (by simp [late, backoff])⟩
    | some aborted =>
      cases aborted with
      | true =>
        refine .after (q := .interrupted (attempt + 1)) ?_ rfl rfl
        refine .leave _ rfl (by simp [late, backoff]) ?_
        intro last isLast
        cases isLast
        exact if_pos rfl
      | false =>
        refine .await (q := .ready (attempt + 1)) rfl rfl ?_ ?_ ?_
        · intro pending
          simp [late, pending]
        · intro error rejected
          simp [late, backoff, rejected, RetryEntry.isScheduled]
        intro _ started
        have rest := retryLoop_continues (attempt + 1)
          (some ⟨attempt + 1, (Text.truthy response.errorMessage).getD "Unknown error"⟩) few rfl
        rw [Nat.sub_add_eq, Nat.sub_add_cancel (Nat.sub_pos_of_lt few)] at rest
        have same : RejectsLate policy rounds attempt ↔
            RejectsLate policy rounds (attempt + 1) := by
          simp [late, backoff, started]
        rw [same]
        exact rest
  · have prompt : ¬ RejectsLate policy rounds attempt := by
      rw [rejectsLate_iff]
      simp [produced, retries]
    have ended : response.stopReason = .error →
        attempt ≥ maxAttempts policy ∨ !isRetryableAssistantError response := by
      intro failed
      by_contra goesOn
      simp only [ge_iff_le, Bool.not_eq_true', not_or, Nat.not_le, Bool.not_eq_false] at goesOn
      exact retries ⟨response, produced, failed, goesOn.2, goesOn.1⟩
    split
    · rename_i aborted
      exact .leave response told prompt (closes _ _ _ (by rw [aborted]; rfl))
    split
    · rename_i other succeeded
      exact .leave response told prompt (closes _ _ _ (by simp [other, succeeded]))
    rename_i failed
    rw [dif_pos (ended (not_not.mp failed))]
    exact .leave response told prompt (closes _ _ _ (by simp [not_not.mp failed]))
termination_by maxAttempts policy - attempt

/-- A retried call follows its protocol if and only if no call is rejected after a retry was
scheduled, the one of `onRetryFinished` excepted. -/
theorem retryAssistantCall_follows_iff (policy : Option RetryPolicy)
    (rounds : Nat → RetryRound) :
    (retryAssistantCall policy rounds).FollowsProtocol (maxAttempts policy) ↔
      ¬ RejectsLate policy rounds 0 :=
  (retryLoop_continues 0 none (Nat.zero_le _) rfl).follows_iff

section Example

/-- An answer that failed with an error that may pass. -/
def terminated : AssistantMessage where
  content := []
  api := "messages"
  provider := "anthropic"
  model := "sonnet"
  usage := ⟨0, 0, 0, 0, none, none, 0, ⟨0, 0, 0, 0, 0⟩⟩
  stopReason := .error
  errorMessage := some "terminated"
  timestamp := 0

/-- A second call that is rejected leaves the scheduled retry without its end. -/
theorem not_follows : ¬ ∀ (policy : Option RetryPolicy) (rounds : Nat → RetryRound),
    (retryAssistantCall policy rounds).FollowsProtocol (maxAttempts policy) := by
  intro follows
  have ends := follows (some ⟨true, 3, 1000⟩) fun
    | 0 => { produced := some (.ok terminated) }
    | _ => { produced := some (.error "socket hang up") }
  refine (retryLoop_continues 0 none (Nat.zero_le _) rfl).follows_iff.mp ends ?_
  refine .later ⟨terminated, rfl, rfl, rfl, by decide⟩ rfl rfl rfl ?_
  exact .produce Nat.one_ne_zero rfl

end Example

end Recode.Ai

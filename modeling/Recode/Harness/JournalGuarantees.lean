import Recode.Harness.JournalOperations

/-! # What holds of a journal in every run

A harness calls its journal, appends are written or fail, and processes crash and
restart. As long as the journal does not lose what it has in memory, its records
are balanced in every state that the run reaches. -/

namespace Recode.Harness

open Brackets Procedure RecodeHarnessJournal JournalRecord

/-- A run that has an operation in memory only while it runs one. -/
structure JournalRun.Good (run : JournalRun) : Prop where
  good : Harness.Good run.state
  idle : run.running = false → run.state.journal.activeOperation = none

/-- A step that makes the journal lose nothing. No append fails while it recovers, begins an
operation or interrupts one; events are recordable; and finishing an operation does not fail after
it closed a tool and before it closed the last. -/
def JournalRun.Allowed (run : JournalRun) : JournalStep → Prop
  | .restart => True
  | .call call outcomes =>
    match call with
    | .recover => Reliable outcomes
    | .beginOperation _ => Reliable outcomes
    | .recordAgentEvent event => Recordable { run.state with outcomes := outcomes } event
    | .finishOperation _ _ => Spared { run.state with outcomes := outcomes }
    | .interruptOperation _ => Reliable outcomes

def JournalRun.AllAllowed (run : JournalRun) : List JournalStep → Prop
  | [] => True
  | event :: events => run.Allowed event ∧ (run.step event).AllAllowed events

/-- What is asked of a journal: its records are balanced, and after a recovery each start has its
terminal record when no operation is running, and one can begin. -/
structure JournalRun.Kept (run : JournalRun) : Prop where
  balanced : Balanced run.state.entries
  exactlyOnce : ∀ result, run.state.journal.recoveryPromise = some (.ok result) →
    run.running = false → ExactlyOnce opens closes run.state.entries
  begins : run.running = false → ∀ operation,
    ((beginOperation operation).perform { run.state with outcomes := [] }).1 = .ok ()

/-! ## Appends that are written -/

/-- No append is going to fail, and no operation is active. -/
def Unhindered (state : JournalState) : Prop :=
  state.outcomes = [] ∧ state.journal.activeOperation = none

theorem append_unhindered (record : JournalRecord) :
    Triple Unhindered (append record) (fun _ => Unhindered) (fun _ _ => False) := by
  rintro ⟨journal, entries, uuids, outcomes⟩ ⟨rfl, idle⟩
  exact ⟨rfl, idle⟩

theorem recoverUnfinishedWork_unhindered :
    Triple Unhindered recoverUnfinishedWork (fun _ => Unhindered) (fun _ _ => False) := by
  apply triple_get
  intro state unhindered
  refine Triple.weaken (?_ : Triple Unhindered _ _ _) (by rintro _ rfl; exact unhindered)
    (fun _ _ => id) (fun _ _ => id)
  refine triple_bind (triple_forM (fun _ => append_unhindered _) _) fun _ => ?_
  refine triple_bind (triple_forM (fun _ => append_unhindered _) _) fun _ => ?_
  refine triple_bind (triple_forM (fun _ => append_unhindered _) _) fun _ => ?_
  exact triple_pure _ fun _ => id

variable {run : JournalRun} {state : JournalState}

theorem recover_unhindered (unhindered : Unhindered state)
    (accepted : ∀ error, state.journal.recoveryPromise ≠ some (.error error)) :
    Triple (· = state) recover (fun _ => Unhindered) (fun _ _ => False) := by
  apply triple_get
  rintro state rfl
  cases promise : state.journal.recoveryPromise with
  | some result =>
    rintro state rfl
    cases result with
    | error error => exact absurd promise (accepted error)
    | ok result => exact unhindered
  | none =>
    have done := recoverUnfinishedWork_unhindered state unhindered
    rintro state rfl
    cases run : recoverUnfinishedWork.perform state with
    | mk result final =>
      rw [run] at done
      cases result with
      | error error => exact absurd done id
      | ok result => exact done

/-- An operation can begin when none is active and the recovery was not rejected. -/
theorem beginOperation_unhindered (unhindered : Unhindered state)
    (accepted : ∀ error, state.journal.recoveryPromise ≠ some (.error error))
    (operation : RecodeHarnessOperation) :
    Triple (· = state) (beginOperation operation) (fun _ _ => True) (fun _ _ => False) := by
  apply triple_bind (recover_unhindered unhindered accepted)
  intro _
  apply triple_get
  rintro ⟨journal, entries, uuids, outcomes⟩ ⟨rfl, idle⟩
  simp only at idle
  simp only [idle]
  apply triple_perform (perform_uuid _)
  apply triple_perform (perform_setJournal _ _)
  exact triple_done rfl trivial

/-! ## Runs -/

theorem JournalRun.Good.kept (good : run.Good) : run.Kept where
  balanced := good.good.agrees.held.sound.balanced
  exactlyOnce result recovered idle :=
    good.good.agrees.held.sound.exactlyOnce
      (good.good.agrees.closed_of_idle (by simp [recovered]) (good.idle idle))
  begins idle operation := by
    have unhindered : Unhindered { run.state with outcomes := [] } := ⟨rfl, good.idle idle⟩
    have done := beginOperation_unhindered unhindered good.good.accepted operation _ rfl
    cases run' : perform (beginOperation operation) { run.state with outcomes := [] } with
    | mk result final =>
      rw [run'] at done
      cases result with
      | error error => exact absurd done id
      | ok result => rfl

theorem JournalRun.good_restarted (held : Held state.entries state.uuids) :
    (restarted state).Good where
  good := ⟨held.agrees, by simp [restarted]⟩
  idle _ := rfl

theorem JournalRun.good_call {call : JournalCall}
    {outcomes : List AppendOutcome} {thrown : JournalState → Prop} {after : JournalState → Prop}
    (spec : Triple (· = { run.state with outcomes := outcomes }) call.procedure
      (fun _ => after) (Failing thrown)) (returned : ∀ final, after final →
      JournalRun.Good ⟨final, runningAfter run.running call (.ok ())⟩)
    (failed : ∀ final error, thrown final →
      JournalRun.Good ⟨final, runningAfter run.running call (.error (.thrown error))⟩) :
    (run.step (.call call outcomes)).Good := by
  have done := spec _ rfl
  rw [step]
  cases performed : call.procedure.perform { run.state with outcomes := outcomes } with
  | mk result final =>
    rw [performed] at done
    cases result with
    | ok result => exact returned final done
    | error stop =>
      cases stop with
      | crashed => exact good_restarted done
      | thrown error => exact failed final error done

theorem JournalRun.Good.step (good : run.Good) {event : JournalStep}
    (allowed : run.Allowed event) : (run.step event).Good := by
  cases event with
  | restart => exact good_restarted good.good.agrees.held
  | call call outcomes =>
    have start : Harness.Good { run.state with outcomes := outcomes } :=
      ⟨good.good.agrees, good.good.accepted⟩
    have continues : ∀ final, Continues { run.state with outcomes := outcomes } final →
        JournalRun.Good ⟨final, run.running⟩ :=
      fun final known => ⟨known.1, fun idle => known.2.trans (good.idle idle)⟩
    cases call with
    | recover =>
      have spec : Triple _ _ _ (Failing fun _ => False) := recover_spec start allowed
      refine good_call (triple_bind spec fun _ => triple_pure () fun _ known => known) ?_ ?_
      · rintro final ⟨good', -, -, same⟩
        exact continues final ⟨good', same⟩
      · exact fun _ _ never => absurd never id
    | beginOperation operation =>
      refine good_call (beginOperation_spec start allowed operation) ?_ ?_
      · exact fun final known => ⟨known, by simp [runningAfter]⟩
      · exact fun final _ => continues final
    | recordAgentEvent event =>
      refine good_call (recordAgentEvent_spec start event allowed) continues ?_
      exact fun final _ => continues final
    | finishOperation outcome error =>
      refine good_call (finishOperation_spec start allowed outcome error) ?_ ?_
      · exact fun final known => ⟨known.1, fun _ => known.2⟩
      · exact fun final _ => continues final
    | interruptOperation error =>
      refine good_call (interruptOperation_spec start allowed error) ?_ ?_
      · exact fun final known => ⟨known.1, fun _ => known.2⟩
      · exact fun final _ known => ⟨known.1, fun _ => known.2⟩

theorem JournalRun.good_init : JournalRun.Good {} where
  good := ⟨held_nil.agrees, by simp⟩
  idle _ := rfl

theorem JournalRun.Good.steps (good : run.Good) {events : List JournalStep}
    (allowed : run.AllAllowed events) {initial : List JournalStep} (reached : initial <+: events) :
    (run.steps initial).Good := by
  induction initial generalizing run events with
  | nil => exact good
  | cons event initial ih =>
    obtain ⟨rest, rfl⟩ := reached
    obtain ⟨first, later⟩ := allowed
    exact ih (good.step first) later ⟨rest, rfl⟩

/-- A journal keeps what is asked of it in every state that a run of allowed steps reaches. -/
theorem journal_kept (events : List JournalStep) (allowed : JournalRun.AllAllowed {} events)
    (initial : List JournalStep) (reached : initial <+: events) :
    (JournalRun.steps {} initial).Kept :=
  (JournalRun.good_init.steps allowed reached).kept

/-- A tool whose start is not recorded, an operation that is interrupted for it, and a process that
crashes in the next operation and recovers. -/
def failuresAndCrash : List JournalStep :=
  [.call (.beginOperation .prompt) [], .call (.recordAgentEvent .turnStart) [],
    .call (.recordAgentEvent (.toolExecutionStart "call" "bash"))
      [.failed ⟨"Error", "disk full", none⟩],
    .call (.interruptOperation ⟨"Error", "disk full", none⟩) [],
    .call (.beginOperation .prompt) [], .call (.recordAgentEvent .turnStart) [.crashed],
    .call .recover []]

theorem journal_kept_failuresAndCrash :
    (JournalRun.steps {} failuresAndCrash).Kept := by
  apply journal_kept failuresAndCrash ?_ _ List.prefix_rfl
  refine ⟨?_, ?_, ?_, ?_, ?_, ?_, ?_, trivial⟩
  · exact fun error never => by simp at never
  · rfl
  · exact ⟨rfl, fun _ _ _ _ current turn => by cases current; cases turn; rfl⟩
  · exact fun error never => by simp at never
  · exact fun error never => by simp at never
  · rfl
  · exact fun error never => by simp at never

def sameToolCallId : List JournalStep :=
  [.call (.beginOperation .prompt) [], .call (.recordAgentEvent .turnStart) [],
    .call (.recordAgentEvent (.toolExecutionStart "call" "read")) [],
    .call (.recordAgentEvent (.toolExecutionStart "call" "write")) [],
    .call (.recordAgentEvent (.toolExecutionEnd "call" false)) [],
    .call (.recordAgentEvent (.toolExecutionEnd "call" false)) [],
    .call (.recordAgentEvent (.turnEnd none)) [], .call (.finishOperation .success none) []]

/-- The start of the first of two tools with the same identifier gets no terminal record. -/
theorem not_journal_kept_sameToolCallId :
    ¬ ∀ events : List JournalStep, (JournalRun.steps {} events).Kept := by
  intro kept
  have exactly := (kept sameToolCallId).exactlyOnce ⟨0, 0, 0⟩ rfl rfl
  have once := exactly [.operationStarted 0 .prompt, .turnStarted 0 1]
    (.toolStarted 0 ⟨1, "call", "read"⟩)
    [.toolStarted 0 ⟨1, "call", "write"⟩, .toolFinished 0 ⟨1, "call", "write"⟩ false,
      .turnFinished 0 1 .success, .operationFinished 0 .prompt .success none]
    (.tool 0 1 "call") rfl rfl
  exact absurd once (by decide)

end Recode.Harness

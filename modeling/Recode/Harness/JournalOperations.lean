import Recode.Harness.JournalCalls

/-! # What each call of a journal does

Each call is described by what it leaves when it returns, when it throws and when
the process crashes in it. A crash leaves sound records at every append. -/

namespace Recode.Harness

open Brackets Procedure RecodeHarnessJournal List JournalRecord

/-- No append fails. A crash may still come before one. -/
def Reliable (outcomes : List AppendOutcome) : Prop := ∀ error, .failed error ∉ outcomes

theorem Reliable.suffix {outcomes rest : List AppendOutcome} (reliable : Reliable outcomes)
    (suffix : rest <:+ outcomes) : Reliable rest :=
  fun error member => reliable error (suffix.subset member)

/-- A crash leaves sound records, and an error what is said of it. -/
def Failing (thrown : JournalState → Prop) : Stop → JournalState → Prop
  | .crashed, state => Held state.entries state.uuids
  | .thrown _, state => thrown state

theorem perform_uuid (state : JournalState) :
    perform uuid state = (.ok state.uuids, { state with uuids := state.uuids + 1 }) := rfl

theorem perform_setJournal (change : RecodeHarnessJournal → RecodeHarnessJournal)
    (state : JournalState) :
    perform (setJournal change) state =
      (.ok (), { state with journal := change state.journal }) := rfl

theorem triple_append_bind {Result : Type} {state : JournalState} {record : JournalRecord}
    {next : Unit → JournalM Result} {after : Result → JournalState → Prop}
    {failed : Stop → JournalState → Prop} (written : Triple (· = { state with
      entries := state.entries ++ [record]
      outcomes := state.outcomes.tail }) (next ()) after failed)
    (thrown : ∀ error, state.outcomes.head? = some (.failed error) →
      failed (.thrown error) { state with outcomes := state.outcomes.tail })
    (crashed : failed .crashed state) :
    Triple (· = state) (append record >>= next) after failed := by
  refine triple_bind (triple_append record ?_ ?_ ?_) fun _ => written
  · rintro _ rfl
    rfl
  · rintro _ error rfl outcome
    exact thrown error outcome
  · rintro _ rfl
    exact crashed

variable {thrown : JournalState → Prop}

/-- The appends of a loop, when none fails, leave the records of all items or crash. -/
theorem triple_appendAll_of_reliable {Item : Type} {before : JournalState → Prop}
    {after : Unit → JournalState → Prop} (items : List Item) (record : Item → JournalRecord)
    (reliable : ∀ state, before state → Reliable state.outcomes)
    (written : ∀ state outcomes, before state → outcomes <:+ state.outcomes →
      after () { state with
        entries := state.entries ++ items.map record
        outcomes := outcomes }) (crashed : ∀ state count, before state →
      Held (state.entries ++ (items.take count).map record) state.uuids) :
    Triple before (items.forM fun item => append (record item)) after (Failing thrown) := by
  apply triple_appendAll items record written
  · intro state count error outcomes known _ outcome _
    exact absurd (mem_of_getElem? outcome) (reliable state known error)
  · intro state count outcomes known
    exact crashed state count known

/-- What interrupting some of the open work leaves. -/
structure Interrupted (before : JournalState) (works : List Work)
    (state : JournalState) : Prop where
  journal : state.journal = before.journal
  uuids : state.uuids = before.uuids
  held : Held state.entries state.uuids
  reliable : Reliable state.outcomes
  opened : ∀ work, Open state.entries work ↔ Open before.entries work ∧ work ∉ works

/-- Interrupting open works of one rank, each of which has no open children left. -/
theorem Interrupted.closeAll {before state : JournalState} {works : List Work}
    (interrupted : Interrupted before works state) {Item : Type} (items : List Item)
    (record : Item → JournalRecord) (work : Item → Work)
    (closes : ∀ item ∈ items, (record item).closes = some (work item))
    (distinct : (items.map work).Nodup) (opened : ∀ item ∈ items, Open state.entries (work item))
    (below : ∀ item ∈ items, ∀ other, Open state.entries other → work item ∉ other.ancestors)
    {outcomes : List AppendOutcome} (suffix : outcomes <:+ state.outcomes) :
    Interrupted before (works ++ items.map work) { state with
      entries := state.entries ++ items.map record
      outcomes := outcomes } := by
  have closed := interrupted.held.sound.closeAll items record work closes
    (fun item member => ⟨interrupted.held.sound.mayEnd (opened item member) (below item member),
      interrupted.held.sound.ongoing _ (opened item member)⟩) distinct
    (fun item member other member' => below item member _ (opened other member'))
  refine ⟨interrupted.journal, interrupted.uuids, ⟨closed.sound, ?_, ?_⟩,
    interrupted.reliable.suffix suffix, ?_⟩
  · intro other member
    rcases mem_append.mp member with old | new
    · exact interrupted.held.operations other old
    · obtain ⟨item, listed, rfl⟩ := mem_map.mp new
      rw [operationId_of_closes (closes item listed)]
      exact interrupted.held.lt_of_open (opened item listed)
  · intro other member turnId named
    rcases mem_append.mp member with old | new
    · exact interrupted.held.turns other old turnId named
    · obtain ⟨item, listed, rfl⟩ := mem_map.mp new
      rw [turnId?_of_closes (closes item listed)] at named
      exact interrupted.held.turnId_lt_of_open (opened item listed) named
  · intro other
    rw [mem_append, not_or, ← and_assoc, ← interrupted.opened]
    by_cases member : other ∈ items.map work
    · exact ⟨fun known => absurd known (closed.closed other member),
        fun known => absurd member known.2⟩
    · rw [Open, closed.terminals other member]
      exact ⟨fun known => ⟨known, member⟩, And.left⟩

theorem interruptAll_spec {before : JournalState} {works : List Work} {Item : Type}
    (items : List Item) (record : Item → JournalRecord) (work : Item → Work)
    (closes : ∀ item ∈ items, (record item).closes = some (work item))
    (distinct : (items.map work).Nodup)
    (opened : ∀ item ∈ items, Open before.entries (work item) ∧ work item ∉ works)
    (below : ∀ item ∈ items, ∀ other, Open before.entries other → other ∉ works →
      work item ∉ other.ancestors) :
    Triple (Interrupted before works) (items.forM fun item => append (record item))
      (fun _ => Interrupted before (works ++ items.map work)) (Failing thrown) := by
  have closeAll : ∀ state, Interrupted before works state →
      ∀ outcomes, outcomes <:+ state.outcomes →
      ∀ some_, some_ <+: items → Interrupted before (works ++ some_.map work) { state with
        entries := state.entries ++ some_.map record
        outcomes := outcomes } := by
    intro state interrupted outcomes suffix some_ part
    apply interrupted.closeAll some_ record work
    · exact fun item member => closes item (part.subset member)
    · exact distinct.sublist (part.sublist.map work)
    · exact fun item member => (interrupted.opened _).mpr (opened item (part.subset member))
    · intro item member other known
      obtain ⟨known, absent⟩ := (interrupted.opened other).mp known
      exact below item (part.subset member) other known absent
    · exact suffix
  apply triple_appendAll_of_reliable items record
  · exact fun state interrupted => interrupted.reliable
  · intro state outcomes interrupted suffix
    exact closeAll state interrupted outcomes suffix items prefix_rfl
  · intro state count interrupted
    exact (closeAll state interrupted state.outcomes suffix_rfl _
      (List.take_prefix count items)).held

/-! ## Recovery -/

section Recovery

variable {Name Value : Type} [DecidableEq Name] {map : InsertionMap Name Value}
  {entries : List JournalRecord} {name : Name → Work.Key} {work : Name × Value → Work}

theorem Sound.find_iff (sound : Sound entries)
    (find : ∀ key, (unfinishedWork entries).find (name key) =
      (map.get? key).map fun value => work (key, value)) (key : Name) (other : Work) :
    other.key = name key ∧ Open entries other ↔
      ∃ value, (key, value) ∈ map.entries ∧ work (key, value) = other := by
  rw [← sound.tracked, find, Option.map_eq_some_iff]
  simp only [InsertionMap.get?_eq_some_iff]

/-- The loop that interrupts what a recovery found under one kind of keys. -/
theorem interruptKept_spec {before : JournalState} {works : List Work}
    (sound : Sound before.entries) (map : InsertionMap Name Value) (work : Name × Value → Work)
    (find : ∀ key, (unfinishedWork before.entries).find (name key) =
      (map.get? key).map fun value => work (key, value))
    (injective : Function.Injective name) (record : Name × Value → JournalRecord)
    (closes : ∀ item, (record item).closes = some (work item)) (new : ∀ item, work item ∉ works)
    (below : ∀ item other, Open before.entries other → other ∉ works →
      work item ∉ other.ancestors) {thrown : JournalState → Prop} :
    Triple (Interrupted before works) (map.entries.forM fun item => append (record item))
      (fun _ => Interrupted before (works ++ map.entries.map work)) (Failing thrown) := by
  have listed : ∀ item ∈ map.entries,
      (work item).key = name item.1 ∧ Open before.entries (work item) := fun item member =>
    (sound.find_iff find item.1 (work item)).mpr ⟨item.2, member, rfl⟩
  apply interruptAll_spec map.entries record work (fun item _ => closes item)
  · exact nodup_of_key injective (fun item member => (listed item member).1) map.keys_nodup
  · exact fun item member => ⟨(listed item member).2, new item⟩
  · exact fun item _ => below item

end Recovery

def foundTool (item : String × Nat × ActiveTool) : Work :=
  .tool item.2.1 item.2.2.turnId item.2.2.toolCallId

def foundTurn (item : Nat × Nat) : Work := .turn item.2 item.1

def foundOperation (item : Nat × RecodeHarnessOperation) : Work := .operation item.1

/-- All works that a recovery interrupts, in its order. -/
def UnfinishedWork.found (work : UnfinishedWork) : List Work :=
  work.tools.entries.map foundTool ++ work.turns.entries.map foundTurn ++
    work.operations.entries.map foundOperation

theorem Sound.mem_found {entries : List JournalRecord} (sound : Sound entries) {work : Work}
    (known : Open entries work) : work ∈ (unfinishedWork entries).found := by
  have kept {Name Value : Type} [DecidableEq Name] {map : InsertionMap Name Value}
      {name : Name → Work.Key} {found : Name × Value → Work} (key : Name)
      (named : work.key = name key)
      (find : ∀ key, (unfinishedWork entries).find (name key) =
        (map.get? key).map fun value => found (key, value)) : work ∈ map.entries.map found := by
    obtain ⟨value, member, same⟩ := (sound.find_iff find key work).mp ⟨named, known⟩
    exact mem_map.mpr ⟨_, member, same⟩
  rw [UnfinishedWork.found, append_assoc, mem_append, mem_append]
  cases work with
  | tool operationId turnId toolCallId => exact Or.inl (kept toolCallId rfl fun _ => rfl)
  | turn operationId turnId => exact Or.inr (Or.inl (kept turnId rfl fun _ => rfl))
  | operation operationId => exact Or.inr (Or.inr (kept operationId rfl fun _ => rfl))

theorem recoverUnfinishedWork_spec {state : JournalState} (held : Held state.entries state.uuids)
    (reliable : Reliable state.outcomes) :
    Triple (· = state) recoverUnfinishedWork
      (fun _ final => final.journal = state.journal ∧ final.uuids = state.uuids ∧
        Held final.entries final.uuids ∧ Reliable final.outcomes ∧
          ∀ work, ¬ Open final.entries work) (Failing thrown) := by
  have start : Interrupted state [] state := ⟨rfl, rfl, held, reliable, by simp⟩
  have known : ∀ work, Open state.entries work → work ∈ (unfinishedWork state.entries).found :=
    fun work => held.sound.mem_found
  apply triple_get
  rintro state rfl
  refine Triple.weaken (?_ : Triple (Interrupted state []) _
    (fun _ => Interrupted state ([] ++ (unfinishedWork state.entries).found))
    (Failing thrown)) ?_ ?_ fun _ _ failed => failed
  · rw [UnfinishedWork.found, ← append_assoc, ← append_assoc]
    refine triple_bind (interruptKept_spec held.sound _ foundTool (fun _ => rfl)
      (fun first second same => Work.Key.tool.inj same)
      (fun item => .toolInterrupted item.2.1 item.2.2 .processRestart) (fun _ => rfl) (by simp)
      ?_) fun _ => ?_
    · intro item other
      cases other <;> simp [Work.ancestors, foundTool]
    refine triple_bind (interruptKept_spec held.sound _ foundTurn (fun _ => rfl)
      (fun first second same => Work.Key.turn.inj same)
      (fun item => .turnInterrupted item.2 item.1 .processRestart) (fun _ => rfl)
      (by simp [foundTurn, foundTool]) ?_) fun _ => ?_
    · intro item other open_ absent member
      have found := known other open_
      rw [nil_append] at absent
      cases other with
      | tool operationId turnId toolCallId =>
        simp [UnfinishedWork.found, absent, foundTurn, foundOperation] at found
      | _ => simp [Work.ancestors, foundTurn] at member
    refine triple_bind (interruptKept_spec held.sound _ foundOperation (fun _ => rfl)
      (fun first second same => Work.Key.operation.inj same)
      (fun item => .operationInterrupted item.1 item.2 .processRestart none) (fun _ => rfl)
      (by simp [foundTurn, foundTool, foundOperation]) ?_) fun _ => ?_
    · intro item other open_ absent member
      have found := known other open_
      rw [nil_append] at absent
      rw [UnfinishedWork.found, mem_append] at found
      cases other with
      | operation operationId => simp [Work.ancestors] at member
      | _ => simp [absent, foundOperation] at found
    exact triple_pure _ fun _ interrupted => interrupted
  · rintro _ rfl
    exact start
  · intro _ final interrupted
    refine ⟨interrupted.journal, interrupted.uuids, interrupted.held, interrupted.reliable, ?_⟩
    intro work open_
    obtain ⟨before, absent⟩ := (interrupted.opened work).mp open_
    exact absent (known work before)

/-! ## The calls -/

/-- A journal whose records it agrees with, and whose recovery, if any, was not rejected. -/
structure Good (state : JournalState) : Prop where
  agrees : Agrees state.journal state.entries state.uuids
  accepted : ∀ error, state.journal.recoveryPromise ≠ some (.error error)

variable {state : JournalState}

/-- A recovery with reliable appends succeeds, and leaves the journal recovered. -/
theorem recover_spec (good : Good state) (reliable : Reliable state.outcomes) :
    Triple (· = state) recover
      (fun _ final => Good final ∧ Reliable final.outcomes ∧ final.journal.recoveryPromise ≠ none ∧
          final.journal.activeOperation = state.journal.activeOperation) (Failing thrown) := by
  apply triple_get
  rintro state rfl
  cases promise : state.journal.recoveryPromise with
  | some result =>
    rintro _ rfl
    cases result with
    | error error => exact absurd promise (good.accepted error)
    | ok result => exact ⟨good, reliable, by simp [promise], rfl⟩
  | none =>
    have closed : Triple _ _ _ (Failing fun _ => False) :=
      recoverUnfinishedWork_spec good.agrees.held reliable
    have done := closed state rfl
    rintro state rfl
    cases run : recoverUnfinishedWork.perform state with
    | mk result final =>
      rw [run] at done
      cases result with
      | error error =>
        cases error with
        | thrown error => exact absurd done id
        | crashed => exact done
      | ok result =>
        obtain ⟨journal, uuids, held, reliable, closed⟩ := done
        have idle := good.agrees.idle promise
        have noTurn := good.agrees.activeTurnId_of_idle idle
        rw [← journal] at idle noTurn
        refine ⟨⟨Agrees.of_closed held idle noTurn ?_ closed, ?_⟩, reliable, ?_, ?_⟩
        · rw [journal]
          exact good.agrees.activeTools_of_noTurn (journal ▸ noTurn)
        · simp
        · simp
        · rw [journal]

theorem beginOperation_spec (good : Good state) (reliable : Reliable state.outcomes)
    (operation : RecodeHarnessOperation) :
    Triple (· = state) (beginOperation operation) (fun _ => Good)
      (Failing fun final => Good final ∧
        final.journal.activeOperation = state.journal.activeOperation) := by
  apply triple_bind (recover_spec good reliable)
  intro _
  apply triple_get
  rintro middle ⟨good, reliable, recovered, same⟩
  cases active : middle.journal.activeOperation with
  | some active =>
    apply triple_throw
    rintro middle rfl
    exact ⟨good, same⟩
  | none =>
    have started := good.agrees.startOperation recovered active operation
    apply triple_perform (perform_uuid middle)
    apply triple_perform (perform_setJournal _ _)
    apply triple_append
    · rintro _ rfl
      exact ⟨started, good.accepted⟩
    · rintro _ error rfl outcome
      exact absurd (mem_of_mem_head? outcome) (reliable error)
    · rintro _ rfl
      exact good.agrees.held.mono (Nat.le_succ _)

/-- An event that the journal can record: a turn starts when none is active and ends when no tool
is active, and a tool starts under an identifier that is not active. If the append of its start
fails, the turn must not have started a tool under that identifier before. -/
def Recordable (state : JournalState) : JournaledEvent → Prop
  | .turnStart => state.journal.activeTurnId = none
  | .turnEnd _ => ∀ toolCallId, state.journal.activeTools.get? toolCallId = none
  | .toolExecutionStart toolCallId _ => state.journal.activeTools.get? toolCallId = none ∧
      ∀ error, state.outcomes.head? = some (.failed error) → ∀ operation turnId,
        state.journal.activeOperation = some operation → state.journal.activeTurnId = some turnId →
          terminals (.tool operation.id turnId toolCallId) state.entries = none
  | _ => True

def Continues (state final : JournalState) : Prop :=
  Good final ∧ final.journal.activeOperation = state.journal.activeOperation

theorem recordAgentEvent_spec (good : Good state) (event : JournaledEvent)
    (recordable : Recordable state event) :
    Triple (· = state) (recordAgentEvent event) (fun _ => Continues state)
      (Failing (Continues state)) := by
  have unchanged : Triple (· = state) (pure ()) (fun _ => Continues state)
      (Failing (Continues state)) := triple_done (perform_pure () state) ⟨good, rfl⟩
  apply triple_get
  rintro state rfl
  cases current : state.journal.activeOperation with
  | none => exact unchanged
  | some operation =>
    cases event with
    | other => exact unchanged
    | turnStart =>
      obtain ⟨unwritten, started⟩ := good.agrees.startTurn current recordable
      apply triple_perform (perform_uuid state)
      apply triple_perform (perform_setJournal _ _)
      apply triple_append
      · rintro _ rfl
        exact ⟨⟨started, good.accepted⟩, rfl⟩
      · rintro _ error rfl _
        exact ⟨⟨unwritten, good.accepted⟩, rfl⟩
      · rintro _ rfl
        exact good.agrees.held.mono (Nat.le_succ _)
    | turnEnd stopReason =>
      cases turn : state.journal.activeTurnId with
      | none => exact unchanged
      | some turnId =>
        have closed := good.agrees.finishTurn current turn recordable
          (rfl : (turnFinished operation.id turnId
            ((stopReason.map outcomeFromMessage).getD .success)).closes = _)
        apply triple_append_bind
        · exact triple_done (perform_setJournal _ _) ⟨⟨closed, good.accepted⟩, rfl⟩
        · exact fun error _ => ⟨⟨good.agrees, good.accepted⟩, rfl⟩
        · exact good.agrees.held
    | toolExecutionStart toolCallId toolName =>
      cases turn : state.journal.activeTurnId with
      | none => exact unchanged
      | some turnId =>
        obtain ⟨unused, new⟩ := recordable
        have started := good.agrees.startTool current turn unused toolName
        apply triple_perform (perform_setJournal _ _)
        apply triple_append
        · rintro _ rfl
          exact ⟨⟨started, good.accepted⟩, rfl⟩
        · rintro _ error rfl outcome
          have unwritten := good.agrees.insertTool current turn unused toolName
            (new error outcome operation turnId current turn)
          exact ⟨⟨unwritten, good.accepted⟩, rfl⟩
        · rintro _ rfl
          exact good.agrees.held
    | toolExecutionEnd toolCallId isError =>
      cases found : state.journal.activeTools.get? toolCallId with
      | none =>
        simp only [found]
        exact unchanged
      | some tool =>
        have closed := good.agrees.finishTool current found
          (rfl : (toolFinished operation.id tool isError).closes = _)
        simp only [found]
        apply triple_append_bind
        · exact triple_done (perform_setJournal _ _) ⟨⟨closed, good.accepted⟩, rfl⟩
        · exact fun error _ => ⟨⟨good.agrees, good.accepted⟩, rfl⟩
        · exact good.agrees.held

/-- Of the appends for the active tools, at most the first fails. -/
def Spared (state : JournalState) : Prop :=
  ∀ error, .failed error ∉ (state.outcomes.take state.journal.activeTools.entries.length).tail

def Fails (state : JournalState) : Prop := ∃ error, .failed error ∈ state.outcomes

theorem Reliable.spared (reliable : Reliable state.outcomes) : Spared state :=
  fun error member => reliable error (mem_of_mem_take (mem_of_mem_tail member))

/-- Closing what an operation has open. When an append fails the work before it is closed. -/
theorem finishOpenChildren_spec (good : Good state) (spared : Spared state)
    {operation : ActiveOperation} (current : state.journal.activeOperation = some operation)
    (reason : InterruptReason)
    (harmless : ∀ final, Continues state final → Fails state → thrown final) :
    Triple (· = state) (finishOpenChildren reason)
      (fun _ final => Continues state final ∧ final.journal.activeTurnId = none ∧
        final.outcomes <:+ state.outcomes) (Failing thrown) := by
  have required : perform requireActiveOperation state = (.ok operation, state) := by
    simp [requireActiveOperation, current]
  apply triple_perform required
  apply triple_get
  rintro state rfl
  have tools := good.agrees.finishTools current reason
  have closeTools : Triple (· = state)
      (state.journal.activeTools.entries.forM fun item =>
        append (.toolInterrupted operation.id item.2 reason))
      (fun _ final => ∃ outcomes, outcomes <:+ state.outcomes ∧ final = { state with
          entries := state.entries ++ state.journal.activeTools.entries.map fun item =>
            .toolInterrupted operation.id item.2 reason
          outcomes := outcomes }) (Failing thrown) := by
    apply triple_appendAll
    · rintro _ outcomes rfl suffix
      exact ⟨outcomes, suffix, rfl⟩
    · rintro _ count error outcomes rfl below outcome suffix
      refine harmless _ ?_ ⟨error, mem_of_getElem? outcome⟩
      cases count with
      | zero =>
        rw [take_zero, map_nil, append_nil]
        exact ⟨⟨good.agrees, good.accepted⟩, rfl⟩
      | succ count =>
        refine absurd (mem_of_getElem? (i := count) ?_) (spared error)
        rw [getElem?_tail, getElem?_take, if_pos below]
        exact outcome
    · rintro _ count outcomes rfl
      exact (good.agrees.closeTools current reason (List.take_prefix count _)).2
  apply triple_bind closeTools
  intro _
  apply triple_each
  rintro _ ⟨outcomes, suffix, rfl⟩
  apply triple_perform (perform_setJournal _ _)
  apply triple_get
  rintro _ rfl
  cases turn : state.journal.activeTurnId with
  | none =>
    rw [turn] at tools
    exact triple_done (perform_pure _ _) ⟨⟨⟨tools, good.accepted⟩, rfl⟩, rfl, suffix⟩
  | some turnId =>
    rw [turn] at tools
    have closed := tools.finishTurn current rfl (fun _ => InsertionMap.get?_empty _)
      (rfl : (turnInterrupted operation.id turnId reason).closes = _)
    apply triple_append_bind
    · exact triple_done (perform_setJournal _ _)
        ⟨⟨⟨closed, good.accepted⟩, rfl⟩, rfl, (tail_suffix _).trans suffix⟩
    · intro error outcome
      exact harmless _ ⟨⟨tools, good.accepted⟩, rfl⟩
        ⟨error, suffix.subset (mem_of_mem_head? outcome)⟩
    · exact tools.held

theorem closeOperation_spec (good : Good state) (spared : Spared state)
    (record : ActiveOperation → JournalRecord)
    (closes : ∀ operation, (record operation).closes = some (.operation operation.id))
    (harmless : ∀ final, Continues state final → Fails state → thrown final)
    (idle : state.journal.activeOperation = none → thrown state) :
    Triple (· = state)
      (do
        let operation ← requireActiveOperation
        finishOpenChildren .operationFailed
        append (record operation)
        setJournal fun journal => { journal with activeOperation := none })
      (fun _ final => Good final ∧ final.journal.activeOperation = none) (Failing thrown) := by
  cases current : state.journal.activeOperation with
  | none =>
    have missing : perform requireActiveOperation state =
        (.error (invalidState "No journal operation is active"), state) := by
      simp [requireActiveOperation, current]
    rintro state rfl
    rw [perform_bind_error missing]
    exact idle current
  | some operation =>
    have required : perform requireActiveOperation state = (.ok operation, state) := by
      simp [requireActiveOperation, current]
    apply triple_perform required
    apply triple_bind (finishOpenChildren_spec good spared current .operationFailed harmless)
    intro _
    apply triple_each
    rintro middle ⟨⟨good, same⟩, noTurn, suffix⟩
    have running := same.trans current
    have closed := good.agrees.finishOperation running noTurn (closes operation)
    apply triple_append_bind
    · exact triple_done (perform_setJournal _ _) ⟨⟨closed, good.accepted⟩, rfl⟩
    · intro error outcome
      exact harmless _ ⟨⟨good.agrees, good.accepted⟩, same⟩
        ⟨error, suffix.subset (mem_of_mem_head? outcome)⟩
    · exact good.agrees.held

theorem finishOperation_spec (good : Good state) (spared : Spared state)
    (outcome : RecodeHarnessOperationOutcome) (error : Option RecodeHarnessJournalError) :
    Triple (· = state) (finishOperation outcome error)
      (fun _ final => Good final ∧ final.journal.activeOperation = none)
      (Failing (Continues state)) :=
  closeOperation_spec good spared
    (fun operation => .operationFinished operation.id operation.operation outcome error)
    (fun _ => rfl) (fun _ continues _ => continues) fun _ => ⟨good, rfl⟩

theorem interruptOperation_spec (good : Good state) (reliable : Reliable state.outcomes)
    (error : RecodeHarnessJournalError) :
    Triple (· = state) (interruptOperation error)
      (fun _ final => Good final ∧ final.journal.activeOperation = none)
      (Failing fun final => Good final ∧ final.journal.activeOperation = none) :=
  closeOperation_spec good reliable.spared
    (fun operation => .operationInterrupted operation.id operation.operation .operationFailed
      (some error))
    (fun _ => rfl) (fun _ _ fails => absurd fails.choose_spec (reliable _)) fun idle => ⟨good, idle⟩

end Recode.Harness

import Recode.Lib.Procedure
import Recode.Lib.Series
import Recode.SessionV4.ToolBatch

/-! # Attempts and prefixes of a log

The attempts of an operation fall into series: an attempt goes on with the step of the previous
one while the result of that step is missing. An accepted log numbers every series from one on,
so that recovery can read how often the current step was tried. After a crash it sees a prefix of
the log. -/

namespace Recode.SessionV4
namespace Recovery

open Series List InsertionMap Procedure

namespace RecordLogSlice

variable (input : RecordLogSlice)

def attemptsOf (operationId : String) : List StepAttemptRecord :=
  (input.ordered.filterMap LaneRecord.attempt?).filter fun record => record.runId = operationId

def startsSeries (previous record : StepAttemptRecord) : Bool :=
  previous.step ≠ record.step ||
    input.entries.any fun entry => entry.id = previous.resultEntryId && entry.seq < record.seq

def attemptSeries (operationId : String) : List (List StepAttemptRecord) :=
  (input.attemptsOf operationId).splitBy fun previous record => !input.startsSeries previous record

def upTo (n : Nat) : RecordLogSlice where
  lane := input.lane
  openOperations := input.openOperations.filter fun operation => operation.seq ≤ n
  records := input.records.filter fun record => record.seq ≤ n
  entries := input.entries.filter fun entry => entry.seq ≤ n

def StartsFollowAnswers : Prop :=
  ∀ start, .toolStarted start ∈ input.records → ∀ entry ∈ input.entries,
    entry.id = start.assistantEntryId → entry.seq ≤ start.seq

variable {input}

theorem get?_entriesById (distinct : (input.entries.map fun entry => entry.id).Nodup)
    {id : String} {entry : Entry} :
    input.entriesById.get? id = some entry ↔ entry ∈ input.entries ∧ entry.id = id := by
  constructor
  · intro found
    have known := key_of_get?_indexBy _ _ found
    exact ⟨known.2, known.1⟩
  · intro present
    obtain ⟨member, rfl⟩ := present
    exact get?_indexBy_of_mem _ distinct member

/-- The check of the numbers continues a series exactly when no new one starts. -/
theorem continuesSeries_eq (distinct : (input.entries.map fun entry => entry.id).Nodup)
    (previous record : StepAttemptRecord) :
    continuesSeries input.entriesById record previous = !input.startsSeries previous record := by
  rw [continuesSeries, startsSeries, Bool.not_or, Bool.eq_iff_iff, Bool.and_eq_true,
    Bool.and_eq_true, Bool.not_eq_true', Bool.not_eq_true', any_eq_false]
  refine and_congr (by simp) ?_
  cases found : input.entriesById.get? previous.resultEntryId with
  | none =>
    refine iff_of_true rfl fun entry member earlier => ?_
    rw [Bool.and_eq_true, decide_eq_true_eq] at earlier
    rw [(get?_entriesById distinct).mpr ⟨member, earlier.1⟩] at found
    cases found
  | some result =>
    have known := (get?_entriesById distinct).mp found
    rw [Option.all_some, decide_eq_true_eq]
    constructor
    · intro later entry member earlier
      rw [Bool.and_eq_true, decide_eq_true_eq, decide_eq_true_eq] at earlier
      have same := (get?_entriesById distinct).mpr ⟨member, earlier.1⟩
      rw [found, Option.some_inj] at same
      subst same
      omega
    · intro later
      have late := later result known.1
      rw [known.2] at late
      simpa using late

end RecordLogSlice

theorem numbered_attempts {isDeepEqual : ProvisionedEntry → ProvisionedEntry → Bool}
    {entriesById : EntryIndex} {records : List LaneRecord}
    (passes : ∀ before record after, records = before ++ record :: after →
      LogScan.Passes isDeepEqual entriesById before record) (runId : String) :
    Numbered (fun record : StepAttemptRecord => record.attempt)
      (fun previous record => continuesSeries entriesById record previous)
      ((records.filterMap LaneRecord.attempt?).filter fun record => record.runId = runId) := by
  induction records using reverseRecOn with
  | nil => exact numbered_nil
  | append_singleton records last ih =>
    have front := ih fun before record after split =>
      passes before record (after ++ [last]) (by rw [split]; simp)
    rw [filterMap_append, filter_append]
    cases last with
    | stepAttempt attempt =>
      change Numbered _ _ (_ ++ filter _ [attempt])
      by_cases ofRun : attempt.runId = runId
      · subst ofRun
        rw [filter_singleton, decide_eq_true rfl, cond_true]
        refine front.concat ?_
        obtain ⟨_, -, checked⟩ := bind_eq_ok (passes records _ [] rfl).2
        obtain ⟨_, numbered, -⟩ := bind_eq_ok checked
        rw [LogScan.latestAttempt_ofRecords, get?_indexBy,
          ← getLast?_filter] at numbered
        generalize (filter _ _).getLast? = previous at numbered ⊢
        by_cases number : attempt.attempt = expectedAttempt entriesById attempt previous
        · rw [number]
          cases previous with
          | none => rfl
          | some previous =>
            by_cases goesOn : continuesSeries entriesById attempt previous = true
            · simp [expectedAttempt, numberAfter, Option.filter, goesOn]
            · simp [expectedAttempt, numberAfter, Option.filter, goesOn]
        · unfold validateAttemptSequence at numbered
          simp only [if_pos (show attempt.attempt ≠ _ from number)] at numbered
          cases numbered
      · rw [filter_singleton, decide_eq_false ofRun, cond_false, append_nil]
        exact front
    | _ => exact (append_nil _).symm ▸ front

def CutAt (n : Nat) (whole part : EntryIndex) : Prop :=
  ∀ id, part.get? id = (whole.get? id).filter fun entry => entry.seq ≤ n

section Cut

variable {isDeepEqual : ProvisionedEntry → ProvisionedEntry → Bool} {n : Nat}
  {whole part : EntryIndex}

theorem CutAt.found (cut : CutAt n whole part) {id : String} {entry : Entry}
    (found : part.get? id = some entry) : whole.get? id = some entry := by
  rw [cut id] at found
  exact (Option.filter_eq_some_iff.mp found).1

theorem validateExactProvisionedEntry_cut (cut : CutAt n whole part) {target : ProvisionedEntry}
    (passed : validateExactProvisionedEntry isDeepEqual whole target = .ok ()) :
    validateExactProvisionedEntry isDeepEqual part target = .ok () := by
  unfold validateExactProvisionedEntry at *
  cases found : part.get? target.id with
  | none => rfl
  | some entry =>
    rw [cut.found found] at passed
    exact passed

theorem validateResultEntry_cut (cut : CutAt n whole part) {resultEntryId description : String}
    {matchesResult : Entry → Bool}
    (passed : validateResultEntry whole resultEntryId matchesResult description = .ok ()) :
    validateResultEntry part resultEntryId matchesResult description = .ok () := by
  unfold validateResultEntry at *
  cases found : part.get? resultEntryId with
  | none => rfl
  | some entry =>
    rw [cut.found found] at passed
    exact passed

theorem validateOperationResult_cut (cut : CutAt n whole part) {record : OperationStartedRecord}
    (passed : validateOperationResult isDeepEqual whole record = .ok ()) :
    validateOperationResult isDeepEqual part record = .ok () := by
  unfold validateOperationResult at *
  cases intent : record.intent with
  | run originalPrompt initialMessages systemPromptOverride resumeData =>
    rw [intent] at passed
    exact forM_ok fun target member =>
      validateExactProvisionedEntry_cut cut (forM_eq_ok passed target member)
  | compaction customInstructions resultEntryId =>
    rw [intent] at passed
    exact validateResultEntry_cut cut passed
  | navigation targetId summarize customInstructions label summaryEntryId =>
    rw [intent] at passed
    simp only [] at passed ⊢
    cases named : Text.truthy summaryEntryId with
    | none => rfl
    | some id =>
      rw [named] at passed
      exact validateResultEntry_cut cut passed

variable {record : StepAttemptRecord}

theorem continuesSeries_cut (cut : CutAt n whole part)
    (inside : record.seq ≤ n) (previous : StepAttemptRecord) :
    continuesSeries part record previous = continuesSeries whole record previous := by
  unfold continuesSeries
  rw [cut previous.resultEntryId]
  congr 1
  cases whole.get? previous.resultEntryId with
  | none => rfl
  | some result =>
    by_cases kept : result.seq ≤ n
    · simp [Option.filter, kept]
    · have later : record.seq ≤ result.seq := by omega
      simp [Option.filter, kept, later]

theorem validateAttemptSequence_cut (cut : CutAt n whole part)
    (inside : record.seq ≤ n) (previous : Option StepAttemptRecord) :
    validateAttemptSequence part record previous =
      validateAttemptSequence whole record previous := by
  have same : continuesSeries part record = continuesSeries whole record :=
    funext (continuesSeries_cut cut inside)
  rw [validateAttemptSequence, validateAttemptSequence, expectedAttempt, expectedAttempt, same]

theorem validateAttemptResult_cut (cut : CutAt n whole part)
    (passed : validateAttemptResult whole record = .ok ()) :
    validateAttemptResult part record = .ok () := by
  unfold validateAttemptResult at *
  cases step : record.step with
  | assistant =>
    rw [step] at passed
    exact validateResultEntry_cut cut passed
  | compaction =>
    rw [step] at passed
    exact validateResultEntry_cut cut passed
  | branchSummary =>
    rw [step] at passed
    exact validateResultEntry_cut cut passed

theorem validateToolStart_cut (cut : CutAt n whole part) {record : ToolStartedRecord}
    {invocations : List (String × Nat)}
    (answered : ∀ entry, whole.get? record.assistantEntryId = some entry → entry.seq ≤ n)
    (passed : validateToolStart whole record invocations = .ok ()) :
    validateToolStart part record invocations = .ok () := by
  unfold validateToolStart at *
  by_cases known : (record.assistantEntryId, record.toolIndex) ∈ invocations
  · rw [if_pos known] at passed
    cases passed
  rw [if_neg known] at passed ⊢
  obtain ⟨_, called, result⟩ := bind_eq_ok passed
  have sameAnswer : part.get? record.assistantEntryId = whole.get? record.assistantEntryId := by
    rw [cut record.assistantEntryId]
    cases found : whole.get? record.assistantEntryId with
    | none => rfl
    | some entry => simp [Option.filter, answered entry found]
  have sameCall : validateToolCall part record = .ok () := by
    unfold validateToolCall at called ⊢
    rw [sameAnswer]
    exact called
  rw [sameCall]
  exact validateResultEntry_cut cut result

theorem LogScan.Passes.cut (cut : CutAt n whole part) {before : List LaneRecord}
    {record : LaneRecord} (inside : record.seq ≤ n)
    (answered : ∀ start, record = .toolStarted start → ∀ entry,
      whole.get? start.assistantEntryId = some entry → entry.seq ≤ n)
    (passes : LogScan.Passes isDeepEqual whole before record) :
    LogScan.Passes isDeepEqual part before record := by
  obtain ⟨ofRun, checked⟩ := passes
  refine ⟨ofRun, ?_⟩
  cases record with
  | operationStarted record => exact validateOperationResult_cut cut checked
  | operationFinished record => exact checked
  | abortRequested record => exact checked
  | stepAttempt record =>
    obtain ⟨_, reason, numbered⟩ := bind_eq_ok checked
    obtain ⟨_, sequence, result⟩ := bind_eq_ok numbered
    rw [← validateAttemptSequence_cut cut inside] at sequence
    change (do
      validateAttemptReason record
      validateAttemptSequence part record _
      validateAttemptResult part record) = _
    rw [reason, sequence]
    exact validateAttemptResult_cut cut result
  | toolStarted record => exact validateToolStart_cut cut (answered record rfl) checked
  | queueEnqueued record =>
    obtain ⟨_, enqueued, provided⟩ := bind_eq_ok checked
    change (do
      (LogScan.ofRecords before).validateEnqueue record
      validateExactProvisionedEntry isDeepEqual part record.target) = _
    rw [enqueued]
    exact validateExactProvisionedEntry_cut cut provided
  | queueCancelled record =>
    change (LogScan.ofRecords before).validateCancellation whole record = .ok () at checked
    change (LogScan.ofRecords before).validateCancellation part record = .ok ()
    unfold LogScan.validateCancellation at *
    cases queued : (LogScan.ofRecords before).queueEnqueues.get? record.entryId with
    | none =>
      rw [queued] at checked
      cases checked
    | some item =>
      rw [queued] at checked
      simp only [] at checked ⊢
      by_cases refused : item.seq ≥ record.seq ∨ item.place.runId ≠ record.runId ∨
          whole.contains record.entryId = true
      · rw [if_pos refused] at checked
        cases checked
      · rw [if_neg]
        intro stored
        apply refused
        rcases stored with early | otherRun | stored
        · exact .inl early
        · exact .inr (.inl otherRun)
        · obtain ⟨entry, found⟩ := Option.isSome_iff_exists.mp stored
          exact .inr (.inr (Option.isSome_iff_exists.mpr ⟨entry, cut.found found⟩))
  | writeDeferred record => exact validateExactProvisionedEntry_cut cut checked
  | usage record => exact checked

end Cut

/-- The ordered values up to a number are the first ones. -/
theorem bySequence_upTo {Item : Type} {seqOf : Item → Nat} {items : List Item}
    (distinct : (items.map seqOf).Nodup) (n : Nat) :
    ∃ later, bySequence seqOf items =
      bySequence seqOf (items.filter fun item => seqOf item ≤ n) ++ later := by
  refine ⟨(bySequence seqOf items).filter fun item => n < seqOf item, ?_⟩
  have early := bySequence_pairwise seqOf (items.filter fun item => seqOf item ≤ n)
  have late := (bySequence_pairwise seqOf items).filter fun item => n < seqOf item
  refine List.Perm.eq_of_pairwise ?_ (bySequence_pairwise seqOf items)
    (pairwise_append.mpr ⟨early, late, ?_⟩) ?_
  · intro left right inLeft inRight before after
    have member := (bySequence_perm seqOf items).mem_iff.mp inLeft
    have member' : right ∈ items := by
      rcases mem_append.mp inRight with front | back
      · exact (mem_filter.mp ((bySequence_perm _ _).mem_iff.mp front)).1
      · exact (bySequence_perm seqOf items).mem_iff.mp (mem_filter.mp back).1
    exact inj_on_of_nodup_map distinct member member' (Nat.le_antisymm before after)
  · intro left inLeft right inRight
    have small := (mem_filter.mp ((bySequence_perm _ _).mem_iff.mp inLeft)).2
    have large := (mem_filter.mp inRight).2
    simp only [decide_eq_true_eq] at small large
    omega
  · refine (bySequence_perm seqOf items).trans ?_
    have parts := filter_append_perm (fun item => decide (seqOf item ≤ n)) items
    refine parts.symm.trans (List.Perm.append (bySequence_perm _ _).symm ?_)
    have rest : (items.filter fun item => !decide (seqOf item ≤ n)) =
        items.filter fun item => n < seqOf item := by
      apply filter_congr
      intro item _
      rw [Bool.eq_iff_iff, Bool.not_eq_true', decide_eq_false_iff_not, decide_eq_true_eq]
      exact Nat.not_le
    rw [rest]
    exact ((bySequence_perm seqOf items).filter _).symm

namespace RecordLogSlice

variable {input : RecordLogSlice}

theorem cutAt_upTo (distinct : (input.entries.map fun entry => entry.id).Nodup) (n : Nat) :
    CutAt n input.entriesById (input.upTo n).entriesById := by
  intro id
  have distinctPart : ((input.upTo n).entries.map fun entry => entry.id).Nodup :=
    distinct.sublist (filter_sublist.map _)
  apply Option.ext
  intro entry
  rw [get?_entriesById distinctPart, Option.filter_eq_some_iff, get?_entriesById distinct, upTo,
    mem_filter]
  tauto

theorem accepted_upTo {isDeepEqual : ProvisionedEntry → ProvisionedEntry → Bool}
    (distinctRecords : (input.records.map LaneRecord.seq).Nodup)
    (distinct : (input.entries.map fun entry => entry.id).Nodup)
    (accepted : validateRecordLog isDeepEqual input = .ok ()) (follow : input.StartsFollowAnswers)
    (n : Nat) : validateRecordLog isDeepEqual (input.upTo n) = .ok () := by
  obtain ⟨single, handles, passes⟩ := (validateRecordLog_eq_ok isDeepEqual input).mp accepted
  have cut := cutAt_upTo distinct n
  refine (validateRecordLog_eq_ok isDeepEqual _).mpr ⟨?_, ?_, ?_⟩
  · exact Nat.le_trans (length_filter_le _ _) single
  · refine forM_ok fun entry member => ?_
    refine forM_eq_ok handles entry ?_
    exact (mem_values_indexBy _ _).mpr
      (cut.found ((mem_values_indexBy _ _).mp member))
  · intro before record after split
    obtain ⟨later, whole⟩ := bySequence_upTo distinctRecords n
    have listed : record ∈ (input.upTo n).ordered := by
      rw [split]
      exact mem_append_right before mem_cons_self
    have kept := (bySequence_perm LaneRecord.seq _).mem_iff.mp listed
    obtain ⟨member, inside⟩ := mem_filter.mp kept
    rw [decide_eq_true_eq] at inside
    refine (passes before record (after ++ later) ?_).cut cut inside ?_
    · rw [ordered, whole, ← cons_append, ← append_assoc, ← split]
      rfl
    · rintro start rfl entry found
      obtain ⟨stored, named⟩ := (get?_entriesById distinct).mp found
      exact Nat.le_trans (follow start member entry stored named) inside

/-- A tool start that comes before its answer makes the prefix up to it fail. -/
theorem startsFollowAnswers_of_prefixes {isDeepEqual : ProvisionedEntry → ProvisionedEntry → Bool}
    (distinct : (input.entries.map fun entry => entry.id).Nodup)
    (prefixes : ∀ n, validateRecordLog isDeepEqual (input.upTo n) = .ok ()) :
    input.StartsFollowAnswers := by
  intro start recorded entry stored named
  by_contra early
  obtain ⟨-, -, passes⟩ := (validateRecordLog_eq_ok isDeepEqual _).mp (prefixes start.seq)
  have kept : .toolStarted start ∈ (input.upTo start.seq).ordered :=
    (bySequence_perm LaneRecord.seq _).mem_iff.mpr
      (mem_filter.mpr ⟨recorded, decide_eq_true (Nat.le_refl start.seq)⟩)
  obtain ⟨before, after, split⟩ := append_of_mem kept
  have checked := (passes before _ after split).2
  have missing : (input.upTo start.seq).entriesById.get? start.assistantEntryId = none := by
    rw [cutAt_upTo distinct start.seq, (get?_entriesById distinct).mpr ⟨stored, named⟩]
    simp [Option.filter, early]
  change validateToolStart _ start _ = .ok () at checked
  unfold validateToolStart at checked
  by_cases known : (start.assistantEntryId, start.toolIndex) ∈
      (LogScan.ofRecords before).toolInvocations
  · rw [if_pos known] at checked
    cases checked
  · rw [if_neg known] at checked
    obtain ⟨_, called, -⟩ := bind_eq_ok checked
    rw [validateToolCall, missing] at called
    cases called

end RecordLogSlice

/-- Attempt counting survives any prefix: the attempts of every operation are numbered in their
series, the step of the open operation is the series of its newest attempt while the result is
missing, and every prefix is accepted. -/
structure AttemptsSurvive (isDeepEqual : ProvisionedEntry → ProvisionedEntry → Bool)
    (input : LaneReductionInput) : Prop where
  series : ∀ operationId, ∀ series ∈ input.attemptSeries operationId,
    series.map (fun record => record.attempt) = range' 1 series.length
  step : ∃ result, reduceLaneState isDeepEqual input = .ok result ∧
    ∀ operation, result.laneState.operation = some operation →
      (operation.step = none ↔ ∀ newest, (input.attemptsOf operation.id).getLast? = some newest →
        ∃ entry ∈ input.entries ++ input.ownEntries, entry.id = newest.resultEntryId) ∧
      ∀ step, operation.step = some step →
        (input.attemptSeries operation.id).getLast?.map length = some step.attempts
  prefixes : ∀ n, validateRecordLog isDeepEqual (input.upTo n) = .ok ()

namespace LaneReductionInput

variable (input : LaneReductionInput)

theorem attempts_eq (operationId : String) :
    input.attempts operationId = input.attemptsOf operationId := by
  unfold attempts operationRecords RecordLogSlice.attemptsOf
  rw [filterMap_filter, filter_filterMap]
  congr 1
  funext record
  cases record with
  | stepAttempt record => simp [LaneRecord.runId, LaneRecord.attempt?, Option.filter]
  | operationStarted record => simp [LaneRecord.attempt?]
  | _ => simp [LaneRecord.attempt?]

theorem contains_allById (id : String) : input.allById.contains id = true ↔
    ∃ entry ∈ input.entries ++ input.ownEntries, entry.id = id := by
  rw [InsertionMap.contains, allById, isSome_get?_indexBy, mem_map]
  have listed (entry : Entry) :
      entry ∈ input.entries ++ input.orderedOwn ↔ entry ∈ input.entries ++ input.ownEntries := by
    rw [mem_append, mem_append, orderedOwn, (bySequence_perm _ _).mem_iff]
  simp only [listed]

end LaneReductionInput

section Example

def earlyStart : LaneReductionInput :=
  laneOf [startedRun 1]
    [.operationStarted (startedRun 1),
      .toolStarted ⟨⟨"start", 2, "main", 0⟩, "run", "answer", 0, "first", "read", [], "result",
        .safe⟩]
    [{ twoCalls "first" "second" with seq := 3 }]

def triedTwice : LaneReductionInput :=
  laneOf [startedRun 1]
    [.operationStarted (startedRun 1),
      .stepAttempt ⟨⟨"attempt 1", 2, "main", 0⟩, "run", .assistant, 1, "answer", none⟩,
      .stepAttempt ⟨⟨"attempt 2", 3, "main", 0⟩, "run", .assistant, 2, "answer", none⟩] []

end Example

end Recovery
end Recode.SessionV4

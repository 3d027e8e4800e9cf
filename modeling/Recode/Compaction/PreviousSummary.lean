import Recode.CodingAgent.Compaction

/-! # The previous summary

A compaction hands the summary of the previous compaction to the request that
updates it. When the cut splits a turn that nothing precedes, no such request is
sent, and the previous summary is left out. Both implementations behave alike. -/

namespace Recode

open Text Option FileOperations CompactionData List

/-- A compaction keeps a text: whenever it succeeds, it sent the text to the model or has
it in its summary. -/
def KeepsText {Error Result : Type} (summaryOf : Result → String)
    (compact : (SummarizationRequest → AssistantMessage) → SummaryOptions →
      List SummarizationRequest × Except Error Result) (text : String) : Prop :=
  ∀ summarize options result, (compact summarize options).2 = .ok result →
    (∃ request ∈ (compact summarize options).1, Contains request.promptText text) ∨
      Contains (summaryOf result) text

/-- The text occurs by itself in what a compaction writes about the beginning of a turn. -/
def OccursAnyway (turnPrefixMessages : List AgentMessage) (fileOps : FileOperations)
    (text : String) : Prop :=
  Contains (conversationText turnPrefixMessages ++ turnPrefixSummarizationPrompt) text ∨
    Contains (noPriorHistory ++ turnContextHeading) text ∨
      Contains (formatFileOperations (computeFileLists fileOps).1
        (computeFileLists fileOps).2) text

namespace PreparationRules

variable (rules : PreparationRules) (pathEntries : List SessionTreeEntry)
  (settings : CompactionSettings)

/-- The messages of the turn that the cut splits, when no message since the boundary
precedes the turn. -/
def leadingTurnPrefix : Option (List AgentMessage) :=
  let cut := rules.cutPoint pathEntries settings
  cut.turnStartIndex.bind fun turnStartIndex =>
    let turnPrefix := rules.messagesBetween pathEntries turnStartIndex cut.firstKeptEntryIndex
    if (rules.messagesBetween pathEntries (boundaryStart pathEntries) turnStartIndex).isEmpty &&
        !turnPrefix.isEmpty then
      some turnPrefix
    else none

/-- The previous summary is dropped: the cut splits a turn that nothing precedes, and the
summary does not occur in what is written about that turn anyway. -/
def DropsText (text : String) : Prop :=
  ∃ turnPrefix, rules.leadingTurnPrefix pathEntries settings = some turnPrefix ∧
    ¬ OccursAnyway turnPrefix
      (turnPrefix.foldl extractFileOpsFromMessage
        (extractFileOperations [] (prevCompaction pathEntries))) text

end PreparationRules

theorem contains_summaryRequest (options : SummaryOptions) (settings : CompactionSettings)
    (messages : List AgentMessage) (previous : String) :
    Contains (summaryRequest options settings messages (some previous)).promptText previous := by
  by_cases empty : previous = ""
  · exact empty ▸ contains_empty _
  · have kept : truthy (some previous) = some previous := by simp [truthy, empty]
    change Contains (conversationText messages ++ _ ++ _) previous
    rw [kept]
    exact ((contains_middle _ previous _).append_left _).append_right _

/-- A text that no answer can end up in stays out of the summary of some answer. -/
theorem exists_answer_without {before after text : String}
    (inside : ∀ answer, Contains (before ++ answer ++ after) text) :
    Contains before text ∨ Contains after text := by
  have filler : ∃ char, text.toList.head? ≠ some char ∧ text.toList.getLast? ≠ some char := by
    by_cases first : text.toList.head? ≠ some 'a' ∧ text.toList.getLast? ≠ some 'a'
    · exact ⟨'a', first⟩
    by_cases second : text.toList.head? ≠ some 'b' ∧ text.toList.getLast? ≠ some 'b'
    · exact ⟨'b', second⟩
    refine ⟨'c', fun head => ?_, fun last => ?_⟩
    · rw [head] at first second
      simp_all
    · rw [last] at first second
      simp_all
  obtain ⟨char, begins, ends⟩ := filler
  have found := inside (String.ofList (replicate text.toList.length char))
  unfold Contains at found
  rw [String.toList_append, String.toList_append, String.toList_ofList] at found
  refine infix_beside_filler found (by simp) ?_ ?_
  · intro other member
    rwa [eq_of_mem_replicate member]
  · intro other member
    rwa [eq_of_mem_replicate member]

theorem map_eq_ok {Error Source Target : Type} {run : Except Error Source} {f : Source → Target}
    {target : Target} (done : run.map f = .ok target) :
    ∃ source, run = .ok source ∧ f source = target := by
  cases run with
  | error error => cases done
  | ok source => exact ⟨source, rfl, Except.ok.inj done⟩

section Summarize

variable {Error : Type}
  {readAnswer : String → AssistantMessage → Except Error (String × Usage)}
  {preparation : CompactionPreparation}

theorem keepsText_of_request {previous : String}
    (known : preparation.previousSummary = some previous)
    (asks : ¬ (preparation.isSplitTurn ∧ preparation.turnPrefixMessages.isEmpty = false ∧
      preparation.messagesToSummarize.isEmpty)) :
    KeepsText CompactionSummary.summary
      (fun summarize options => summarizePreparation readAnswer summarize options preparation)
      previous := by
  intro summarize options result done
  left
  by_cases split : preparation.isSplitTurn ∧ preparation.turnPrefixMessages.isEmpty = false
  · have history : preparation.messagesToSummarize.isEmpty = false :=
      Bool.eq_false_iff.mpr fun empty => asks ⟨split.1, split.2, empty⟩
    refine ⟨summaryRequest options preparation.settings preparation.messagesToSummarize
      preparation.previousSummary, ?_, known ▸ contains_summaryRequest _ _ _ _⟩
    simp only [summarizePreparation, if_pos split, historyPart, history]
    cases readAnswer "Summarization" (summarize (summaryRequest options preparation.settings
      preparation.messagesToSummarize preparation.previousSummary)) <;> simp [Except.map]
  · refine ⟨summaryRequest options preparation.settings preparation.messagesToSummarize
      preparation.previousSummary, ?_, known ▸ contains_summaryRequest _ _ _ _⟩
    beta_reduce
    unfold summarizePreparation
    rw [if_neg split]
    exact mem_singleton_self _

theorem summarizePreparation_leading
    (leads : preparation.isSplitTurn ∧ preparation.turnPrefixMessages.isEmpty = false)
    (history : preparation.messagesToSummarize = [])
    (summarize : SummarizationRequest → AssistantMessage) (options : SummaryOptions) :
    summarizePreparation readAnswer summarize options preparation =
      ([turnPrefixRequest options preparation.settings preparation.turnPrefixMessages],
        (readAnswer "Turn prefix summarization" (summarize (turnPrefixRequest options
          preparation.settings preparation.turnPrefixMessages))).map fun answer =>
            finishSummary preparation (noPriorHistory ++ turnContextHeading ++ answer.1)
              answer.2) := by
  unfold summarizePreparation historyPart
  rw [if_pos leads, history]
  rfl

theorem turnPrefixRequest_promptText (options : SummaryOptions) (settings : CompactionSettings)
    (messages : List AgentMessage) :
    (turnPrefixRequest options settings messages).promptText =
      conversationText messages ++ turnPrefixSummarizationPrompt :=
  rfl

theorem finishSummary_summary (text : String) (usage : Usage) :
    (finishSummary preparation text usage).summary = text ++ formatFileOperations
        (computeFileLists preparation.fileOps).1
        (computeFileLists preparation.fileOps).2 :=
  rfl

/-- With a leading split turn a text is kept exactly when it occurs anyway. -/
theorem keepsText_leading_iff
    (reads : ∀ what text, readAnswer what (textAnswer text) = .ok (text, (textAnswer text).usage))
    (leads : preparation.isSplitTurn ∧ preparation.turnPrefixMessages.isEmpty = false)
    (history : preparation.messagesToSummarize = []) (text : String) :
    KeepsText CompactionSummary.summary
        (fun summarize options => summarizePreparation readAnswer summarize options preparation)
        text ↔
      OccursAnyway preparation.turnPrefixMessages preparation.fileOps text := by
  unfold KeepsText OccursAnyway
  simp only [summarizePreparation_leading leads history, mem_singleton, exists_eq_left,
    turnPrefixRequest_promptText]
  constructor
  · intro keeps
    refine or_iff_not_imp_left.mpr fun unasked => exists_answer_without fun answer => ?_
    have kept := keeps (fun _ => textAnswer answer) ⟨0, false, none, none⟩ _ (by rw [reads]; rfl)
    rw [finishSummary_summary] at kept
    exact kept.resolve_left unasked
  · rintro occurs summarize options result done
    obtain ⟨answer, -, rfl⟩ := map_eq_ok done
    rw [finishSummary_summary]
    rcases occurs with asked | heading | files
    · exact .inl asked
    · exact .inr ((heading.append_right _).append_right _)
    · exact .inr (files.append_left _)

end Summarize

namespace PreparationRules

variable {rules : PreparationRules} {pathEntries : List SessionTreeEntry}
  {settings : CompactionSettings} {prepared : CompactionPreparation}

section

variable (found : rules.prepare pathEntries settings = some prepared)
include found

/-- A preparation asks only about a turn when nothing since the boundary precedes the turn. -/
theorem leadingTurnPrefix_eq_some_iff (turnPrefix : List AgentMessage) :
    rules.leadingTurnPrefix pathEntries settings = some turnPrefix ↔
      prepared.turnPrefixMessages = turnPrefix ∧ prepared.isSplitTurn ∧
        prepared.turnPrefixMessages.isEmpty = false ∧ prepared.messagesToSummarize.isEmpty := by
  have bounds := CutRules.findCutPoint_bounds (boundaryStart_le pathEntries)
    settings.keepRecentTokens (rfl : _ = rules.cutPoint pathEntries settings)
  unfold prepare at found
  simp only [] at found
  split at found
  · cases found
  cases found
  unfold leadingTurnPrefix
  cases split : (rules.cutPoint pathEntries settings).turnStartIndex with
  | none => simp [split]
  | some turnStartIndex =>
    have splits : (rules.cutPoint pathEntries settings).isSplitTurn = true := by
      rw [bounds.2.2.1, split]
      rfl
    simp only [bind_some, historyEnd, split, getD_some, splits, true_and,
      ite_none_right_eq_some, Bool.and_eq_true, Bool.not_eq_true', some.injEq]
    tauto

theorem prepare_previousSummary :
    prepared.previousSummary = (prevCompaction pathEntries).map summary := by
  unfold prepare at found
  simp only [] at found
  split at found
  · cases found
  · cases found
    rfl

theorem prepare_fileOps :
    prepared.fileOps = prepared.turnPrefixMessages.foldl extractFileOpsFromMessage
      (extractFileOperations prepared.messagesToSummarize
        (prevCompaction pathEntries)) := by
  unfold prepare at found
  simp only [] at found
  split at found
  · cases found
  · cases found
    rfl

end

theorem keepsText_iff {Error : Type}
    {readAnswer : String → AssistantMessage → Except Error (String × Usage)}
    (reads : ∀ what text, readAnswer what (textAnswer text) = .ok (text, (textAnswer text).usage))
    (found : rules.prepare pathEntries settings = some prepared) {previous : String}
    (known : (prevCompaction pathEntries).map summary = some previous) :
    KeepsText CompactionSummary.summary
        (fun summarize options => summarizePreparation readAnswer summarize options prepared)
        previous ↔
      ¬ rules.DropsText pathEntries settings previous := by
  unfold DropsText
  cases leading : rules.leadingTurnPrefix pathEntries settings with
  | none =>
    refine iff_of_true ?_ (by simp)
    refine keepsText_of_request ((prepare_previousSummary found).trans known) fun leads => ?_
    rw [(leadingTurnPrefix_eq_some_iff found _).mpr ⟨rfl, leads⟩] at leading
    cases leading
  | some turnPrefix =>
    obtain ⟨rfl, splits, asked, history⟩ :=
      (leadingTurnPrefix_eq_some_iff found turnPrefix).mp leading
    rw [List.isEmpty_iff] at history
    rw [keepsText_leading_iff reads ⟨splits, asked⟩ history, prepare_fileOps found, history]
    simp

end PreparationRules

theorem keepsText_map {Error Source Target : Type} {summaryOf : Target → String}
    {sourceSummary : Source → String} {f : Source → Target}
    {compact : (SummarizationRequest → AssistantMessage) → SummaryOptions →
      List SummarizationRequest × Except Error Source}
    (same : ∀ source, summaryOf (f source) = sourceSummary source) (text : String) :
    KeepsText summaryOf
        (fun summarize options =>
          ((compact summarize options).1, (compact summarize options).2.map f)) text ↔
      KeepsText sourceSummary compact text := by
  constructor
  · intro keeps summarize options source done
    rw [← same]
    exact keeps summarize options (f source) (congrArg (Except.map f) done)
  · intro keeps summarize options target done
    obtain ⟨source, made, rfl⟩ := map_eq_ok done
    rw [same]
    exact keeps summarize options source made

theorem AgentHarness.keepsPrevious_iff {pathEntries : List SessionTreeEntry}
    {settings : CompactionSettings} {previous : String}
    (known : (prevCompaction pathEntries).map summary = some previous)
    {preparation : CompactionPreparation}
    (prepares : prepareCompaction pathEntries settings = .ok (some preparation)) :
    KeepsText CompactionResult.summary
        (fun summarize options => compact summarize options preparation) previous ↔
      ¬ preparationRules.DropsText pathEntries settings previous := by
  have reads : ∀ what text, readAnswer what (textAnswer text) =
      .ok (text, (textAnswer text).usage) := fun _ _ => rfl
  unfold prepareCompaction at prepares
  split at prepares
  · cases prepares
  split at prepares
  · cases prepares
  next prepared found =>
    cases prepares
    rw [← PreparationRules.keepsText_iff reads found known]
    exact keepsText_map (fun _ => rfl) previous

theorem CodingAgent.keepsPrevious_iff {pathEntries : List SessionTreeEntry}
    {settings : CompactionSettings} {previous : String}
    (known : (prevCompaction pathEntries).map summary = some previous)
    {preparation : CompactionPreparation}
    (prepares : prepareCompaction pathEntries settings = some preparation) :
    KeepsText CompactionResult.summary
        (fun summarize options => compact summarize options preparation) previous ↔
      ¬ preparationRules.DropsText pathEntries settings previous := by
  have reads : ∀ what text, readAnswer what (textAnswer text) =
      .ok (text, (textAnswer text).usage) := fun _ _ => rfl
  unfold prepareCompaction at prepares
  split at prepares
  · cases prepares
  have found := (filter_eq_some_iff.mp prepares).1
  rw [← PreparationRules.keepsText_iff reads found known]
  exact keepsText_map (fun _ => rfl) previous

/-- In both implementations a prepared compaction hands on the previous summary exactly
when its cut does not drop it. -/
theorem previousSummary_kept_iff (pathEntries : List SessionTreeEntry)
    (settings : CompactionSettings) {previous : String}
    (known : (prevCompaction pathEntries).map CompactionData.summary = some previous) :
    (∀ preparation, AgentHarness.prepareCompaction pathEntries settings = .ok (some preparation) →
      (KeepsText AgentHarness.CompactionResult.summary
          (fun summarize options => AgentHarness.compact summarize options preparation) previous ↔
        ¬ AgentHarness.preparationRules.DropsText pathEntries settings previous)) ∧
    ∀ preparation, CodingAgent.prepareCompaction pathEntries settings = some preparation →
      (KeepsText CodingAgent.CompactionResult.summary
          (fun summarize options => CodingAgent.compact summarize options preparation) previous ↔
        ¬ CodingAgent.preparationRules.DropsText pathEntries settings previous) :=
  ⟨fun _ prepares => AgentHarness.keepsPrevious_iff known prepares,
    fun _ prepares => CodingAgent.keepsPrevious_iff known prepares⟩

section Example

def splitBranch : List SessionTreeEntry :=
  [⟨.nth 'm' 1, none, 1, .message (.user (.text "question") 1)⟩, ⟨.nth 'c' 1, some (.nth 'm' 1), 2,
      .compaction ⟨"Résumé.", some (.nth 'm' 1), 2, none, none, none, none⟩⟩,
    ⟨.nth 'm' 2, some (.nth 'c' 1), 3, .message (.assistant (textAnswer "answer"))⟩]

def keepLast : CompactionSettings := ⟨true, 16384, 1⟩

theorem question_not_anyway :
    ¬ OccursAnyway [.user (.text "question") 1] .createFileOps "Résumé." := by
  have accent : 'é' ∈ "Résumé.".toList := by simp
  have conversation : conversationText [.user (.text "question") 1] =
      "<conversation>\n" ++ ("[User]: " ++ "question") ++ "\n</conversation>\n\n" := by
    unfold conversationText
    congr 2
  rintro (asked | heading | files)
  · have outside : 'é' ∉ (conversationText [.user (.text "question") 1] ++
        turnPrefixSummarizationPrompt).toList := by
      unfold turnPrefixSummarizationPrompt
      rw [conversation]
      simp only [String.toList_append, mem_append, not_or, and_assoc]
      refine ⟨?_, ?_, ?_, ?_, ?_, ?_, ?_, ?_, ?_, ?_⟩
      all_goals
        apply not_mem_literal
        decide +kernel
    exact outside (asked.subset accent)
  · have outside : 'é' ∉ (noPriorHistory ++ turnContextHeading).toList := by
      unfold noPriorHistory turnContextHeading
      rw [String.toList_append, mem_append, not_or]
      constructor
      all_goals
        apply not_mem_literal
        decide +kernel
    exact outside (heading.subset accent)
  · exact absurd (files.subset accent) (by decide +kernel)

/-- Both implementations split the turn of the question, and neither sends the previous
summary to the model nor writes it into the new one. -/
theorem splitBranch_drops_summary :
    (prevCompaction splitBranch).map CompactionData.summary = some "Résumé." ∧
      (∃ preparation, AgentHarness.prepareCompaction splitBranch keepLast = .ok (some preparation) ∧
        ¬ KeepsText AgentHarness.CompactionResult.summary
          (fun summarize options => AgentHarness.compact summarize options preparation)
          "Résumé.") ∧
      ∃ preparation, CodingAgent.prepareCompaction splitBranch keepLast = some preparation ∧
        ¬ KeepsText CodingAgent.CompactionResult.summary
          (fun summarize options => CodingAgent.compact summarize options preparation)
          "Résumé." := by
  have known : (prevCompaction splitBranch).map CompactionData.summary = some "Résumé." := rfl
  have harness : ∃ preparation,
      AgentHarness.prepareCompaction splitBranch keepLast = .ok (some preparation) := ⟨_, rfl⟩
  have agent : ∃ preparation,
      CodingAgent.prepareCompaction splitBranch keepLast = some preparation := ⟨_, rfl⟩
  obtain ⟨prepared, prepares⟩ := harness
  obtain ⟨prepared', prepares'⟩ := agent
  refine ⟨known, ⟨prepared, prepares, ?_⟩, ⟨prepared', prepares', ?_⟩⟩
  · rw [AgentHarness.keepsPrevious_iff known prepares, not_not]
    exact ⟨_, rfl, question_not_anyway⟩
  · rw [CodingAgent.keepsPrevious_iff known prepares', not_not]
    exact ⟨_, rfl, question_not_anyway⟩

def askedAgain : List SessionTreeEntry :=
  splitBranch ++ [⟨.nth 'm' 3, some (.nth 'm' 2), 4, .message (.user (.text "more") 4)⟩]

/-- Before a second question no turn is split. -/
theorem previousSummary_kept_iff_askedAgain :
    ∃ preparation preparation',
      AgentHarness.prepareCompaction askedAgain keepLast = .ok (some preparation) ∧
      CodingAgent.prepareCompaction askedAgain keepLast = some preparation' ∧
      KeepsText AgentHarness.CompactionResult.summary
        (fun summarize options => AgentHarness.compact summarize options preparation) "Résumé." ∧
      KeepsText CodingAgent.CompactionResult.summary
        (fun summarize options => CodingAgent.compact summarize options preparation')
        "Résumé." := by
  obtain ⟨harness, agent⟩ := previousSummary_kept_iff askedAgain keepLast rfl
  refine ⟨_, _, rfl, rfl, (harness _ rfl).mpr ?_, (agent _ rfl).mpr ?_⟩
  · rintro ⟨_, leads, _⟩
    cases leads
  · rintro ⟨_, leads, _⟩
    cases leads

end Example

end Recode

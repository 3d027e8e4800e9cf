import Recode.CodingAgent.CutPoint
import Recode.CodingAgent.BranchedContext

/-! # The context after a compaction

The context of a branch shows its newest compaction first, then the entries that it kept and what
came later. The cut of a prepared compaction can lie before an older compaction, which is then
shown again, and between a tool call and its result. -/

namespace Recode.CodingAgent

open Recode List Option PreparationRules SessionManager

def toolCallIds : AgentMessage → List String
  | .assistant message => message.content.filterMap fun
      | .toolCall id _ _ => some id
      | _ => none
  | _ => []

def answeredCall? : AgentMessage → Option String
  | .toolResult toolCallId _ _ _ _ _ => some toolCallId
  | _ => none

/-- Every tool's result comes after a message that makes the call. -/
def CallsFirst (messages : List AgentMessage) : Prop :=
  ∀ older result newer, messages = older ++ result :: newer → ∀ id, answeredCall? result = some id →
    ∃ call ∈ older, id ∈ toolCallIds call

/-- A call on one side is answered on the other, and is not made there before. -/
def Separates (front back : List AgentMessage) : Prop :=
  ∃ call ∈ front, ∃ id ∈ toolCallIds call, ∃ older result newer, back = older ++ result :: newer ∧
    answeredCall? result = some id ∧ ∀ message ∈ older, id ∉ toolCallIds message

theorem callsFirst_append_iff {front back : List AgentMessage}
    (calls : CallsFirst (front ++ back)) : CallsFirst back ↔ ¬ Separates front back := by
  constructor
  · intro kept separated
    obtain ⟨call, -, id, -, older, result, newer, rfl, answers, unmade⟩ := separated
    obtain ⟨repeated, member, made⟩ := kept older result newer rfl id answers
    exact unmade repeated member made
  · intro together older result newer split id answers
    by_contra missing
    obtain ⟨call, member, made⟩ := calls (front ++ older) result newer
      (by rw [split, append_assoc]) id answers
    rcases mem_append.mp member with before | inside
    · refine together ⟨call, before, id, made, older, result, newer, split, answers, ?_⟩
      intro message known repeated
      exact missing ⟨message, known, repeated⟩
    · exact missing ⟨call, inside, made⟩

/-- What a session shows after a compaction: its summary, the entries from the first kept one to
the compaction, and the later ones; no other compaction; and no result without its call. -/
structure ShowsOneSummary (manager : Manager) (older later : List SessionTreeEntry)
    (compaction : SessionTreeEntry) (data : CompactionData) : Prop where
  messages : manager.buildSessionContext.messages =
    .compactionSummary data.summary data.tokensBefore compaction.timestamp ::
      (keptEntries data.firstKeptEntryId older ++ later).flatMap sessionEntryToContextMessages
  single : ∀ entry ∈ keptEntries data.firstKeptEntryId older ++ later, entry.isCompaction = false
  calls : CallsFirst ((keptEntries data.firstKeptEntryId older ++ later).flatMap
    sessionEntryToContextMessages)

/-- The cut that the budget asks for lies behind every compaction, and not between a tool call
and its result. -/
def CutsApart (older later : List SessionTreeEntry) (settings : CompactionSettings) : Prop :=
  ∀ cutPoint, cutRules.AtBudget older (boundaryStart older) older.length
      (max settings.keepRecentTokens 1) cutPoint →
    (∀ entry ∈ older.drop cutPoint, entry.isCompaction = false) ∧
      ¬ Separates ((older.take cutPoint).flatMap sessionEntryToContextMessages)
        ((older.drop cutPoint ++ later).flatMap sessionEntryToContextMessages)

section Prepared

variable {older : List SessionTreeEntry} {settings : CompactionSettings}
  {preparation : CompactionPreparation}

section

variable (prepared : prepareCompaction older settings = some preparation)
include prepared

theorem prepare_of_prepared :
    preparationRules.prepare older settings = some preparation ∧
      ¬ (preparation.messagesToSummarize = [] ∧ preparation.turnPrefixMessages = []) := by
  rw [prepareCompaction] at prepared
  split at prepared
  · cases prepared
  obtain ⟨made, something⟩ := filter_eq_some_iff.mp prepared
  refine ⟨made, ?_⟩
  intro nothing
  rw [nothing.1, nothing.2] at something
  cases something

theorem cutPoints_of_prepared :
    cutRules.findValidCutPoints older (boundaryStart older) older.length ≠ [] := by
  intro nothing
  have cut : preparationRules.cutPoint older settings = ⟨boundaryStart older, none, false⟩ := by
    change cutRules.findCutPoint _ _ _ _ = _
    unfold CutRules.findCutPoint
    rw [nothing]
  obtain ⟨made, something⟩ := prepare_of_prepared prepared
  cases first : older[boundaryStart older]? with
  | none =>
    simp only [prepare, cut, first] at made
    cases made
  | some entry =>
    simp only [prepare, cut, first, some_inj] at made
    subst made
    refine something ⟨?_, rfl⟩
    rw [historyEnd, getD_none, messagesBetween,
      drop_eq_nil_of_le (length_take_le _ _)]
    rfl

theorem firstKept_of_prepared :
    ∃ entry, older[(preparationRules.cutPoint older settings).firstKeptEntryIndex]? = some entry ∧
      preparation.firstKeptEntryId = entry.id := by
  have made := (prepare_of_prepared prepared).1
  cases first : older[(preparationRules.cutPoint older settings).firstKeptEntryIndex]? with
  | none =>
    simp only [prepare, first] at made
    cases made
  | some entry =>
    simp only [prepare, first, some_inj] at made
    subst made
    exact ⟨entry, rfl, rfl⟩

end

theorem keptEntries_of_prepared (distinct : (older.map SessionTreeEntry.id).Nodup)
    (prepared : prepareCompaction older settings = some preparation) :
    keptEntries (some preparation.firstKeptEntryId) older =
      older.drop (preparationRules.cutPoint older settings).firstKeptEntryIndex := by
  obtain ⟨entry, found, named⟩ := firstKept_of_prepared prepared
  generalize (preparationRules.cutPoint older settings).firstKeptEntryIndex = kept at found ⊢
  obtain ⟨inside, rfl⟩ := List.getElem?_eq_some_iff.mp found
  have split : older = older.take kept ++ older[kept] :: older.drop (kept + 1) := by
    rw [← drop_eq_getElem_cons inside, take_append_drop]
  have fresh : ∀ other ∈ older.take kept, other.id ≠ older[kept].id := by
    rw [split, map_append, nodup_append] at distinct
    intro other member
    exact distinct.2.2 other.id (mem_map_of_mem member) _ mem_cons_self
  rw [named, drop_eq_getElem_cons inside]
  exact (congrArg _ split).trans (keptEntries_of_mem fresh)

/-- In front of the first entry that is seen, the kept entries show nothing. -/
theorem drop_of_silent {kept first : Nat} (inRange : kept ≤ first)
    (silent : ∀ i, kept ≤ i → i < first → older[i]?.any isVisible = false) :
    ∃ between, older.drop kept = between ++ older.drop first ∧
      ∀ entry ∈ between, isVisible entry = false := by
  refine ⟨(older.drop kept).take (first - kept), ?_, ?_⟩
  · have rest : older.drop first = (older.drop kept).drop (first - kept) := by
      rw [drop_drop, Nat.add_sub_cancel' inRange]
    rw [rest, take_append_drop]
  · intro entry member
    obtain ⟨i, found⟩ := mem_iff_getElem?.mp member
    rw [getElem?_take] at found
    split at found
    · rename_i inside
      rw [getElem?_drop] at found
      have unseen := silent (kept + i) (Nat.le_add_right kept i) (by omega)
      rw [found] at unseen
      exact unseen
    · cases found

theorem messages_of_unseen {entry : SessionTreeEntry} (unseen : isVisible entry = false) :
    sessionEntryToContextMessages entry = [] := by
  rw [isVisible, Bool.not_eq_false'] at unseen
  exact isEmpty_iff.mp unseen

theorem not_compaction_of_unseen {entry : SessionTreeEntry} (unseen : isVisible entry = false) :
    entry.isCompaction = false := by
  obtain ⟨id, parentId, timestamp, body⟩ := entry
  cases body with
  | compaction data => cases unseen
  | _ => rfl

theorem kept_of_prepared (distinct : (older.map SessionTreeEntry.id).Nodup)
    (prepared : prepareCompaction older settings = some preparation) :
    ∃ cutPoint between, cutRules.AtBudget older (boundaryStart older) older.length
        (max settings.keepRecentTokens 1) cutPoint ∧
      keptEntries (some preparation.firstKeptEntryId) older = between ++ older.drop cutPoint ∧
      ∀ entry ∈ between, isVisible entry = false := by
  obtain ⟨cutPoint, atBudget, kept⟩ :=
    exists_keptFrom settings.keepRecentTokens (cutPoints_of_prepared prepared)
  obtain ⟨between, split, unseen⟩ := drop_of_silent kept.inRange.2.1 kept.silent
  exact ⟨cutPoint, between, atBudget, (keptEntries_of_prepared distinct prepared).trans split,
    unseen⟩

end Prepared

section Shown

variable {manager : Manager}

theorem shown_at_leaf (indexed : Indexed manager) {path : List SessionTreeEntry}
    (branch : manager.getBranch = path) (occupied : path ≠ []) :
    (path.map SessionTreeEntry.id).Nodup ∧
      manager.buildSessionContext.messages = contextMessages path := by
  subst branch
  cases leaf : manager.leafId with
  | none =>
    refine (occupied ?_).elim
    rw [getBranch, leaf]
    cases manager.byId.entries.length with
    | zero => rfl
    | succ fuel => rfl
  | some leafId =>
    have known := indexed.leaf leafId leaf
    have there : manager.getBranch = manager.getBranch (some leafId) := by
      rw [getBranch, getBranch, leaf]
      rfl
    obtain ⟨entry, member, named⟩ := mem_map.mp known
    obtain ⟨path, chain, same⟩ := indexed.getBranch_of_mem member
    rw [named] at same
    refine ⟨?_, ?_⟩
    · have reversed := indexed.grows.chain_keys_nodup member chain
      rw [map_reverse] at reversed
      rw [there, same]
      exact nodup_reverse.mp reversed
    · rw [there, ← messages_at_entry indexed known, SessionManager.buildSessionContext, leaf]

variable {older later : List SessionTreeEntry} {compaction : SessionTreeEntry}
  {data : CompactionData} {settings : CompactionSettings} {preparation : CompactionPreparation}

/-- After a prepared compaction, a session shows one summary and no result without its call
exactly when the cut lies behind older compactions and not between a call and its result. -/
theorem showsOneSummary_iff_cutsApart (indexed : Indexed manager)
    (branch : manager.getBranch = older ++ compaction :: later)
    (recorded : compaction.compaction? = some data)
    (newest : ∀ entry ∈ later, entry.compaction? = none)
    (prepared : prepareCompaction older settings = some preparation)
    (kept : data.firstKeptEntryId = some preparation.firstKeptEntryId)
    (calls : CallsFirst ((older ++ later).flatMap sessionEntryToContextMessages)) :
    ShowsOneSummary manager older later compaction data ↔ CutsApart older later settings := by
  obtain ⟨distinct, shown⟩ := shown_at_leaf indexed branch
    (append_ne_nil_of_right_ne_nil _ (cons_ne_nil _ _))
  rw [map_append, map_cons, nodup_append] at distinct
  obtain ⟨cutPoint, between, atBudget, split, unseen⟩ := kept_of_prepared distinct.1 prepared
  have quiet : between.flatMap sessionEntryToContextMessages = [] :=
    flatMap_eq_nil_iff.mpr fun entry member => messages_of_unseen (unseen entry member)
  have seen : (keptEntries data.firstKeptEntryId older ++ later).flatMap
      sessionEntryToContextMessages =
        (older.drop cutPoint ++ later).flatMap sessionEntryToContextMessages := by
    rw [kept, split, append_assoc, flatMap_append, quiet, nil_append]
  have together : (older.take cutPoint).flatMap sessionEntryToContextMessages ++
      (older.drop cutPoint ++ later).flatMap sessionEntryToContextMessages =
        (older ++ later).flatMap sessionEntryToContextMessages := by
    rw [← flatMap_append, ← append_assoc, take_append_drop]
  have apart := callsFirst_append_iff (together ▸ calls)
  constructor
  · intro shows other otherAtBudget
    obtain rfl := atBudget.unique otherAtBudget
    refine ⟨?_, apart.mp (seen ▸ shows.calls)⟩
    intro entry member
    refine shows.single entry ?_
    rw [kept, split]
    exact mem_append_left _ (mem_append_right _ member)
  · intro cuts
    obtain ⟨plain, unsevered⟩ := cuts cutPoint atBudget
    refine ⟨?_, ?_, ?_⟩
    · have fresh : ∀ entry ∈ older, entry.id ≠ compaction.id := fun entry member =>
        distinct.2.2 entry.id (mem_map_of_mem member) _ mem_cons_self
      obtain ⟨id, parentId, timestamp, body⟩ := compaction
      rw [shown, contextMessages, contextEntriesOfPath_of_split recorded newest fresh]
      cases body with
      | compaction stored =>
        cases recorded
        rfl
      | _ => cases recorded
    · intro entry member
      rw [kept, split] at member
      rcases mem_append.mp member with inside | after
      · rcases mem_append.mp inside with before | behind
        · exact not_compaction_of_unseen (unseen entry before)
        · exact plain entry behind
      · rw [SessionTreeEntry.isCompaction, newest entry after]
        rfl
    · rw [seen]
      exact apart.mpr unsevered

end Shown

section Example

def compactedOnce : Manager :=
  let asked := afterCall emptySession 1 (.appendMessage (.user (.text "one") 1))
  let again := afterCall asked 2 (.appendMessage (.user (.text "two") 2))
  let more := afterCall again 3 (.appendMessage (.user (.text "six") 3))
  let compacted := afterCall more 4 (.appendCompaction "summary" (some (.nth 'e' 2)) 3 none none)
  afterCall compacted 5 (.appendMessage (.user (.text "ten") 5))

def secondSummary : CompactionData := ⟨"newer", some (.nth 'e' 3), 5, none, none, none, none⟩

/-- The cut of the second compaction lies before the first one. -/
def compactedTwice : Manager :=
  afterCall compactedOnce 6 (.appendCompaction "newer" (some (.nth 'e' 3)) 5 none none)

theorem callsFirst_of_no_answer {messages : List AgentMessage}
    (none : ∀ message ∈ messages, answeredCall? message = none) : CallsFirst messages := by
  intro older result newer split id answers
  have member : result ∈ messages := split ▸ mem_append_right _ mem_cons_self
  cases (none result member).symm.trans answers

/-- The summary of the first compaction is shown after that of the second one. -/
theorem compactedTwice_shows_older_summary :
    (prepareCompaction compactedOnce.getBranch ⟨true, 0, 4⟩).map
        CompactionPreparation.firstKeptEntryId = some (.nth 'e' 3) ∧
      CallsFirst (compactedOnce.getBranch.flatMap sessionEntryToContextMessages) ∧
      compactedTwice.getBranch = compactedOnce.getBranch ++
        [⟨.nth 'e' 6, some (.nth 'e' 5), 6, .compaction secondSummary⟩] ∧
      compactedTwice.buildSessionContext.messages =
        [.compactionSummary "newer" 5 6, .user (.text "six") 3, .compactionSummary "summary" 3 4,
          .user (.text "ten") 5] ∧ ¬ ShowsOneSummary compactedTwice compactedOnce.getBranch []
        ⟨.nth 'e' 6, some (.nth 'e' 5), 6, .compaction secondSummary⟩ secondSummary := by
  refine ⟨rfl, callsFirst_of_no_answer ?_, rfl, rfl, ?_⟩
  · have shown : compactedOnce.getBranch.flatMap sessionEntryToContextMessages =
        [.user (.text "one") 1, .user (.text "two") 2, .user (.text "six") 3,
          .compactionSummary "summary" 3 4, .user (.text "ten") 5] := rfl
    rw [shown]
    simp [answeredCall?]
  · intro shows
    have older := shows.single ⟨.nth 'e' 4, some (.nth 'e' 3), 4,
      .compaction ⟨"summary", some (.nth 'e' 2), 3, none, none, none, none⟩⟩
    have member : keptEntries secondSummary.firstKeptEntryId compactedOnce.getBranch ++ [] =
        [⟨.nth 'e' 3, some (.nth 'e' 2), 3, .message (.user (.text "six") 3)⟩,
          ⟨.nth 'e' 4, some (.nth 'e' 3), 4,
            .compaction ⟨"summary", some (.nth 'e' 2), 3, none, none, none, none⟩⟩,
          ⟨.nth 'e' 5, some (.nth 'e' 4), 5, .message (.user (.text "ten") 5)⟩] := rfl
    rw [member] at older
    cases older (by simp)

/-- After the first compaction a tool is called, and answers. -/
def answeredOnce : Manager :=
  let called := afterCall compactedOnce 6
    (.appendMessage (.assistant { textAnswer "" with content := [.toolCall "t1" "read" []] }))
  let answered := afterCall called 7 (.appendMessage (.toolResult "t1" "read" [] none false 7))
  afterCall answered 8 (.appendMessage (.user (.text "last") 8))

def compactedLast : Manager :=
  afterCall answeredOnce 9 (.appendCompaction "newer" (some (.nth 'e' 8)) 9 none none)

/-- The second cut lies behind the first compaction, and behind the call and its result. -/
theorem showsOneSummary_iff_cutsApart_answered :
    compactedLast.buildSessionContext.messages =
        [.compactionSummary "newer" 9 9, .user (.text "last") 8] ∧
      CutsApart answeredOnce.getBranch [] ⟨true, 0, 1⟩ := by
  have after {manager : Manager} {number : Nat} {call : ManagerCall} (indexed : Indexed manager)
      (fresh : manager.Fresh ⟨.nth 'e' number, number⟩ := by rfl) :
      Indexed (afterCall manager number call) := indexed_perform indexed fresh
  have indexed : Indexed compactedLast :=
    after <| after <| after <| after <| after <| after <| after <| after <| after <|
      .newSession ..
  have calls : CallsFirst
      ((answeredOnce.getBranch ++ []).flatMap sessionEntryToContextMessages) := by
    intro older result newer split id answers
    rcases older with _ | ⟨_, _ | ⟨_, _ | ⟨_, _ | ⟨_, _ | ⟨_, _ | ⟨_, _ | ⟨_, _ | ⟨_, _ | _⟩⟩⟩⟩⟩⟩⟩⟩
      <;> cases split <;> cases answers
    exact ⟨_, mem_of_getLast? rfl, mem_singleton_self _⟩
  refine ⟨rfl, Iff.mp (showsOneSummary_iff_cutsApart indexed rfl rfl
    (fun _ member => absurd member not_mem_nil) rfl rfl calls) ⟨rfl, ?_, ?_⟩⟩
  · intro entry member
    obtain rfl : entry = ⟨.nth 'e' 8, _, 8, .message (.user (.text "last") 8)⟩ :=
      mem_singleton.mp member
    rfl
  · refine callsFirst_of_no_answer fun message member => ?_
    obtain rfl : message = .user (.text "last") 8 := mem_singleton.mp member
    rfl

end Example

end Recode.CodingAgent

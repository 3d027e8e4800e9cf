import Recode.Compaction.Harness

/-! # Repeated compaction

A compaction that follows another one prepares the branch behind the earlier
compaction. The messages that the earlier one retained are part of the context but
of no entry of that branch, so the later one neither summarizes nor retains them. -/

namespace Recode.AgentHarness

open Recode InMemorySessionStorage List Option SessionTreeEntry

def messagesBeyondSummary (branch : List SessionTreeEntry) : List AgentMessage :=
  match newestCompaction branch with
  | none => (buildSessionContext branch).messages
  | some _ => (buildSessionContext branch).messages.tail

/-- A preparation accounts for the context: every message but the earlier summary is
summarized, in one of two parts, or retained, and they keep their order. -/
def AccountsFor (preparation : CompactionPreparation) (branch : List SessionTreeEntry) : Prop :=
  (messagesBeyondSummary branch).Sublist
    (preparation.messagesToSummarize ++ preparation.turnPrefixMessages ++ preparation.retainedTail)

def RetainsNothing (branch : List SessionTreeEntry) : Prop :=
  ∀ compaction data, newestCompaction branch = some (compaction, data) →
    data.retainedTail.getD [] = []

def SummariesPresent (branch : List SessionTreeEntry) : Prop :=
  ∀ entry ∈ branch, ∀ data, entry.body = .branchSummary data → data.summary ≠ ""

theorem prepareCompaction_parts {branch : List SessionTreeEntry} {settings : CompactionSettings}
    {preparation : CompactionPreparation}
    (prepared : prepareCompaction branch settings = .ok (some preparation)) :
    preparation.messagesToSummarize ++ preparation.turnPrefixMessages ++ preparation.retainedTail =
      (branch.drop (boundaryStart branch)).filterMap getMessageFromEntryForCompaction := by
  unfold prepareCompaction at prepared
  split at prepared
  · cases prepared
  cases made : preparationRules.prepare branch settings with
  | none => simp [made] at prepared
  | some shared =>
    simp only [made, Except.ok.injEq, some.injEq] at prepared
    subst prepared
    exact preparationRules.prepare_parts made

theorem entryMessages_eq {entry : SessionTreeEntry} (plain : entry.compaction? = none)
    (present : ∀ data, entry.body = .branchSummary data → data.summary ≠ "") :
    entryMessages entry = (getMessageFromEntryForCompaction entry).toList := by
  have notCompaction : entry.isCompaction = false := by
    simp [isCompaction, plain]
  unfold getMessageFromEntryForCompaction
  rw [notCompaction, if_neg Bool.false_ne_true]
  unfold SessionTreeEntry.compaction? at plain
  unfold entryMessages sessionEntryToContextMessages getMessageFromEntry
  cases body : entry.body with
  | compaction data => simp [body] at plain
  | branchSummary data => simp [present data body]
  | custom customType data => simp [SessionContextBuildOptions.default]
  | _ => simp

theorem entryMessages_sublist {entry : SessionTreeEntry} (plain : entry.compaction? = none) :
    (entryMessages entry).Sublist (getMessageFromEntryForCompaction entry).toList := by
  by_cases present : ∀ data, entry.body = .branchSummary data → data.summary ≠ ""
  · rw [entryMessages_eq plain present]
  · push Not at present
    obtain ⟨data, body, empty⟩ := present
    simp [entryMessages, sessionEntryToContextMessages, body, empty]

theorem flatMap_entryMessages_sublist {entries : List SessionTreeEntry}
    (plain : ∀ entry ∈ entries, entry.compaction? = none) :
    (entries.flatMap entryMessages).Sublist
      (entries.filterMap getMessageFromEntryForCompaction) := by
  induction entries with
  | nil => exact List.Sublist.refl _
  | cons entry entries ih =>
    have rest := ih fun other member => plain other (mem_cons_of_mem _ member)
    have here := entryMessages_sublist (plain entry mem_cons_self)
    rw [flatMap_cons, filterMap_cons]
    cases message : getMessageFromEntryForCompaction entry with
    | none =>
      rw [message, toList_none, sublist_nil] at here
      rwa [here, nil_append]
    | some value =>
      rw [message, toList_some] at here
      exact here.append rest

theorem flatMap_entryMessages_eq {entries : List SessionTreeEntry}
    (plain : ∀ entry ∈ entries, entry.compaction? = none) (present : SummariesPresent entries) :
    entries.flatMap entryMessages = entries.filterMap getMessageFromEntryForCompaction := by
  induction entries with
  | nil => rfl
  | cons entry entries ih =>
    have rest := ih (fun other member => plain other (mem_cons_of_mem _ member))
      fun other member => present other (mem_cons_of_mem _ member)
    rw [flatMap_cons, rest, filterMap_cons,
      entryMessages_eq (plain entry mem_cons_self) (present entry mem_cons_self)]
    cases getMessageFromEntryForCompaction entry <;> rfl

variable {entries : List SessionTreeEntry}

theorem kept_not_on_path (appended : Appended entries)
    {older newer before after : List SessionTreeEntry} {compaction : SessionTreeEntry}
    (ordered : (older ++ compaction :: newer).Sublist entries)
    (split : entries = before ++ compaction :: after) {kept : EntryId}
    (earlier : kept ∈ before.map SessionTreeEntry.id) :
    ∀ entry ∈ compaction :: newer, entry.id ≠ kept := by
  have distinct := appended.grows.keys_nodup
  have fresh : compaction.id ∉ before.map SessionTreeEntry.id := by
    rw [split, map_append, nodup_append] at distinct
    exact fun member => distinct.2.2 _ member _ (by simp) rfl
  obtain ⟨first, rest, partition, -, tail⟩ := append_sublist_iff.mp ordered
  obtain ⟨front, back, rfl, here, later⟩ := cons_sublist_iff.mp tail
  intro entry member same
  rcases mem_cons.mp member with rfl | inside
  · exact fresh (same ▸ earlier)
  rw [split, ← append_assoc, append_eq_append_iff] at partition
  rcases partition with ⟨between, -, remaining⟩ | ⟨between, grown, -⟩
  · rw [split, remaining, map_append, nodup_append, map_append] at distinct
    exact distinct.2.2 _ earlier _
      (mem_append_right _ (mem_map_of_mem (later.subset inside))) same.symm
  · refine fresh (mem_map_of_mem ?_)
    rw [grown]
    exact mem_append_left _ (mem_append_right _ here)

/-- A branch of a reachable session has no compaction, or begins with its only one,
whose first kept entry is not on the branch. -/
theorem loadedPath_of_tailsRetained (appended : Appended entries) (tails : TailsRetained entries)
    {path : List SessionTreeEntry} (ordered : path.Sublist entries) :
    (∀ entry ∈ loadedPath path, entry.compaction? = none) ∨
      ∃ compaction newer data, loadedPath path = compaction :: newer ∧
        compaction.compaction? = some data ∧ (∀ entry ∈ newer, entry.compaction? = none) ∧
          data.retainedTail.isSome ∧ ∀ kept, data.firstKeptEntryId = some kept →
            ∀ entry ∈ compaction :: newer, entry.id ≠ kept := by
  rcases none_or_newest path with none | ⟨older, compaction, newer, data, rfl, found, newest⟩
  · exact .inl (by rwa [loadedPath_of_no_compaction none])
  · have member := ordered.subset (mem_append_right older mem_cons_self)
    obtain ⟨before, after, split⟩ := append_of_mem member
    obtain ⟨carries, earlier⟩ := tails before compaction after data split found
    have passes := climbPasses_of_no_compaction newest
    have ends : ¬ ClimbPasses (compaction :: newer) := by
      rintro ⟨goesOn, -⟩
      exact goesOn (.inl (by simpa [retainsTail, found] using carries))
    have loads : loadedPath (older ++ compaction :: newer) = compaction :: newer := by
      rcases older.eq_nil_or_concat' with rfl | ⟨further, last, rfl⟩
      · rw [nil_append, loadedPath, if_pos passes]
      · rw [append_assoc, singleton_append,
          loadedPath_of_not_passes further last ends, loadedPath, if_pos passes]
    refine .inr ⟨compaction, newer, data, loads, found, newest, carries, ?_⟩
    exact fun kept keeps => kept_not_on_path appended ordered split (earlier kept keeps)

theorem invariant_of_reachable {storage : InMemorySessionStorage} (reachable : Reachable storage) :
    ∃ entries, Appended entries ∧ TailsRetained entries ∧ storage = afterAppending entries := by
  induction reachable with
  | refl =>
    refine ⟨[], .nil, ?_, rfl⟩
    intro older entry newer data same
    simp at same
  | tail _ step ih =>
    obtain ⟨entries, appended, tails, rfl⟩ := ih
    exact step_preserves appended tails step

/-- A preparation in a reachable session accounts for the whole context when the newest
compaction of the branch retains no message. It only does then, unless an empty branch
summary makes up for a lost message. -/
theorem preparation_accounts_iff {storage : InMemorySessionStorage} (reachable : Reachable storage)
    {branch : List SessionTreeEntry} (loaded : Session.getBranch storage = .ok branch)
    {settings : CompactionSettings} {preparation : CompactionPreparation}
    (prepared : prepareCompaction branch settings = .ok (some preparation)) :
    (RetainsNothing branch → AccountsFor preparation branch) ∧
      (SummariesPresent branch → AccountsFor preparation branch → RetainsNothing branch) := by
  obtain ⟨entries, appended, tails, rfl⟩ := invariant_of_reachable reachable
  obtain ⟨path, -, loads, ordered⟩ := getBranch_afterAppending appended
  rw [loaded, Except.ok.injEq] at loads
  unfold AccountsFor
  rw [prepareCompaction_parts prepared]
  rcases loads ▸ loadedPath_of_tailsRetained appended tails ordered with
    none | ⟨compaction, newer, data, rfl, found, newest, carries, absent⟩
  · have unnamed := (newestCompaction_eq_none_iff branch).mpr none
    have start : boundaryStart branch = 0 := by
      rw [boundaryStart, prevCompactionIndex_of_none none]
    have whole : messagesBeyondSummary branch = branch.flatMap entryMessages := by
      rw [messagesBeyondSummary, unnamed]
      simp only []
      rw [buildSessionContext_messages, defaultContextEntryTransform_of_none none]
    rw [start, drop_zero, whole]
    refine ⟨fun _ => flatMap_entryMessages_sublist none, fun _ _ compaction data named => ?_⟩
    rw [unnamed] at named
    cases named
  · have named : newestCompaction (compaction :: newer) = some (compaction, data) :=
      (newestCompaction_eq_some_iff _ _ _).mpr ⟨[], newer, rfl, found, newest⟩
    have start : boundaryStart (compaction :: newer) = 1 := by
      have index : prevCompactionIndex ([] ++ compaction :: newer) = some 0 :=
        prevCompactionIndex_of_split found newest
      have previous : prevCompaction ([] ++ compaction :: newer) = some data :=
        prevCompaction_of_split found newest
      rw [nil_append] at index previous
      rw [boundaryStart, index, previous]
      cases keeps : data.firstKeptEntryId with
      | none => simp [keeps]
      | some kept =>
        have missing : (compaction :: newer).findIdx? (fun entry => entry.id = kept) =
            none := by
          rw [findIdx?_eq_none_iff]
          exact fun entry member => decide_eq_false (absent kept keeps entry member)
        simp only [bind_some, keeps, missing, getD_none]
    have whole : messagesBeyondSummary (compaction :: newer) =
        data.retainedTail.getD [] ++ newer.flatMap entryMessages := by
      have split : defaultContextEntryTransform ([] ++ compaction :: newer) = _ :=
        defaultContextEntryTransform_of_split found newest (by simp)
      rw [carries, if_pos rfl, nil_append] at split
      have summary : entryMessages compaction =
          .compactionSummary data.summary data.tokensBefore compaction.timestamp ::
            data.retainedTail.getD [] := by
        unfold SessionTreeEntry.compaction? at found
        unfold entryMessages sessionEntryToContextMessages
        cases body : compaction.body with
        | compaction own => simp_all
        | _ => simp [body] at found
      rw [messagesBeyondSummary, named]
      simp only []
      rw [buildSessionContext_messages, split]
      simp [summary]
    rw [start, whole, drop_succ_cons, drop_zero]
    constructor
    · intro nothing
      rw [nothing compaction data named, nil_append]
      exact flatMap_entryMessages_sublist newest
    · intro present accounts other otherData named'
      rw [named, some.injEq, Prod.mk.injEq] at named'
      obtain ⟨rfl, rfl⟩ := named'
      rw [flatMap_entryMessages_eq newest fun entry member =>
        present entry (mem_cons_of_mem _ member)] at accounts
      have short := accounts.length_le
      rw [length_append] at short
      exact eq_nil_of_length_eq_zero (by omega)

section Example

def oneWord (_ : SummarizationRequest) : AssistantMessage := textAnswer "Summary."

def keepNewest : CompactionSettings := ⟨true, 16384, 1⟩

def firstMessage : AgentMessage := .user (.text "one") 1

def secondMessage : AgentMessage := .user (.text "two") 3

def oneMessage : InMemorySessionStorage :=
  (Session.perform InMemorySessionStorage.empty ⟨.nth 'm' 1, 1⟩
    (.appendMessage firstMessage)).1

def onceCompacted : InMemorySessionStorage :=
  (compactSession oneMessage ⟨.nth 'c' 1, 2⟩ keepNewest oneWord ⟨0, false, none, none⟩
    none).1

def grownSession : InMemorySessionStorage :=
  (Session.perform onceCompacted ⟨.nth 'm' 2, 3⟩ (.appendMessage secondMessage)).1

theorem oneMessage_reachable : Reachable oneMessage :=
  .single (.call _ _ ⟨rfl, trivial⟩ fun _ same => by cases same)

theorem grownSession_reachable : Reachable grownSession :=
  (oneMessage_reachable.tail (.compact _ _ _ _ _ rfl fun _ same => by cases same)).tail
    (.call _ _ ⟨rfl, trivial⟩ fun _ same => by cases same)

/-- The next compaction neither summarizes nor retains the message that the first one
retained, though the context shows it. -/
theorem grownSession_loses_message :
    Reachable grownSession ∧ ∃ branch preparation, Session.getBranch grownSession = .ok branch ∧
      prepareCompaction branch keepNewest = .ok (some preparation) ∧
        messagesBeyondSummary branch = [firstMessage, secondMessage] ∧
          ¬ AccountsFor preparation branch := by
  refine ⟨grownSession_reachable, _, _, rfl, rfl, rfl, ?_⟩
  intro accounts
  exact absurd accounts.length_le (by decide)

/-- The first compaction retains nothing. -/
def emptiedSession : InMemorySessionStorage :=
  (compactSession oneMessage ⟨.nth 'c' 1, 2⟩ keepNewest oneWord ⟨0, false, none, none⟩
    (some ⟨"Summary.", some (.nth 'm' 1), 1, none, some [], none⟩)).1

def refilledSession : InMemorySessionStorage :=
  (Session.perform emptiedSession ⟨.nth 'm' 2, 3⟩ (.appendMessage secondMessage)).1

/-- The next compaction accounts for the message behind one that retained nothing. -/
theorem preparation_accounts_iff_refilled :
    ∃ branch preparation, Session.getBranch refilledSession = .ok branch ∧
      prepareCompaction branch keepNewest = .ok (some preparation) ∧
        messagesBeyondSummary branch = [secondMessage] ∧ AccountsFor preparation branch := by
  have emptied : Step oneMessage emptiedSession := by
    refine .compact _ _ _ _ _ rfl ?_
    rintro result ⟨⟩
    refine ⟨rfl, ?_⟩
    rintro kept ⟨⟩
    rfl
  have reachable : Reachable refilledSession := (oneMessage_reachable.tail emptied).tail
    (.call _ _ ⟨rfl, trivial⟩ fun _ same => by cases same)
  have accounts {branch preparation} (loaded : Session.getBranch refilledSession = .ok branch)
      (prepared : prepareCompaction branch keepNewest = .ok (some preparation)) :=
    preparation_accounts_iff reachable loaded prepared
  refine ⟨_, _, rfl, rfl, rfl, (accounts rfl rfl).1 ?_⟩
  rintro compaction data ⟨⟩
  rfl

end Example

end Recode.AgentHarness

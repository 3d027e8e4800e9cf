import Recode.CodingAgent.Branching
import Mathlib.Algebra.Order.BigOperators.Group.List
import Mathlib.Algebra.Order.Ring.Nat

/-! # What a branched session keeps

A branched session has the tree, the identifiers and the labels of the path it was made
from. Its context is that of the path when the entries that the newest compaction kept can
still be found, that is, when they do not begin at a label. The cut point of a compaction
is moved back over entries that show nothing, and so can be a label. -/

namespace Recode.CodingAgent

open Recode SessionManager List Option

def Prepared (manager : Manager) (firstKeptEntryId : Option EntryId) (tokensBefore : Nat) : Prop :=
  ∃ settings preparation, prepareCompaction manager.getBranch settings = some preparation ∧
    firstKeptEntryId = some preparation.firstKeptEntryId ∧ tokensBefore = preparation.tokensBefore

def PreparedCall (manager : Manager) : ManagerCall → Prop
  | .appendCompaction _ firstKeptEntryId tokensBefore _ _ =>
    Prepared manager firstKeptEntryId tokensBefore
  | .appendEntry entry => ∀ data, entry.compaction? = some data →
      entry.parentId = manager.leafId ∧ Prepared manager data.firstKeptEntryId data.tokensBefore
  | _ => True

/-- One call on a session whose compactions are prepared. -/
inductive PreparedStep (manager : Manager) : Manager → Prop
  | perform (stamp : Stamp) (call : ManagerCall) (fresh : manager.Fresh stamp)
      (prepared : PreparedCall manager call) : PreparedStep manager (manager.perform stamp call).1

/-- The sessions that calls lead to from a new one. -/
def PreparedReachable (manager : Manager) : Prop :=
  ∃ cwd persist parentSession stamp, Relation.ReflTransGen PreparedStep
    (newSession cwd persist parentSession stamp) manager

theorem indexed_of_preparedReachable {manager : Manager} (reachable : PreparedReachable manager) :
    Indexed manager := by
  obtain ⟨cwd, persist, parentSession, stamp, steps⟩ := reachable
  induction steps with
  | refl => exact .newSession cwd persist parentSession stamp
  | tail _ step ih =>
    cases step with
    | perform stamp call fresh _ => exact indexed_perform ih fresh

/-- A branched session shows at its leaf what the session shows at the entry it was made
for, is a tree with distinct identifiers, and has the labels of the entries it retains. -/
structure BranchPreserved (manager branched : Manager) (leafId : EntryId) : Prop where
  messages : branched.buildSessionContext.messages =
    (buildSessionContext manager.fileEntries (.entry leafId) manager.byId).messages
  parents : ∀ older entry newer, branched.fileEntries = older ++ entry :: newer →
    ∀ above, entry.parentId = some above → above ∈ older.map SessionTreeEntry.id
  ids : (branched.fileEntries.map SessionTreeEntry.id).Nodup
  labels : ∀ entry ∈ manager.getBranch (some leafId), isLabel entry = false →
    branched.getLabel entry.id = manager.getLabel entry.id

/-- The kept range of the newest compaction survives without the labels. Where the leaf of
the branched session is moved to the target of a last leaf marker, the context there has to
be that of the path. -/
def ContextSurvives (manager : Manager) (path : List SessionTreeEntry) : Prop :=
  (manager.branchShows path = path.filter (fun entry => !isLabel entry) → KeptRangeSurvives path) ∧
  (manager.branchShows path ≠ path.filter (fun entry => !isLabel entry) →
    contextMessages (manager.branchShows path) = contextMessages path)

section Branched

variable {manager : Manager} {leafId : EntryId}

theorem contextSurvives_iff {path : List SessionTreeEntry}
    (distinct : (path.map SessionTreeEntry.id).Nodup) :
    ContextSurvives manager path ↔
      contextMessages (manager.branchShows path) = contextMessages path := by
  unfold ContextSurvives
  by_cases whole : manager.branchShows path = path.filter fun entry => !isLabel entry
  · rw [whole, contextMessages_filter_iff distinct]
    simp
  · simp [whole]

theorem messages_at_entry (indexed : Indexed manager)
    (known : leafId ∈ manager.fileEntries.map SessionTreeEntry.id) :
    (buildSessionContext manager.fileEntries (.entry leafId) manager.byId).messages =
      contextMessages (manager.getBranch (some leafId)) := by
  have present := (indexed.contains_iff leafId).mpr known
  obtain ⟨entry, found⟩ := isSome_iff_exists.mp present
  have path : buildSessionPath manager.fileEntries (.entry leafId) manager.byId =
      manager.getBranch (some leafId) := by
    simp only [buildSessionPath, getBranch, found, some_or, bind_some]
    rfl
  unfold buildSessionContext buildContextEntries
  rw [path]
  rfl

/-- A branched session is made for every entry of the session. It keeps everything exactly
when the context survives. -/
theorem branch_preserved_iff (reachable : PreparedReachable manager)
    (known : leafId ∈ manager.fileEntries.map SessionTreeEntry.id) (stamp : NewSession Nat)
    {generateId : List EntryId → EntryId} (fresh : ∀ known, generateId known ∉ known) :
    ∃ branched file, manager.createBranchedSession leafId stamp generateId = .ok (branched, file) ∧
        (BranchPreserved manager branched leafId ↔
          ContextSurvives manager (manager.getBranch (some leafId))) := by
  have indexed := indexed_of_preparedReachable reachable
  have messages := messages_at_entry indexed known
  obtain ⟨entry, member, rfl⟩ := mem_map.mp known
  obtain ⟨path, chain, branch⟩ := indexed.getBranch_of_mem member
  change manager.getBranch (some entry.id) = path at branch
  have distinct : (path.map SessionTreeEntry.id).Nodup := by
    have reversed := indexed.grows.chain_keys_nodup member chain
    rw [map_reverse] at reversed
    exact nodup_reverse.mp reversed
  have occupied : path.isEmpty = false := by
    cases path with
    | nil => cases chain
    | cons first rest => rfl
  have linked : GrownTree.LinkedFrom SessionTreeEntry.id SessionTreeEntry.parentId none
      (manager.branchedEntries generateId path) := branchedEntries_linked
  have ids : ((manager.branchedEntries generateId path).map SessionTreeEntry.id).Nodup :=
    branchedEntries_ids fresh distinct
  unfold createBranchedSession
  simp only [branch, occupied, Bool.false_eq_true, if_false, buildIndex_eq] at messages ⊢
  refine ⟨_, _, rfl, ?_⟩
  rw [contextSurvives_iff distinct, ← messages]
  have shown : contextMessages (shownAt (leafIdAfterAll (manager.branchedEntries generateId path))
      (manager.branchedEntries generateId path)) = contextMessages (manager.branchShows path) :=
    contextMessages_branched fresh distinct
  rw [← buildSessionPath_of_linked linked ids] at shown
  constructor
  · intro preserved
    rw [← shown]
    exact preserved.messages
  · intro survives
    refine ⟨(shown.trans survives), ?_, ids, ?_⟩
    · intro older entry newer split above link
      have grows := GrownTree.grows_of_linked linked ids
      change manager.branchedEntries generateId path = _ at split
      rw [split] at grows
      exact grows.parent_before link
    · intro entry member plain
      rw [branch] at member
      refine labels_branched indexed (mem_map_of_mem (mem_filter.mpr ⟨member, ?_⟩))
      rw [plain]
      rfl

end Branched

section Example

def longerId (known : List EntryId) : EntryId where
  text := String.ofList ('x' :: replicate (known.map fun id => id.text.length).sum 'x')
  nonempty := by simp

theorem longerId_fresh (known : List EntryId) : longerId known ∉ known := by
  intro member
  have short : (longerId known).text.length ≤ (known.map fun id => id.text.length).sum :=
    le_sum_of_mem (mem_map_of_mem (f := fun id : EntryId => id.text.length) member)
  simp only [longerId, String.length_ofList, length_cons, length_replicate] at short
  omega

/-- A session in memory after a call with the stamp of a number. -/
def afterCall (manager : Manager) (number : Nat) (call : ManagerCall) : Manager :=
  (manager.perform ⟨.nth 'e' number, number⟩ call).1

def emptySession : Manager := newSession "/" false none ⟨"s1", 0, "s1.jsonl"⟩

def labelledSession : Manager :=
  let asked := afterCall emptySession 1 (.appendMessage (.user (.text "one") 1))
  let labelled := afterCall asked 2 (.appendLabelChange (.nth 'e' 1) (some "start"))
  afterCall labelled 3 (.appendMessage (.user (.text "two") 3))

/-- The cut is moved back from the second message to the label. -/
def summarizedSession : Manager :=
  afterCall labelledSession 4 (.appendCompaction "summary" (some (.nth 'e' 2)) 2 none none)

def branchedSession : Except String (Manager × Option String) :=
  summarizedSession.createBranchedSession (.nth 'e' 4) ⟨"s2", 5, "s2.jsonl"⟩ longerId

theorem summarizedSession_reachable : PreparedReachable summarizedSession := by
  have prepared : Prepared labelledSession (some (.nth 'e' 2)) 2 :=
    ⟨⟨true, 0, 1⟩, _, rfl, rfl, rfl⟩
  refine ⟨"/", false, none, ⟨"s1", 0, "s1.jsonl"⟩, ?_⟩
  refine Relation.ReflTransGen.tail (b := labelledSession) ?_
    (.perform ⟨.nth 'e' 4, 4⟩ (.appendCompaction "summary" _ 2 none none) rfl prepared)
  exact ((Relation.ReflTransGen.single
      (.perform ⟨.nth 'e' 1, 1⟩ (.appendMessage (.user (.text "one") 1)) rfl trivial)).tail
    (.perform ⟨.nth 'e' 2, 2⟩ (.appendLabelChange (.nth 'e' 1) (some "start")) rfl trivial)).tail
    (.perform ⟨.nth 'e' 3, 3⟩ (.appendMessage (.user (.text "two") 3)) rfl trivial)

/-- The message behind the label is shown before the session is branched, and not
afterwards. -/
theorem branchedSession_loses_message :
    PreparedReachable summarizedSession ∧
      (buildSessionContext summarizedSession.fileEntries (.entry (.nth 'e' 4))
        summarizedSession.byId).messages =
          [.compactionSummary "summary" 2 4, .user (.text "two") 3] ∧
      branchedSession.map (fun result => result.1.buildSessionContext.messages) =
        .ok [.compactionSummary "summary" 2 4] ∧
      ∀ branched file, branchedSession = .ok (branched, file) →
        ¬ BranchPreserved summarizedSession branched (.nth 'e' 4) := by
  have before : (buildSessionContext summarizedSession.fileEntries (.entry (.nth 'e' 4))
      summarizedSession.byId).messages =
        [.compactionSummary "summary" 2 4, .user (.text "two") 3] := rfl
  have after : branchedSession.map (fun result => result.1.buildSessionContext.messages) =
      .ok [.compactionSummary "summary" 2 4] := rfl
  refine ⟨summarizedSession_reachable, before, after, ?_⟩
  intro branched file made preserved
  rw [made] at after
  have same := preserved.messages.trans before
  rw [Except.map, same] at after
  cases after

/-- Before the compaction the label costs nothing. -/
theorem branch_preserved_iff_labelled :
    ∃ branched file, summarizedSession.createBranchedSession (.nth 'e' 3) ⟨"s2", 5, "s2.jsonl"⟩
        longerId = .ok (branched, file) ∧
      BranchPreserved summarizedSession branched (.nth 'e' 3) ∧
      branched.getLabel (.nth 'e' 1) = some "start" := by
  obtain ⟨branched, file, made, preserved⟩ := @branch_preserved_iff _ (.nth 'e' 3)
    summarizedSession_reachable (by decide) ⟨"s2", 5, "s2.jsonl"⟩ _ longerId_fresh
  have kept := preserved.mpr ((contextSurvives_iff (by decide)).mpr rfl)
  exact ⟨branched, file, made, kept, kept.labels _ mem_cons_self rfl⟩

end Example

end Recode.CodingAgent

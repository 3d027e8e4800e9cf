import Recode.CodingAgent.Compaction
import Recode.CodingAgent.Labels

/-! # Branched sessions

A branched session holds the path to one entry. The labels on the path are left out, the
other entries linked to one another, and the labels in force written again at the end. A
compaction keeps entries from an identifier on, which can be that of a label; the
branched session then no longer holds the entry, and its context shows nothing of what
the compaction kept. -/

namespace Recode.CodingAgent

open Recode List SessionManager InsertionMap GrownTree

/-- Link entries to one another, the first one to a given parent. -/
def rechain : Option EntryId → List SessionTreeEntry → List SessionTreeEntry
  | _, [] => []
  | parentId, entry :: rest => { entry with parentId } :: rechain (some entry.id) rest

/-- The entries that write labels again, one under the other. Each gets an identifier
generated from the identifiers known by then. -/
def labelEntries (generateId : List EntryId → EntryId) :
    List EntryId → Option EntryId → List (EntryId × String × Nat) → List SessionTreeEntry
  | _, _, [] => []
  | known, parentId, (targetId, label, timestamp) :: rest =>
    let id := generateId known
    ⟨id, parentId, timestamp, .label targetId (some label)⟩ ::
      labelEntries generateId (known ++ [id]) (some id) rest

namespace SessionManager

variable (manager : Manager)

/-- The labels in force on some entries, with the times they were set. -/
def labelsToWrite (pathEntryIds : List EntryId) : List (EntryId × String × Nat) :=
  (manager.labelsById.entries.filter fun label => label.1 ∈ pathEntryIds).map fun label =>
    (label.1, label.2, (manager.labelTimestampsById.get? label.1).getD 0)

def branchedEntries (generateId : List EntryId → EntryId) (path : List SessionTreeEntry) :
    List SessionTreeEntry :=
  let pathWithoutLabels := rechain none (path.filter fun entry => !isLabel entry)
  let pathEntryIds := pathWithoutLabels.map SessionTreeEntry.id
  pathWithoutLabels ++ labelEntries generateId pathEntryIds
    (pathWithoutLabels.getLast?.map SessionTreeEntry.id) (manager.labelsToWrite pathEntryIds)

/-- Replace the session by one that holds the path to an entry only, with its file when the
session is kept in one. The file is written once an assistant has answered. -/
def createBranchedSession (leafId : EntryId) (stamp : NewSession Nat)
    (generateId : List EntryId → EntryId) : Except String (Manager × Option String) :=
  let path := manager.getBranch (some leafId)
  if path.isEmpty then .error (entryNotFound leafId)
  else
    let newSessionFile := if manager.persist then some stamp.file else none
    let entries := manager.branchedEntries generateId path
    let branched := buildIndex { manager with
      header := ⟨currentSessionVersion, stamp.id, stamp.timestamp, manager.cwd,
        if manager.persist then manager.sessionFile else none⟩
      fileEntries := entries
      sessionFile := newSessionFile.or manager.sessionFile
      flushed := if manager.persist then entries.any FileEntry.isAssistantMessage
        else manager.flushed }
    .ok (branched, newSessionFile)

def buildSessionContext : SessionContext :=
  CodingAgent.buildSessionContext manager.fileEntries
    (match manager.leafId with
      | none => .null
      | some id => .entry id) manager.byId

end SessionManager

def unlinked (entry : SessionTreeEntry) : SessionTreeEntry := { entry with parentId := none }

variable (above : Option EntryId) (entries : List SessionTreeEntry)

theorem rechain_unlinked : (rechain above entries).map unlinked = entries.map unlinked := by
  induction entries generalizing above with
  | nil => rfl
  | cons entry entries ih =>
    rw [rechain, map_cons, map_cons, ih]
    rfl

theorem rechain_ids :
    (rechain above entries).map SessionTreeEntry.id = entries.map SessionTreeEntry.id := by
  have ids := congrArg (map SessionTreeEntry.id) (rechain_unlinked above entries)
  rwa [map_map, map_map] at ids

theorem rechain_linked :
    GrownTree.LinkedFrom SessionTreeEntry.id SessionTreeEntry.parentId above
      (rechain above entries) := by
  induction entries generalizing above with
  | nil => trivial
  | cons entry entries ih => exact ⟨rfl, ih (some entry.id)⟩

theorem contextMessages_unlinked :
    contextMessages (entries.map unlinked) = contextMessages entries :=
  have id : ∀ entry, (unlinked entry).id = entry.id := fun _ => rfl
  have body : ∀ entry, (unlinked entry).body = entry.body := fun _ => rfl
  have time : ∀ entry, (unlinked entry).timestamp = entry.timestamp := fun _ => rfl
  contextMessages_map id body time entries

section LabelEntries

variable {generateId : List EntryId → EntryId} (known : List EntryId) (above : Option EntryId)

theorem labelEntries_linked (labels : List (EntryId × String × Nat)) :
    GrownTree.LinkedFrom SessionTreeEntry.id SessionTreeEntry.parentId above
      (labelEntries generateId known above labels) := by
  induction labels generalizing known above with
  | nil => trivial
  | cons label labels ih => exact ⟨rfl, ih _ _⟩

theorem labelEntries_labels (labels : List (EntryId × String × Nat)) :
    ∀ entry ∈ labelEntries generateId known above labels, isLabel entry = true := by
  induction labels generalizing known above with
  | nil => simp [labelEntries]
  | cons label labels ih =>
    intro entry member
    rcases mem_cons.mp member with rfl | later
    · rfl
    · exact ih _ _ entry later

theorem labelEntries_ids (fresh : ∀ known, generateId known ∉ known) {known : List EntryId}
    (distinct : known.Nodup) (above : Option EntryId) (labels : List (EntryId × String × Nat)) :
    (known ++ (labelEntries generateId known above labels).map SessionTreeEntry.id).Nodup := by
  induction labels generalizing known above with
  | nil => simpa [labelEntries] using distinct
  | cons label labels ih =>
    have further : (known ++ [generateId known]).Nodup := by
      rw [nodup_append]
      refine ⟨distinct, nodup_singleton _, fun old member new single same => ?_⟩
      rw [mem_singleton] at single
      exact fresh known (single ▸ same ▸ member)
    have rest := ih further (some (generateId known))
    rwa [append_assoc, singleton_append] at rest

/-- The labels written again are those found afterwards. -/
theorem labels_after_labelEntries
    {labels : List (EntryId × String × Nat)} (present : ∀ label ∈ labels, label.2.1 ≠ "")
    (distinct : (labels.map Prod.fst).Nodup) (before : InsertionMap EntryId String)
    (wanted : EntryId) :
    ((labelEntries generateId known above labels).foldl updateLabels before).get?
        wanted = ((labels.find? fun label => label.1 = wanted).map fun label => label.2.1).or
        (before.get? wanted) := by
  induction labels generalizing known above before with
  | nil => rfl
  | cons label labels ih =>
    obtain ⟨targetId, text, timestamp⟩ := label
    have some_text : text ≠ "" := present _ mem_cons_self
    rw [map_cons, nodup_cons] at distinct
    have step : updateLabels before
        (⟨generateId known, above, timestamp, .label targetId (some text)⟩ : SessionTreeEntry) =
          before.insert targetId text := by
      simp only [updateLabels, FileEntry.label?, Text.truthy_some some_text]
    rw [labelEntries, foldl_cons, step,
      ih _ _ (fun other member => present other (mem_cons_of_mem _ member)) distinct.2,
      get?_insert, find?_cons]
    by_cases same : targetId = wanted
    · have absent : labels.find? (fun label => label.1 = wanted) = none := by
        rw [find?_eq_none]
        intro other member equal
        rw [decide_eq_true_eq, ← same] at equal
        exact distinct.1 (mem_map.mpr ⟨other, member, equal⟩)
      simp [same, absent]
    · simp [same, Ne.symm same]

end LabelEntries

theorem labelsAfter_ne_empty {Entry Time : Type} [FileEntry Entry Time] (entries : List Entry)
    {targetId : EntryId} {text : String} (found : (labelsAfter entries).get? targetId = some text) :
    text ≠ "" := by
  induction entries using reverseRecOn with
  | nil => cases found
  | append_singleton entries entry ih =>
    rw [labelsAfter, foldl_append, foldl_cons, foldl_nil] at found
    unfold updateLabels at found
    split at found
    · exact ih found
    next target label _ =>
      cases given : Text.truthy label with
      | none =>
        rw [given] at found
        simp only [get?_erase] at found
        split at found
        · cases found
        · exact ih found
      | some value =>
        rw [given] at found
        simp only [get?_insert] at found
        split at found
        · rw [Option.some.injEq] at found
          have kept := (Option.filter_eq_some_iff.mp given).2
          rw [← found]
          simpa using kept
        · exact ih found

section Shown

def upTo (id : EntryId) (path : List SessionTreeEntry) : List SessionTreeEntry :=
  path.takeWhile (fun entry => entry.id ≠ id) ++ (path.find? fun entry => entry.id = id).toList

def shownAt (leafId : Option EntryId) (path : List SessionTreeEntry) : List SessionTreeEntry :=
  match leafId with
  | none => []
  | some id => upTo id path

theorem upTo_of_split {front rest : List SessionTreeEntry} {entry : SessionTreeEntry}
    (others : ∀ other ∈ front, other.id ≠ entry.id) :
    upTo entry.id (front ++ entry :: rest) = front ++ [entry] := by
  have before : ∀ other ∈ front, decide (other.id ≠ entry.id) = true :=
    fun other member => decide_eq_true (others other member)
  have missing : front.find? (fun other => other.id = entry.id) = none := by
    rw [find?_eq_none]
    exact fun other member => by simpa using others other member
  unfold upTo
  rw [takeWhile_append_of_pos before, find?_append, missing]
  simp

theorem upTo_of_absent {path : List SessionTreeEntry} {id : EntryId}
    (absent : ∀ entry ∈ path, entry.id ≠ id) : upTo id path = path := by
  have before : ∀ entry ∈ path, decide (entry.id ≠ id) = true :=
    fun entry member => decide_eq_true (absent entry member)
  have missing : path.find? (fun entry => entry.id = id) = none := by
    rw [find?_eq_none]
    exact fun entry member => by simpa using absent entry member
  unfold upTo
  rw [takeWhile_eq_self_iff.mpr before, missing, Option.toList_none, append_nil]

theorem shownAt_unlinked (leafId : Option EntryId) (path : List SessionTreeEntry) :
    (shownAt leafId path).map unlinked = shownAt leafId (path.map unlinked) := by
  have id : ∀ entry, (unlinked entry).id = entry.id := fun _ => rfl
  cases leafId with
  | none => rfl
  | some wanted =>
    simp only [shownAt, upTo, map_append, takeWhile_map, find?_map, Function.comp_def, id]
    cases path.find? fun entry => entry.id = wanted <;> rfl

theorem leafIdAfterAll_unlinked (path : List SessionTreeEntry) :
    leafIdAfterAll (path.map unlinked) = leafIdAfterAll path := by
  unfold leafIdAfterAll
  rw [getLast?_map]
  cases path.getLast? <;> rfl

theorem shownAt_last {front : List SessionTreeEntry} {last : SessionTreeEntry}
    (distinct : ((front ++ [last]).map SessionTreeEntry.id).Nodup) :
    shownAt (some last.id) (front ++ [last]) = front ++ [last] :=
  upTo_of_split (id_ne_of_nodup distinct).1

theorem buildSessionPath_of_linked {entries : List SessionTreeEntry}
    (linked : GrownTree.LinkedFrom SessionTreeEntry.id SessionTreeEntry.parentId none entries)
    (distinct : (entries.map SessionTreeEntry.id).Nodup) (leafId : Option EntryId) :
    buildSessionPath entries
        (match leafId with
          | none => .null
          | some id => .entry id) (indexBy SessionTreeEntry.id entries) =
      shownAt leafId entries := by
  have grows := grows_of_linked linked distinct
  have climbs : ∀ front entry rest, entries = front ++ entry :: rest →
      pathFrom (indexBy SessionTreeEntry.id entries) (some entry) =
        front ++ [entry] := by
    intro front entry rest split
    have chain := chain_of_linked linked distinct split
    unfold pathFrom
    rw [grows.climb_eq (by simp [split]) chain, reverse_cons, reverse_reverse]
  cases leafId with
  | none => rfl
  | some id =>
    simp only [buildSessionPath, shownAt]
    cases found : (indexBy SessionTreeEntry.id entries).get? id with
    | some entry =>
      obtain ⟨rfl, member⟩ := key_of_get?_indexBy _ _ found
      obtain ⟨front, rest, split⟩ := append_of_mem member
      rw [Option.some_or, climbs front entry rest split, split, upTo_of_split]
      exact (id_ne_of_nodup (split ▸ distinct)).1
    | none =>
      have absent : ∀ entry ∈ entries, entry.id ≠ id := by
        intro entry member same
        have present := (isSome_get?_indexBy SessionTreeEntry.id entries id).mpr
          (same ▸ mem_map_of_mem member)
        rw [found] at present
        cases present
      rw [upTo_of_absent absent, Option.none_or]
      rcases entries.eq_nil_or_concat' with rfl | ⟨front, last, rfl⟩
      · rfl
      · rw [getLast?_concat, climbs front last [] rfl]

end Shown

namespace SessionManager

variable (manager : Manager)

/-- What the leaf of a branched session shows of a path without its labels: all of it,
unless no label is written again and the path ends at a marker that moves the leaf. -/
def branchShows (path : List SessionTreeEntry) : List SessionTreeEntry :=
  let kept := path.filter fun entry => !isLabel entry
  if (manager.labelsToWrite (kept.map SessionTreeEntry.id)).isEmpty then
    shownAt (leafIdAfterAll kept) kept
  else kept

end SessionManager

section BranchedEntries

variable {manager : Manager} {generateId : List EntryId → EntryId}
  {path : List SessionTreeEntry}

theorem branchedEntries_linked : GrownTree.LinkedFrom SessionTreeEntry.id
    SessionTreeEntry.parentId none (manager.branchedEntries generateId path) := by
  unfold branchedEntries
  rw [linkedFrom_append, Option.or_none]
  exact ⟨rechain_linked _ _, labelEntries_linked _ _ _⟩

theorem branchedEntries_ids (fresh : ∀ known, generateId known ∉ known)
    (distinct : (path.map SessionTreeEntry.id).Nodup) :
    ((manager.branchedEntries generateId path).map SessionTreeEntry.id).Nodup := by
  unfold branchedEntries
  rw [map_append]
  refine labelEntries_ids fresh ?_ _ _
  rw [rechain_ids]
  exact distinct.sublist (filter_sublist.map _)

theorem rechain_plain : ∀ entry ∈ rechain none (path.filter fun entry => !isLabel entry),
    isLabel entry = false := by
  intro entry member
  have there : unlinked entry ∈
      (rechain none (path.filter fun entry => !isLabel entry)).map unlinked :=
    mem_map_of_mem member
  rw [rechain_unlinked] at there
  obtain ⟨old, inside, same⟩ := mem_map.mp there
  have label : isLabel (unlinked old) = isLabel (unlinked entry) := by rw [same]
  change isLabel old = isLabel entry at label
  rw [← label]
  simpa using (mem_filter.mp inside).2

/-- Labels at the end change nothing of what is shown before them. -/
theorem contextMessages_append_labels {entries labels : List SessionTreeEntry}
    (plain : ∀ entry ∈ entries, isLabel entry = false)
    (labelled : ∀ entry ∈ labels, isLabel entry = true)
    (distinct : ((entries ++ labels).map SessionTreeEntry.id).Nodup) :
    contextMessages (entries ++ labels) = contextMessages entries := by
  have left : (entries ++ labels).filter (fun entry => !isLabel entry) = entries := by
    rw [filter_append, filter_eq_self.mpr, filter_eq_nil_iff.mpr, append_nil]
    · exact fun entry member => by simp [labelled entry member]
    · exact fun entry member => by simp [plain entry member]
  have survives : KeptRangeSurvives (entries ++ labels) := by
    intro front label between compaction data newer same found newest first labels'
    have inLabels : compaction ∈ labels := by
      rw [append_assoc, append_eq_append_iff] at same
      rcases same with ⟨more, -, rfl⟩ | ⟨more, rfl, rest⟩
      · simp
      cases more with
      | nil =>
        rw [nil_append] at rest
        simp [← rest]
      | cons first more =>
        obtain ⟨rfl, -⟩ := cons.inj rest
        rw [plain label (by simp)] at labels'
        cases labels'
    rw [(contextMessages_of_label (labelled _ inLabels)).2] at found
    cases found
  have kept := (contextMessages_filter_iff distinct).mpr survives
  rw [left] at kept
  exact kept.symm

theorem shownAt_append_labels {entries labels : List SessionTreeEntry}
    (labelled : ∀ entry ∈ labels, isLabel entry = true) (written : labels ≠ [])
    (distinct : ((entries ++ labels).map SessionTreeEntry.id).Nodup) :
    shownAt (leafIdAfterAll (entries ++ labels)) (entries ++ labels) = entries ++ labels := by
  obtain ⟨front, last, rfl⟩ := (labels.eq_nil_or_concat').resolve_left written
  have leaf : leafIdAfterAll (entries ++ (front ++ [last])) = some last.id := by
    have label := labelled last (by simp)
    obtain ⟨id, parentId, timestamp, body⟩ := last
    unfold leafIdAfterAll
    rw [← append_assoc, getLast?_concat]
    cases body <;> first | rfl | cases label
  rw [leaf]
  rw [← append_assoc] at distinct ⊢
  exact shownAt_last distinct

theorem contextMessages_branched (fresh : ∀ known, generateId known ∉ known)
    (distinct : (path.map SessionTreeEntry.id).Nodup) :
    contextMessages (shownAt (leafIdAfterAll (manager.branchedEntries generateId path))
        (manager.branchedEntries generateId path)) =
      contextMessages (manager.branchShows path) := by
  have ids : ((manager.branchedEntries generateId path).map SessionTreeEntry.id).Nodup :=
    branchedEntries_ids fresh distinct
  have kept : ∀ entries, contextMessages (rechain none entries) = contextMessages entries := by
    intro entries
    rw [← contextMessages_unlinked, rechain_unlinked, contextMessages_unlinked]
  unfold branchedEntries at ids ⊢
  unfold branchShows
  simp only [rechain_ids] at ids ⊢
  cases labels : manager.labelsToWrite
      ((path.filter fun entry => !isLabel entry).map SessionTreeEntry.id) with
  | nil =>
    simp only [labelEntries, append_nil, isEmpty_nil, if_true]
    rw [← contextMessages_unlinked, shownAt_unlinked, rechain_unlinked, ← shownAt_unlinked,
      contextMessages_unlinked, ← leafIdAfterAll_unlinked, rechain_unlinked,
      leafIdAfterAll_unlinked]
  | cons label labels' =>
    rw [labels] at ids
    simp only [isEmpty_cons, Bool.false_eq_true, if_false]
    have written : ∀ known above, labelEntries generateId known above (label :: labels') ≠ [] :=
      fun _ _ => cons_ne_nil _ _
    rw [shownAt_append_labels (labelEntries_labels _ _ _) (written _ _) ids,
      contextMessages_append_labels rechain_plain (labelEntries_labels _ _ _) ids, kept]

theorem labelsAfter_plain {entries : List SessionTreeEntry}
    (plain : ∀ entry ∈ entries, isLabel entry = false) : labelsAfter entries = .empty := by
  induction entries using reverseRecOn with
  | nil => rfl
  | append_singleton entries entry ih =>
    have rest := ih fun other member => plain other (mem_append_left _ member)
    have here : FileEntry.label? entry = none := by
      simpa [isLabel] using plain entry (by simp)
    unfold labelsAfter at rest ⊢
    rw [foldl_append, rest, foldl_cons, foldl_nil, updateLabels, here]

theorem labels_branched (indexed : Indexed manager) {wanted : EntryId}
    (retained : wanted ∈ (path.filter fun entry => !isLabel entry).map SessionTreeEntry.id) :
    (labelsAfter (manager.branchedEntries generateId path)).get? wanted =
      manager.getLabel wanted := by
  have none : labelsAfter (rechain none (path.filter fun entry => !isLabel entry)) = .empty :=
    labelsAfter_plain rechain_plain
  unfold branchedEntries
  simp only [rechain_ids]
  unfold labelsAfter at none ⊢
  rw [foldl_append, none, labels_after_labelEntries]
  · have same : (fun label : EntryId × String => decide (decide (label.1 ∈
        (path.filter fun entry => !isLabel entry).map SessionTreeEntry.id) = true ∧
          decide (label.1 = wanted) = true)) = fun label => decide (label.1 = wanted) := by
      funext label
      by_cases equal : label.1 = wanted
      · simp only [equal, retained, decide_true, and_self]
      · simp [equal]
    rw [get?_empty, Option.or_none]
    unfold labelsToWrite getLabel get?
    rw [find?_map, find?_filter]
    simp only [Function.comp_def, same, Option.map_map]
  · intro label member
    obtain ⟨old, inside, rfl⟩ := mem_map.mp member
    have there := (get?_eq_some_iff _ _ _).mpr (mem_filter.mp inside).1
    rw [indexed.labels] at there
    exact labelsAfter_ne_empty _ there
  · unfold labelsToWrite
    rw [map_map]
    exact manager.labelsById.keys_nodup.sublist (filter_sublist.map _)

end BranchedEntries

end Recode.CodingAgent

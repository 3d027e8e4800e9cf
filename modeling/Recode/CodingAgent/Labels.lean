import Recode.CodingAgent.SessionManager

/-! # Paths without their labels

Labels show no messages, so a path shows the same without them, with one exception: a
compaction can keep entries from a label on, and then nothing that it kept is found
without the label. -/

namespace Recode.CodingAgent

open Recode List Option

def isLabel (entry : SessionTreeEntry) : Bool := (FileEntry.label? entry).isSome

def contextMessages (path : List SessionTreeEntry) : List AgentMessage :=
  (contextEntriesOfPath path).flatMap sessionEntryToContextMessages

theorem newestCompaction_map {f : SessionTreeEntry → SessionTreeEntry}
    (same : ∀ entry, (f entry).body = entry.body) (path : List SessionTreeEntry) :
    newestCompaction (path.map f) =
      (newestCompaction path).map fun (compaction, data) => (f compaction, data) := by
  have compacts : ∀ entry, (f entry).compaction? = entry.compaction? := by
    intro entry
    unfold SessionTreeEntry.compaction?
    rw [same]
  induction path using reverseRecOn with
  | nil => rfl
  | append_singleton path entry ih =>
    unfold newestCompaction at ih ⊢
    rw [map_append, foldl_append, foldl_append, ih]
    simp only [map_cons, map_nil, foldl_cons, foldl_nil, compacts]
    cases entry.compaction? <;> rfl

/-- What a path shows does not depend on the parents its entries name. -/
theorem contextMessages_map {f : SessionTreeEntry → SessionTreeEntry}
    (sameId : ∀ entry, (f entry).id = entry.id) (sameBody : ∀ entry, (f entry).body = entry.body)
    (sameTime : ∀ entry, (f entry).timestamp = entry.timestamp) (path : List SessionTreeEntry) :
    contextMessages (path.map f) = contextMessages path := by
  have entries : contextEntriesOfPath (path.map f) = (contextEntriesOfPath path).map f := by
    unfold contextEntriesOfPath
    rw [newestCompaction_map sameBody]
    cases newestCompaction path with
    | none => rfl
    | some pair =>
      obtain ⟨compaction, data⟩ := pair
      have index : (path.map f).findIdx (fun entry => entry.id = (f compaction).id) =
          path.findIdx fun entry => entry.id = compaction.id := by
        rw [findIdx_map]
        simp only [Function.comp_def, sameId]
      have kept : ∀ firstKept older, keptEntries firstKept (older.map f) =
          (keptEntries firstKept older).map f := by
        intro firstKept older
        cases firstKept with
        | none => rfl
        | some id => simp only [keptEntries, dropWhile_map, Function.comp_def, sameId]
      simp only [map_some, index, ← map_take, ← map_drop, kept, map_append, map_cons]
  have messages : ∀ entry, sessionEntryToContextMessages (f entry) =
      sessionEntryToContextMessages entry := by
    intro entry
    unfold sessionEntryToContextMessages
    rw [sameBody, sameTime]
  unfold contextMessages
  rw [entries, flatMap_map]
  exact flatMap_congr fun entry _ => messages entry

/-- The kept range of the newest compaction does not begin at a label, or shows nothing
behind it. -/
def KeptRangeSurvives (path : List SessionTreeEntry) : Prop :=
  ∀ front label between compaction data newer,
    path = front ++ label :: between ++ compaction :: newer →
    compaction.compaction? = some data → (∀ entry ∈ newer, entry.compaction? = none) →
    data.firstKeptEntryId = some label.id → isLabel label →
    between.flatMap sessionEntryToContextMessages = []

theorem contextMessages_of_label {entry : SessionTreeEntry} (label : isLabel entry) :
    sessionEntryToContextMessages entry = [] ∧ entry.compaction? = none := by
  obtain ⟨id, parentId, timestamp, body⟩ := entry
  cases body <;> first | exact ⟨rfl, rfl⟩ | cases label

theorem flatMap_filter_labels (entries : List SessionTreeEntry) :
    (entries.filter fun entry => !isLabel entry).flatMap sessionEntryToContextMessages =
      entries.flatMap sessionEntryToContextMessages := by
  induction entries with
  | nil => rfl
  | cons entry entries ih =>
    rw [filter_cons, flatMap_cons]
    cases label : isLabel entry with
    | true => simp [ih, (contextMessages_of_label label).1]
    | false => simp [ih]

theorem contextMessages_of_split {older newer : List SessionTreeEntry}
    {compaction : SessionTreeEntry} {data : CompactionData}
    (found : compaction.compaction? = some data)
    (newest : ∀ entry ∈ newer, entry.compaction? = none)
    (distinct : ((older ++ compaction :: newer).map SessionTreeEntry.id).Nodup) :
    contextMessages (older ++ compaction :: newer) = sessionEntryToContextMessages compaction ++
        ((keptEntries data.firstKeptEntryId older).flatMap sessionEntryToContextMessages ++
          newer.flatMap sessionEntryToContextMessages) := by
  have fresh := (id_ne_of_nodup distinct).1
  unfold contextMessages
  rw [contextEntriesOfPath_of_split found newest fresh]
  simp only [cons_append, flatMap_cons, flatMap_append]

/-- Leaving labels out keeps what a kept range shows, unless the range begins at a label
and shows something. -/
theorem keptEntries_filter_iff {older : List SessionTreeEntry} {firstKept : Option EntryId}
    (distinct : (older.map SessionTreeEntry.id).Nodup) :
    (keptEntries firstKept (older.filter fun entry => !isLabel entry)).flatMap
          sessionEntryToContextMessages =
        (keptEntries firstKept older).flatMap sessionEntryToContextMessages ↔
      ∀ front label between, older = front ++ label :: between → firstKept = some label.id →
        isLabel label → between.flatMap sessionEntryToContextMessages = [] := by
  cases firstKept with
  | none => simp [keptEntries]
  | some kept =>
    by_cases present : kept ∈ older.map SessionTreeEntry.id
    · obtain ⟨entry, member, rfl⟩ := mem_map.mp present
      obtain ⟨front, between, rfl⟩ := append_of_mem member
      obtain ⟨others, later⟩ := id_ne_of_nodup distinct
      rw [keptEntries_of_mem others, flatMap_cons]
      have only : (∀ front' label between', front ++ entry :: between =
          front' ++ label :: between' → some entry.id = some label.id → isLabel label →
            between'.flatMap sessionEntryToContextMessages = []) ↔
          (isLabel entry → between.flatMap sessionEntryToContextMessages = []) := by
        constructor
        · exact fun all label => all front entry between rfl rfl label
        · intro here front' label between' same named labelled
          obtain ⟨rfl, rfl, rfl⟩ := split_unique_of_ids distinct same (some.inj named)
          exact here labelled
      rw [only, filter_append, filter_cons]
      cases label : isLabel entry with
      | true =>
        have gone : keptEntries (some entry.id)
            (front.filter (fun entry => !isLabel entry) ++
              between.filter fun entry => !isLabel entry) = [] := by
          apply keptEntries_of_not_mem
          intro other member
          rcases mem_append.mp member with member | member
          · exact others other (mem_of_mem_filter member)
          · exact later other (mem_of_mem_filter member)
        simp only [Bool.not_true, Bool.false_eq_true, if_false, gone,
          (contextMessages_of_label label).1, flatMap_nil, nil_append, true_imp_iff]
        exact eq_comm
      | false =>
        have stays : keptEntries (some entry.id)
            (front.filter (fun entry => !isLabel entry) ++
              entry :: between.filter fun entry => !isLabel entry) =
            entry :: between.filter fun entry => !isLabel entry :=
          keptEntries_of_mem fun other member => others other (mem_of_mem_filter member)
        simp only [Bool.not_false, if_true, stays, flatMap_cons, flatMap_filter_labels]
        simp
    · have absent : ∀ entry ∈ older, entry.id ≠ kept :=
        fun entry member same => present (same ▸ mem_map_of_mem member)
      rw [keptEntries_of_not_mem absent, keptEntries_of_not_mem fun entry member =>
        absent entry (mem_of_mem_filter member)]
      refine iff_of_true rfl ?_
      rintro front label between rfl named -
      exact (absent label (by simp) (some.inj named).symm).elim

theorem contextMessages_filter_iff {path : List SessionTreeEntry}
    (distinct : (path.map SessionTreeEntry.id).Nodup) :
    contextMessages (path.filter fun entry => !isLabel entry) = contextMessages path ↔
      KeptRangeSurvives path := by
  rcases none_or_newest path with none | ⟨older, compaction, newer, data, rfl, found, newest⟩
  · have left : ∀ entry ∈ path.filter (fun entry => !isLabel entry),
        entry.compaction? = Option.none :=
      fun entry member => none entry (mem_of_mem_filter member)
    refine iff_of_true ?_ ?_
    · rw [contextMessages, contextMessages, contextEntriesOfPath_of_none none,
        contextEntriesOfPath_of_none left, flatMap_filter_labels]
    · rintro front label between compaction data newer rfl found - - -
      rw [none compaction (by simp)] at found
      cases found
  · have plain : isLabel compaction = false := by
      cases label : isLabel compaction with
      | false => rfl
      | true =>
        rw [(contextMessages_of_label label).2] at found
        cases found
    have split : (older ++ compaction :: newer).filter (fun entry => !isLabel entry) =
        older.filter (fun entry => !isLabel entry) ++
          compaction :: newer.filter fun entry => !isLabel entry := by
      rw [filter_append, filter_cons, plain, Bool.not_false, if_pos rfl]
    have distinctLeft : (((older ++ compaction :: newer).filter
        fun entry => !isLabel entry).map SessionTreeEntry.id).Nodup :=
      distinct.sublist (filter_sublist.map _)
    rw [split] at distinctLeft ⊢
    rw [contextMessages_of_split found newest distinct, contextMessages_of_split found
      (fun entry member => newest entry (mem_of_mem_filter member)) distinctLeft,
      append_cancel_left_eq, flatMap_filter_labels, append_cancel_right_eq,
      keptEntries_filter_iff (distinct.sublist ((sublist_append_left ..).map _))]
    constructor
    · intro survives front label between compaction' data' newer' same found' newest' first
      obtain ⟨rfl, rfl, rfl⟩ : older = front ++ label :: between ∧ compaction = compaction' ∧
          newer = newer' :=
        LastWrite.split_unique same (isSome_of_eq_some found)
          (isSome_of_eq_some found') newest newest'
      rw [found, Option.some.injEq] at found'
      exact survives front label between rfl (found' ▸ first)
    · intro survives front label between same first
      subst same
      exact survives front label between compaction data newer rfl found newest first

end Recode.CodingAgent

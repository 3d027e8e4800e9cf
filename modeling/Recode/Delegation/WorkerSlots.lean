import Recode.Delegation.WorkerRecords

/-! # Making room in a worker directory

Which records are dropped when a directory makes room, and when that is enough. -/

namespace Recode.Delegation

open WorkerDirectory List

variable {directory : WorkerDirectory} {state : State}

/-- How many records must go until some more fit. -/
def WorkerDirectory.excess (directory : WorkerDirectory) (state : State) (requiredSlots : Nat) :
    Nat :=
  state.conversations.entries.length + requiredSlots - directory.maxConversations

/-- The records that go to make room: the oldest ones that are not running. -/
def WorkerDirectory.dropped (directory : WorkerDirectory) (state : State) (requiredSlots : Nat) :
    List Nat :=
  state.removable.take (directory.excess state requiredSlots)

theorem mem_removable_iff {record : Nat} :
    record ∈ state.removable ↔ record ∈ state.held ∧ state.isRunning record = false := by
  rw [State.removable, mem_insertionSort, mem_filter, Bool.not_eq_true']

theorem Linked.removable_nodup (linked : Linked state) : state.removable.Nodup :=
  (perm_insertionSort _ _).nodup_iff.mpr (linked.held_nodup.filter _)

/-- The first records of a list are dropped, as many as must go. -/
theorem dropUntilFit_spec (directory : WorkerDirectory)
    {records : Nat → WorkerConversationRecord} (requiredSlots : Nat)
    {removable : List Nat} {conversations : InsertionMap String Nat}
    (named : ∀ id record, conversations.get? id = some record →
      (records record).conversationId = id) (known : ∀ record ∈ removable,
      conversations.get? (records record).conversationId = some record)
    (distinct : removable.Nodup) :
    (∀ id record, (directory.dropUntilFit records requiredSlots removable conversations).get? id =
            some record ↔ conversations.get? id = some record ∧ record ∉ removable.take
            (conversations.entries.length + requiredSlots - directory.maxConversations)) ∧
      (directory.dropUntilFit records requiredSlots removable conversations).entries.length +
          min removable.length
            (conversations.entries.length + requiredSlots - directory.maxConversations) =
        conversations.entries.length := by
  induction removable generalizing conversations with
  | nil => simp [dropUntilFit]
  | cons first removable ih =>
    rw [nodup_cons] at distinct
    rw [dropUntilFit]
    split
    · rename_i exceeds
      have here := known first mem_cons_self
      have size := InsertionMap.length_erase here
      have erased (id : String) (record : Nat) :
          (conversations.erase (records first).conversationId).get? id = some record ↔
            conversations.get? id = some record ∧ record ≠ first := by
        rw [InsertionMap.get?_erase]
        constructor
        · intro found
          split at found
          · cases found
          · rename_i other
            refine ⟨found, ?_⟩
            rintro rfl
            exact other (named id _ found).symm
        · rintro ⟨found, other⟩
          rw [if_neg]
          · exact found
          · rintro rfl
            exact other (Option.some.inj (found.symm.trans here))
      obtain ⟨kept, length⟩ := ih
        (fun id record found => named id record ((erased id record).mp found).1)
        (fun record member => (erased _ record).mpr
          ⟨known record (mem_cons_of_mem first member),
            fun same => distinct.1 (same ▸ member)⟩)
        distinct.2
      have steps : conversations.entries.length + requiredSlots - directory.maxConversations =
          (conversations.erase (records first).conversationId).entries.length +
            requiredSlots - directory.maxConversations + 1 := by
        omega
      constructor
      · intro id record
        rw [kept, erased, steps, take_succ_cons, mem_cons, not_or, and_assoc]
      · rw [steps, length_cons]
        omega
    · rename_i fits
      have none : conversations.entries.length + requiredSlots - directory.maxConversations = 0 :=
        by omega
      rw [none]
      simp

/-- What making room does. -/
structure MadeRoom (directory : WorkerDirectory) (state : State) (requiredSlots : Nat)
    (conversations : InsertionMap String Nat) : Prop where
  kept : ∀ id record, conversations.get? id = some record ↔
    state.conversations.get? id = some record ∧ record ∉ directory.dropped state requiredSlots
  length : conversations.entries.length +
    min state.removable.length (directory.excess state requiredSlots) =
      state.conversations.entries.length

theorem makeRoom_madeRoom (directory : WorkerDirectory) (linked : Linked state)
    (requiredSlots : Nat) :
    MadeRoom directory state requiredSlots
      (directory.makeRoom state requiredSlots).1.conversations := by
  obtain ⟨kept, length⟩ := dropUntilFit_spec directory requiredSlots linked.named
    (fun record member => linked.get?_of_held (mem_removable_iff.mp member).1)
    linked.removable_nodup
  exact ⟨kept, length⟩

/-- The records of active turns stay when room is made. -/
theorem Linked.makeRoom (linked : Linked state) (directory : WorkerDirectory) (requiredSlots : Nat)
    (settled : ∀ record ∈ directory.dropped state requiredSlots, ∀ call ∈ state.starts,
      record ∉ call.records) : Linked (directory.makeRoom state requiredSlots).1 := by
  have room := makeRoom_madeRoom directory linked requiredSlots
  have stays {record : Nat} (member : record ∈ state.held)
      (needed : record ∉ directory.dropped state requiredSlots) :
      record ∈ (directory.makeRoom state requiredSlots).1.held :=
    mem_held_iff.mpr ⟨_, (room.kept _ record).mpr ⟨linked.get?_of_held member, needed⟩⟩
  apply linked.restrict (directory.makeRoom state requiredSlots).1.conversations
  · exact fun id record found => ((room.kept id record).mp found).1
  · intro turn member active
    have held := linked.active turn member active
    refine stays held fun gone => ?_
    have idle := (mem_removable_iff.mp (mem_of_mem_take gone)).2
    rw [linked.running turn member held] at idle
    cases idle
  · intro call member record inside
    exact stays (linked.awaited call member record inside)
      fun gone => settled record gone call member inside

end Recode.Delegation

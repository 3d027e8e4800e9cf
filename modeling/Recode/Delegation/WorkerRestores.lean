import Recode.Delegation.WorkerCalls

/-! # Closing and restoring conversations

These calls take records out of the directory, or write over them, while runs are under
way. -/

namespace Recode.Delegation

open WorkerDirectory InsertionMap List

variable {directory : WorkerDirectory} {state after : State}

/-- Records that nothing needs may go. -/
theorem Linked.remove (linked : Linked state) (conversations : InsertionMap String Nat)
    (fewer : ∀ id record, conversations.get? id = some record →
      state.conversations.get? id = some record) (kept : ∀ record ∈ state.held, state.InUse record →
      record ∈ ({ state with conversations := conversations } : State).held) :
    Linked { state with conversations := conversations } := by
  apply linked.restrict conversations fewer
  · intro turn member active
    exact kept turn.record (linked.active turn member active)
      (Or.inl ⟨turn, member, rfl, active⟩)
  · intro call member record inside
    exact kept record (linked.awaited call member record inside) (Or.inr ⟨call, member, inside⟩)

theorem closeConversation_kept {conversationId : String} {now : Rat} (linked : Linked state)
    (safe : Safe directory state)
    (idle : ∀ record, state.conversations.get? conversationId = some record →
      ¬ state.InUse record) :
    CallKept directory state (closeConversation state conversationId now).1
      (closeConversation state conversationId now).2 := by
  rw [closeConversation]
  split
  · exact .refl linked safe _
  rename_i record found
  have aborted := linked.abort (state.records record).abortController
  let left := state.conversations.erase conversationId
  have removed := aborted.remove left
    (fun id other kept => by
      change left.get? id = some other at kept
      rw [get?_erase] at kept
      split at kept
      · cases kept
      · exact kept)
    (fun other held used => by
      obtain ⟨id, known⟩ := mem_held_iff.mp held
      refine mem_held_iff.mpr ⟨id, ?_⟩
      change left.get? id = some other
      rw [get?_erase, if_neg]
      · exact known
      · rintro rfl
        exact idle other known used)
  have linkedAfter := removed.modify record
    (fun old => { old with status := .closed, updatedAt := now }) rfl rfl
    fun _ held => by
      obtain ⟨id, kept⟩ := mem_held_iff.mp held
      change left.get? id = some record at kept
      rw [get?_erase] at kept
      split at kept
      · cases kept
      · rename_i other
        exact absurd ((linked.named id record kept).symm.trans
          (linked.named conversationId record found)) other
  have size := length_erase found
  have bound := safe.size
  refine ⟨linkedAfter, safe.congr linkedAfter rfl rfl ?_, fun _ threw => by cases threw⟩
  change (state.conversations.erase conversationId).entries.length ≤ _
  omega

theorem closeAll_kept {reply : Reply} (linked : Linked state) (safe : Safe directory state)
    (done : ∀ error, reply ≠ .threw error) (idle : ∀ record ∈ state.held, ¬ state.InUse record) :
    CallKept directory state (closeAll state) reply := by
  have removed := linked.remove empty
    (fun _ _ found => nomatch found)
    (fun record held used => absurd used (idle record held))
  have linkedAfter : Linked (closeAll state) :=
    ⟨removed.named, removed.made, removed.turnsMade, removed.identity, removed.running,
      removed.active, removed.single, removed.oneShots, removed.total, removed.awaited⟩
  exact ⟨linkedAfter, safe.congr linkedAfter rfl rfl (Nat.zero_le _),
    fun error threw => absurd threw (done error)⟩

/-- A restored turn fits: its record is idle, and either it is not among the records that
go to make room, nor is one of a start call that has not returned, or it alone could go
and the call throws. -/
structure RestoreFits (directory : WorkerDirectory) (state : State) (turn : RestoreTurn)
    (added : State) (record : Nat) : Prop where
  idle : added.isRunning record = false
  room : (record ∉ directory.dropped (writeTurn added record turn) 1 ∧
      ∀ other ∈ directory.dropped (writeTurn added record turn) 1, ∀ call ∈ state.starts,
        other ∉ call.records) ∨ state.conversations.get? turn.conversationId = none ∧
      (writeTurn added record turn).removable = [record] ∧
        2 ≤ directory.excess (writeTurn added record turn) 1

/-- The record for a restored turn. -/
structure FoundRecord (state : State) (turn : RestoreTurn) (added : State) (record : Nat) :
    Prop where
  linked : Linked added
  found : added.conversations.get? turn.conversationId = some record
  turns : added.turns = state.turns
  oneShots : added.oneShots = state.oneShots
  starts : added.starts = state.starts
  known : added = state ∨ state.conversations.get? turn.conversationId = none ∧
    record = state.made ∧ (added.records record).turnCount = 0 ∧
      added.conversations = state.conversations.insert turn.conversationId state.made

variable {turn : RestoreTurn}

theorem findOrAddRecord_ok {worker : NamedWorkerDefinition}
    {workspace : Except String String} {added : State} {record : Nat} (linked : Linked state)
    (done : findOrAddRecord state turn worker workspace = .ok (added, record)) :
    FoundRecord state turn added record := by
  unfold findOrAddRecord at done
  split at done
  · rename_i other found
    split at done
    · cases done
    · cases done
      exact ⟨linked, found, rfl, rfl, rfl, Or.inl rfl⟩
  · rename_i fresh
    split at done
    · cases done
    · cases done
      exact ⟨linked.addRecord fresh, get?_insert_self _ _ _, rfl, rfl, rfl,
        Or.inr ⟨fresh, rfl, congrArg _ (Function.update_self _ _ _), rfl⟩⟩

/-- Pruning after a turn was written: the turn's record stays, or the call throws and only
that record went. -/
theorem pruneConversations_written {added : State} {record : Nat}
    (linked : Linked state) (safe : Safe directory state)
    (found : FoundRecord state turn added record)
    (fits : RestoreFits directory state turn added record) :
    CallKept directory state (directory.pruneConversations (writeTurn added record turn)).1
        (match (directory.pruneConversations (writeTurn added record turn)).2 with
          | some error => .threw error
          | none => .done) ∧
      ((directory.pruneConversations (writeTurn added record turn)).2 = none →
        (directory.pruneConversations (writeTurn added record turn)).1.conversations.get?
          turn.conversationId = some record) := by
  have held : record ∈ added.held := mem_held_iff.mpr ⟨_, found.found⟩
  have written : Linked (writeTurn added record turn) :=
    found.linked.modify record _ rfl rfl fun ⟨other, member, same⟩ _ =>
      absurd same (found.linked.no_turn held fits.idle other member)
  have idle : (writeTurn added record turn).isRunning record = false := by
    rw [State.isRunning, writeTurn, State.records_modify_self]
    rfl
  have removable : record ∈ (writeTurn added record turn).removable :=
    mem_removable_iff.mpr ⟨held, idle⟩
  rw [pruneConversations]
  split
  · rename_i room
    exact ⟨⟨written, safe.congr written found.turns found.oneShots (Nat.le_of_lt room),
      fun _ threw => by cases threw⟩, fun _ => found.found⟩
  rename_i full
  have made := makeRoom_madeRoom directory written 1
  have length := made.length
  rcases fits.room with ⟨stays, settled⟩ | ⟨fresh, only, exceeds⟩
  · have linkedAfter := written.makeRoom directory 1
      fun other gone call member => settled other gone call (found.starts ▸ member)
    have few : directory.excess (writeTurn added record turn) 1 <
        (writeTurn added record turn).removable.length := by
      by_contra many
      refine stays ?_
      rw [dropped, take_of_length_le (Nat.le_of_not_lt many)]
      exact removable
    rw [Nat.min_eq_right (Nat.le_of_lt few), excess] at length
    have passed : (directory.makeRoom (writeTurn added record turn) 1).2 = none := by
      rw [makeRoom]
      dsimp only
      rw [if_neg]
      change ¬ (directory.makeRoom (writeTurn added record turn) 1).1.conversations.entries.length
        + 1 > _
      omega
    rw [passed]
    refine ⟨⟨linkedAfter, safe.congr linkedAfter found.turns found.oneShots (by omega),
      fun _ threw => by cases threw⟩, fun _ => ?_⟩
    exact (made.kept _ record).mpr ⟨found.found, stays⟩
  · rcases found.known with rfl | ⟨-, rfl, -, conversations⟩
    · rw [found.found] at fresh
      cases fresh
    have linkedAfter := written.makeRoom directory 1
      fun other gone call member inside => by
        have isNew := mem_of_mem_take gone
        rw [only, mem_singleton] at isNew
        change call ∈ added.starts at member
        rw [found.starts] at member
        have old := linked.made other (linked.awaited call member other inside)
        omega
    have back : (directory.makeRoom (writeTurn added state.made turn) 1).1.conversations =
        state.conversations := by
      have named := written.named turn.conversationId state.made found.found
      rw [makeRoom]
      dsimp only
      rw [only, dropUntilFit, if_pos (by rw [excess] at exceeds; omega), dropUntilFit, named]
      change added.conversations.erase turn.conversationId = state.conversations
      rw [conversations, erase_insert_of_absent fresh]
    have failed : (directory.makeRoom (writeTurn added state.made turn) 1).2 =
        some limitReached := by
      rw [makeRoom]
      dsimp only
      rw [if_pos]
      change (directory.makeRoom (writeTurn added state.made turn) 1).1.conversations.entries.length
        + 1 > _
      rw [only, length_singleton, Nat.min_eq_left (Nat.le_of_succ_le exceeds)] at length
      rw [excess] at exceeds
      omega
    rw [failed]
    refine ⟨⟨linkedAfter, safe.congr linkedAfter found.turns found.oneShots ?_,
      fun _ _ => back⟩, fun passed => by cases passed⟩
    rw [back]
    exact safe.size

theorem restoreConversationTurn_kept {workspace : Except String String}
    (linked : Linked state) (safe : Safe directory state)
    (fits : ∀ worker added record, directory.resolveWorker turn.workerId = .ok worker →
      findOrAddRecord state turn worker workspace = .ok (added, record) →
        (added.records record).turnCount < turn.turnCount →
          RestoreFits directory state turn added record) :
    CallKept directory state (directory.restoreConversationTurn state turn workspace).1
        (directory.restoreConversationTurn state turn workspace).2 ∧
      ∀ record, (directory.restoreConversationTurn state turn workspace).2 = .snapshot record →
        ((directory.restoreConversationTurn state turn workspace).1.conversations.get?
          turn.conversationId).isSome = true := by
  rw [restoreConversationTurn]
  split
  · exact ⟨.refl linked safe _, fun _ same => by cases same⟩
  split
  · exact ⟨.refl linked safe _, fun _ same => by cases same⟩
  split
  · exact ⟨.refl linked safe _, fun _ same => by cases same⟩
  rename_i positive
  split
  · exact ⟨.refl linked safe _, fun _ same => by cases same⟩
  rename_i worker resolved
  split
  · exact ⟨.refl linked safe _, fun _ same => by cases same⟩
  rename_i added record located
  have found := findOrAddRecord_ok linked located
  split
  · rename_i older
    rcases found.known with rfl | ⟨-, -, zero, -⟩
    · exact ⟨.refl linked safe _,
        fun _ _ => Option.isSome_iff_exists.mpr ⟨record, found.found⟩⟩
    · rw [zero] at older
      exact absurd (Or.inr older) positive
  · rename_i newer
    obtain ⟨kept, present⟩ := pruneConversations_written linked safe found
      (fits worker added record resolved located (Rat.not_le.mp newer))
    split
    · rename_i pruned error outcome
      rw [outcome] at kept
      exact ⟨kept, fun _ same => by cases same⟩
    · rename_i pruned outcome
      rw [outcome] at kept present
      exact ⟨⟨kept.linked, kept.safe, fun _ threw => by cases threw⟩,
        fun _ _ => Option.isSome_iff_exists.mpr ⟨record, present rfl⟩⟩

end Recode.Delegation

import Recode.Delegation.WorkerStarts

/-! # The other calls of a worker directory

Each call, and each end of a run, keeps the records and the runs together and the
limits kept, when it does not take a record from a run or from a start call. -/

namespace Recode.Delegation

open WorkerDirectory List

variable {directory : WorkerDirectory} {state after : State}

/-- A record has a run that is executing, or belongs to a start call that has not
returned. -/
def State.InUse (state : State) (record : Nat) : Prop :=
  (∃ turn ∈ state.turns, turn.record = record ∧ turn.active = true) ∨
    ∃ call ∈ state.starts, record ∈ call.records

section

variable (linked : Linked state)
include linked

theorem Linked.abort (controller : Option Nat) : Linked (abort state controller) :=
  ⟨linked.named, linked.made, linked.turnsMade, linked.identity, linked.running, linked.active,
    linked.single, linked.oneShots, linked.total, linked.awaited⟩

/-- Turns may go, or become inactive. -/
theorem Linked.turns (turns : List Turn)
    (fewer : ∀ turn ∈ turns, ∃ old ∈ state.turns, turn.record = old.record ∧
      turn.conversationId = old.conversationId ∧ turn.workerId = old.workerId ∧
        (turn.active = true → old.active = true))
    (single : (turns.map Turn.record).Nodup) : Linked { state with turns := turns } where
  named := linked.named
  made := linked.made
  turnsMade turn member := by
    obtain ⟨old, inside, record, -⟩ := fewer turn member
    rw [record]
    exact linked.turnsMade old inside
  identity turn member := by
    obtain ⟨old, inside, record, id, worker, -⟩ := fewer turn member
    rw [record, id, worker]
    exact linked.identity old inside
  running turn member held := by
    obtain ⟨old, inside, record, -⟩ := fewer turn member
    rw [record] at held
    rw [record]
    exact linked.running old inside held
  active turn member active := by
    obtain ⟨old, inside, record, -, -, was⟩ := fewer turn member
    rw [record]
    exact linked.active old inside (was active)
  single := single
  oneShots := linked.oneShots
  total := linked.total
  awaited := linked.awaited

theorem executeConversationTurn_kept {record : Nat} {message : String} {startedAt : Rat}
    {runs : Bool} (safe : Safe directory state) (held : record ∈ state.held)
    (passed : directory.assertCanStartWorkerIds state [(state.records record).worker.id] = .ok ()) :
    CallKept directory state (executeConversationTurn state record message startedAt runs).1
      (executeConversationTurn state record message startedAt runs).2 := by
  rw [executeConversationTurn]
  split
  · exact .refl linked safe _
  split
  · exact .refl linked safe _
  rename_i idle
  rw [Bool.not_eq_true] at idle
  have linkedAfter := linked.beginTurn startedAt runs held idle
  have added := activeRuns_append state (beginTurn state record startedAt runs)
    [newTurn state record runs] rfl rfl
  exact ⟨linkedAfter, safe.started linked linkedAfter passed added.1 added.2 safe.size,
    fun _ threw => by cases threw⟩

theorem messageConversation_kept {conversationId message : String} {startedAt : Rat}
    {runs : Bool} (safe : Safe directory state) :
    CallKept directory state
      (directory.messageConversation state conversationId message startedAt runs).1
      (directory.messageConversation state conversationId message startedAt runs).2 := by
  rw [messageConversation]
  split
  · exact .refl linked safe _
  rename_i record found
  split
  · exact .refl linked safe _
  · split
    · exact .refl linked safe _
    · rename_i passed
      exact executeConversationTurn_kept linked safe (mem_held_iff.mpr ⟨_, found⟩) passed

theorem runOneShot_kept {workerReference task : String} {workspace : Except String String}
    {runs : Bool} (safe : Safe directory state) :
    CallKept directory state (directory.runOneShot state workerReference task workspace runs).1
      (directory.runOneShot state workerReference task workspace runs).2 := by
  rw [runOneShot]
  split
  · exact .refl linked safe _
  split
  · exact .refl linked safe _
  rename_i worker _
  split
  · exact .refl linked safe _
  split
  · exact .refl linked safe _
  rename_i passed
  have linkedAfter : Linked
      { state with
        controllers := state.controllers + 1
        oneShotControllers := state.oneShotControllers ++ [state.controllers]
        activeOneShotsByWorker := state.activeOneShotsByWorker.insert worker.id
          (state.activeOneShotsOf worker.id + 1)
        oneShots := state.oneShots ++
          [{ controller := state.controllers, workerId := worker.id, active := runs }] } := by
    refine ⟨linked.named, linked.made, linked.turnsMade, linked.identity, linked.running,
      linked.active, linked.single, ?_, ?_, linked.awaited⟩
    · intro workerId
      have before := linked.oneShots workerId
      rw [State.activeOneShotsOf] at before ⊢
      dsimp only
      rw [InsertionMap.get?_insert, filter_append, length_append]
      by_cases same : workerId = worker.id
      · subst same
        rw [if_pos rfl, Option.getD_some, filter_cons_of_pos (by simp), ← before]
        rfl
      · rw [if_neg same, filter_cons_of_neg (by simpa using Ne.symm same), before]
        rfl
    · have total := state.activeOneShotsByWorker.total_insert worker.id
        (state.activeOneShotsOf worker.id + 1)
      have before := linked.total
      change _ + state.activeOneShotsOf worker.id = _ at total
      rw [State.activeOneShots] at before ⊢
      dsimp only
      rw [length_append, length_singleton]
      omega
  refine ⟨linkedAfter, safe.started linked linkedAfter passed ?_ ?_ safe.size, nofun⟩
  · rw [State.activeRuns, State.activeRuns]
    dsimp only
    rw [filter_append, length_append]
    have bound := length_filter_le OneShot.active
      [{ controller := state.controllers, workerId := worker.id, active := runs }]
    rw [length_singleton] at bound ⊢
    omega
  · intro workerId
    rw [State.activeRunsOf, State.activeRunsOf]
    dsimp only
    rw [filter_append, length_append]
    by_cases same : worker.id = workerId
    · have bound := length_filter_le
        (fun oneShot : OneShot => oneShot.active && oneShot.workerId = workerId)
        [{ controller := state.controllers, workerId := worker.id, active := runs }]
      have asked : ([worker.id].filter fun candidate => candidate = workerId).length = 1 := by
        simp [same]
      rw [length_singleton] at bound
      omega
    · rw [filter_cons_of_neg (a := OneShot.mk state.controllers worker.id runs) (by simp [same])]
      exact Nat.le_add_right _ _

end

variable {oneShot : OneShot}

theorem length_filter_erase {oneShots : List OneShot}
    (member : oneShot ∈ oneShots) (kind : OneShot → Bool) :
    ((oneShots.erase oneShot).filter kind).length + (if kind oneShot then 1 else 0) =
      (oneShots.filter kind).length := by
  have split := ((perm_cons_erase member).filter kind).length_eq
  rw [split]
  by_cases chosen : kind oneShot = true
  · rw [filter_cons_of_pos chosen, length_cons, if_pos chosen]
  · rw [filter_cons_of_neg chosen, if_neg chosen, Nat.add_zero]

variable {reply : Reply}

theorem endOneShot_kept (linked : Linked state)
    (safe : Safe directory state) (member : oneShot ∈ state.oneShots) :
    CallKept directory state (endOneShot state oneShot) reply := by
  have counted : 0 < state.activeOneShotsOf oneShot.workerId := by
    rw [linked.oneShots]
    exact length_pos_of_mem (mem_filter.mpr ⟨member, decide_eq_true rfl⟩)
  obtain ⟨count, found⟩ : ∃ count,
      state.activeOneShotsByWorker.get? oneShot.workerId = some count := by
    cases found : state.activeOneShotsByWorker.get? oneShot.workerId with
    | none =>
      rw [State.activeOneShotsOf, found] at counted
      exact absurd counted (Nat.lt_irrefl 0)
    | some count => exact ⟨count, rfl⟩
  have positive : 0 < count := by
    rwa [State.activeOneShotsOf, found] at counted
  have linkedAfter : Linked (endOneShot state oneShot) := by
    refine ⟨linked.named, linked.made, linked.turnsMade, linked.identity, linked.running,
      linked.active, linked.single, ?_, ?_, linked.awaited⟩
    · intro workerId
      have before := linked.oneShots workerId
      have fewer := length_filter_erase member fun other => other.workerId = workerId
      rw [← before] at fewer
      rw [State.activeOneShotsOf] at fewer ⊢
      rw [endOneShot]
      dsimp only
      rw [found, Option.getD_some]
      by_cases same : workerId = oneShot.workerId
      · subst same
        rw [found, Option.getD_some, if_pos (by simp)] at fewer
        split
        · rw [InsertionMap.get?_insert_self, Option.getD_some]
          omega
        · rw [InsertionMap.get?_erase_self, Option.getD_none]
          omega
      · rw [if_neg (by simpa using Ne.symm same)] at fewer
        split
        · rw [InsertionMap.get?_insert_of_ne _ _ same]
          exact fewer.symm
        · rw [InsertionMap.get?_erase_of_ne _ same]
          exact fewer.symm
    · have before := linked.total
      have length := length_erase_of_mem member
      have some := length_pos_of_mem member
      rw [State.activeOneShots] at before ⊢
      rw [endOneShot]
      dsimp only
      rw [found, Option.getD_some]
      split
      · have total := state.activeOneShotsByWorker.total_insert oneShot.workerId (count - 1)
        rw [found, Option.getD_some] at total
        omega
      · have total := state.activeOneShotsByWorker.total_erase oneShot.workerId
        rw [found, Option.getD_some] at total
        omega
  refine ⟨linkedAfter, safe.fewer linkedAfter ?_ ?_ safe.size, fun _ _ => rfl⟩
  · exact Nat.add_le_add_left (erase_sublist.filter _).length_le _
  · exact fun _ => Nat.add_le_add_left (erase_sublist.filter _).length_le _

theorem Safe.congr (safe : Safe directory state) (linkedAfter : Linked after)
    (turns : after.turns = state.turns) (oneShots : after.oneShots = state.oneShots)
    (size : after.conversations.entries.length ≤ directory.maxConversations) :
    Safe directory after := by
  apply safe.fewer linkedAfter _ _ size
  · rw [State.activeRuns, State.activeRuns, turns, oneShots]
  · intro workerId
    rw [State.activeRunsOf, State.activeRunsOf, turns, oneShots]

section

variable {Item Value : Type} [DecidableEq Item] {items : List Item} {old new : Item}

/-- What an item keeps when it is replaced is as before. -/
theorem map_replaced {field : Item → Value} (same : field new = field old) :
    (items.map fun other => if other = old then new else other).map field = items.map field := by
  rw [map_map]
  refine map_congr_left fun other _ => ?_
  rw [Function.comp_apply]
  split
  · next found => rw [same, found]
  · rfl

theorem length_filter_replaced {kind : Item → Bool} (kept : kind new = true → kind old = true) :
    ((items.map fun other => if other = old then new else other).filter kind).length ≤
      (items.filter kind).length := by
  rw [filter_map, length_map, ← countP_eq_length_filter, ← countP_eq_length_filter]
  refine countP_mono_left fun other _ chosen => ?_
  rw [Function.comp_apply] at chosen
  split at chosen
  · next found => exact found ▸ kept chosen
  · exact chosen

end

section

variable (linked : Linked state) (safe : Safe directory state)
include linked safe

theorem modify_kept {record : Nat} {change : WorkerConversationRecord → WorkerConversationRecord}
    (sameId : (change (state.records record)).conversationId =
      (state.records record).conversationId)
    (sameWorker : (change (state.records record)).worker = (state.records record).worker)
    (sameStatus : (change (state.records record)).status = (state.records record).status) :
    CallKept directory state (state.modify record change) reply := by
  have linkedAfter := linked.modify record change sameId sameWorker
      fun ⟨turn, member, same⟩ held => by
    rw [sameStatus]
    subst same
    exact of_decide_eq_true (linked.running turn member held)
  exact ⟨linkedAfter, safe.congr linkedAfter rfl rfl safe.size, fun _ _ => rfl⟩

theorem turnReturns_kept {turn : Turn} :
    CallKept directory state
      { state with
        turns := state.turns.map fun other =>
          if other = turn then { turn with active := false } else other } reply := by
  have linkedAfter := linked.turns (state.turns.map fun other =>
      if other = turn then { turn with active := false } else other)
    (fun other member => by
      obtain ⟨old, inside, rfl⟩ := mem_map.mp member
      refine ⟨old, inside, ?_⟩
      split
      · next same => exact same ▸ ⟨rfl, rfl, rfl, nofun⟩
      · exact ⟨rfl, rfl, rfl, id⟩)
    (by
      rw [@map_replaced _ _ _ _ turn { turn with active := false } Turn.record rfl]
      exact linked.single)
  refine ⟨linkedAfter, safe.fewer linkedAfter ?_ ?_ safe.size, fun _ _ => rfl⟩
  · exact Nat.add_le_add_right (length_filter_replaced (by simp)) _
  · exact fun workerId => Nat.add_le_add_right (length_filter_replaced (by simp)) _

theorem oneShotReturns_kept :
    CallKept directory state
      { state with
        oneShots := state.oneShots.map fun other =>
          if other = oneShot then { oneShot with active := false } else other } reply := by
  have linkedAfter : Linked
      { state with
        oneShots := state.oneShots.map fun other =>
          if other = oneShot then { oneShot with active := false } else other } := by
    refine ⟨linked.named, linked.made, linked.turnsMade, linked.identity, linked.running,
      linked.active, linked.single, fun workerId => ?_, ?_, linked.awaited⟩
    · have workers := congrArg (countP (· = workerId)) (@map_replaced _ _ _ state.oneShots
        oneShot { oneShot with active := false } OneShot.workerId rfl)
      rw [countP_map, countP_map, countP_map, countP_eq_length_filter,
        countP_eq_length_filter] at workers
      dsimp only
      rw [filter_map, length_map]
      exact (linked.oneShots workerId).trans workers.symm
    · rw [length_map]
      exact linked.total
  refine ⟨linkedAfter, safe.fewer linkedAfter ?_ ?_ safe.size, fun _ _ => rfl⟩
  · exact Nat.add_le_add_left (length_filter_replaced (by simp)) _
  · exact fun workerId => Nat.add_le_add_left (length_filter_replaced (by simp)) _

theorem recordResult_kept {turn : Turn} {status : NamedWorkerRunStatus} {now : Rat}
    (member : turn ∈ state.turns) :
    CallKept directory state (recordResult state turn status now) reply := by
  have ended := linked.turns (state.turns.erase turn)
    (fun other inside => ⟨other, mem_of_mem_erase inside, rfl, rfl, rfl, id⟩)
    (linked.single.sublist (erase_sublist.map _))
  have alone : ∀ other ∈ state.turns.erase turn, other.record ≠ turn.record := by
    have single := ((perm_cons_erase member).map Turn.record).nodup_iff.mp linked.single
    rw [map_cons, nodup_cons] at single
    exact fun other inside same => single.1 (same ▸ mem_map_of_mem inside)
  have linkedAfter := ended.modify turn.record
    (fun old =>
      { old with
        status := .result status
        updatedAt := now
        turnCount := old.turnCount + 1
        abortController := none }) rfl rfl
    fun ⟨other, inside, same⟩ => absurd same (alone other inside)
  refine ⟨linkedAfter, safe.fewer linkedAfter ?_ ?_ safe.size, fun _ _ => rfl⟩
  · exact Nat.add_le_add_right (erase_sublist.filter _).length_le _
  · exact fun _ => Nat.add_le_add_right (erase_sublist.filter _).length_le _

end

theorem startReturns_kept (call : StartCall) (reply : Reply) (linked : Linked state)
    (safe : Safe directory state) :
    CallKept directory state { state with starts := state.starts.erase call } reply := by
  have linkedAfter : Linked { state with starts := state.starts.erase call } :=
    ⟨linked.named, linked.made, linked.turnsMade, linked.identity, linked.running, linked.active,
      linked.single, linked.oneShots, linked.total,
      fun other member => linked.awaited other (mem_of_mem_erase member)⟩
  exact ⟨linkedAfter, safe.congr linkedAfter rfl rfl safe.size, fun _ _ => rfl⟩

theorem cancelConversation_kept {conversationId : String} (linked : Linked state)
    (safe : Safe directory state) :
    CallKept directory state (cancelConversation state conversationId).1
      (cancelConversation state conversationId).2 := by
  rw [cancelConversation]
  split
  · exact .refl linked safe _
  split
  · rename_i controller _ _
    have linkedAfter := linked.abort (some controller)
    exact ⟨linkedAfter, safe.congr linkedAfter rfl rfl safe.size, fun _ _ => rfl⟩
  · exact .refl linked safe _

end Recode.Delegation

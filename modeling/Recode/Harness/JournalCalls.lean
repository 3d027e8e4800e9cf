import Recode.Harness.JournalLog

/-! # What the calls of a journal keep

The work that is open in the records is the work that the journal has in memory.
Each call keeps this, whether its appends are written, fail where a failure does
no harm, or a crash ends it. -/

namespace Recode.Harness

open Brackets Procedure RecodeHarnessJournal List Nat JournalRecord

def JournalRecord.turnId? : JournalRecord → Option Nat
  | .turnStarted _ turnId => some turnId
  | .turnFinished _ turnId _ => some turnId
  | .turnInterrupted _ turnId _ => some turnId
  | .toolStarted _ tool => some tool.turnId
  | .toolFinished _ tool _ => some tool.turnId
  | .toolInterrupted _ tool _ => some tool.turnId
  | _ => none

def Work.turnId? : Work → Option Nat
  | .operation _ => none
  | .turn _ turnId => some turnId
  | .tool _ turnId _ => some turnId

variable {record : JournalRecord} {work : Work}

theorem turnId?_of_opens (opened : record.opens = some work) : record.turnId? = work.turnId? := by
  cases record <;> cases opened <;> rfl

theorem turnId?_of_closes (closed : record.closes = some work) : record.turnId? = work.turnId? := by
  cases record <;> cases closed <;> rfl

/-- Sound records whose identifiers were generated. -/
structure Held (entries : List JournalRecord) (uuids : Nat) : Prop where
  sound : Sound entries
  operations : ∀ record ∈ entries, record.operationId < uuids
  turns : ∀ record ∈ entries, ∀ turnId, record.turnId? = some turnId → turnId < uuids

/-- The work that a journal has in memory. -/
def RecodeHarnessJournal.Active (journal : RecodeHarnessJournal) : Work → Prop
  | .operation operationId => ∃ operation, journal.activeOperation = some operation ∧
      operation.id = operationId
  | .turn operationId turnId => ∃ operation, journal.activeOperation = some operation ∧
      operation.id = operationId ∧ journal.activeTurnId = some turnId
  | .tool operationId turnId toolCallId => ∃ operation, journal.activeOperation = some operation ∧
      operation.id = operationId ∧ ∃ tool, journal.activeTools.get? toolCallId = some tool ∧
        tool.turnId = turnId

/-- Work stays in memory when a call with an unused identifier is noted. -/
theorem RecodeHarnessJournal.Active.insertTool {journal : RecodeHarnessJournal} {work : Work}
    (active : journal.Active work) {toolCallId : String}
    (unused : journal.activeTools.get? toolCallId = none) (started : ActiveTool) :
    RecodeHarnessJournal.Active
      { journal with activeTools := journal.activeTools.insert toolCallId started } work := by
  cases work with
  | operation operationId => exact active
  | turn operationId turnId => exact active
  | tool operationId turnId toolCallId' =>
    obtain ⟨other, running, own, tool, found, turn'⟩ := active
    refine ⟨other, running, own, tool, ?_, turn'⟩
    rw [InsertionMap.get?_insert_of_ne]
    · exact found
    · rintro rfl
      rw [unused] at found
      cases found

/-- A journal has the open work in memory, and nothing that is closed. -/
structure Agrees (journal : RecodeHarnessJournal) (entries : List JournalRecord) (uuids : Nat) :
    Prop where
  held : Held entries uuids
  operation : ∀ operation, journal.activeOperation = some operation →
    operation.id < uuids ∧ ¬ Ended entries (.operation operation.id)
  turn : ∀ turnId, journal.activeTurnId = some turnId → turnId < uuids ∧
    ∃ operation, journal.activeOperation = some operation ∧
      ¬ Ended entries (.turn operation.id turnId)
  tool : ∀ toolCallId tool, journal.activeTools.get? toolCallId = some tool →
    tool.toolCallId = toolCallId ∧ journal.activeTurnId = some tool.turnId ∧
      ∃ operation, journal.activeOperation = some operation ∧
        ∀ closed, terminals (.tool operation.id tool.turnId toolCallId) entries = some closed →
          closed = 0
  active : journal.recoveryPromise ≠ none → ∀ work, Open entries work → journal.Active work
  idle : journal.recoveryPromise = none → journal.activeOperation = none

theorem held_nil : Held [] 0 := ⟨sound_nil, by simp, by simp⟩

variable {entries : List JournalRecord} {uuids : Nat}

theorem Held.mono {uuids more : Nat} (held : Held entries uuids)
    (le : uuids ≤ more) : Held entries more where
  sound := held.sound
  operations record member := lt_of_lt_of_le (held.operations record member) le
  turns record member turnId named := lt_of_lt_of_le (held.turns record member turnId named) le

section

variable (held : Held entries uuids)
include held

/-- The journal of a new process has nothing in memory. -/
theorem Held.agrees :
    Agrees {} entries uuids where
  held := held
  operation := by simp
  turn := by simp
  tool := by simp
  active never := absurd rfl never
  idle _ := rfl

theorem Held.not_ended_operation : ¬ Ended entries (.operation uuids) := by
  rintro ⟨record, member, closed⟩
  have below := held.operations record member
  rw [operationId_of_closes closed] at below
  exact lt_irrefl _ below

theorem Held.lt_of_open (known : Open entries work) : work.operationId < uuids := by
  obtain ⟨record, member, opened⟩ := exists_opens known
  exact operationId_of_opens opened ▸ held.operations record member

theorem Held.turnId_lt_of_open (known : Open entries work) {turnId : Nat}
    (named : work.turnId? = some turnId) : turnId < uuids := by
  obtain ⟨record, member, opened⟩ := exists_opens known
  exact held.turns record member turnId (turnId?_of_opens opened ▸ named)

theorem Held.not_ended_turn (operationId : Nat) : ¬ Ended entries (.turn operationId uuids) := by
  rintro ⟨record, member, closed⟩
  exact lt_irrefl _ (held.turns record member uuids (turnId?_of_closes closed))

theorem Held.append (sound : Sound (entries ++ [record])) (operation : record.operationId < uuids)
    (turn : ∀ turnId, record.turnId? = some turnId → turnId < uuids) :
    Held (entries ++ [record]) uuids where
  sound := sound
  operations other member := by
    rcases mem_append.mp member with old | new
    · exact held.operations other old
    · rwa [mem_singleton.mp new]
  turns other member turnId named := by
    rcases mem_append.mp member with old | new
    · exact held.turns other old turnId named
    · rw [mem_singleton.mp new] at named
      exact turn turnId named

end

/-! ## The work in memory -/

namespace Agrees

variable {journal : RecodeHarnessJournal} {entries : List JournalRecord} {uuids : Nat}
  {operation : ActiveOperation} {toolCallId : String} {record : JournalRecord} {turnId : Nat}

section

variable (agrees : Agrees journal entries uuids)
include agrees

theorem recovered
    (current : journal.activeOperation = some operation) : journal.recoveryPromise ≠ none := by
  intro never
  rw [agrees.idle never] at current
  cases current

theorem activeTurnId_of_idle
    (idle : journal.activeOperation = none) : journal.activeTurnId = none := by
  cases turn : journal.activeTurnId with
  | none => rfl
  | some turnId =>
    obtain ⟨-, operation, running, -⟩ := agrees.turn turnId turn
    rw [idle] at running
    cases running

theorem activeTools_of_noTurn (noTurn : journal.activeTurnId = none) (toolCallId : String) :
    journal.activeTools.get? toolCallId = none := by
  cases found : journal.activeTools.get? toolCallId with
  | none => rfl
  | some tool =>
    rw [(agrees.tool toolCallId tool found).2.1] at noTurn
    cases noTurn

theorem closed_of_idle (recovered : journal.recoveryPromise ≠ none)
    (idle : journal.activeOperation = none) (work : Work) : ¬ Open entries work := by
  intro known
  have active := agrees.active recovered work known
  cases work <;> obtain ⟨operation, running, -⟩ := active <;> rw [idle] at running <;>
    cases running

end

/-- A journal with nothing in memory agrees with held records in which nothing is open. -/
theorem of_closed (held : Held entries uuids) (idle : journal.activeOperation = none)
    (noTurn : journal.activeTurnId = none)
    (noTools : ∀ toolCallId, journal.activeTools.get? toolCallId = none)
    (closed : ∀ work, ¬ Open entries work) : Agrees journal entries uuids where
  held := held
  operation := by simp [idle]
  turn := by simp [noTurn]
  tool := by simp [noTools]
  active _ work known := absurd known (closed work)
  idle _ := idle

theorem closed_of_not_ended {work : Work} (never : ¬ Ended entries work) :
    ∀ closed, terminals work entries = some closed → closed = 0 := by
  intro closed counted
  by_contra some_
  exact never (exists_closes counted some_)

section

variable (agrees : Agrees journal entries uuids)
include agrees

section

variable (current : journal.activeOperation = some operation)
include current

theorem startTurn (none_ : journal.activeTurnId = none) :
    Agrees { journal with activeTurnId := some uuids } entries (uuids + 1) ∧
      Agrees { journal with activeTurnId := some uuids }
        (entries ++ [.turnStarted operation.id uuids]) (uuids + 1) := by
  obtain ⟨below, ongoing⟩ := agrees.operation operation current
  have noTools := agrees.activeTools_of_noTurn none_
  have active : ∀ work, Open entries work → work = .operation operation.id := by
    intro work known
    have active := agrees.active (agrees.recovered current) work known
    cases work with
    | operation operationId =>
      obtain ⟨other, same, rfl⟩ := active
      rw [current] at same
      cases same
      rfl
    | turn operationId turnId =>
      obtain ⟨-, -, -, same⟩ := active
      rw [none_] at same
      cases same
    | tool operationId turnId toolCallId =>
      obtain ⟨-, -, -, tool, found, -⟩ := active
      rw [noTools] at found
      cases found
  have unended : ¬ Ended entries (.turn operation.id uuids) := agrees.held.not_ended_turn _
  have opened : (turnStarted operation.id uuids).opens =
      some (.turn operation.id uuids) := rfl
  have started : Sound (entries ++ [.turnStarted operation.id uuids]) := by
    apply agrees.held.sound.start opened ⟨?_, ?_⟩ ongoing
    · intro ancestor member
      rw [Work.ancestors, mem_singleton] at member
      rw [member]
      exact ongoing
    · intro other known
      rw [active other known]
      simp [Work.key]
  refine ⟨⟨agrees.held.mono (le_succ _), ?_, ?_, ?_, ?_, agrees.idle⟩,
    ⟨?_, ?_, ?_, ?_, ?_, agrees.idle⟩⟩
  · intro other same
    rw [current] at same
    cases same
    exact ⟨lt_succ_of_lt below, ongoing⟩
  · rintro turnId ⟨⟩
    exact ⟨lt_succ_self _, operation, current, unended⟩
  · intro toolCallId tool found
    rw [show _ = none from noTools toolCallId] at found
    cases found
  · intro _ work known
    rw [active work known]
    exact ⟨operation, current, rfl⟩
  · apply (agrees.held.mono (le_succ _)).append started (lt_succ_of_lt below)
    rintro turnId ⟨⟩
    exact lt_succ_self _
  · intro other same
    rw [current] at same
    cases same
    refine ⟨lt_succ_of_lt below, ?_⟩
    rw [ended_append_iff]
    rintro (ended | ⟨⟨⟩⟩)
    exact ongoing ended
  · rintro turnId ⟨⟩
    refine ⟨lt_succ_self _, operation, current, ?_⟩
    rw [ended_append_iff]
    rintro (ended | ⟨⟨⟩⟩)
    exact unended ended
  · intro toolCallId tool found
    rw [show _ = none from noTools toolCallId] at found
    cases found
  · intro _ work known
    rcases (open_append_of_opens rfl work).mp known with rfl | known
    · exact ⟨operation, current, rfl, rfl⟩
    · rw [active work known]
      exact ⟨operation, current, rfl⟩

theorem operationId_of_open {work : Work}
    (known : Open entries work) : work.operationId = operation.id := by
  have active := agrees.active (agrees.recovered current) work known
  cases work <;> obtain ⟨other, same, rest⟩ := active <;> rw [current] at same <;> cases same
  · exact rest.symm
  · exact rest.1.symm
  · exact rest.1.symm

theorem activeTurnId_of_open {operationId turnId : Nat}
    (known : Open entries (.turn operationId turnId)) : journal.activeTurnId = some turnId := by
  obtain ⟨-, -, -, same⟩ := agrees.active (agrees.recovered current) _ known
  exact same

theorem activeTools_of_open {operationId turnId : Nat}
    (known : Open entries (.tool operationId turnId toolCallId)) :
    ∃ tool, journal.activeTools.get? toolCallId = some tool ∧ tool.turnId = turnId := by
  obtain ⟨-, -, -, found⟩ := agrees.active (agrees.recovered current) _ known
  exact found

theorem mayEnd_turn (turn : journal.activeTurnId = some turnId)
    (noTools : ∀ toolCallId, journal.activeTools.get? toolCallId = none) :
    MayEnd entries (.turn operation.id turnId) where
  closed := by
    obtain ⟨-, other, same, unended⟩ := agrees.turn turnId turn
    rw [current] at same
    cases same
    exact closed_of_not_ended unended
  above := by
    intro ancestor member
    rw [Work.ancestors, mem_singleton] at member
    rw [member]
    exact (agrees.operation operation current).2
  key := by
    intro other known same
    have own := agrees.operationId_of_open current known
    cases other <;> cases same
    rw [← own]
    rfl
  below := by
    intro other known
    cases other with
    | tool operationId turnId' toolCallId =>
      obtain ⟨tool, found, -⟩ := agrees.activeTools_of_open current known
      rw [noTools] at found
      cases found
    | _ => simp [Work.ancestors]

theorem mayEnd_tool {tool : ActiveTool} (found : journal.activeTools.get? toolCallId = some tool) :
    MayEnd entries (.tool operation.id tool.turnId tool.toolCallId) := by
  obtain ⟨rfl, turn, other, same, closed⟩ := agrees.tool toolCallId tool found
  rw [current] at same
  cases same
  refine ⟨closed, ?_, ?_, ?_⟩
  · intro ancestor member
    rw [Work.ancestors, mem_cons, mem_singleton] at member
    rcases member with rfl | rfl
    · obtain ⟨-, other, same, unended⟩ := agrees.turn tool.turnId turn
      rw [current] at same
      cases same
      exact unended
    · exact (agrees.operation operation current).2
  · intro other known same
    have own := agrees.operationId_of_open current known
    cases other <;> cases same
    obtain ⟨tool', found', turn'⟩ := agrees.activeTools_of_open current known
    rw [found] at found'
    cases found'
    rw [← own, ← turn']
    rfl
  · intro other known
    cases other <;> simp [Work.ancestors]

theorem mayEnd_operation (noTurn : journal.activeTurnId = none) :
    MayEnd entries (.operation operation.id) where
  closed := closed_of_not_ended (agrees.operation operation current).2
  above := by simp [Work.ancestors]
  key := by
    intro other known same
    cases other <;> cases same
    rfl
  below := by
    intro other known
    cases other with
    | operation operationId => simp [Work.ancestors]
    | turn operationId turnId =>
      rw [agrees.activeTurnId_of_open current known] at noTurn
      cases noTurn
    | tool operationId turnId toolCallId =>
      obtain ⟨tool, found, -⟩ := agrees.activeTools_of_open current known
      rw [(agrees.tool toolCallId tool found).2.1] at noTurn
      cases noTurn

theorem held_of_closed {work : Work}
    (closed : record.closes = some work) (own : work.operationId = operation.id)
    (may : MayEnd entries work) (turn : ∀ turnId, work.turnId? = some turnId → turnId < uuids) :
    Held (entries ++ [record]) uuids := by
  obtain ⟨below, ongoing⟩ := agrees.operation operation current
  apply agrees.held.append (agrees.held.sound.finish closed may (own ▸ ongoing))
  · rwa [operationId_of_closes closed, own]
  · rwa [turnId?_of_closes closed]

theorem finishTurn (turn : journal.activeTurnId = some turnId)
    (noTools : ∀ toolCallId, journal.activeTools.get? toolCallId = none)
    (closed : record.closes = some (.turn operation.id turnId)) :
    Agrees { journal with activeTurnId := none } (entries ++ [record]) uuids where
  held := by
    apply agrees.held_of_closed current closed rfl (agrees.mayEnd_turn current turn noTools)
    rintro _ ⟨⟩
    exact (agrees.turn turnId turn).1
  operation := by
    intro other same
    refine ⟨(agrees.operation other same).1, ?_⟩
    rw [ended_append_iff, closed]
    rintro (ended | ⟨⟨⟩⟩)
    exact (agrees.operation other same).2 ended
  turn := by simp
  tool := by
    intro toolCallId tool found
    rw [show _ = none from noTools toolCallId] at found
    cases found
  active := by
    intro recovered work known
    obtain ⟨different, known⟩ := (open_append_of_closes closed work).mp known
    have active := agrees.active recovered work known
    cases work with
    | operation operationId => exact active
    | turn operationId turnId' =>
      obtain ⟨other, same, rfl, turn'⟩ := active
      rw [current] at same
      cases same
      rw [turn] at turn'
      cases turn'
      exact absurd rfl different
    | tool operationId turnId toolCallId =>
      obtain ⟨-, -, -, tool, found, -⟩ := active
      rw [noTools] at found
      cases found
  idle := agrees.idle

theorem startTool (turn : journal.activeTurnId = some turnId)
    (unused : journal.activeTools.get? toolCallId = none) (toolName : String) :
    Agrees { journal with
        activeTools := journal.activeTools.insert toolCallId ⟨turnId, toolCallId, toolName⟩ }
      (entries ++ [.toolStarted operation.id ⟨turnId, toolCallId, toolName⟩]) uuids := by
  obtain ⟨below, ongoing⟩ := agrees.operation operation current
  obtain ⟨turnBelow, other, same, unended⟩ := agrees.turn turnId turn
  rw [current] at same
  cases same
  have opened : (toolStarted operation.id ⟨turnId, toolCallId, toolName⟩).opens =
      some (.tool operation.id turnId toolCallId) := rfl
  have noCloses : (toolStarted operation.id ⟨turnId, toolCallId, toolName⟩).closes =
      none := rfl
  refine ⟨?_, ?_, ?_, ?_, ?_, agrees.idle⟩
  · refine agrees.held.append (agrees.held.sound.start opened ⟨?_, ?_⟩ ongoing) below ?_
    · intro ancestor member
      rw [Work.ancestors, mem_cons, mem_singleton] at member
      rcases member with rfl | rfl
      · exact unended
      · exact ongoing
    · intro other known same
      cases other <;> cases same
      obtain ⟨tool, found, -⟩ := agrees.activeTools_of_open current known
      rw [unused] at found
      cases found
    · rintro _ ⟨⟩
      exact turnBelow
  · intro other same
    rw [ended_append_iff, noCloses]
    exact ⟨(agrees.operation other same).1, fun ended =>
      (agrees.operation other same).2 (ended.resolve_right (by simp))⟩
  · intro turnId' same
    obtain ⟨below, other, running, unended⟩ := agrees.turn turnId' same
    refine ⟨below, other, running, ?_⟩
    rw [ended_append_iff, noCloses]
    exact fun ended => unended (ended.resolve_right (by simp))
  · intro toolCallId' tool found
    rw [InsertionMap.get?_insert] at found
    split at found
    · next same =>
        cases found
        subst same
        refine ⟨rfl, turn, operation, current, ?_⟩
        intro closed counted
        rw [terminals, closings_append_of_opens opened] at counted
        exact (Option.some.inj counted).symm
    · next different =>
        obtain ⟨named, turn', other, running, closed⟩ := agrees.tool toolCallId' tool found
        refine ⟨named, turn', other, running, ?_⟩
        intro closings counted
        rw [terminals, closings_append_of_ne ?_ (by rw [noCloses]; simp)] at counted
        · exact closed closings counted
        · rw [opened]
          intro same
          rw [Option.some.injEq, Work.tool.injEq] at same
          exact different same.2.2.symm
  · intro recovered work known
    rcases (open_append_of_opens opened work).mp known with rfl | known
    · exact ⟨operation, current, rfl, _, InsertionMap.get?_insert_self _ _ _, rfl⟩
    exact (agrees.active recovered work known).insertTool unused _

theorem insertTool (turn : journal.activeTurnId = some turnId)
    (unused : journal.activeTools.get? toolCallId = none) (toolName : String)
    (new : terminals (.tool operation.id turnId toolCallId) entries = none) :
    Agrees { journal with
        activeTools := journal.activeTools.insert toolCallId ⟨turnId, toolCallId, toolName⟩ }
      entries uuids where
  held := agrees.held
  operation := agrees.operation
  turn := agrees.turn
  tool := by
    intro toolCallId' tool found
    rw [InsertionMap.get?_insert] at found
    split at found
    · next same =>
        cases found
        subst same
        refine ⟨rfl, turn, operation, current, ?_⟩
        intro closed counted
        rw [new] at counted
        cases counted
    · exact agrees.tool toolCallId' tool found
  active := by
    intro recovered work known
    exact (agrees.active recovered work known).insertTool unused _
  idle := agrees.idle

theorem finishTool {tool : ActiveTool} (found : journal.activeTools.get? toolCallId = some tool)
    (closed : record.closes = some (.tool operation.id tool.turnId tool.toolCallId)) :
    Agrees { journal with activeTools := journal.activeTools.erase toolCallId }
      (entries ++ [record]) uuids := by
  have may := agrees.mayEnd_tool current found
  obtain ⟨rfl, turn, -⟩ := agrees.tool toolCallId tool found
  have opens : ∀ work, record.opens ≠ some work := by simp [opens_of_closes closed]
  refine ⟨?_, ?_, ?_, ?_, ?_, agrees.idle⟩
  · apply agrees.held_of_closed current closed rfl may
    rintro _ ⟨⟩
    exact (agrees.turn _ turn).1
  · intro other same
    refine ⟨(agrees.operation other same).1, ?_⟩
    rw [ended_append_iff, closed]
    rintro (ended | ⟨⟨⟩⟩)
    exact (agrees.operation other same).2 ended
  · intro turnId same
    obtain ⟨below, other, running, unended⟩ := agrees.turn turnId same
    refine ⟨below, other, running, ?_⟩
    rw [ended_append_iff, closed]
    rintro (ended | ⟨⟨⟩⟩)
    exact unended ended
  · intro toolCallId' tool' found'
    rw [InsertionMap.get?_erase] at found'
    split at found'
    · cases found'
    next different =>
      obtain ⟨named, turn', other, running, unclosed⟩ := agrees.tool toolCallId' tool' found'
      refine ⟨named, turn', other, running, ?_⟩
      intro closings counted
      rw [terminals, closings_append_of_ne (opens _)] at counted
      · exact unclosed closings counted
      · rw [closed]
        intro same
        rw [Option.some.injEq, Work.tool.injEq] at same
        exact different same.2.2.symm
  · intro recovered work known
    obtain ⟨different, known⟩ := (open_append_of_closes closed work).mp known
    have active := agrees.active recovered work known
    cases work with
    | operation operationId => exact active
    | turn operationId turnId => exact active
    | tool operationId turnId' toolCallId' =>
      obtain ⟨other, running, own, tool', found', turn'⟩ := active
      refine ⟨other, running, own, tool', ?_, turn'⟩
      rw [InsertionMap.get?_erase_of_ne]
      · exact found'
      · rintro rfl
        rw [found] at found'
        cases found'
        rw [current] at running
        cases running
        exact different (by rw [← own, ← turn'])

theorem closeTools (reason : InterruptReason)
    {items : List (String × ActiveTool)} (listed : items <+: journal.activeTools.entries) :
    Closed entries
        (entries ++ items.map fun item => .toolInterrupted operation.id item.2 reason)
        (items.map fun item => .tool operation.id item.2.turnId item.2.toolCallId) ∧
      Held (entries ++ items.map fun item => .toolInterrupted operation.id item.2 reason)
        uuids := by
  obtain ⟨below, ongoing⟩ := agrees.operation operation current
  have found : ∀ item ∈ items, journal.activeTools.get? item.1 = some item.2 := fun item member =>
    (journal.activeTools.get?_eq_some_iff _ _).mpr (listed.subset member)
  have named : ∀ item ∈ items, item.2.toolCallId = item.1 := fun item member =>
    (agrees.tool item.1 item.2 (found item member)).1
  have distinct : (items.map fun item =>
      Work.tool operation.id item.2.turnId item.2.toolCallId).Nodup := by
    apply nodup_of_key (fun first second same => Work.Key.tool.inj same)
    · exact fun item member => congrArg Work.Key.tool (named item member)
    · exact journal.activeTools.keys_nodup.sublist (listed.sublist.map Prod.fst)
  have closed := agrees.held.sound.closeAll items
    (fun item => .toolInterrupted operation.id item.2 reason)
    (fun item => .tool operation.id item.2.turnId item.2.toolCallId) (fun _ _ => rfl)
    (fun item member => ⟨agrees.mayEnd_tool current (found item member), ongoing⟩) distinct
    (by simp [Work.ancestors])
  refine ⟨closed, closed.sound, ?_, ?_⟩
  · intro record member
    rcases mem_append.mp member with old | new
    · exact agrees.held.operations record old
    · obtain ⟨item, -, rfl⟩ := mem_map.mp new
      exact below
  · intro record member turnId same
    rcases mem_append.mp member with old | new
    · exact agrees.held.turns record old turnId same
    · obtain ⟨item, listed, rfl⟩ := mem_map.mp new
      cases same
      exact (agrees.turn _ (agrees.tool item.1 item.2 (found item listed)).2.1).1

theorem finishTools (reason : InterruptReason) :
    Agrees { journal with activeTools := .empty }
      (entries ++ journal.activeTools.entries.map fun item =>
        .toolInterrupted operation.id item.2 reason) uuids := by
  obtain ⟨closed, held⟩ := agrees.closeTools current reason prefix_rfl
  refine ⟨held, ?_, ?_, ?_, ?_, agrees.idle⟩
  · intro other same
    refine ⟨(agrees.operation other same).1, ?_⟩
    rw [closed.ended]
    rintro (ended | member)
    · exact (agrees.operation other same).2 ended
    · obtain ⟨item, -, ⟨⟩⟩ := mem_map.mp member
  · intro turnId same
    obtain ⟨below, other, running, unended⟩ := agrees.turn turnId same
    refine ⟨below, other, running, ?_⟩
    rw [closed.ended]
    rintro (ended | member)
    · exact unended ended
    · obtain ⟨item, -, ⟨⟩⟩ := mem_map.mp member
  · intro toolCallId tool found
    rw [InsertionMap.get?_empty] at found
    cases found
  · intro recovered work known
    have outside : work ∉ journal.activeTools.entries.map fun item =>
        Work.tool operation.id item.2.turnId item.2.toolCallId :=
      fun member => closed.closed work member known
    rw [Open, closed.terminals work outside] at known
    have active := agrees.active recovered work known
    cases work with
    | operation operationId => exact active
    | turn operationId turnId => exact active
    | tool operationId turnId toolCallId =>
      obtain ⟨other, running, rfl, tool, found, rfl⟩ := active
      rw [current] at running
      cases running
      refine absurd (mem_map.mpr ⟨(toolCallId, tool),
        (journal.activeTools.get?_eq_some_iff _ _).mp found, ?_⟩) outside
      rw [(agrees.tool toolCallId tool found).1]

theorem finishOperation (noTurn : journal.activeTurnId = none)
    (closed : record.closes = some (.operation operation.id)) :
    Agrees { journal with activeOperation := none } (entries ++ [record]) uuids := by
  have noTools := agrees.activeTools_of_noTurn noTurn
  apply of_closed
  · exact agrees.held_of_closed current closed rfl (agrees.mayEnd_operation current noTurn)
      (by simp [Work.turnId?])
  · rfl
  · exact noTurn
  · exact noTools
  · intro work known
    obtain ⟨different, known⟩ := (open_append_of_closes closed work).mp known
    have active := agrees.active (agrees.recovered current) work known
    cases work with
    | operation operationId =>
      obtain ⟨other, running, rfl⟩ := active
      rw [current] at running
      cases running
      exact absurd rfl different
    | turn operationId turnId =>
      obtain ⟨-, -, -, same⟩ := active
      rw [noTurn] at same
      cases same
    | tool operationId turnId toolCallId =>
      obtain ⟨-, -, -, tool, found, -⟩ := active
      rw [noTools] at found
      cases found

end

theorem startOperation
    (recovered : journal.recoveryPromise ≠ none) (none_ : journal.activeOperation = none)
    (operation : RecodeHarnessOperation) :
    Agrees { journal with activeOperation := some ⟨uuids, operation⟩ }
      (entries ++ [.operationStarted uuids operation]) (uuids + 1) := by
  have nothing := agrees.closed_of_idle recovered none_
  have noTurn := agrees.activeTurnId_of_idle none_
  have opened : (operationStarted uuids operation).opens =
      some (.operation uuids) := rfl
  have unended : ¬ Ended entries (.operation uuids) := agrees.held.not_ended_operation
  refine ⟨?_, ?_, ?_, ?_, ?_, fun never => absurd never recovered⟩
  · refine (agrees.held.mono (le_succ _)).append
      (agrees.held.sound.start opened ⟨by simp [Work.ancestors], ?_⟩ unended) (lt_succ_self _)
      (by simp [turnId?])
    exact fun other known => absurd known (nothing other)
  · rintro _ ⟨⟩
    refine ⟨lt_succ_self _, ?_⟩
    rw [ended_append_iff]
    rintro (ended | ⟨⟨⟩⟩)
    exact unended ended
  · intro turnId same
    rw [show _ = none from noTurn] at same
    cases same
  · intro toolCallId tool found
    rw [show _ = none from agrees.activeTools_of_noTurn noTurn toolCallId] at found
    cases found
  · intro _ work known
    rcases (open_append_of_opens opened work).mp known with rfl | known
    · exact ⟨_, rfl, rfl⟩
    · exact absurd known (nothing work)

end

end Agrees

/-! ## Appends -/

/-- An append is written, fails with nothing written, or the process crashes before it. -/
theorem perform_append (record : JournalRecord) (state : JournalState) :
    perform (append record) state = (.ok (), { state with
        entries := state.entries ++ [record]
        outcomes := state.outcomes.tail }) ∨ (∃ error, state.outcomes.head? = some (.failed error) ∧
        perform (append record) state =
          (.error (.thrown error), { state with outcomes := state.outcomes.tail })) ∨
      perform (append record) state = (.error .crashed, state) := by
  obtain ⟨journal, entries, uuids, outcomes⟩ := state
  cases outcomes with
  | nil => exact Or.inl rfl
  | cons outcome outcomes =>
    cases outcome with
    | written => exact Or.inl rfl
    | failed error => exact Or.inr (Or.inl ⟨error, rfl, rfl⟩)
    | crashed => exact Or.inr (Or.inr rfl)

theorem triple_append {before : JournalState → Prop} {after : Unit → JournalState → Prop}
    {failed : Stop → JournalState → Prop} (record : JournalRecord)
    (written : ∀ state, before state → after () { state with
      entries := state.entries ++ [record]
      outcomes := state.outcomes.tail })
    (thrown : ∀ state error, before state → state.outcomes.head? = some (.failed error) →
      failed (.thrown error) { state with outcomes := state.outcomes.tail })
    (crashed : ∀ state, before state → failed .crashed state) :
    Triple before (append record) after failed := by
  intro state known
  rcases perform_append record state with done | ⟨error, outcome, done⟩ | done <;> rw [done]
  · exact written state known
  · exact thrown state error known outcome
  · exact crashed state known

theorem perform_appendAll {Item : Type} (items : List Item) (record : Item → JournalRecord)
    (state : JournalState) :
    ∃ result count outcomes,
      perform (items.forM fun item => append (record item)) state = (result, { state with
        entries := state.entries ++ (items.take count).map record
        outcomes := outcomes }) ∧ outcomes <:+ state.outcomes ∧
      (result = .ok () ∧ items.length ≤ count ∨
        (∃ error, result = .error (.thrown error) ∧ count < items.length ∧
          state.outcomes[count]? = some (.failed error)) ∨
        result = .error .crashed) := by
  have none_ : ({ state with
      entries := state.entries ++ ([] : List Item).map record } : JournalState) = state := by
    rw [map_nil, append_nil]
  induction items generalizing state with
  | nil => exact ⟨.ok (), 0, state.outcomes, congrArg _ none_.symm, suffix_rfl,
      Or.inl ⟨rfl, le_refl 0⟩⟩
  | cons item items ih =>
    have whole : ((item :: items).forM fun item => append (record item)) =
        append (record item) >>= fun _ => items.forM fun item => append (record item) := rfl
    rw [whole]
    rcases perform_append (record item) state with done | ⟨error, outcome, done⟩ | done
    · rw [perform_bind_ok done]
      obtain ⟨result, count, outcomes, run, suffix, ended⟩ := ih { state with
        entries := state.entries ++ [record item]
        outcomes := state.outcomes.tail } (by rw [map_nil, append_nil])
      refine ⟨result, count + 1, outcomes, ?_, suffix.trans (tail_suffix _), ?_⟩
      · rw [run, take_succ_cons, map_cons, append_assoc, singleton_append]
      · rcases ended with ⟨result, all⟩ | ⟨error, result, some_, outcome⟩ | result
        · exact Or.inl ⟨result, succ_le_succ all⟩
        · refine Or.inr (Or.inl ⟨error, result, succ_lt_succ some_, ?_⟩)
          rw [← outcome, getElem?_tail]
        · exact Or.inr (Or.inr result)
    · rw [perform_bind_error done]
      refine ⟨_, 0, state.outcomes.tail, congrArg _ ?_, tail_suffix _,
        Or.inr (Or.inl ⟨error, rfl, zero_lt_succ _, ?_⟩)⟩
      · rw [take_zero, map_nil, append_nil]
      · rw [← outcome, head?_eq_getElem?]
    · rw [perform_bind_error done]
      exact ⟨_, 0, state.outcomes, congrArg _ none_.symm, suffix_rfl, Or.inr (Or.inr rfl)⟩

theorem triple_appendAll {Item : Type} {before : JournalState → Prop}
    {after : Unit → JournalState → Prop} {failed : Stop → JournalState → Prop}
    (items : List Item) (record : Item → JournalRecord)
    (written : ∀ state outcomes, before state → outcomes <:+ state.outcomes →
      after () { state with
        entries := state.entries ++ items.map record
        outcomes := outcomes })
    (thrown : ∀ state count error outcomes, before state → count < items.length →
      state.outcomes[count]? = some (.failed error) → outcomes <:+ state.outcomes →
      failed (.thrown error) { state with
        entries := state.entries ++ (items.take count).map record
        outcomes := outcomes }) (crashed : ∀ state count outcomes, before state →
      failed .crashed { state with
        entries := state.entries ++ (items.take count).map record
        outcomes := outcomes }) :
    Triple before (items.forM fun item => append (record item)) after failed := by
  intro state known
  obtain ⟨result, count, outcomes, run, suffix, ended⟩ := perform_appendAll items record state
  rw [run]
  rcases ended with ⟨rfl, all⟩ | ⟨error, rfl, some_, outcome⟩ | rfl
  · rw [take_of_length_le all]
    exact written state outcomes known suffix
  · exact thrown state count error outcomes known some_ outcome suffix
  · exact crashed state count outcomes known

end Recode.Harness

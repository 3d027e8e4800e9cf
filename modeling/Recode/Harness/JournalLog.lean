import Recode.Harness.Journal

/-! # The records of a journal

Operations, turns and tools are opened and closed by the records. In a sound
journal nothing is closed twice, parents close after their children, and the
work that a recovery finds is the work that is open. -/

namespace Recode.Harness

open Brackets List UnfinishedWork

/-- What a record is about. -/
inductive Work where
  | operation (operationId : Nat)
  | turn (operationId turnId : Nat)
  | tool (operationId turnId : Nat) (toolCallId : String)
deriving DecidableEq

namespace Work

/-- The work that a work is part of. -/
def ancestors : Work → List Work
  | .operation _ => []
  | .turn operationId _ => [.operation operationId]
  | .tool operationId turnId _ => [.turn operationId turnId, .operation operationId]

def operationId : Work → Nat
  | .operation operationId => operationId
  | .turn operationId _ => operationId
  | .tool operationId _ _ => operationId

/-- How a recovery names a work. -/
inductive Key where
  | operation (operationId : Nat)
  | turn (turnId : Nat)
  | tool (toolCallId : String)
deriving DecidableEq

def key : Work → Key
  | .operation operationId => .operation operationId
  | .turn _ turnId => .turn turnId
  | .tool _ _ toolCallId => .tool toolCallId

end Work

namespace JournalRecord

/-- The operation a record belongs to. -/
def operationId : JournalRecord → Nat
  | .operationStarted operationId _ => operationId
  | .operationFinished operationId _ _ _ => operationId
  | .operationInterrupted operationId _ _ _ => operationId
  | .turnStarted operationId _ => operationId
  | .turnFinished operationId _ _ => operationId
  | .turnInterrupted operationId _ _ => operationId
  | .toolStarted operationId _ => operationId
  | .toolFinished operationId _ _ => operationId
  | .toolInterrupted operationId _ _ => operationId

def opens : JournalRecord → Option Work
  | .operationStarted operationId _ => some (.operation operationId)
  | .turnStarted operationId turnId => some (.turn operationId turnId)
  | .toolStarted operationId tool => some (.tool operationId tool.turnId tool.toolCallId)
  | _ => none

def closes : JournalRecord → Option Work
  | .operationFinished operationId _ _ _ => some (.operation operationId)
  | .operationInterrupted operationId _ _ _ => some (.operation operationId)
  | .turnFinished operationId turnId _ => some (.turn operationId turnId)
  | .turnInterrupted operationId turnId _ => some (.turn operationId turnId)
  | .toolFinished operationId tool _ => some (.tool operationId tool.turnId tool.toolCallId)
  | .toolInterrupted operationId tool _ => some (.tool operationId tool.turnId tool.toolCallId)
  | _ => none

end JournalRecord

/-- The terminal record of a child precedes those of the work it is part of. -/
def ChildrenFirst (entries : List JournalRecord) : Prop :=
  ∀ before record after work, entries = before ++ record :: after → record.closes = some work →
    ∀ ancestor ∈ work.ancestors, ∀ earlier ∈ before, earlier.closes ≠ some ancestor

def NothingAfterwards (entries : List JournalRecord) : Prop :=
  ∀ before record after, entries = before ++ record :: after →
    ∀ earlier ∈ before, earlier.closes ≠ some (.operation record.operationId)

/-- Records in which every start has at most one terminal record, in the right order. -/
structure Balanced (entries : List JournalRecord) : Prop where
  once : AtMostOnce JournalRecord.opens JournalRecord.closes entries
  children : ChildrenFirst entries
  afterwards : NothingAfterwards entries

/-- The terminal records of a work since it was last started, if it was. -/
abbrev terminals (work : Work) (entries : List JournalRecord) : Option Nat :=
  closings JournalRecord.opens JournalRecord.closes work entries

def Open (entries : List JournalRecord) (work : Work) : Prop := terminals work entries = some 0

def Ended (entries : List JournalRecord) (work : Work) : Prop :=
  ∃ record ∈ entries, record.closes = some work

def UnfinishedWork.find (work : UnfinishedWork) : Work.Key → Option Work
  | .operation operationId => (work.operations.get? operationId).map fun _ => .operation operationId
  | .turn turnId => (work.turns.get? turnId).map fun operationId => .turn operationId turnId
  | .tool toolCallId => (work.tools.get? toolCallId).map fun (operationId, tool) =>
    .tool operationId tool.turnId tool.toolCallId

theorem UnfinishedWork.find_read (work : UnfinishedWork) (record : JournalRecord) (key : Work.Key) :
    (work.read record).find key = if (record.opens.map Work.key) = some key then record.opens
      else if (record.closes.map Work.key) = some key then none else work.find key := by
  cases record <;> cases key <;>
    simp [read, find, JournalRecord.opens, JournalRecord.closes,
      Work.key, InsertionMap.get?_insert, InsertionMap.get?_erase, eq_comm] <;>
    split <;> simp_all

theorem unfinishedWork_append (entries : List JournalRecord) (record : JournalRecord) :
    unfinishedWork (entries ++ [record]) = (unfinishedWork entries).read record := by
  rw [unfinishedWork, foldl_append]
  rfl

variable {entries : List JournalRecord} {record : JournalRecord} {work : Work}

theorem closes_of_opens (opened : record.opens = some work) : record.closes = none := by
  cases record <;> first | rfl | cases opened

theorem opens_of_closes (closed : record.closes = some work) : record.opens = none := by
  cases record <;> first | rfl | cases closed

theorem operationId_of_opens
    (opened : record.opens = some work) : record.operationId = work.operationId := by
  cases record <;> cases opened <;> rfl

theorem operationId_of_closes
    (closed : record.closes = some work) : record.operationId = work.operationId := by
  cases record <;> cases closed <;> rfl

theorem Work.eq_or_mem_ancestors (work : Work) :
    work = .operation work.operationId ∨ .operation work.operationId ∈ work.ancestors := by
  cases work <;> simp [Work.operationId, Work.ancestors]

theorem open_append_of_opens (opened : record.opens = some work) (other : Work) :
    Open (entries ++ [record]) other ↔ other = work ∨ Open entries other := by
  by_cases same : other = work
  · subst same
    exact ⟨fun _ => Or.inl rfl, fun _ => closings_append_of_opens opened entries⟩
  · have opens : record.opens ≠ some other := by simp [opened, Ne.symm same]
    have closes : record.closes ≠ some other := by simp [closes_of_opens opened]
    rw [Open, terminals, closings_append_of_ne opens closes]
    exact ⟨Or.inr, fun known => known.resolve_left same⟩

theorem open_append_of_closes (closed : record.closes = some work) (other : Work) :
    Open (entries ++ [record]) other ↔ other ≠ work ∧ Open entries other := by
  have opens : record.opens ≠ some other := by simp [opens_of_closes closed]
  by_cases same : other = work
  · subst same
    rw [Open, terminals, closings_append_of_closes opens closed, Option.map_eq_some_iff]
    constructor
    · rintro ⟨before, -, never⟩
      omega
    · exact fun known => absurd rfl known.1
  · have closes : record.closes ≠ some other := by simp [closed, Ne.symm same]
    rw [Open, terminals, closings_append_of_ne opens closes]
    exact ⟨fun known => ⟨same, known⟩, And.right⟩

theorem ended_append_iff (work : Work) :
    Ended (entries ++ [record]) work ↔ Ended entries work ∨ record.closes = some work := by
  simp [Ended, or_and_right, exists_or]

/-- Works that recovery keeps under different keys are different. -/
theorem nodup_of_key {Name Value : Type} {items : List (Name × Value)} {work : Name × Value → Work}
    {name : Name → Work.Key} (injective : Function.Injective name)
    (named : ∀ item ∈ items, (work item).key = name item.1)
    (keys : (items.map Prod.fst).Nodup) : (items.map work).Nodup := by
  apply List.Nodup.of_map Work.key
  have same : (items.map work).map Work.key = (items.map Prod.fst).map name := by
    rw [map_map, map_map]
    exact map_congr_left named
  rw [same]
  exact keys.map injective

/-! ## Sound records -/

/-- Records that no recovery can be misled by. -/
structure Sound (entries : List JournalRecord) : Prop where
  once : ∀ initial work closed, initial <+: entries → terminals work initial = some closed →
    closed ≤ 1
  reopened : ∀ initial record work, initial ++ [record] <+: entries →
    record.opens = some work → ¬ Open initial work
  children : ∀ initial record work, initial ++ [record] <+: entries →
    record.closes = some work → ∀ ancestor ∈ work.ancestors, ¬ Ended initial ancestor
  afterwards : ∀ initial record, initial ++ [record] <+: entries →
    ¬ Ended initial (.operation record.operationId)
  above : ∀ work, Open entries work → ∀ ancestor ∈ work.ancestors, ¬ Ended entries ancestor
  ongoing : ∀ work, Open entries work → ¬ Ended entries (.operation work.operationId)
  tracked : ∀ key work, (unfinishedWork entries).find key = some work ↔
    work.key = key ∧ Open entries work

theorem sound_nil : Sound [] where
  once := by
    intro initial work closed inside count
    rw [prefix_nil.mp inside] at count
    cases count
  reopened initial record _ inside := by simp at inside
  children initial record _ inside := by simp at inside
  afterwards initial record inside := by simp at inside
  above work never := by cases never
  ongoing work never := by cases never
  tracked key work := by cases key <;> simp [unfinishedWork, find, Open]

/-- A work may be started. -/
structure MayStart (entries : List JournalRecord) (work : Work) : Prop where
  above : ∀ ancestor ∈ work.ancestors, ¬ Ended entries ancestor
  key : ∀ other, Open entries other → other.key ≠ work.key

/-- A work may be closed: it is not closed yet, and its children are. -/
structure MayEnd (entries : List JournalRecord) (work : Work) : Prop where
  closed : ∀ closed, terminals work entries = some closed → closed = 0
  above : ∀ ancestor ∈ work.ancestors, ¬ Ended entries ancestor
  key : ∀ other, Open entries other → other.key = work.key → other = work
  below : ∀ other, Open entries other → work ∉ other.ancestors

/-- Closing a work does not keep other works of its rank from being closed. -/
theorem MayEnd.append {work other : Work} (may : MayEnd entries other)
    (closed : record.closes = some work) (different : other ≠ work)
    (level : work ∉ other.ancestors) : MayEnd (entries ++ [record]) other where
  closed := by
    intro closings count
    have opens : record.opens ≠ some other := by simp [opens_of_closes closed]
    have closes : record.closes ≠ some other := by simp [closed, Ne.symm different]
    rw [terminals, closings_append_of_ne opens closes] at count
    exact may.closed closings count
  above := by
    intro ancestor member
    rw [ended_append_iff, closed, Option.some.injEq]
    rintro (ended | rfl)
    · exact may.above ancestor member ended
    · exact level member
  key := by
    intro third known same
    exact may.key third ((open_append_of_closes closed third).mp known).2 same
  below := by
    intro third known
    exact may.below third ((open_append_of_closes closed third).mp known).2

/-- What closing some works leaves. -/
structure Closed (entries after : List JournalRecord) (works : List Work) : Prop where
  sound : Sound after
  terminals : ∀ work, work ∉ works → terminals work after = terminals work entries
  closed : ∀ work ∈ works, ¬ Open after work
  ended : ∀ work, Ended after work ↔ Ended entries work ∨ work ∈ works

namespace Sound

variable {entries : List JournalRecord}

/-- Sound records are balanced. -/
theorem balanced (sound : Sound entries) : Balanced entries where
  once := atMostOnce_of_prefixes sound.once
  children := by
    rintro before record after work rfl closed ancestor member earlier listed ended
    exact sound.children before record work ⟨after, by simp⟩ closed ancestor member
      ⟨earlier, listed, ended⟩
  afterwards := by
    rintro before record after rfl earlier listed ended
    exact sound.afterwards before record ⟨after, by simp⟩ ⟨earlier, listed, ended⟩

theorem exactlyOnce (sound : Sound entries) (closed : ∀ work, ¬ Open entries work) :
    ExactlyOnce JournalRecord.opens JournalRecord.closes entries :=
  exactlyOnce_of_prefixes sound.balanced.once sound.reopened closed

/-- A property of all initial parts and the records after them holds after one more record when it
holds of the whole and that record. -/
theorem initial_append {record : JournalRecord}
    {property : List JournalRecord → JournalRecord → Prop}
    (earlier : ∀ initial other, initial ++ [other] <+: entries → property initial other)
    (last : property entries record) (initial : List JournalRecord) (other : JournalRecord)
    (inside : initial ++ [other] <+: entries ++ [record]) : property initial other := by
  rcases prefix_concat_iff.mp inside with whole | shorter
  · obtain ⟨rfl, same⟩ := append_inj' whole rfl
    obtain rfl := singleton_inj.mp same
    exact last
  · exact earlier initial other shorter

section

variable (sound : Sound entries)
include sound

theorem start {record : JournalRecord} {work : Work}
    (opened : record.opens = some work) (may : MayStart entries work)
    (operation : ¬ Ended entries (.operation work.operationId)) :
    Sound (entries ++ [record]) where
  once := by
    intro initial other closed inside count
    rcases prefix_concat_iff.mp inside with rfl | shorter
    · by_cases same : record.opens = some other
      · rw [terminals, closings_append_of_opens same] at count
        cases count
        exact Nat.zero_le 1
      · rw [terminals, closings_append_of_ne same (by simp [closes_of_opens opened])] at count
        exact sound.once entries other closed prefix_rfl count
    · exact sound.once initial other closed shorter count
  reopened initial record' work' inside := by
    revert work'
    refine initial_append (fun initial other inside work' => sound.reopened initial other work'
      inside) ?_ initial record' inside
    intro work' opened' known
    obtain rfl := Option.some.inj (opened.symm.trans opened')
    exact may.key work known rfl
  children initial record' work' inside := by
    revert work'
    refine initial_append (fun initial other inside work' => sound.children initial other work'
      inside) ?_ initial record' inside
    intro work' closed
    rw [closes_of_opens opened] at closed
    cases closed
  afterwards := initial_append sound.afterwards (operationId_of_opens opened ▸ operation)
  above := by
    intro other known ancestor member
    rw [ended_append_iff, closes_of_opens opened]
    rcases (open_append_of_opens opened other).mp known with rfl | known
    · simpa using may.above ancestor member
    · simpa using sound.above other known ancestor member
  ongoing := by
    intro other known
    rw [ended_append_iff, closes_of_opens opened]
    rcases (open_append_of_opens opened other).mp known with rfl | known
    · simpa using operation
    · simpa using sound.ongoing other known
  tracked := by
    intro key other
    rw [unfinishedWork_append, find_read, open_append_of_opens opened, opened,
      closes_of_opens opened, Option.map_some, Option.map_none]
    by_cases same : work.key = key
    · subst same
      rw [if_pos rfl, Option.some.injEq]
      constructor
      · rintro rfl
        exact ⟨rfl, Or.inl rfl⟩
      · rintro ⟨named, rfl | known⟩
        · rfl
        · exact absurd named (may.key other known)
    · rw [if_neg (by simpa using same), if_neg (by simp), sound.tracked]
      constructor
      · exact fun known => ⟨known.1, Or.inr known.2⟩
      · rintro ⟨rfl, rfl | known⟩
        · exact absurd rfl same
        · exact ⟨rfl, known⟩

theorem finish {record : JournalRecord} {work : Work}
    (closed : record.closes = some work) (may : MayEnd entries work)
    (operation : ¬ Ended entries (.operation work.operationId)) :
    Sound (entries ++ [record]) where
  once := by
    intro initial other closings inside count
    have opens : record.opens ≠ some other := by simp [opens_of_closes closed]
    rcases prefix_concat_iff.mp inside with rfl | shorter
    · by_cases same : record.closes = some other
      · rw [terminals, closings_append_of_closes opens same, Option.map_eq_some_iff] at count
        obtain ⟨before, known, rfl⟩ := count
        obtain rfl := Option.some.inj (closed.symm.trans same)
        rw [may.closed before known]
      · rw [terminals, closings_append_of_ne opens same] at count
        exact sound.once entries other closings prefix_rfl count
    · exact sound.once initial other closings shorter count
  reopened initial record' work' inside := by
    revert work'
    refine initial_append (fun initial other inside work' => sound.reopened initial other work'
      inside) ?_ initial record' inside
    intro work' opened
    rw [opens_of_closes closed] at opened
    cases opened
  children initial record' work' inside := by
    revert work'
    refine initial_append (fun initial other inside work' => sound.children initial other work'
      inside) ?_ initial record' inside
    intro work' closed'
    obtain rfl := Option.some.inj (closed.symm.trans closed')
    exact may.above
  afterwards := initial_append sound.afterwards (operationId_of_closes closed ▸ operation)
  ongoing := by
    intro other known
    obtain ⟨different, known⟩ := (open_append_of_closes closed other).mp known
    rw [ended_append_iff, closed, Option.some.injEq]
    rintro (ended | rfl)
    · exact sound.ongoing other known ended
    · rcases other.eq_or_mem_ancestors with same | member
      · exact different same
      · exact may.below other known member
  above := by
    intro other known ancestor member
    obtain ⟨-, known⟩ := (open_append_of_closes closed other).mp known
    rw [ended_append_iff, closed, Option.some.injEq]
    rintro (ended | rfl)
    · exact sound.above other known ancestor member ended
    · exact may.below other known member
  tracked := by
    intro key other
    rw [unfinishedWork_append, find_read, open_append_of_closes closed, closed,
      opens_of_closes closed, Option.map_some, Option.map_none, if_neg (by simp)]
    by_cases same : work.key = key
    · subst same
      rw [if_pos rfl]
      constructor
      · intro never
        cases never
      · rintro ⟨named, different, known⟩
        exact absurd (may.key other known named) different
    · rw [if_neg (by simpa using same), sound.tracked]
      constructor
      · rintro ⟨rfl, known⟩
        exact ⟨rfl, fun equal => same (congrArg Work.key equal.symm), known⟩
      · exact fun known => ⟨known.1, known.2.2⟩

theorem eq_of_key {work other : Work} (known : Open entries work)
    (known' : Open entries other) (same : other.key = work.key) : other = work := by
  have found := (sound.tracked _ _).mpr ⟨rfl, known⟩
  have found' := (sound.tracked _ _).mpr ⟨same, known'⟩
  exact Option.some.inj (found'.symm.trans found)

theorem mayEnd {work : Work} (known : Open entries work)
    (below : ∀ other, Open entries other → work ∉ other.ancestors) : MayEnd entries work where
  closed := by
    intro closed count
    rw [known] at count
    exact (Option.some.inj count).symm
  above := sound.above work known
  key other known' same := sound.eq_of_key known known' same
  below := below

theorem closeAll {Item : Type} (items : List Item) (record : Item → JournalRecord)
    (work : Item → Work) (closes : ∀ item ∈ items, (record item).closes = some (work item))
    (may : ∀ item ∈ items, MayEnd entries (work item) ∧
      ¬ Ended entries (.operation (work item).operationId)) (distinct : (items.map work).Nodup)
    (level : ∀ item ∈ items, ∀ other ∈ items, work item ∉ (work other).ancestors) :
    Closed entries (entries ++ items.map record) (items.map work) := by
  induction items generalizing entries with
  | nil =>
    rw [map_nil, append_nil]
    exact ⟨sound, fun _ _ => rfl, by simp, by simp⟩
  | cons item items ih =>
    have closed := closes item mem_cons_self
    rw [map_cons, nodup_cons] at distinct
    have first := sound.finish closed (may item mem_cons_self).1
      (may item mem_cons_self).2
    have next := ih first (fun other member => closes other (mem_cons_of_mem _ member))
      (by
        intro other member
        have later := mem_cons_of_mem item member
        have different : work other ≠ work item := by
          intro same
          exact distinct.1 (same ▸ mem_map_of_mem member)
        have above := level item mem_cons_self other later
        refine ⟨(may other later).1.append closed different above, ?_⟩
        rw [ended_append_iff, closed, Option.some.injEq]
        rintro (ended | same)
        · exact (may other later).2 ended
        · rcases (work other).eq_or_mem_ancestors with own | member
          · exact different (own.trans same.symm)
          · exact above (same ▸ member))
      distinct.2 (fun one member other member' => level one (mem_cons_of_mem _ member)
        other (mem_cons_of_mem _ member'))
    rw [append_assoc, singleton_append] at next
    have opens : ∀ other, (record item).opens ≠ some other := by
      simp [opens_of_closes closed]
    refine ⟨next.sound, ?_, ?_, ?_⟩
    · intro other absent
      rw [map_cons, mem_cons, not_or] at absent
      have closes : (record item).closes ≠ some other := by simp [closed, Ne.symm absent.1]
      rw [map_cons, next.terminals other absent.2]
      exact closings_append_of_ne (opens other) closes entries
    · intro other member
      rw [map_cons] at member ⊢
      by_cases later : other ∈ items.map work
      · exact next.closed other later
      · obtain rfl := (mem_cons.mp member).resolve_right later
        rw [Open, next.terminals _ later]
        exact fun known => ((open_append_of_closes closed _).mp known).1 rfl
    · intro other
      rw [map_cons, next.ended, ended_append_iff, closed, map_cons, mem_cons,
        Option.some.injEq, or_assoc, @eq_comm _ other]

end

end Sound

end Recode.Harness

import Recode.Lib.Double
import Mathlib.Algebra.Order.BigOperators.Group.List
import Mathlib.Algebra.Order.Ring.Nat

/-! # Sizes in a stack

A stack gives each of its entries a size. Entries start at their basis within their limits. Space
that is left over, or missing, is handed out in rounds of weighted shares. Sizes, gaps and weights
are safe integers; sums, products and shares of them are doubles. -/

namespace Recode.Tui

open List

/-- A whole number up to `Number.MAX_SAFE_INTEGER`. -/
abbrev SafeInteger := Fin 9007199254740992

/-- What an entry asks for. A basis that is missing is that of its content. -/
structure StackLayoutEntry where
  basis : Option SafeInteger := none
  grow : Option SafeInteger := none
  shrink : Option SafeInteger := none
  minSize : Option SafeInteger := none
  maxSize : Option SafeInteger := none

namespace StackLayoutEntry

variable (entry : StackLayoutEntry)

def minimum : Nat := (entry.minSize.getD 0).val
def maximum : Nat := (entry.maxSize.getD 9007199254740991).val
def growth : Nat := (entry.grow.getD 0).val
def shrinkage : Nat := (entry.shrink.getD 1).val

end StackLayoutEntry

def clampSize (size : Nat) (entry : StackLayoutEntry) : Nat :=
  max entry.minimum (min (max entry.minimum entry.maximum) size)

inductive Mode where
  | grow
  | shrink

/-- An entry with its size. -/
abbrev Slot := StackLayoutEntry × Nat

section Distribution

variable (mode : Mode)

def isCandidate (slot : Slot) : Bool :=
  match mode with
  | .grow => 0 < slot.1.growth && slot.2 < slot.1.maximum
  | .shrink => 0 < slot.1.shrinkage && slot.1.minimum < slot.2

def weight (slot : Slot) : Nat :=
  match mode with
  | .grow => slot.1.growth
  | .shrink => Double.round (slot.1.shrinkage * max 1 slot.2)

def capacity (slot : Slot) : Nat :=
  match mode with
  | .grow => slot.1.maximum - slot.2
  | .shrink => slot.2 - slot.1.minimum

/-- What an entry takes is at most its capacity, so its size stays a safe integer. -/
def move (size delta : Nat) : Nat :=
  match mode with
  | .grow => size + delta
  | .shrink => size - delta

/-- How much more a slot takes. -/
def room (slot : Slot) : Nat := if isCandidate mode slot then capacity mode slot else 0

/-- One round: every candidate in turn gets its share of what remains. What was distributed is
counted as well, for a round without any is the last one. -/
def distributeRound (totalWeight : Nat) : Nat → List Slot → List Slot × Nat × Nat
  | remaining, [] => ([], remaining, 0)
  | remaining, slot :: slots =>
    if isCandidate mode slot && 0 < remaining then
      let share := Double.floorQuotient (Double.round (remaining * weight mode slot)) totalWeight
      let delta := min remaining (min (max 1 share) (capacity mode slot))
      let rest := distributeRound totalWeight (Double.round (remaining - delta)) slots
      ((slot.1, move mode slot.2 delta) :: rest.1, rest.2.1, rest.2.2 + delta)
    else
      let rest := distributeRound totalWeight remaining slots
      (slot :: rest.1, rest.2)

variable {mode}

theorem room_grow (slot : Slot) :
    room .grow slot = if 0 < slot.1.growth then slot.1.maximum - slot.2 else 0 := by
  simp only [room, isCandidate, capacity, Bool.and_eq_true, decide_eq_true_eq]
  split <;> split <;> omega

theorem room_shrink (slot : Slot) :
    room .shrink slot = if 0 < slot.1.shrinkage then slot.2 - slot.1.minimum else 0 := by
  simp only [room, isCandidate, capacity, Bool.and_eq_true, decide_eq_true_eq]
  split <;> split <;> omega

theorem room_shrink_le (slot : Slot) : room .shrink slot ≤ slot.2 := by
  rw [room_shrink]
  split <;> omega

theorem isCandidate_iff (slot : Slot) : isCandidate mode slot = true ↔ 0 < room mode slot := by
  cases mode with
  | grow =>
    simp only [room_grow, isCandidate, Bool.and_eq_true, decide_eq_true_eq]
    split <;> omega
  | shrink =>
    simp only [room_shrink, isCandidate, Bool.and_eq_true, decide_eq_true_eq]
    split <;> omega

theorem room_move (slot : Slot) (delta : Nat) :
    room mode (slot.1, move mode slot.2 delta) = room mode slot - delta := by
  cases mode with
  | grow =>
    simp only [room_grow, move]
    split <;> omega
  | shrink =>
    simp only [room_shrink, move]
    split <;> omega

/-- The entries take what is distributed out of their room. -/
theorem room_distributeRound (totalWeight amount : Nat) (slots : List Slot) :
    ((distributeRound mode totalWeight amount slots).1.map (room mode)).sum +
      (distributeRound mode totalWeight amount slots).2.2 = (slots.map (room mode)).sum := by
  induction slots generalizing amount with
  | nil => rfl
  | cons slot slots ih =>
    rw [distributeRound, map_cons, sum_cons]
    split
    · rename_i takes
      have free : capacity mode slot = room mode slot := by
        rw [room, if_pos (Bool.and_eq_true_iff.mp takes).1]
      dsimp only
      generalize given : min amount (min (max 1 _) (capacity mode slot)) = delta
      have rest := ih (Double.round (amount - delta))
      rw [map_cons, sum_cons, room_move]
      omega
    · dsimp only
      rw [map_cons, sum_cons, ← ih amount, Nat.add_assoc]

variable (mode)

def candidatesOf (slots : List Slot) : List Slot := slots.filter (isCandidate mode)

/-- Rounds until nothing remains or no entry takes more. -/
def distribute (slots : List Slot) (remaining : Nat) : List Slot :=
  if remaining = 0 then slots
  else
    let candidates := candidatesOf mode slots
    if candidates.isEmpty then slots
    else
      let totalWeight := Double.sum (candidates.map (weight mode))
      let next := distributeRound mode totalWeight remaining slots
      if next.2.2 = 0 then next.1 else distribute next.1 next.2.1
termination_by (slots.map (room mode)).sum
decreasing_by
  rename_i moves
  exact Nat.lt_of_lt_of_eq (Nat.lt_add_of_pos_right (Nat.pos_of_ne_zero moves))
    (room_distributeRound totalWeight remaining slots)

end Distribution

def startSlots (entries : List StackLayoutEntry) (intrinsicSizes : List SafeInteger) : List Slot :=
  entries.zipIdx.map fun (entry, index) =>
    (entry, clampSize (entry.basis.getD (intrinsicSizes.getD index 0)) entry)

def sizes (slots : List Slot) : List Nat := slots.map Prod.snd

def allocateStackSizes (entries : List StackLayoutEntry) (intrinsicSizes : List SafeInteger)
    (availableSize : Option SafeInteger) (gap : SafeInteger) : List Nat :=
  let slots := startSlots entries intrinsicSizes
  match availableSize with
  | none => sizes slots
  | some availableSize =>
    let contentSize := availableSize - Double.round ((entries.length - 1) * gap)
    let total := Double.sum (sizes slots)
    if total < contentSize then sizes (distribute .grow slots (contentSize - total))
    else if total > contentSize then
      sizes (distribute .shrink slots (Double.round (total - contentSize)))
    else sizes slots

/-! ## What a distribution moves -/

variable {mode : Mode} {slots after : List Slot}

/-- A slot moved by some of its room. -/
def Moved (mode : Mode) (slot after : Slot) : Prop :=
  ∃ delta ≤ room mode slot, after = (slot.1, move mode slot.2 delta) ∧
    room mode after = room mode slot - delta

theorem Moved.refl (mode : Mode) (slot : Slot) : Moved mode slot slot := by
  refine ⟨0, Nat.zero_le _, ?_, rfl⟩
  cases mode <;> rfl

theorem move_move (size first second : Nat) :
    move mode (move mode size first) second = move mode size (first + second) := by
  cases mode with
  | grow => exact Nat.add_assoc _ _ _
  | shrink => exact Nat.sub_sub _ _ _

theorem Moved.trans {slot middle last : Slot} (first : Moved mode slot middle)
    (second : Moved mode middle last) : Moved mode slot last := by
  obtain ⟨delta, within, rfl, left⟩ := first
  obtain ⟨further, within', rfl, left'⟩ := second
  refine ⟨delta + further, by omega, ?_, by omega⟩
  rw [move_move]

theorem trans_moved {middle : List Slot} (first : Forall₂ (Moved mode) slots middle)
    (second : Forall₂ (Moved mode) middle after) : Forall₂ (Moved mode) slots after := by
  induction first generalizing after with
  | nil => exact second
  | cons moved _ ih =>
    obtain ⟨_, _, moved', later, rfl⟩ := forall₂_cons_left_iff.mp second
    exact .cons (moved.trans moved') (ih later)

/-- What a sum of sizes is after an amount was moved. -/
def Balanced (mode : Mode) (before after amount left : Nat) : Prop :=
  match mode with
  | .grow => after + left = before + amount
  | .shrink => after + amount = before + left

theorem Balanced.trans {before middle after amount left rest : Nat}
    (first : Balanced mode before middle amount left)
    (second : Balanced mode middle after left rest) : Balanced mode before after amount rest := by
  cases mode with
  | grow =>
    simp only [Balanced] at first second ⊢
    omega
  | shrink =>
    simp only [Balanced] at first second ⊢
    omega

theorem distributeRound_moved (mode : Mode) (totalWeight amount : Nat) (slots : List Slot) :
    Forall₂ (Moved mode) slots (distributeRound mode totalWeight amount slots).1 := by
  induction slots generalizing amount with
  | nil => exact .nil
  | cons slot slots ih =>
    rw [distributeRound]
    split
    · rename_i takes
      have free : capacity mode slot = room mode slot := by
        rw [room, if_pos (Bool.and_eq_true_iff.mp takes).1]
      refine .cons ⟨_, ?_, rfl, room_move slot _⟩ (ih _)
      omega
    · exact .cons (.refl mode slot) (ih amount)

/-- A round distributes something when an entry takes it. -/
theorem distributeRound_progress {totalWeight amount : Nat} (positive : 0 < amount)
    (candidate : ∃ slot ∈ slots, isCandidate mode slot = true) :
    (distributeRound mode totalWeight amount slots).2.2 ≠ 0 := by
  induction slots with
  | nil =>
    obtain ⟨_, never, _⟩ := candidate
    exact absurd never not_mem_nil
  | cons slot slots ih =>
    rw [distributeRound]
    split
    · rename_i takes
      have free := (isCandidate_iff slot).mp (Bool.and_eq_true_iff.mp takes).1
      have taken : capacity mode slot = room mode slot := by
        rw [room, if_pos (Bool.and_eq_true_iff.mp takes).1]
      dsimp only
      omega
    · rename_i skips
      obtain ⟨other, member, candidate⟩ := candidate
      rcases mem_cons.mp member with rfl | later
      · rw [candidate, decide_eq_true positive] at skips
        exact absurd rfl skips
      · exact ih ⟨other, later, candidate⟩

/-- An exact round moves what it hands out. -/
theorem distributeRound_balanced (mode : Mode) (totalWeight : Nat) {amount : Nat}
    (slots : List Slot) (exact : amount ≤ Double.exactLimit) :
    Balanced mode (sizes slots).sum (sizes (distributeRound mode totalWeight amount slots).1).sum
        amount (distributeRound mode totalWeight amount slots).2.1 ∧
      (distributeRound mode totalWeight amount slots).2.1 ≤ amount := by
  induction slots generalizing amount with
  | nil => exact ⟨by cases mode <;> rfl, Nat.le_refl amount⟩
  | cons slot slots ih =>
    rw [distributeRound]
    split
    · rename_i takes
      have free : capacity mode slot = room mode slot := by
        rw [room, if_pos (Bool.and_eq_true_iff.mp takes).1]
      dsimp only
      generalize given : min amount (min (max 1 _) (capacity mode slot)) = delta
      have bounds : delta ≤ room mode slot ∧ delta ≤ amount := by omega
      rw [Double.round_of_le (by omega)]
      obtain ⟨balanced, less⟩ := @ih (amount - delta) (by omega)
      refine ⟨?_, by omega⟩
      cases mode with
      | grow =>
        simp only [Balanced, sizes, move, map_cons, sum_cons] at balanced ⊢
        omega
      | shrink =>
        have within := room_shrink_le slot
        simp only [Balanced, sizes, move, map_cons, sum_cons] at balanced ⊢
        omega
    · obtain ⟨balanced, less⟩ := ih exact
      refine ⟨?_, less⟩
      cases mode with
      | grow =>
        simp only [Balanced, sizes, map_cons, sum_cons] at balanced ⊢
        omega
      | shrink =>
        simp only [Balanced, sizes, map_cons, sum_cons] at balanced ⊢
        omega

theorem distribute_moves (mode : Mode) (slots : List Slot) (amount : Nat) :
    Forall₂ (Moved mode) slots (distribute mode slots amount) ∧
      (amount ≤ Double.exactLimit → ∃ left,
        Balanced mode (sizes slots).sum (sizes (distribute mode slots amount)).sum amount left ∧
          (left = 0 ∨ ∀ slot ∈ distribute mode slots amount, room mode slot = 0)) := by
  have stays (slots : List Slot) : Forall₂ (Moved mode) slots slots :=
    forall₂_same.mpr fun slot _ => .refl mode slot
  have same (size amount : Nat) : Balanced mode size size amount amount := by
    cases mode <;> rfl
  induction slots, amount using distribute.induct mode with
  | case1 slots =>
    rw [distribute, if_pos rfl]
    exact ⟨stays slots, fun _ => ⟨0, same _ _, .inl rfl⟩⟩
  | case2 slots amount positive candidates none_ =>
    rw [distribute, if_neg positive, if_pos none_]
    refine ⟨stays slots, fun _ => ⟨amount, same _ _, .inr fun slot member => ?_⟩⟩
    by_contra free
    have candidate := (isCandidate_iff slot).mpr (Nat.pos_of_ne_zero free)
    have listed : slot ∈ candidates := mem_filter.mpr ⟨member, candidate⟩
    rw [isEmpty_iff.mp none_] at listed
    cases listed
  | case3 slots amount positive candidates some_ totalWeight next stuck =>
    obtain ⟨candidate, listed⟩ := exists_mem_of_ne_nil _ (mt isEmpty_iff.mpr some_)
    exact absurd stuck (distributeRound_progress (Nat.pos_of_ne_zero positive)
      ⟨candidate, mem_filter.mp listed⟩)
  | case4 slots amount positive candidates some_ totalWeight next moves ih =>
    rw [distribute, if_neg positive, if_neg some_]
    dsimp only
    rw [if_neg moves]
    refine ⟨trans_moved (distributeRound_moved mode totalWeight amount slots) ih.1, fun exact => ?_⟩
    obtain ⟨balanced, less⟩ := distributeRound_balanced mode totalWeight slots exact
    obtain ⟨left, balanced', done⟩ := ih.2 (less.trans exact)
    exact ⟨left, balanced.trans balanced', done⟩

/-! ## Filling the space -/

/-- The least that an entry can be given. -/
def lowest (slot : Slot) : Nat :=
  if 0 < slot.1.shrinkage then slot.1.minimum else slot.2

/-- The most that an entry can be given. -/
def highest (slot : Slot) : Nat :=
  if 0 < slot.1.growth then max slot.2 slot.1.maximum else slot.2

/-- An entry has a size within its limits, which only flexibility makes another one. -/
def Sized (start slot : Slot) : Prop :=
  slot.1 = start.1 ∧ slot.1.minimum ≤ slot.2 ∧ slot.2 ≤ max slot.1.minimum slot.1.maximum ∧
    (slot.1.growth = 0 → slot.2 ≤ start.2) ∧ (slot.1.shrinkage = 0 → start.2 ≤ slot.2)

/-- The sizes fill the space as far as the entries let them. -/
structure Fills (starts after : List Slot) (availableSize : Option SafeInteger) (gaps : Nat) :
    Prop where
  exceeds : ∀ available ∈ availableSize, available < (sizes after).sum + gaps →
    ∀ slot ∈ after, 0 < slot.1.shrinkage → slot.2 ≤ slot.1.minimum
  short : ∀ available ∈ availableSize, (sizes after).sum + gaps < available →
    ∀ slot ∈ after, 0 < slot.1.growth → slot.1.maximum ≤ slot.2
  exact : ∀ available ∈ availableSize, (starts.map lowest).sum + gaps ≤ available →
    available ≤ (starts.map highest).sum + gaps → (sizes after).sum + gaps = available

theorem startSlots_entries (entries : List StackLayoutEntry) (intrinsicSizes : List SafeInteger) :
    (startSlots entries intrinsicSizes).map Prod.fst = entries := by
  rw [startSlots, map_map]
  exact zipIdx_map_fst 0 entries

theorem startSlots_limits {entries : List StackLayoutEntry} {intrinsicSizes : List SafeInteger}
    {slot : Slot} (member : slot ∈ startSlots entries intrinsicSizes) :
    slot.1.minimum ≤ slot.2 ∧ slot.2 ≤ max slot.1.minimum slot.1.maximum := by
  obtain ⟨⟨entry, index⟩, -, rfl⟩ := mem_map.mp member
  dsimp only [clampSize]
  omega

theorem Moved.sized {start slot : Slot} (moved : Moved mode start slot)
    (limits : start.1.minimum ≤ start.2 ∧ start.2 ≤ max start.1.minimum start.1.maximum) :
    Sized start slot := by
  obtain ⟨delta, within, rfl, -⟩ := moved
  refine ⟨rfl, ?_⟩
  cases mode with
  | grow =>
    rw [room_grow] at within
    dsimp only [move]
    split at within <;> omega
  | shrink =>
    rw [room_shrink] at within
    dsimp only [move]
    split at within <;> omega

/-- Without room left, all entries that move in a direction have moved as far as they can. -/
theorem sum_of_full (moved : Forall₂ (Moved mode) slots after)
    (full : ∀ slot ∈ after, room mode slot = 0) :
    (sizes after).sum = (slots.map fun slot => move mode slot.2 (room mode slot)).sum := by
  induction moved with
  | nil => rfl
  | @cons start _ _ _ first _ ih =>
    obtain ⟨delta, within, rfl, left⟩ := first
    have all : delta = room mode start := by
      have none_ := full _ mem_cons_self
      omega
    rw [sizes, map_cons, sum_cons, map_cons, sum_cons, ← all]
    exact congrArg _ (ih fun slot member => full slot (mem_cons_of_mem _ member))

theorem sum_highest : (slots.map fun slot => move .grow slot.2 (room .grow slot)).sum =
    (slots.map highest).sum := by
  apply congrArg
  apply map_congr_left
  intro slot _
  simp only [move, room_grow, highest]
  split <;> omega

theorem le_sum_sizes {slot : Slot} (member : slot ∈ slots) : slot.2 ≤ (sizes slots).sum :=
  single_le_sum (fun _ _ => Nat.zero_le _) _ (mem_map_of_mem member)

section Filling

variable {available : SafeInteger} {gaps : Nat}
variable (limits : ∀ slot ∈ slots,
  slot.1.minimum ≤ slot.2 ∧ slot.2 ≤ max slot.1.minimum slot.1.maximum)
include limits

theorem sized_of_moved (moved : Forall₂ (Moved mode) slots after) : Forall₂ Sized slots after := by
  induction moved with
  | nil => exact .nil
  | cons first _ ih =>
    exact .cons (first.sized (limits _ mem_cons_self))
      (ih fun slot member => limits slot (mem_cons_of_mem _ member))

theorem sum_lowest : (slots.map fun slot => move .shrink slot.2 (room .shrink slot)).sum =
    (slots.map lowest).sum := by
  apply congrArg
  apply map_congr_left
  intro slot member
  have least := (limits slot member).1
  simp only [move, room_shrink, lowest]
  split <;> omega

omit limits in
theorem fills_grow (below : (sizes slots).sum ≤ available - gaps) :
    Fills slots (distribute .grow slots (available - gaps - (sizes slots).sum)) (some available)
      gaps := by
  have small := available.isLt
  have exact : available - gaps - (sizes slots).sum ≤ Double.exactLimit := by
    unfold Double.exactLimit
    omega
  have moved := (distribute_moves .grow slots (available - gaps - (sizes slots).sum)).1
  obtain ⟨left, balanced, ends⟩ := (distribute_moves .grow slots _).2 exact
  simp only [Balanced] at balanced
  refine ⟨?_, ?_, ?_⟩
  · rintro _ ⟨⟩ excess slot member -
    have part := le_sum_sizes member
    omega
  · rintro _ ⟨⟩ under slot member grows
    have none_ := ends.resolve_left (by omega) slot member
    rw [room_grow, if_pos grows] at none_
    omega
  · rintro _ ⟨⟩ least most
    rcases ends with done | full
    · omega
    · have all := sum_of_full moved full
      rw [sum_highest] at all
      omega

theorem fills_shrink (above : available - gaps < (sizes slots).sum)
    (small : (sizes slots).sum ≤ Double.exactLimit) :
    Fills slots (distribute .shrink slots ((sizes slots).sum - (available - gaps)))
      (some available) gaps := by
  have exact : (sizes slots).sum - (available - gaps) ≤ Double.exactLimit :=
    (Nat.sub_le _ _).trans small
  have moved := (distribute_moves .shrink slots ((sizes slots).sum - (available - gaps))).1
  obtain ⟨left, balanced, ends⟩ := (distribute_moves .shrink slots _).2 exact
  simp only [Balanced] at balanced
  refine ⟨?_, ?_, ?_⟩
  · rintro _ ⟨⟩ excess slot member shrinks
    rcases ends with done | full
    · have part := le_sum_sizes member
      omega
    · have none_ := full slot member
      rw [room_shrink, if_pos shrinks] at none_
      omega
  · rintro _ ⟨⟩ under slot member -
    omega
  · rintro _ ⟨⟩ least most
    rcases ends with done | full
    · omega
    · have all := sum_of_full moved full
      rw [sum_lowest limits] at all
      omega

end Filling

theorem zip_sizes {entries : List StackLayoutEntry} (own : after.map Prod.fst = entries) :
    entries.zip (sizes after) = after := by
  rw [← own, sizes, ← unzip_fst, ← unzip_snd, zip_unzip]

theorem entries_of_sized (sized : Forall₂ Sized slots after) :
    after.map Prod.fst = slots.map Prod.fst := by
  induction sized with
  | nil => rfl
  | cons first _ ih => rw [map_cons, map_cons, first.1, ih]

/-- What is left between the gaps is exact, or nothing. -/
theorem sub_round (available : SafeInteger) (gaps : Nat) :
    available - Double.round gaps = available - gaps := by
  have small := available.isLt
  rcases Nat.le_total gaps Double.exactLimit with exact | large
  · rw [Double.round_of_le exact]
  · have rounded := Double.le_round large
    unfold Double.exactLimit at large rounded
    omega

/-- The sizes are those of slots that were moved from their start and fill the space when the
starts sum up to an exact double. -/
theorem exists_allocated (entries : List StackLayoutEntry) (intrinsicSizes : List SafeInteger)
    (availableSize : Option SafeInteger) (gap : SafeInteger) :
    ∃ after, allocateStackSizes entries intrinsicSizes availableSize gap = sizes after ∧
      Forall₂ Sized (startSlots entries intrinsicSizes) after ∧
      ((sizes (startSlots entries intrinsicSizes)).sum ≤ Double.exactLimit →
        Fills (startSlots entries intrinsicSizes) after availableSize
          ((entries.length - 1) * gap)) := by
  have limits := fun slot => @startSlots_limits entries intrinsicSizes slot
  have stays : Forall₂ Sized (startSlots entries intrinsicSizes)
      (startSlots entries intrinsicSizes) :=
    sized_of_moved limits (forall₂_same.mpr fun slot _ => .refl .grow slot)
  unfold allocateStackSizes
  cases availableSize with
  | none => exact ⟨_, rfl, stays, fun _ => ⟨nofun, nofun, nofun⟩⟩
  | some available =>
    dsimp only
    rw [sub_round]
    have inside := available.isLt
    split
    · rename_i below
      refine ⟨_, rfl, sized_of_moved limits (distribute_moves .grow _ _).1, fun exact => ?_⟩
      rw [Double.sum_of_le exact] at below ⊢
      exact fills_grow (Nat.le_of_lt below)
    split
    · rename_i above
      refine ⟨_, rfl, sized_of_moved limits (distribute_moves .shrink _ _).1, fun exact => ?_⟩
      rw [Double.sum_of_le exact] at above ⊢
      rw [Double.round_of_le ((Nat.sub_le _ _).trans exact)]
      exact fills_shrink limits above exact
    · rename_i notBelow notAbove
      refine ⟨_, rfl, stays, fun exact => ?_⟩
      rw [Double.sum_of_le exact] at notBelow notAbove
      have fills := @fills_grow (startSlots entries intrinsicSizes) available
        ((entries.length - 1) * gap) (by omega)
      rwa [Nat.sub_eq_zero_of_le (by omega), distribute, if_pos rfl] at fills

/-- Stack layout gives every entry a size within its limits, and fills the space exactly as far
as the entries that grow or shrink let it when the sizes to start from sum up to an exact double. -/
theorem allocateStackSizes_fills (entries : List StackLayoutEntry)
    (intrinsicSizes : List SafeInteger) (availableSize : Option SafeInteger) (gap : SafeInteger) :
    (allocateStackSizes entries intrinsicSizes availableSize gap).length = entries.length ∧
      Forall₂ Sized (startSlots entries intrinsicSizes)
        (entries.zip (allocateStackSizes entries intrinsicSizes availableSize gap)) ∧
      ((sizes (startSlots entries intrinsicSizes)).sum ≤ Double.exactLimit →
        Fills (startSlots entries intrinsicSizes)
          (entries.zip (allocateStackSizes entries intrinsicSizes availableSize gap)) availableSize
          ((entries.length - 1) * gap)) := by
  obtain ⟨after, allocated, sized, fills⟩ :=
    exists_allocated entries intrinsicSizes availableSize gap
  have same : after.map Prod.fst = entries :=
    (entries_of_sized sized).trans (startSlots_entries entries intrinsicSizes)
  rw [allocated, zip_sizes same]
  refine ⟨?_, sized, fills⟩
  rw [sizes, length_map, ← same, length_map]

/-- Sizes whose sum is rounded up are shrunk too far. -/
theorem allocateStackSizes_rounded :
    allocateStackSizes [{}, {}] [9007199254740991, 4] (some 9007199254740990) 0 =
        [9007199254740986, 3] ∧
      ¬ Fills (startSlots [{}, {}] [9007199254740991, 4])
        [({}, 9007199254740986), ({}, 3)] (some 9007199254740990) 0 := by
  refine ⟨?_, fun fills => ?_⟩
  · decide +kernel
  · exact absurd (fills.exact _ rfl (by decide) (by decide)) (by decide)

end Recode.Tui

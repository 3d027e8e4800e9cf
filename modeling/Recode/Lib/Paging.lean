import Mathlib.Data.List.Infix

/-! # Reading a growing listing page by page

A reader asks for the page after the last item it was given, until a page is empty. Between
two pages the listed state may change. When a change only lists more items at the end, the
pages together are the listing of the state in which reading stopped. -/

namespace Paging

open List Option

variable {State Item Key Error : Type*}

/-- Read page after page. Between two pages the next change happens, if one is left. -/
def readPages (read : State → Option Key → Except Error (List Item)) (key : Item → Key) :
    Nat → List (State → State) → State → Option Key → Option (Except Error (List Item × State))
  | 0, _, _, _ => none
  | fuel + 1, changes, state, cursor =>
    match read state cursor with
    | .error error => some (.error error)
    | .ok page =>
      match page.getLast? with
      | none => some (.ok ([], state))
      | some last =>
        let changed := changes.head?.elim state fun change => change state
        (readPages read key fuel changes.tail changed (some (key last))).map fun rest =>
          rest.map fun (more, final) => (page ++ more, final)

def afterChanges (changes : List (State → State)) (state : State) : State :=
  changes.foldl (fun state change => change state) state

/-- Reading pages after some given items ends, at a state after some of the changes, with the
items that this state lists behind the given ones. -/
def ReadsOn (read : State → Option Key → Except Error (List Item)) (key : Item → Key)
    (items : State → List Item) (changes : List (State → State)) (state : State)
    (given : List Item) : Prop :=
  ∃ rounds count more, items (afterChanges (changes.take count) state) = given ++ more ∧
    ∀ fuel, rounds ≤ fuel → readPages read key fuel changes state (given.getLast?.map key) =
      some (.ok (more, afterChanges (changes.take count) state))

/-- A page holds the first items behind the cursor. -/
def GivesPages (read : State → Option Key → Except Error (List Item)) (key : Item → Key)
    (items : State → List Item) (limit : Nat) (state : State) : Prop :=
  ∀ given rest, items state = given ++ rest →
    read state (given.getLast?.map key) = .ok (rest.take limit)

variable {read : State → Option Key → Except Error (List Item)} {key : Item → Key}
  {items : State → List Item} {limit : Nat} {state : State}

theorem readsOn_of_end (changes : List (State → State)) {given : List Item}
    (listed : items state = given) (empty : read state (given.getLast?.map key) = .ok []) :
    ReadsOn read key items changes state given := by
  refine ⟨1, 0, [], ?_, ?_⟩
  · rw [append_nil, take_zero]
    exact listed
  · intro fuel enough
    obtain ⟨fuel, rfl⟩ := Nat.exists_eq_succ_of_ne_zero (Nat.ne_of_gt enough)
    rw [readPages, empty]
    rfl

/-- A page that is not empty is followed by what is read behind it after the next change. -/
theorem readsOn_of_page {changes : List (State → State)} {given page : List Item}
    (found : read state (given.getLast?.map key) = .ok page) (filled : page ≠ [])
    (further : ReadsOn read key items changes.tail
      (changes.head?.elim state fun change => change state) (given ++ page)) :
    ReadsOn read key items changes state given := by
  obtain ⟨rounds, count, more, listed, reads⟩ := further
  obtain ⟨front, last, rfl⟩ := eq_nil_or_concat page |>.resolve_left filled
  have reached : afterChanges (changes.take (if changes = [] then 0 else count + 1)) state =
      afterChanges (changes.tail.take count)
        (changes.head?.elim state fun change => change state) := by
    cases changes with
    | nil =>
      rw [if_pos rfl, tail_nil, take_nil, take_nil]
      rfl
    | cons change changes => rfl
  refine ⟨rounds + 1, if changes = [] then 0 else count + 1, front.concat last ++ more, ?_, ?_⟩
  · rw [reached, listed, append_assoc]
  · intro fuel enough
    obtain ⟨fuel, rfl⟩ := Nat.exists_eq_add_of_le' (Nat.lt_of_lt_of_le (Nat.succ_pos _) enough)
    have next := reads fuel (Nat.le_of_succ_le_succ enough)
    simp only [concat_eq_append, List.getLast?_append, List.getLast?_singleton,
      some_or, map_some] at next found ⊢
    simp only [readPages, found, List.getLast?_append, List.getLast?_singleton, some_or,
      next, map_some, reached]
    rfl

theorem readsOn_unchanged (positive : 0 < limit)
    (gives : GivesPages read key items limit state) {given rest : List Item}
    (listed : items state = given ++ rest) : ReadsOn read key items [] state given := by
  induction length : rest.length using Nat.strong_induction_on generalizing given rest with
  | _ size ih =>
    have page := gives given rest listed
    cases rest with
    | nil =>
      rw [append_nil] at listed
      exact readsOn_of_end [] listed (page.trans (by rw [take_nil]))
    | cons first rest =>
      apply readsOn_of_page page
      · simp [Nat.ne_of_gt positive]
      · apply ih ((first :: rest).drop limit).length _ _ rfl
        · rw [← length, length_drop, length_cons]
          omega
        · rw [listed, append_assoc, take_append_drop]

/-- When every change lists more items at the end, the pages go through the listing of the
state in which reading stops. -/
theorem readsOn_growing (positive : 0 < limit) {good : State → Prop}
    (gives : ∀ state, good state → GivesPages read key items limit state)
    {changes : List (State → State)} (kept : ∀ change ∈ changes, ∀ state, good state →
      good (change state) ∧ items state <+: items (change state))
    (start : good state) {given rest : List Item}
    (listed : items state = given ++ rest) : ReadsOn read key items changes state given := by
  induction changes generalizing state given rest with
  | nil => exact readsOn_unchanged positive (gives state start) listed
  | cons change changes ih =>
    have page := gives state start given rest listed
    cases rest with
    | nil =>
      rw [append_nil] at listed
      exact readsOn_of_end _ listed (page.trans (by rw [take_nil]))
    | cons first rest =>
      obtain ⟨still, more, grown⟩ := kept change mem_cons_self state start
      have split : items (change state) =
          given ++ (first :: rest).take limit ++ ((first :: rest).drop limit ++ more) := by
        calc items (change state) = given ++ (first :: rest) ++ more := by rw [← grown, listed]
          _ = given ++ ((first :: rest).take limit ++ (first :: rest).drop limit) ++ more := by
            rw [take_append_drop]
          _ = given ++ (first :: rest).take limit ++ ((first :: rest).drop limit ++ more) := by
            simp only [append_assoc]
      apply readsOn_of_page page
      · simp [Nat.ne_of_gt positive]
      · exact ih (fun other member => kept other (mem_cons_of_mem _ member)) still split

theorem filter_behind {before : Key → Key → Bool}
    (transitive : ∀ first second third, before first second → before second third →
      before first third) (irreflexive : ∀ key, before key key = false) {given rest : List Item}
    (ordered : (given ++ rest).Pairwise fun item later => before (key item) (key later)) :
    (given ++ rest).filter (fun item => (given.getLast?.map key).all (before · (key item))) =
      rest := by
  cases eq_nil_or_concat given with
  | inl empty =>
    subst empty
    simp
  | inr split =>
    obtain ⟨front, last, rfl⟩ := split
    rw [pairwise_append] at ordered
    obtain ⟨early, -, across⟩ := ordered
    rw [concat_eq_append] at early across ⊢
    rw [pairwise_append] at early
    have marked : (front ++ [last]).getLast?.map key = some (key last) := by simp
    rw [marked, filter_append, filter_eq_nil_iff.mpr, nil_append, filter_eq_self]
    · intro item member
      exact across last (by simp) item member
    · intro item member later
      rw [all_some] at later
      rcases mem_append.mp member with earlier | same
      · have crossed := transitive _ _ _ later (early.2.2 item earlier last (by simp))
        rw [irreflexive] at crossed
        cases crossed
      · rw [mem_singleton.mp same, irreflexive] at later
        cases later

end Paging

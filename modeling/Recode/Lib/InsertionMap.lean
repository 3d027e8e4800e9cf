import Mathlib.Data.List.Nodup
import Mathlib.Data.List.Induction

/-! # Insertion-ordered maps

A finite map that iterates in the order its keys were first inserted. Writing a
present key replaces its value in place, writing an absent key appends, and
erasing a key forgets its place. No two entries share a key; the structure
carries that fact, so a lookup is determined by membership
(`InsertionMap.get?_eq_some_iff`). -/

/-- A finite map with distinct keys that iterates in insertion order. -/
structure InsertionMap (Key Value : Type*) where
  entries : List (Key × Value)
  keys_nodup : (entries.map Prod.fst).Nodup

namespace InsertionMap

open List

variable {Key Value : Type*}

theorem eq_of_entries {left right : InsertionMap Key Value}
    (same : left.entries = right.entries) : left = right := by
  cases left
  cases right
  cases same
  rfl

/-- The map without entries. -/
def empty : InsertionMap Key Value where
  entries := []
  keys_nodup := nodup_nil

variable [DecidableEq Key]

/-- The value written last under a key. -/
def get? (map : InsertionMap Key Value) (key : Key) : Option Value :=
  (map.entries.find? fun entry => entry.1 = key).map Prod.snd

def contains (map : InsertionMap Key Value) (key : Key) : Bool :=
  (map.get? key).isSome

/-- Write a key: in place when it is present, at the end when it is new. -/
def insert (map : InsertionMap Key Value) (key : Key) (value : Value) : InsertionMap Key Value :=
  if present : key ∈ map.entries.map Prod.fst then
    { entries := map.entries.map fun entry => if entry.1 = key then (key, value) else entry
      keys_nodup := by
        have sameKeys : (map.entries.map fun entry =>
            if entry.1 = key then (key, value) else entry).map Prod.fst =
              map.entries.map Prod.fst := by
          rw [map_map]
          apply map_congr_left
          intro entry _
          by_cases same : entry.1 = key <;> simp [same]
        rw [sameKeys]
        exact map.keys_nodup }
  else
    { entries := map.entries ++ [(key, value)]
      keys_nodup := by
        rw [map_append, nodup_append]
        refine ⟨map.keys_nodup, by simp, ?_⟩
        intro old member new single same
        simp only [map_cons, map_nil, mem_singleton] at single
        subst single
        exact present (same ▸ member) }

/-- Remove a key; removing an absent key changes nothing. -/
def erase (map : InsertionMap Key Value) (key : Key) : InsertionMap Key Value where
  entries := map.entries.filter fun entry => entry.1 ≠ key
  keys_nodup := map.keys_nodup.sublist (filter_sublist.map _)

variable (map : InsertionMap Key Value) (key : Value → Key) (values : List Value)

theorem get?_eq_some_iff (key : Key) (value : Value) :
    map.get? key = some value ↔ (key, value) ∈ map.entries := by
  obtain ⟨entries, nodup⟩ := map
  unfold get?
  induction entries with
  | nil => simp
  | cons head tail ih =>
    rw [map_cons, nodup_cons] at nodup
    by_cases same : head.1 = key
    · have outside : ∀ value, (key, value) ∉ tail := fun value member =>
        nodup.1 (same ▸ mem_map_of_mem member)
      simp only [find?_cons, same, decide_true, Option.map_some, Option.some.injEq,
        mem_cons, outside, or_false, Prod.ext_iff, true_and]
      exact eq_comm
    · have distinct : (key, value) ≠ head := fun equal => same (by rw [← equal])
      simp only [find?_cons, same, decide_false, mem_cons, distinct, false_or]
      exact ih nodup.2

theorem get?_eq_none_iff (key : Key) : map.get? key = none ↔ key ∉ map.entries.map Prod.fst := by
  constructor
  · intro absent member
    obtain ⟨⟨_, value⟩, present, rfl⟩ := mem_map.mp member
    rw [← get?_eq_some_iff] at present
    rw [present] at absent
    cases absent
  · intro absent
    cases found : map.get? key with
    | none => rfl
    | some value =>
      exact (absent (mem_map_of_mem ((map.get?_eq_some_iff key value).mp found))).elim

theorem contains_iff (key : Key) : map.contains key = true ↔ ∃ value, map.get? key = some value :=
  Option.isSome_iff_exists

@[simp] theorem get?_empty (key : Key) :
    (empty : InsertionMap Key Value).get? key = none := rfl

@[simp] theorem get?_insert_self (key : Key) (value : Value) :
    (map.insert key value).get? key = some value := by
  rw [get?_eq_some_iff]
  by_cases present : key ∈ map.entries.map Prod.fst
  · obtain ⟨entry, member, named⟩ := mem_map.mp present
    simp only [insert, present, ↓reduceDIte, mem_map]
    exact ⟨entry, member, by rw [if_pos named]⟩
  · simp [insert, present]

theorem get?_insert_of_ne {key other : Key} (value : Value)
    (distinct : other ≠ key) : (map.insert key value).get? other = map.get? other := by
  apply Option.ext
  intro found
  rw [get?_eq_some_iff, get?_eq_some_iff]
  by_cases present : key ∈ map.entries.map Prod.fst
  · simp only [insert, present, ↓reduceDIte, mem_map]
    constructor
    · rintro ⟨entry, member, equal⟩
      by_cases same : entry.1 = key
      · rw [if_pos same] at equal
        exact (distinct (congrArg Prod.fst equal).symm).elim
      · rw [if_neg same] at equal
        exact equal ▸ member
    · intro member
      exact ⟨_, member, if_neg distinct⟩
  · simp [insert, present, distinct]

theorem get?_insert (key other : Key) (value : Value) :
    (map.insert key value).get? other = if other = key then some value else map.get? other := by
  by_cases same : other = key
  · subst same
    simp
  · rw [if_neg same, map.get?_insert_of_ne value same]

@[simp] theorem get?_erase_self (key : Key) : (map.erase key).get? key = none := by
  rw [get?_eq_none_iff]
  simp [erase]

theorem get?_erase_of_ne {key other : Key}
    (distinct : other ≠ key) : (map.erase key).get? other = map.get? other := by
  apply Option.ext
  intro found
  rw [get?_eq_some_iff, get?_eq_some_iff]
  simp [erase, distinct]

theorem get?_erase (key other : Key) :
    (map.erase key).get? other = if other = key then none else map.get? other := by
  by_cases same : other = key
  · subst same
    simp
  · rw [if_neg same, map.get?_erase_of_ne same]

theorem get?_foldl_erase (erased : List (Key × Value)) (key : Key) :
    (erased.foldl (fun left entry => left.erase entry.1) map).get? key =
      if key ∈ erased.map Prod.fst then none else map.get? key := by
  induction erased generalizing map with
  | nil => simp
  | cons entry erased ih =>
    rw [foldl_cons, ih, get?_erase, map_cons]
    by_cases later : key ∈ erased.map Prod.fst
    · rw [if_pos later, if_pos (mem_cons_of_mem _ later)]
    · rw [if_neg later]
      by_cases first : key = entry.1
      · rw [if_pos first, if_pos (mem_cons.mpr (Or.inl first))]
      · rw [if_neg first, if_neg fun present => (mem_cons.mp present).elim first later]

theorem entries_insert_of_present {map : InsertionMap Key Value} {key : Key}
    (present : key ∈ map.entries.map Prod.fst) (value : Value) :
    (map.insert key value).entries =
      map.entries.map fun entry => if entry.1 = key then (key, value) else entry := by
  rw [insert, dif_pos present]

theorem entries_insert_of_absent {map : InsertionMap Key Value} {key : Key}
    (absent : key ∉ map.entries.map Prod.fst) (value : Value) :
    (map.insert key value).entries = map.entries ++ [(key, value)] := by
  rw [insert, dif_neg absent]

theorem entries_foldl_insert {map : InsertionMap Key Value} {pairs : List (Key × Value)}
    (distinct : ((map.entries ++ pairs).map Prod.fst).Nodup) :
    (pairs.foldl (fun written pair => written.insert pair.1 pair.2) map).entries =
      map.entries ++ pairs := by
  induction pairs generalizing map with
  | nil => exact (append_nil _).symm
  | cons pair pairs ih =>
    have absent : pair.1 ∉ map.entries.map Prod.fst := by
      rw [map_append, nodup_append] at distinct
      exact fun present => distinct.2.2 _ present _ (by simp) rfl
    have next := entries_insert_of_absent absent pair.2
    rw [append_cons, ← next] at distinct
    rw [foldl_cons, ih distinct, next, append_assoc, singleton_append]

theorem mem_keys_iff (key : Key) :
    key ∈ map.entries.map Prod.fst ↔ (map.get? key).isSome = true := by
  rw [Option.isSome_iff_ne_none, ne_eq, get?_eq_none_iff, not_not]

/-- Index a list by a key: later elements replace earlier ones. -/
def indexBy (key : Value → Key) (values : List Value) : InsertionMap Key Value :=
  values.foldl (fun map value => map.insert (key value) value) empty

theorem indexBy_append_singleton (value : Value) :
    indexBy key (values ++ [value]) = (indexBy key values).insert (key value) value := by
  simp [indexBy, foldl_append]

theorem get?_indexBy (wanted : Key) :
    (indexBy key values).get? wanted = values.reverse.find? fun value => key value = wanted := by
  induction values using reverseRecOn with
  | nil => rfl
  | append_singleton values value ih =>
    rw [indexBy_append_singleton, get?_insert, reverse_append, reverse_singleton,
      singleton_append, find?_cons, ih]
    by_cases same : key value = wanted
    · simp [same]
    · simp [same, Ne.symm same]

variable {value : Value}

theorem key_of_get?_indexBy {wanted : Key} (found : (indexBy key values).get? wanted = some value) :
    key value = wanted ∧ value ∈ values := by
  rw [get?_indexBy] at found
  exact ⟨of_decide_eq_true (find?_some (p := fun value => decide (key value = wanted)) found),
    mem_reverse.mp (mem_of_find?_eq_some found)⟩

theorem isSome_get?_indexBy (wanted : Key) :
    ((indexBy key values).get? wanted).isSome = true ↔ wanted ∈ values.map key := by
  rw [get?_indexBy, find?_isSome]
  simp

theorem get?_indexBy_of_mem {values : List Value} (distinct : (values.map key).Nodup)
    (member : value ∈ values) : (indexBy key values).get? (key value) = some value := by
  cases found : (indexBy key values).get? (key value) with
  | none =>
    rw [get?_indexBy, find?_eq_none] at found
    exact (found value (mem_reverse.mpr member) (decide_eq_true rfl)).elim
  | some other =>
    obtain ⟨same, present⟩ := key_of_get?_indexBy key values found
    rw [inj_on_of_nodup_map distinct present member same]

/-- The elements that an index kept are those it finds under their own keys. -/
theorem mem_values_indexBy :
    value ∈ (indexBy key values).entries.map Prod.snd ↔
      (indexBy key values).get? (key value) = some value := by
  rw [mem_map]
  constructor
  · intro listed
    obtain ⟨entry, member, rfl⟩ := listed
    have found := (get?_eq_some_iff _ entry.1 entry.2).mpr member
    rw [(key_of_get?_indexBy key values found).1]
    exact found
  · intro found
    exact ⟨_, (get?_eq_some_iff _ _ _).mp found, rfl⟩

theorem nodup_values_indexBy : (((indexBy key values).entries.map Prod.snd).map key).Nodup := by
  have sameKeys : ((indexBy key values).entries.map Prod.snd).map key =
      (indexBy key values).entries.map Prod.fst := by
    rw [map_map]
    apply map_congr_left
    intro entry member
    exact (key_of_get?_indexBy key values ((get?_eq_some_iff _ entry.1 entry.2).mpr member)).1
  rw [sameKeys]
  exact (indexBy key values).keys_nodup

/-- A present key sits at one place: writing it changes the value there, and erasing it
takes that entry out. -/
theorem exists_place {map : InsertionMap Key Value} {key : Key} {old : Value}
    (present : map.get? key = some old) :
    ∃ before after, map.entries = before ++ (key, old) :: after ∧
      (∀ value, (map.insert key value).entries = before ++ (key, value) :: after) ∧
        (map.erase key).entries = before ++ after := by
  have member := (map.get?_eq_some_iff key old).mp present
  obtain ⟨before, after, split⟩ := append_of_mem member
  have distinct := map.keys_nodup
  rw [split, map_append, map_cons, nodup_middle, nodup_cons,
    ← map_append] at distinct
  have others : ∀ entry ∈ before ++ after, entry.1 ≠ key :=
    fun entry inside same => distinct.1 (mem_map.mpr ⟨entry, inside, same⟩)
  have same (value : Value) (entries : List (Key × Value))
      (inside : ∀ entry ∈ entries, entry ∈ before ++ after) :
      entries.map (fun entry => if entry.1 = key then (key, value) else entry) = entries := by
    rw [map_congr_left fun entry member => if_neg (others entry (inside entry member))]
    exact map_id entries
  have kept (entries : List (Key × Value)) (inside : ∀ entry ∈ entries, entry ∈ before ++ after) :
      entries.filter (fun entry => entry.1 ≠ key) = entries :=
    filter_eq_self.mpr fun entry member =>
      decide_eq_true (others entry (inside entry member))
  have front : ∀ entry ∈ before, entry ∈ before ++ after :=
    fun _ member => mem_append_left after member
  have back : ∀ entry ∈ after, entry ∈ before ++ after :=
    fun _ member => mem_append_right before member
  refine ⟨before, after, split, ?_, ?_⟩
  · intro value
    rw [entries_insert_of_present (mem_map_of_mem member), split, map_append,
      map_cons, same value before front, same value after back, if_pos rfl]
  · change map.entries.filter (fun entry => entry.1 ≠ key) = before ++ after
    rw [split, filter_append, filter_cons_of_neg (by simp), kept before front, kept after back]

theorem length_erase {map : InsertionMap Key Value} {key : Key} {old : Value}
    (present : map.get? key = some old) :
    (map.erase key).entries.length + 1 = map.entries.length := by
  obtain ⟨before, after, split, -, erased⟩ := exists_place present
  rw [split, erased]
  simp only [length_append, length_cons]
  omega

theorem erase_of_absent {map : InsertionMap Key Value} {key : Key}
    (absent : map.get? key = none) : map.erase key = map := by
  apply eq_of_entries
  rw [erase, filter_eq_self]
  intro entry member
  refine decide_eq_true fun same => (map.get?_eq_none_iff key).mp absent ?_
  exact same ▸ mem_map_of_mem member

theorem erase_insert_of_absent {map : InsertionMap Key Value} {key : Key}
    (absent : map.get? key = none) (value : Value) : (map.insert key value).erase key = map := by
  apply eq_of_entries
  change (map.insert key value).entries.filter (fun entry => entry.1 ≠ key) = map.entries
  rw [entries_insert_of_absent ((map.get?_eq_none_iff key).mp absent), filter_append,
    filter_cons_of_neg (by simp), filter_nil, append_nil]
  exact congrArg entries (erase_of_absent absent)

def total (map : InsertionMap Key Nat) : Nat :=
  (map.entries.map Prod.snd).foldl (· + ·) 0

theorem foldl_add (values : List Nat) (start : Nat) :
    values.foldl (· + ·) start = start + values.foldl (· + ·) 0 := by
  induction values generalizing start with
  | nil => rfl
  | cons value values ih =>
    rw [foldl_cons, foldl_cons, ih, ih (0 + value)]
    omega

/-- Writing a key replaces its part of the sum. -/
theorem total_insert (map : InsertionMap Key Nat) (key : Key) (value : Nat) :
    (map.insert key value).total + (map.get? key).getD 0 = map.total + value := by
  cases found : map.get? key with
  | none =>
    rw [total, total, entries_insert_of_absent ((map.get?_eq_none_iff key).mp found),
      map_append, foldl_append, map_singleton, foldl_cons, foldl_nil,
      Option.getD_none, Nat.add_zero]
  | some old =>
    obtain ⟨before, after, split, written, -⟩ := exists_place found
    simp only [total, split, written, map_append, map_cons, foldl_append,
      foldl_cons, Option.getD_some]
    rw [foldl_add _ (_ + value), foldl_add _ (_ + old)]
    omega

theorem total_erase (map : InsertionMap Key Nat) (key : Key) :
    (map.erase key).total + (map.get? key).getD 0 = map.total := by
  cases found : map.get? key with
  | none => rw [erase_of_absent found, Option.getD_none, Nat.add_zero]
  | some old =>
    obtain ⟨before, after, split, -, erased⟩ := exists_place found
    simp only [total, split, erased, map_append, map_cons, foldl_append,
      foldl_cons, Option.getD_some]
    rw [foldl_add _ (_ + old)]
    rw [foldl_add (after.map Prod.snd) (foldl _ _ _)]
    omega

end InsertionMap

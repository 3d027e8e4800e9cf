import Mathlib.Logic.Function.Basic

/-! # Objects with an identity

A store of mutable objects. An object is named by its reference; references are
handed out in the order of allocation and never reused, so two references are
the same object exactly when they are equal. -/

/-- Mutable objects, read and changed through their references. -/
structure ObjectStore (Object : Type*) where
  fresh : Nat
  read : Nat → Object

namespace ObjectStore

variable {Object : Type*}

/-- A store in which no object was allocated. -/
def empty (default : Object) : ObjectStore Object where
  fresh := 0
  read _ := default

def alloc (store : ObjectStore Object) (object : Object) : ObjectStore Object where
  fresh := store.fresh + 1
  read := Function.update store.read store.fresh object

def modify (store : ObjectStore Object) (ref : Nat) (change : Object → Object) :
    ObjectStore Object where
  fresh := store.fresh
  read := Function.update store.read ref (change (store.read ref))

variable (store : ObjectStore Object) (object : Object)

@[simp] theorem read_alloc_fresh : (store.alloc object).read store.fresh = object :=
  Function.update_self ..

theorem read_alloc_of_ne {ref : Nat}
    (other : ref ≠ store.fresh) : (store.alloc object).read ref = store.read ref :=
  Function.update_of_ne other ..

theorem read_alloc_of_lt {ref : Nat}
    (allocated : ref < store.fresh) : (store.alloc object).read ref = store.read ref :=
  store.read_alloc_of_ne object (Nat.ne_of_lt allocated)

@[simp] theorem read_modify_self (ref : Nat)
    (change : Object → Object) : (store.modify ref change).read ref = change (store.read ref) :=
  Function.update_self ..

theorem read_modify_of_ne {ref other : Nat} (change : Object → Object) (different : other ≠ ref) :
    (store.modify ref change).read other = store.read other :=
  Function.update_of_ne different ..

theorem modify_modify (ref : Nat) (first second : Object → Object) :
    (store.modify ref first).modify ref second =
      store.modify ref fun object => second (first object) := by
  simp [modify]

theorem field_alloc {Field : Type*} (field : Object → Field) (ref : Nat) :
    field ((store.alloc object).read ref) =
      if ref = store.fresh then field object else field (store.read ref) := by
  split
  · rename_i same
    rw [same, read_alloc_fresh]
  · rename_i other
    rw [read_alloc_of_ne store object other]

theorem field_modify {Field : Type*} (field : Object → Field) (ref other : Nat)
    (change : Object → Object) :
    field ((store.modify ref change).read other) =
      if other = ref then field (change (store.read ref)) else field (store.read other) := by
  split
  · rename_i same
    rw [same, read_modify_self]
  · rename_i different
    rw [read_modify_of_ne store change different]

theorem read_modify_kept {Field : Type*} (field : Object → Field) (store : ObjectStore Object)
    (ref other : Nat) {change : Object → Object}
    (kept : field (change (store.read ref)) = field (store.read ref)) :
    field ((store.modify ref change).read other) = field (store.read other) := by
  refine (store.field_modify field ref other change).trans ?_
  split
  · rename_i same
    rw [same, kept]
  · rfl

end ObjectStore

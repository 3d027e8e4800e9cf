import Recode.Lib.GrownTree
import Recode.Lib.Visit
import Recode.Session.Context

/-! # Loading a branch

A branch is loaded by climbing parent links from its leaf. The climb ends at the
root, at a compaction that carries its retained messages, or at the entry named
by the first-kept boundary of the compaction met last on the way up. On a tree
the climb loads the part of the complete path that `loadedPath` describes. -/

namespace Recode

open List Visit CompactionData

abbrev EntryMap := InsertionMap EntryId SessionTreeEntry

/-- One iteration of the climb: `none` ends it at this entry, otherwise the boundary
to stop at is carried on. -/
def visitEntry (stopAtEntryId : Option EntryId) (current : SessionTreeEntry) :
    Option (Option EntryId) :=
  if stopAtEntryId = some current.id then none
  else
    match current.compaction? with
    | some data => if data.retainedTail.isSome then none else some data.firstKeptEntryId
    | none => some stopAtEntryId

namespace SessionError

/-- The climb runs in a circle. The program does not report this: it does not return. -/
def endlessClimb : SessionError := ⟨.invalidSession, "endless climb"⟩

end SessionError

/-- The loop that climbs from an entry and puts what it meets before the path. -/
def climb (getEntry : EntryId → Option SessionTreeEntry) : Nat → Option EntryId →
    SessionTreeEntry → List SessionTreeEntry → Except SessionError (List SessionTreeEntry)
  | 0, _, _, _ => .error .endlessClimb
  | fuel + 1, stopAtEntryId, current, path =>
    match visitEntry stopAtEntryId current with
    | none => .ok (current :: path)
    | some stopAtEntryId =>
      match current.parentId with
      | none => .ok (current :: path)
      | some parentId =>
        match getEntry parentId with
        | none => .error (.danglingEntry parentId)
        | some parent => climb getEntry fuel stopAtEntryId parent (current :: path)

/-- Load the branch that ends at a leaf. A climb that meets more than twice the
number of entries has met one of them twice with the same boundary. -/
def getPathToRootOrCompaction (byId : EntryMap) (leafId : Option EntryId) :
    Except SessionError (List SessionTreeEntry) :=
  match leafId with
  | none => .ok []
  | some id =>
    match byId.get? id with
    | none => .error (.entryNotFound id)
    | some current => climb byId.get? (2 * byId.entries.length + 1) none current []

/-- The branch from an entry up to the root, newest entry first. -/
abbrev AncestorChain (find : EntryId → Option SessionTreeEntry) :=
  ParentChain.Chain SessionTreeEntry.parentId find

/-- The boundary carried above some entries: the first kept entry of the topmost
compaction among them. -/
def keptBoundary (newer : List SessionTreeEntry) : Option EntryId :=
  (newer.findSome? SessionTreeEntry.compaction?).bind firstKeptEntryId

/-- The climb ends at an entry, having met `newer` on its way: the entry carries
its retained messages, or the compaction met last keeps entries from it on. -/
def EndsClimb (entry : SessionTreeEntry) (newer : List SessionTreeEntry) : Prop :=
  entry.retainsTail = true ∨ keptBoundary newer = some entry.id

instance (entry : SessionTreeEntry) (newer : List SessionTreeEntry) :
    Decidable (EndsClimb entry newer) := inferInstanceAs (Decidable (_ ∨ _))

/-- The climb ends at none of the entries of a path, so it goes on above them. -/
def ClimbPasses : List SessionTreeEntry → Prop
  | [] => True
  | entry :: newer => ¬ EndsClimb entry newer ∧ ClimbPasses newer

instance decidableClimbPasses : ∀ path, Decidable (ClimbPasses path)
  | [] => .isTrue trivial
  | _ :: newer =>
    have := decidableClimbPasses newer
    inferInstanceAs (Decidable (_ ∧ _))

/-- The part of a complete path that a climb from its end loads. -/
def loadedPath : List SessionTreeEntry → List SessionTreeEntry
  | [] => []
  | entry :: newer => if ClimbPasses newer then entry :: newer else loadedPath newer

variable (older : List SessionTreeEntry) (entry : SessionTreeEntry) {newer : List SessionTreeEntry}
  (path : List SessionTreeEntry)

theorem keptBoundary_cons (newer : List SessionTreeEntry) :
    keptBoundary (entry :: newer) =
      match entry.compaction? with
      | some data => data.firstKeptEntryId
      | none => keptBoundary newer := by
  unfold keptBoundary
  cases found : entry.compaction? <;> simp [found]

theorem visitEntry_keptBoundary (newer : List SessionTreeEntry) :
    visitEntry (keptBoundary newer) entry =
      if EndsClimb entry newer then none else some (keptBoundary (entry :: newer)) := by
  have ends : EndsClimb entry newer ↔ (entry.compaction?.bind retainedTail).isSome ∨
      keptBoundary newer = some entry.id := Iff.rfl
  simp only [keptBoundary_cons, visitEntry, ends]
  by_cases stop : keptBoundary newer = some entry.id
  · simp [stop]
  · cases found : entry.compaction? with
    | none => simp [stop]
    | some data => cases retained : data.retainedTail <;> simp [stop, retained]

theorem passed_visitEntry :
    passed visitEntry none path.reverse =
      if ClimbPasses path then some (keptBoundary path) else none := by
  induction path with
  | nil => rfl
  | cons entry newer ih =>
    rw [reverse_cons, passed_append, ih]
    by_cases passes : ClimbPasses newer
    · simp only [passes, ↓reduceIte, Option.bind_some, passed, foldlM_cons,
        foldlM_nil, visitEntry_keptBoundary, ClimbPasses, and_true]
      by_cases ends : EndsClimb entry newer <;> simp [ends]
    · simp [passes, ClimbPasses]

theorem front_visitEntry : front visitEntry none path.reverse = (loadedPath path).reverse := by
  induction path with
  | nil => rfl
  | cons entry newer ih =>
    have state := passed_visitEntry newer
    rw [reverse_cons]
    by_cases passes : ClimbPasses newer
    · rw [if_pos passes] at state
      rw [front_append state, loadedPath, if_pos passes, reverse_cons]
      cases more : visitEntry (keptBoundary newer) entry <;> simp [front, more]
    · rw [if_neg passes] at state
      rw [loadedPath, if_neg passes, ← ih]
      exact front_append_of_stopped state [entry]

theorem climb_of_chain {getEntry : EntryId → Option SessionTreeEntry} {entry : SessionTreeEntry}
    {chain : List SessionTreeEntry} (complete : AncestorChain getEntry entry chain) {fuel : Nat}
    (enough : chain.length ≤ fuel) (stopAtEntryId : Option EntryId) (path : List SessionTreeEntry) :
    climb getEntry fuel stopAtEntryId entry path =
      .ok ((front visitEntry stopAtEntryId chain).reverse ++ path) := by
  induction complete generalizing fuel stopAtEntryId path with
  | root top =>
    cases fuel with
    | zero => cases enough
    | succ fuel =>
      rename_i root
      simp only [climb, top]
      cases goesOn : visitEntry stopAtEntryId root <;> simp [front, goesOn]
  | @step entry above key chain link found tail ih =>
    cases fuel with
    | zero => cases enough
    | succ fuel =>
      simp only [climb, front, link, found]
      cases more : visitEntry stopAtEntryId entry with
      | none => simp
      | some next =>
        simp only []
        rw [ih (Nat.le_of_succ_le_succ enough) next (entry :: path)]
        simp

theorem loadedPath_split :
    ∃ hidden, path = hidden ++ loadedPath path := by
  induction path with
  | nil => exact ⟨[], rfl⟩
  | cons entry newer ih =>
    rw [loadedPath]
    split
    · exact ⟨[], rfl⟩
    · obtain ⟨hidden, same⟩ := ih
      exact ⟨entry :: hidden, by rw [cons_append, ← same]⟩

theorem ClimbPasses.of_append (passes : ClimbPasses (older ++ newer)) : ClimbPasses newer := by
  induction older with
  | nil => exact passes
  | cons _ _ ih => exact ih passes.2

/-- An entry is loaded exactly when the climb passes everything below it; then the
loaded part of the path is the loaded part above it and everything from it on. -/
theorem loadedPath_of_passes (passes : ClimbPasses newer) :
    ∃ hidden kept, older = hidden ++ kept ∧
      loadedPath (older ++ entry :: newer) = kept ++ entry :: newer := by
  induction older with
  | nil => exact ⟨[], [], rfl, by rw [nil_append, loadedPath, if_pos passes]⟩
  | cons first older ih =>
    rw [cons_append, loadedPath]
    split
    · exact ⟨[], first :: older, rfl, rfl⟩
    · obtain ⟨hidden, kept, same, loads⟩ := ih
      exact ⟨first :: hidden, kept, by rw [same]; rfl, loads⟩

theorem loadedPath_of_not_passes (blocked : ¬ ClimbPasses newer) :
    loadedPath (older ++ entry :: newer) = loadedPath newer := by
  induction older with
  | nil => rw [nil_append, loadedPath, if_neg blocked]
  | cons first older ih =>
    rw [cons_append, loadedPath, if_neg, ih]
    exact fun passes => blocked (ClimbPasses.of_append (older ++ [entry]) (by simpa))

theorem climbPasses_of_no_compaction {path : List SessionTreeEntry}
    (none : ∀ entry ∈ path, entry.compaction? = none) : ClimbPasses path := by
  induction path with
  | nil => trivial
  | cons entry newer ih =>
    have later : ∀ other ∈ newer, other.compaction? = Option.none :=
      fun other member => none other (mem_cons_of_mem _ member)
    refine ⟨?_, ih later⟩
    rintro (retains | boundary)
    · simp [SessionTreeEntry.retainsTail, none entry mem_cons_self] at retains
    · simp [keptBoundary, findSome?_eq_none_iff.mpr later] at boundary

theorem loadedPath_of_no_compaction {path : List SessionTreeEntry}
    (none : ∀ entry ∈ path, entry.compaction? = none) : loadedPath path = path := by
  cases path with
  | nil => rfl
  | cons entry newer =>
    rw [loadedPath, if_pos]
    exact climbPasses_of_no_compaction fun other member =>
      none other (mem_cons_of_mem _ member)

def CompletePath (byId : EntryMap) (leafId : Option EntryId)
    (path : List SessionTreeEntry) : Prop :=
  match leafId with
  | none => path = []
  | some id => ∃ entry, byId.get? id = some entry ∧ AncestorChain byId.get? entry path.reverse

theorem completePath_unique {byId : EntryMap} {leafId : Option EntryId}
    {path other : List SessionTreeEntry} (complete : CompletePath byId leafId path)
    (complete' : CompletePath byId leafId other) : path = other := by
  cases leafId with
  | none => exact complete.trans complete'.symm
  | some id =>
    obtain ⟨entry, found, chain⟩ := complete
    obtain ⟨entry', found', chain'⟩ := complete'
    rw [found, Option.some.injEq] at found'
    subst found'
    exact reverse_injective (chain.unique chain')

/-- A session whose parent links resolve without cycles. -/
structure EntryTree where
  byId : EntryMap
  keyed : ∀ id entry, byId.get? id = some entry → entry.id = id
  resolves : ParentChain.Resolves SessionTreeEntry.parentId byId.get?
  acyclic : ParentChain.Acyclic SessionTreeEntry.parentId byId.get?

namespace EntryTree

/-- The tree of a session grown by appending. -/
def ofGrown (entries : List SessionTreeEntry)
    (grows : GrownTree.Grows SessionTreeEntry.id SessionTreeEntry.parentId entries) :
    EntryTree where
  byId := InsertionMap.indexBy SessionTreeEntry.id entries
  keyed := fun id entry found => ((grows.find_iff id entry).mp found).2
  resolves := grows.resolves
  acyclic := grows.acyclic

variable (tree : EntryTree)

theorem inside (id : EntryId) (entry : SessionTreeEntry) (found : tree.byId.get? id = some entry) :
    entry.id = id ∧ id ∈ tree.byId.entries.map Prod.fst :=
  ⟨tree.keyed id entry found, mem_map_of_mem ((tree.byId.get?_eq_some_iff id entry).mp found)⟩

variable {leafId : Option EntryId}

theorem exists_completePath (found : ∀ id, leafId = some id → (tree.byId.get? id).isSome) :
    ∃ path, CompletePath tree.byId leafId path := by
  cases leafId with
  | none => exact ⟨[], rfl⟩
  | some id =>
    obtain ⟨entry, here⟩ := Option.isSome_iff_exists.mp (found id rfl)
    have self : tree.byId.get? entry.id = some entry := tree.keyed id entry here ▸ here
    obtain ⟨chain, complete⟩ := ParentChain.Chain.exists_of_acyclic tree.inside
      tree.resolves tree.acyclic self
    exact ⟨chain.reverse, entry, here, by rwa [reverse_reverse]⟩

theorem getPathToRootOrCompaction_of_completePath
    {path : List SessionTreeEntry} (complete : CompletePath tree.byId leafId path) :
    getPathToRootOrCompaction tree.byId leafId = .ok (loadedPath path) := by
  cases leafId with
  | none =>
    cases complete
    rfl
  | some id =>
    obtain ⟨entry, found, chain⟩ := complete
    have self : tree.byId.get? entry.id = some entry := tree.keyed id entry found ▸ found
    have short := chain.length_le tree.inside tree.acyclic self
    rw [length_map] at short
    simp only [getPathToRootOrCompaction, found]
    rw [climb_of_chain chain (by omega), front_visitEntry, reverse_reverse, append_nil]

theorem ids_nodup_of_completePath {path : List SessionTreeEntry}
    (complete : CompletePath tree.byId leafId path) : (path.map SessionTreeEntry.id).Nodup := by
  cases leafId with
  | none =>
    cases complete
    exact nodup_nil
  | some id =>
    obtain ⟨entry, found, chain⟩ := complete
    have self : tree.byId.get? entry.id = some entry := tree.keyed id entry found ▸ found
    have distinct := chain.keys_nodup tree.keyed tree.acyclic self
    rwa [map_reverse, nodup_reverse] at distinct

end EntryTree

end Recode

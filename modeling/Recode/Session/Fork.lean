import Recode.Session.MemoryStorage

/-! # Forks

A fork copies entries of a session, with their parent links, into an empty
storage. Without a target it copies everything. With a target it copies the
branch that the storage loads for the target, and that branch may be truncated. -/

namespace Recode

open List EntryTree SessionTreeEntry Option

/-- Whether a fork includes its target. -/
inductive ForkPosition where
  | before | at
deriving DecidableEq

/-- What to fork. -/
structure ForkOptions where
  entryId : Option EntryId
  position : Option ForkPosition
deriving DecidableEq

namespace SessionError

/-- A fork named an entry that the session does not hold. -/
def forkTargetNotFound (id : EntryId) : SessionError :=
  ⟨.invalidForkTarget, "Entry " ++ id.text ++ " not found"⟩

def forkTargetNotUser (id : EntryId) : SessionError :=
  ⟨.invalidForkTarget, "Entry " ++ id.text ++ " is not a user message"⟩

end SessionError

def effectiveLeafId (options : ForkOptions) (target : SessionTreeEntry) :
    Except SessionError (Option EntryId) :=
  match options.position.getD .before with
  | .at => .ok (some target.id)
  | .before =>
    match target.body with
    | .message (.user _ _) => .ok target.parentId
    | _ => .error (.forkTargetNotUser target.id)

section Fork

variable {Storage : Type} [SessionStorage Storage]

def getEntriesToFork (storage : Storage) (options : ForkOptions) :
    Except SessionError (List SessionTreeEntry) :=
  match options.entryId with
  | none => .ok (SessionStorage.getEntries storage {})
  | some entryId =>
    match SessionStorage.getEntry storage entryId with
    | none => .error (.forkTargetNotFound entryId)
    | some target => do
      SessionStorage.getPathToRootOrCompaction storage (← effectiveLeafId options target)

def forkInto (empty : Storage) (entries : List SessionTreeEntry) : Except SessionError Storage :=
  entries.foldlM SessionStorage.appendEntry empty

/-- A fork names no target, or one that it can be taken at. -/
def ForkOptions.Valid (options : ForkOptions) (storage : Storage) : Prop :=
  ∀ entryId, options.entryId = some entryId →
    ∃ target leafId, SessionStorage.getEntry storage entryId = some target ∧
      effectiveLeafId options target = .ok leafId

end Fork

/-- A fork stands on its own: parents and first kept entries are copied along, and every
branch loads and has the messages it had in the source. -/
structure SelfContained (source fork : InMemorySessionStorage) : Prop where
  parents : ∀ older entry newer parent, fork.entries = older ++ entry :: newer →
    entry.parentId = some parent → parent ∈ older.map SessionTreeEntry.id
  boundaries : ∀ entry ∈ fork.entries, ∀ data kept, entry.compaction? = some data →
    data.firstKeptEntryId = some kept → (source.getEntry kept).isSome → (fork.getEntry kept).isSome
  branches : ∀ entry ∈ fork.entries, ∃ branch original,
    getPathToRootOrCompaction fork.byId (some entry.id) = .ok branch ∧
      getPathToRootOrCompaction source.byId (some entry.id) = .ok original ∧
        (buildSessionContext branch).messages = (buildSessionContext original).messages

/-- The climb from a leaf loads its branch up to the root, and the first kept entries of
the compactions on the branch, as far as the session holds them, are on it. -/
def BranchClosed (source : InMemorySessionStorage) (leafId : Option EntryId) : Prop :=
  ∀ path, CompletePath source.byId leafId path → ClimbPasses path.tail ∧
    ∀ entry ∈ path, ∀ data kept, entry.compaction? = some data →
      data.firstKeptEntryId = some kept → (source.getEntry kept).isSome →
        kept ∈ path.map SessionTreeEntry.id

def ForkClosed (source : InMemorySessionStorage) (options : ForkOptions) : Prop :=
  ∀ entryId target leafId, options.entryId = some entryId →
    source.getEntry entryId = some target → effectiveLeafId options target = .ok leafId →
      BranchClosed source leafId

/-- A path is loaded whole exactly when nothing below its root ends the climb. -/
theorem loadedPath_eq_self_iff (path : List SessionTreeEntry) :
    loadedPath path = path ↔ ClimbPasses path.tail := by
  cases path with
  | nil => exact iff_of_true rfl trivial
  | cons entry newer =>
    rw [loadedPath, tail_cons]
    by_cases passes : ClimbPasses newer
    · simp [passes]
    rw [if_neg passes]
    refine iff_of_false ?_ passes
    intro same
    obtain ⟨hidden, split⟩ := loadedPath_split newer
    have shorter := congrArg length split
    rw [same] at shorter
    simp at shorter
    omega

namespace InMemorySessionStorage

variable {entries : List SessionTreeEntry}

theorem forkInto_empty (entries : List SessionTreeEntry) :
    forkInto empty entries = .ok (afterAppending entries) := by
  rw [← foldl_appendEntry, forkInto]
  exact foldlM_pure

variable {byId : EntryMap} {leafId : Option EntryId} {path : List SessionTreeEntry}
  {entry : SessionTreeEntry}

section

variable (keyed : ∀ id entry, byId.get? id = some entry → entry.id = id)
include keyed

theorem completePath_of_split {older newer : List SessionTreeEntry}
    (complete : CompletePath byId leafId (older ++ entry :: newer)) :
    CompletePath byId (some entry.id) (older ++ [entry]) := by
  cases leafId with
  | none => simp [CompletePath] at complete
  | some id =>
    obtain ⟨leaf, found, chain⟩ := complete
    have self : byId.get? leaf.id = some leaf := keyed id leaf found ▸ found
    have here : byId.get? entry.id = some entry := chain.found_of_mem keyed self (by simp)
    rw [reverse_append, reverse_cons, append_assoc] at chain
    refine ⟨entry, here, ?_⟩
    rw [reverse_append]
    exact chain.of_append

/-- Along a complete path every entry but the root names the entry before it. -/
theorem parent_of_completePath {older newer : List SessionTreeEntry}
    (complete : CompletePath byId leafId (older ++ entry :: newer)) :
    entry.parentId = older.getLast?.map SessionTreeEntry.id := by
  obtain ⟨same, found, chain⟩ := completePath_of_split keyed complete
  rcases older.eq_nil_or_concat' with rfl | ⟨further, above, rfl⟩
  · exact chain.parent_of_last []
  · rw [append_assoc, reverse_append] at chain
    obtain ⟨key, link, foundAbove⟩ := chain.parent_of_adjacent []
    rw [link, getLast?_append, ← keyed key above foundAbove]
    rfl

theorem grows_of_completePath
    (complete : CompletePath byId leafId path) (distinct : (path.map SessionTreeEntry.id).Nodup) :
    GrownTree.Grows SessionTreeEntry.id parentId path := by
  have initial : ∀ older newer, path = older ++ newer →
      GrownTree.Grows SessionTreeEntry.id parentId older := by
    intro older
    induction older using reverseRecOn with
    | nil => exact fun _ _ => .nil
    | append_singleton older entry ih =>
      intro newer same
      rw [append_assoc, singleton_append] at same
      refine (GrownTree.grows_append_singleton _ _).mpr ⟨ih _ same, ?_, ?_⟩
      · rw [same, map_append, nodup_append] at distinct
        exact fun member => distinct.2.2 _ member _ (by simp) rfl
      · intro above link
        rw [parent_of_completePath keyed (same ▸ complete)] at link
        obtain ⟨last, named, rfl⟩ := map_eq_some_iff.mp link
        exact mem_map_of_mem (mem_of_getLast? named)
  exact initial path [] (append_nil path).symm

end

section

variable (appended : Appended entries)
include appended

theorem load_copied_branch {leafId : Option EntryId}
    (complete : CompletePath (afterAppending entries).byId leafId path) (member : entry ∈ path) :
    ∃ branch, getPathToRootOrCompaction (afterAppending path).byId (some entry.id) = .ok branch ∧
      getPathToRootOrCompaction (afterAppending entries).byId (some entry.id) = .ok branch := by
  have source := ofGrown entries appended.grows
  let tree := ofGrown entries appended.grows
  have grows := grows_of_completePath tree.keyed complete
    (tree.ids_nodup_of_completePath complete)
  let copy := ofGrown path grows
  obtain ⟨older, newer, rfl⟩ := append_of_mem member
  have original : CompletePath tree.byId (some entry.id) (older ++ [entry]) :=
    completePath_of_split tree.keyed complete
  have copied : CompletePath copy.byId (some entry.id) (older ++ [entry]) := by
    obtain ⟨same, found, chain⟩ := original
    have equal : same = entry := by
      obtain ⟨_, first⟩ := chain.head
      rw [reverse_append] at first
      simpa using (cons.inj first).1.symm
    subst equal
    refine ⟨same, grows.find_self (by simp), chain.transfer tree.keyed fun other inside => ?_⟩
    refine grows.find_self ?_
    rw [mem_reverse] at inside
    simp only [mem_append, mem_singleton] at inside
    simp only [mem_append, mem_cons]
    tauto
  exact ⟨_, copy.getPathToRootOrCompaction_of_completePath copied,
    tree.getPathToRootOrCompaction_of_completePath original⟩

theorem selfContained_all :
    SelfContained (afterAppending entries) (afterAppending entries) where
  parents := by
    intro older entry newer parent same link
    have grows := appended.grows
    rw [show entries = older ++ entry :: newer from same] at grows
    exact grows.parent_before link
  boundaries := fun _ _ _ _ _ _ resolved => resolved
  branches := by
    intro entry member
    let tree := ofGrown entries appended.grows
    have resolved : ∀ id, some entry.id = some id → (tree.byId.get? id).isSome := by
      rintro id ⟨⟩
      exact (InsertionMap.isSome_get?_indexBy _ _ _).mpr (mem_map_of_mem member)
    obtain ⟨path, complete⟩ := tree.exists_completePath resolved
    have loads := tree.getPathToRootOrCompaction_of_completePath complete
    exact ⟨_, _, loads, loads, rfl⟩

/-- A copied branch is self-contained exactly when it is loaded up to the root and its
kept boundaries are on it. -/
theorem selfContained_branch_iff {leafId : Option EntryId}
    (complete : CompletePath (afterAppending entries).byId leafId path) :
    SelfContained (afterAppending entries) (afterAppending (loadedPath path)) ↔
      ClimbPasses path.tail ∧ ∀ entry ∈ path, ∀ data kept, entry.compaction? = some data →
        data.firstKeptEntryId = some kept → ((afterAppending entries).getEntry kept).isSome →
          kept ∈ path.map SessionTreeEntry.id := by
  let tree := ofGrown entries appended.grows
  constructor
  · intro closed
    have whole : loadedPath path = path := by
      obtain ⟨hidden, split⟩ := loadedPath_split path
      cases loaded : loadedPath path with
      | nil =>
        cases path with
        | nil => rfl
        | cons entry newer =>
          obtain ⟨_, kept, -, loads⟩ := loadedPath_of_passes
            ((entry :: newer).dropLast) ((entry :: newer).getLast (by simp))
            (show ClimbPasses [] from trivial)
          rw [dropLast_append_getLast, loaded] at loads
          simp at loads
      | cons first rest =>
        rw [loaded] at split
        have link := parent_of_completePath tree.keyed (split ▸ complete)
        cases above : hidden.getLast? with
        | none =>
          rw [getLast?_eq_none_iff] at above
          rw [split, above, nil_append]
        | some last =>
          rw [above] at link
          have inside := closed.parents [] first rest last.id loaded link
          cases inside
    refine ⟨(loadedPath_eq_self_iff path).mp whole, ?_⟩
    intro entry member data kept found keeps resolved
    rw [whole] at closed
    exact (InsertionMap.isSome_get?_indexBy _ _ _).mp
      (closed.boundaries entry member data kept found keeps resolved)
  · rintro ⟨passes, boundaries⟩
    rw [(loadedPath_eq_self_iff path).mpr passes]
    refine ⟨?_, ?_, ?_⟩
    · intro older entry newer parent same link
      rw [show path = older ++ entry :: newer from same] at complete
      rw [parent_of_completePath tree.keyed complete] at link
      obtain ⟨last, named, rfl⟩ := map_eq_some_iff.mp link
      exact mem_map_of_mem (mem_of_getLast? named)
    · intro entry member data kept found keeps resolved
      exact (InsertionMap.isSome_get?_indexBy _ _ _).mpr
        (boundaries entry member data kept found keeps resolved)
    · intro entry member
      obtain ⟨branch, copied, original⟩ := load_copied_branch appended complete member
      exact ⟨branch, branch, copied, original, rfl⟩

theorem getEntriesToFork_of_target {options : ForkOptions}
    {entryId : EntryId} (named : options.entryId = some entryId) {target : SessionTreeEntry}
    (found : (afterAppending entries).getEntry entryId = some target) {leafId : Option EntryId}
    (leaf : effectiveLeafId options target = .ok leafId) :
    ∃ path, CompletePath (afterAppending entries).byId leafId path ∧
      getEntriesToFork (afterAppending entries) options = .ok (loadedPath path) := by
  let tree := ofGrown entries appended.grows
  have resolved : ∀ id, leafId = some id → (tree.byId.get? id).isSome := by
    rintro id rfl
    have here := tree.keyed entryId target found
    unfold effectiveLeafId at leaf
    split at leaf
    · cases leaf
      exact isSome_of_eq_some (here ▸ found)
    · split at leaf
      · exact tree.resolves entryId target found id (Except.ok.inj leaf)
      · cases leaf
  obtain ⟨path, complete⟩ := tree.exists_completePath resolved
  refine ⟨path, complete, ?_⟩
  have seen : SessionStorage.getEntry (afterAppending entries) entryId = some target := found
  simp only [getEntriesToFork, named, seen, leaf]
  exact tree.getPathToRootOrCompaction_of_completePath complete

end

end InMemorySessionStorage

section Example

/-- Two messages, a compaction that keeps the second, and a third message. -/
def compactedCalls : List (Stamp × SessionCall) :=
  [(⟨.nth 'm' 1, 1⟩, .appendMessage (.user (.text "one") 1)),
    (⟨.nth 'm' 2, 2⟩, .appendMessage (.user (.text "two") 2)), (⟨.nth 'c' 1, 3⟩, .appendCompaction
      ⟨"One.", some (.nth 'm' 2), 2, none, none, none, none⟩),
    (⟨.nth 'm' 3, 4⟩, .appendMessage (.user (.text "three") 4))]

def compactedSession : InMemorySessionStorage := Session.performAll .empty compactedCalls

theorem compactedSession_reachable : Session.Reachable .empty compactedSession :=
  Session.reachable_performAll .start
    ⟨⟨rfl, trivial⟩, ⟨rfl, trivial⟩, ⟨rfl, trivial⟩, ⟨rfl, trivial⟩, trivial⟩

def forkAtLast : ForkOptions := ⟨some (.nth 'm' 3), some .at⟩

theorem forkAtLast_valid : forkAtLast.Valid compactedSession := by
  rintro entryId ⟨⟩
  exact ⟨_, _, rfl, rfl⟩

end Example
end Recode

import Mathlib.Data.Set.Function
import Recode.MemoryIndex.Tables

/-! # What a sync guarantees

A sync that finishes leaves an index that mirrors the files it found, and no sync
leaves a document half replaced, as long as no file that is found under the other
scope than its path is indexed with goes unnoticed or leaves chunks behind. -/

namespace Recode.MemoryIndex

open Database List

variable {digest : Digest} {contents : Set String} {db : Database}

/-- The roots are apart, so that no path is listed twice, and the contents read are among
some contents. -/
structure Listed (contents : Set String) (sync : Sync) : Prop where
  apart : (sync.files.map fun file => file.found.path).Nodup
  known : ∀ file ∈ sync.files, ∀ content mtimeMs,
    file.found.read = .ok (content, mtimeMs) → contentText content ∈ contents

/-- A file found under the other scope than its path is indexed with has changed, and no
chunk stays behind under its old id: links are enforced, or it has none. -/
def KeepsScope (digest : Digest) (db : Database) (file : MemoryFile) : Prop :=
  ∀ content mtimeMs, file.found.read = .ok (content, mtimeMs) →
    ∀ previous chunks, db.entryOf file.found.path = some (previous, chunks) →
      previous.scope ≠ file.scope → isUnchanged digest (some previous) content mtimeMs = false ∧
          (db.foreignKeys = true ∨ chunks = [])

/-- A sync that keeps or notices the scopes of its files. -/
structure Admitted (digest : Digest) (contents : Set String) (db : Database) (sync : Sync) :
    Prop extends Listed contents sync where
  keepsScope : ∀ file ∈ sync.files, KeepsScope digest db file

/-- The index holds what was read of a file. -/
def Current (digest : Digest) (db : Database) (file : MemoryFile) : Prop :=
  ∃ content mtimeMs, file.found.read = .ok (content, mtimeMs) ∧ db.entryOf file.found.path =
      some (documentOf digest file content mtimeMs, chunksOfFile digest file content)

/-- What the index holds for a path, with the rows of the search. -/
def Database.viewOf (db : Database) (path : String) :
    Option (RecodeMemoryDocument × List RecodeMemoryChunk × List FtsRow) :=
  (db.entryOf path).map fun entry =>
    (entry.1, entry.2, db.fts.filter fun row => row.id ∈ entry.2.map RecodeMemoryChunk.id)

/-- The index mirrors the files of a sync. -/
structure Mirrors (digest : Digest) (platform : Platform) (sync : Sync) (db : Database) :
    Prop where
  /-- Each file has one document, with its scope and the chunks of its content. -/
  document : ∀ file ∈ sync.files, ∃ content mtimeMs, file.found.read = .ok (content, mtimeMs) ∧
      ∃ document ∈ db.documents, document.document = documentOf digest file content mtimeMs ∧
        (db.chunksOf document.document.id).map ChunkRow.chunk = chunksOfFile digest file content ∧
        ∀ other ∈ db.documents, other.document.path = file.found.path → other = document
  /-- No document under the roots is without a file. -/
  gone : ∀ row ∈ db.documents, isManaged platform sync.managedRoots row.document.path = true →
    ∃ file ∈ sync.files, file.found.path = row.document.path
  searched : ∀ row ∈ db.fts, ∃! chunk, chunk ∈ db.chunks ∧ ftsRow chunk.chunk = row
  found : ∀ chunk ∈ db.chunks, db.fts.count (ftsRow chunk.chunk) = 1
  owned : ∀ chunk ∈ db.chunks, ∃ document ∈ db.documents,
    document.document.id = chunk.chunk.documentId

/-- A path is entirely as before a sync, entirely as one of its files, or entirely
removed. -/
def EntirelySynced (digest : Digest) (platform : Platform) (db : Database) (sync : Sync)
    (after : Database) (path : String) : Prop :=
  after.viewOf path = db.viewOf path ∨
    (∃ file ∈ sync.files, file.found.path = path ∧ ∃ content mtimeMs,
      file.found.read = .ok (content, mtimeMs) ∧
        after.viewOf path = some (documentOf digest file content mtimeMs,
          chunksOfFile digest file content, (chunksOfFile digest file content).map ftsRow)) ∨
    isManaged platform sync.managedRoots path = true ∧
      (∀ file ∈ sync.files, file.found.path ≠ path) ∧ after.viewOf path = none

theorem contentText_injective {content other : String}
    (same : contentText content = contentText other) : content = other := by
  have chars := congrArg String.toList same
  simp only [contentText, String.toList_append] at chars
  exact String.toList_inj.mp (append_cancel_left chars)

theorem Indexed.entryOf_eq_some (indexed : Indexed digest contents db) {path : String}
    {previous : RecodeMemoryDocument} (found : db.getDocument path = some previous) :
    previous.path = path ∧ previous.id = recodeMemoryDocumentId digest previous.scope path ∧
      ∃ content, contentText content ∈ contents ∧ previous.hash = contentHash digest content ∧
        db.entryOf path = some (previous,
          chunkRecodeMemory digest previous.id previous.scope path content) := by
  obtain ⟨row, member, rfl, here⟩ := (getDocument_eq_some_iff indexed.paths).mp found
  obtain ⟨content, known, hash, chunks⟩ := indexed.stored row member
  refine ⟨here, here ▸ indexed.named row member, content, known, hash, ?_⟩
  rw [entryOf, found, Option.map_some, chunks, here]

/-- What indexing a file does to the index. -/
structure FileIndexed (digest : Digest) (contents : Set String) (db : Database)
    (file : MemoryFile) (after : Database) (result : Except String Bool) : Prop where
  indexed : Indexed digest contents after
  foreignKeys : after.foreignKeys = db.foreignKeys
  others : ∀ path, path ≠ file.found.path → after.entryOf path = db.entryOf path
  outcome : Current digest after file ∨ after = db ∧ ∃ error, result = .error error

variable {after : Database} {file : MemoryFile}

theorem indexFile_indexed (injective : Set.InjOn digest.sha256 contents)
    (indexed : Indexed digest contents db)
    (known : ∀ content mtimeMs, file.found.read = .ok (content, mtimeMs) →
      contentText content ∈ contents) (keeps : KeepsScope digest db file) :
    FileIndexed digest contents db file (indexFile digest db file).1
      (indexFile digest db file).2 := by
  rw [indexFile]
  cases read : file.found.read with
  | error error => exact ⟨indexed, rfl, fun _ _ => rfl, Or.inr ⟨rfl, error, rfl⟩⟩
  | ok found =>
    obtain ⟨content, mtimeMs⟩ := found
    have inside := known content mtimeMs read
    dsimp only
    split
    · rename_i unchanged
      refine ⟨indexed, rfl, fun _ _ => rfl, Or.inl ⟨content, mtimeMs, read, ?_⟩⟩
      cases found : db.getDocument file.found.path with
      | none =>
        rw [found] at unchanged
        cases unchanged
      | some previous =>
        obtain ⟨path, named, stored, storedKnown, hash, entry⟩ :=
          indexed.entryOf_eq_some found
        rw [found] at unchanged
        have scope : previous.scope = file.scope := by
          by_contra other
          have changed := (keeps content mtimeMs read previous _ entry other).1
          rw [changed] at unchanged
          cases unchanged
        rw [isUnchanged, Bool.and_eq_true, decide_eq_true_iff, decide_eq_true_iff] at unchanged
        have same : stored = content :=
          contentText_injective (injective storedKnown inside (hash.symm.trans unchanged.1))
        have document : previous = documentOf digest file content mtimeMs := by
          cases previous
          simp only at path named scope unchanged
          rw [documentOf, path, named, scope, unchanged.1, unchanged.2]
        rw [entry, same, document]
        rfl
    · cases transacted : db.replaceDocument (documentOf digest file content mtimeMs)
          (chunksOfFile digest file content) file.found.now file.found.fault with
      | mk after error =>
        unfold replaceDocument transaction at transacted
        split at transacted
        · cases transacted
          exact ⟨indexed, rfl, fun _ _ => rfl, Or.inr ⟨rfl, _, rfl⟩⟩
        · cases transacted
          exact ⟨indexed, rfl, fun _ _ => rfl, Or.inr ⟨rfl, _, rfl⟩⟩
        rename_i after done _
        cases transacted
        have replaced := indexed.replaced done
        have bare : ∀ old, db.getDocument file.found.path = some old →
            old.id = (documentOf digest file content mtimeMs).id ∨
              db.chunksOf old.id = [] := by
          intro old found
          obtain ⟨-, named, stored, -, -, entry⟩ := indexed.entryOf_eq_some found
          by_cases scope : old.scope = file.scope
          · exact Or.inl (by rw [named, scope]; rfl)
          rcases replaced.linked old found with same | free | none
          · exact Or.inl same
          · rcases (keeps content mtimeMs read old _ entry scope).2 with enforced | none
            · rw [enforced] at free
              cases free
            · rw [entryOf, found, Option.map_some] at entry
              have chunks := congrArg Prod.snd (Option.some.inj entry)
              rw [none] at chunks
              exact Or.inr (map_eq_nil_iff.mp chunks)
          · exact Or.inr none
        obtain ⟨result, own, others⟩ := replaced.indexed indexed rfl inside rfl bare
        exact ⟨result, replaced.foreignKeys, others, Or.inl ⟨content, mtimeMs, read, own⟩⟩

/-- What indexing some files does to the index. -/
structure FilesIndexed (digest : Digest) (contents : Set String) (db : Database)
    (files : List MemoryFile) (after : Database) (result : Except String SyncCounts) :
    Prop where
  indexed : Indexed digest contents after
  foreignKeys : after.foreignKeys = db.foreignKeys
  entirely : ∀ path, after.entryOf path = db.entryOf path ∨
    ∃ file ∈ files, file.found.path = path ∧ Current digest after file
  finished : ∀ counts, result = .ok counts → ∀ file ∈ files, Current digest after file

theorem KeepsScope.congr
    (keeps : KeepsScope digest db file) (foreignKeys : after.foreignKeys = db.foreignKeys)
    (same : after.entryOf file.found.path = db.entryOf file.found.path) :
    KeepsScope digest after file := by
  rw [KeepsScope, same, foreignKeys]
  exact keeps

theorem Current.congr (current : Current digest db file)
    (same : after.entryOf file.found.path = db.entryOf file.found.path) :
    Current digest after file := by
  rw [Current, same]
  exact current

theorem indexFiles_indexed {files : List MemoryFile} (counts : SyncCounts)
    (injective : Set.InjOn digest.sha256 contents) (indexed : Indexed digest contents db)
    (apart : (files.map fun file => file.found.path).Nodup)
    (known : ∀ file ∈ files, ∀ content mtimeMs,
      file.found.read = .ok (content, mtimeMs) → contentText content ∈ contents)
    (keeps : ∀ file ∈ files, KeepsScope digest db file) :
    FilesIndexed digest contents db files (indexFiles digest files counts db).1
      (indexFiles digest files counts db).2 := by
  induction files generalizing db counts with
  | nil =>
    exact ⟨indexed, rfl, fun _ => Or.inl rfl, fun _ _ _ member => nomatch member⟩
  | cons file files ih =>
    rw [map_cons, nodup_cons] at apart
    have step := indexFile_indexed injective indexed (known file mem_cons_self)
      (keeps file mem_cons_self)
    rw [indexFiles]
    cases called : indexFile digest db file with
    | mk middle result =>
      rw [called] at step
      have other {later : MemoryFile} (member : later ∈ files) :
          later.found.path ≠ file.found.path :=
        fun same => apart.1 (mem_map.mpr ⟨later, member, same⟩)
      have rest (counts : SyncCounts) := ih counts step.indexed apart.2
        (fun later member => known later (mem_cons_of_mem file member))
        (fun later member => (keeps later (mem_cons_of_mem file member)).congr
          step.foreignKeys (step.others _ (other member)))
      have goes (indexedOne : Bool) (counts : SyncCounts) (answered : result = .ok indexedOne) :
          FilesIndexed digest contents db (file :: files)
            (indexFiles digest files counts middle).1
            (indexFiles digest files counts middle).2 := by
        have after := rest counts
        have current : Current digest middle file := by
          rcases step.outcome with current | ⟨-, error, failed⟩
          · exact current
          · cases answered.symm.trans failed
        have stays : Current digest (indexFiles digest files counts middle).1 file := by
          rcases after.entirely file.found.path with same | ⟨later, member, path, -⟩
          · exact current.congr same
          · exact absurd path (other member)
        refine ⟨after.indexed, after.foreignKeys.trans step.foreignKeys, ?_, ?_⟩
        · intro path
          by_cases own : path = file.found.path
          · exact Or.inr ⟨file, mem_cons_self, own.symm, stays⟩
          · rcases after.entirely path with same | ⟨later, member, here, read⟩
            · exact Or.inl (same.trans (step.others path own))
            · exact Or.inr ⟨later, mem_cons_of_mem file member, here, read⟩
        · intro counts finished later member
          rcases mem_cons.mp member with rfl | member
          · exact stays
          · exact after.finished counts finished later member
      cases result with
      | error error =>
        rcases step.outcome with current | ⟨rfl, -⟩
        · refine ⟨step.indexed, step.foreignKeys, ?_, fun _ finished => nomatch finished⟩
          intro path
          by_cases own : path = file.found.path
          · exact Or.inr ⟨file, mem_cons_self, own.symm, current⟩
          · exact Or.inl (step.others path own)
        · exact ⟨indexed, rfl, fun _ => Or.inl rfl, fun _ finished => nomatch finished⟩
      | ok indexedOne =>
        cases indexedOne with
        | true => exact goes true _ rfl
        | false => exact goes false _ rfl

/-- What removing the missing documents does to the index. -/
structure MissingRemoved (digest : Digest) (contents : Set String) (platform : Platform)
    (paths managedRoots : List String) (db after : Database) : Prop where
  indexed : Indexed digest contents after
  entirely : ∀ path, after.entryOf path = db.entryOf path ∨
    isManaged platform managedRoots path = true ∧ path ∉ paths ∧ after.entryOf path = none

theorem removeDocument_cases (db : Database) (id : String) (fault : Option String) :
    (∃ error, db.removeDocument id fault = (db, some error)) ∨
      db.removeDocument id fault = ((db.deleteChunksOf id).deleteDocument id, none) := by
  cases fault with
  | some error => exact Or.inl ⟨error, rfl⟩
  | none => exact Or.inr rfl

theorem Indexed.documents_removed (indexed : Indexed digest contents db) (id : String) :
    ((db.deleteChunksOf id).deleteDocument id).documents ⊆ db.documents := by
  rw [indexed.deleteChunksOf_eq]
  exact filter_sublist.subset

variable (platform : Platform)

/-- Removing some rows of a listing of the documents. -/
theorem removeRows_missing (paths managedRoots : List String)
    (faults : String → Option String) {documents rows : List DocumentRow}
    (indexed : Indexed digest contents db)
    (pathsApart : (documents.map fun row => row.document.path).Nodup)
    (idsApart : (documents.map fun row => row.document.id).Nodup)
    (listed : rows ⊆ documents) (left : db.documents ⊆ documents) :
    MissingRemoved digest contents platform paths managedRoots db
        (removeRows platform paths managedRoots faults rows db).1 ∧
      ((removeRows platform paths managedRoots faults rows db).2 = none → ∀ row ∈ rows,
        isManaged platform managedRoots row.document.path = true → row.document.path ∉ paths →
          (removeRows platform paths managedRoots faults rows db).1.entryOf
            row.document.path = none) := by
  induction rows generalizing db with
  | nil => exact ⟨⟨indexed, fun _ => Or.inl rfl⟩, fun _ _ member => nomatch member⟩
  | cons row rows ih =>
    have rest : rows ⊆ documents := fun other member => listed (mem_cons_of_mem row member)
    have stored : row ∈ documents := listed mem_cons_self
    rw [removeRows]
    split
    · rename_i missing
      rw [Bool.and_eq_true, decide_eq_true_iff] at missing
      rcases removeDocument_cases db row.document.id (faults row.document.id) with
        ⟨error, failed⟩ | done
      · rw [failed]
        exact ⟨⟨indexed, fun _ => Or.inl rfl⟩, fun finished => nomatch finished⟩
      · rw [done]
        obtain ⟨removed, entries⟩ := indexed.removed row.document.id
        obtain ⟨after, finished⟩ := ih removed rest
          fun other member => left (indexed.documents_removed _ member)
        -- The row's path is the only one that may hold its document.
        have own (path : String) (document : RecodeMemoryDocument)
            (found : db.getDocument path = some document) :
            document.id = row.document.id ↔ path = row.document.path := by
          obtain ⟨other, member, rfl, here⟩ := (getDocument_eq_some_iff indexed.paths).mp found
          constructor
          · intro same
            rw [← here, inj_on_of_nodup_map idsApart (left member) stored same]
          · intro same
            rw [inj_on_of_nodup_map pathsApart (left member) stored (here.trans same)]
        have cleared : ((db.deleteChunksOf row.document.id).deleteDocument
            row.document.id).entryOf row.document.path = none := by
          rw [entries]
          cases found : db.getDocument row.document.path with
          | none => rw [if_neg (by simp), entryOf, found, Option.map_none]
          | some document =>
            rw [if_pos]
            exact congrArg some ((own _ document found).mpr rfl)
        have none (path : String) (here : path = row.document.path) :
            (removeRows platform paths managedRoots faults rows
              ((db.deleteChunksOf row.document.id).deleteDocument row.document.id)).1.entryOf
                path = none := by
          rcases after.entirely path with same | ⟨-, -, none⟩
          · rw [same, here, cleared]
          · exact none
        refine ⟨⟨after.indexed, ?_⟩, ?_⟩
        · intro path
          by_cases here : path = row.document.path
          · exact Or.inr ⟨here ▸ missing.1, here ▸ missing.2, none path here⟩
          rcases after.entirely path with same | gone
          · rw [same, entries]
            refine Or.inl (if_neg ?_)
            intro removedHere
            obtain ⟨document, found, same⟩ := Option.map_eq_some_iff.mp removedHere
            exact here ((own path document found).mp same)
          · exact Or.inr gone
        · intro complete other member managed absent
          rcases mem_cons.mp member with rfl | member
          · exact none _ rfl
          · exact finished complete other member managed absent
    · rename_i kept
      obtain ⟨after, finished⟩ := ih indexed rest left
      refine ⟨after, ?_⟩
      intro complete other member managed absent
      rcases mem_cons.mp member with rfl | member
      · exact absurd (by simp [managed, absent]) kept
      · exact finished complete other member managed absent

theorem removeMissing_missing (paths managedRoots : List String)
    (faults : String → Option String) (indexed : Indexed digest contents db) :
    MissingRemoved digest contents platform paths managedRoots db
        (db.removeMissing platform paths managedRoots faults).1 ∧
      ((db.removeMissing platform paths managedRoots faults).2 = none →
        ∀ row ∈ (db.removeMissing platform paths managedRoots faults).1.documents,
          isManaged platform managedRoots row.document.path = true →
            row.document.path ∈ paths) := by
  obtain ⟨after, finished⟩ := removeRows_missing platform paths managedRoots faults indexed
    indexed.paths indexed.ids (List.Subset.refl _) (List.Subset.refl _)
  refine ⟨after, ?_⟩
  intro complete row member managed
  by_contra absent
  have found := (getDocument_eq_some_iff after.indexed.paths).mpr ⟨row, member, rfl, rfl⟩
  rcases after.entirely row.document.path with same | ⟨-, -, none⟩
  · rw [entryOf, entryOf, found, Option.map_some] at same
    obtain ⟨document, before, -⟩ := Option.map_eq_some_iff.mp same.symm
    obtain ⟨source, inside, rfl, here⟩ := (getDocument_eq_some_iff indexed.paths).mp before
    have gone := finished complete source inside (here ▸ managed) (here ▸ absent)
    rw [here, entryOf, found] at gone
    cases gone
  · rw [entryOf, found] at none
    cases none

theorem Indexed.viewOf_eq (indexed : Indexed digest contents db) (path : String) :
    db.viewOf path = (db.entryOf path).map fun entry => (entry.1, entry.2, entry.2.map ftsRow) := by
  rw [viewOf]
  cases found : db.getDocument path with
  | none => rw [entryOf, found, Option.map_none, Option.map_none, Option.map_none]
  | some document =>
    have rows : db.fts.filter (fun row =>
        row.id ∈ ((db.chunksOf document.id).map ChunkRow.chunk).map RecodeMemoryChunk.id) =
          (db.chunksOf document.id).map fun row => ftsRow row.chunk := by
      rw [indexed.mirrored, filter_map]
      congr 1
      apply filter_congr
      intro row member
      rw [map_map]
      exact decide_eq_decide.mpr (indexed.mem_chunksOf_iff member)
    rw [entryOf, found, Option.map_some, Option.map_some, Option.map_some, rows, map_map]
    rfl

/-- What a sync does to the index. -/
structure Synced (digest : Digest) (contents : Set String) (platform : Platform)
    (db : Database) (sync : Sync) (after : Database) (result : Except String SyncCounts) :
    Prop where
  indexed : Indexed digest contents after
  entirely : ∀ path, after.entryOf path = db.entryOf path ∨
    (∃ file ∈ sync.files, file.found.path = path ∧ Current digest after file) ∨
      isManaged platform sync.managedRoots path = true ∧
        path ∉ sync.files.map (fun file => file.found.path) ∧ after.entryOf path = none
  finished : ∀ counts, result = .ok counts → (∀ file ∈ sync.files, Current digest after file) ∧
      ∀ row ∈ after.documents, isManaged platform sync.managedRoots row.document.path = true →
          row.document.path ∈ sync.files.map fun file => file.found.path

theorem performSync_synced {sync : Sync} (injective : Set.InjOn digest.sha256 contents)
    (indexed : Indexed digest contents db) (admitted : Admitted digest contents db sync) :
    Synced digest contents platform db sync (performSync digest platform db sync).1
      (performSync digest platform db sync).2 := by
  have files := indexFiles_indexed {} injective indexed admitted.apart admitted.known
    admitted.keepsScope
  rw [performSync]
  cases called : indexFiles digest sync.files {} db with
  | mk middle result =>
    rw [called] at files
    cases result with
    | error error =>
      refine ⟨files.indexed, ?_, fun _ finished => nomatch finished⟩
      intro path
      rcases files.entirely path with same | read
      · exact Or.inl same
      · exact Or.inr (Or.inl read)
    | ok counts =>
      dsimp only
      have missing := removeMissing_missing platform
        (sync.files.map fun file => file.found.path) sync.managedRoots sync.removalFaults
        files.indexed
      cases removal : middle.removeMissing platform
          (sync.files.map fun file => file.found.path) sync.managedRoots
            sync.removalFaults with
      | mk after error =>
        rw [removal] at missing
        obtain ⟨removed, complete⟩ := missing
        have stays : ∀ file ∈ sync.files, Current digest after file := by
          intro file member
          rcases removed.entirely file.found.path with same | ⟨-, absent, -⟩
          · exact (files.finished counts rfl file member).congr same
          · exact absurd (mem_map.mpr ⟨file, member, rfl⟩) absent
        have entirely (path : String) : after.entryOf path = db.entryOf path ∨
            (∃ file ∈ sync.files, file.found.path = path ∧ Current digest after file) ∨
              isManaged platform sync.managedRoots path = true ∧
                path ∉ sync.files.map (fun file => file.found.path) ∧
                  after.entryOf path = none := by
          rcases files.entirely path with same | ⟨file, member, here, -⟩
          · rcases removed.entirely path with same' | gone
            · exact Or.inl (same'.trans same)
            · exact Or.inr (Or.inr gone)
          · exact Or.inr (Or.inl ⟨file, member, here, stays file member⟩)
        cases error with
        | some error =>
          exact ⟨removed.indexed, entirely, fun _ finished => nomatch finished⟩
        | none =>
          exact ⟨removed.indexed, entirely, fun _ _ => ⟨stays, complete rfl⟩⟩

/-- Every database reached by admitted syncs has tables that agree. -/
theorem Reached.indexed {platform : Platform} (injective : Set.InjOn digest.sha256 contents)
    (reached : Reached digest platform (Admitted digest contents) db) :
    Indexed digest contents db := by
  induction reached with
  | empty foreignKeys => exact Indexed.empty foreignKeys
  | sync _ admitted ih => exact (performSync_synced platform injective ih admitted).indexed

theorem Synced.mirrors {platform : Platform} {sync : Sync} {result : Except String SyncCounts}
    {counts : SyncCounts} (synced : Synced digest contents platform db sync after result)
    (finished : result = .ok counts) : Mirrors digest platform sync after := by
  have indexed := synced.indexed
  obtain ⟨current, listed⟩ := synced.finished counts finished
  refine ⟨?_, ?_, ?_, ?_, indexed.owned⟩
  · intro file member
    obtain ⟨content, mtimeMs, read, entry⟩ := current file member
    obtain ⟨document, found, same⟩ := Option.map_eq_some_iff.mp entry
    obtain ⟨row, inside, rfl, here⟩ := (getDocument_eq_some_iff indexed.paths).mp found
    obtain ⟨documents, chunks⟩ := Prod.mk.inj same
    refine ⟨content, mtimeMs, read, row, inside, documents, chunks, ?_⟩
    intro other member path
    exact inj_on_of_nodup_map indexed.paths member inside (path.trans here.symm)
  · intro row member managed
    obtain ⟨file, member, path⟩ := mem_map.mp (listed row member managed)
    exact ⟨file, member, path⟩
  · intro row member
    rw [indexed.mirrored] at member
    obtain ⟨chunk, inside, rfl⟩ := mem_map.mp member
    refine ⟨chunk, ⟨inside, rfl⟩, ?_⟩
    rintro other ⟨member, same⟩
    exact inj_on_of_nodup_map indexed.distinct member inside (congrArg FtsRow.id same)
  · intro chunk member
    have rows : after.fts.Nodup := by
      apply List.Nodup.of_map FtsRow.id
      rw [indexed.mirrored, map_map]
      exact indexed.distinct
    apply count_eq_one_of_mem rows
    rw [indexed.mirrored]
    exact mem_map.mpr ⟨chunk, member, rfl⟩

theorem Synced.entirelySynced {platform : Platform} {sync : Sync}
    {result : Except String SyncCounts} (indexed : Indexed digest contents db)
    (synced : Synced digest contents platform db sync after result) (path : String) :
    EntirelySynced digest platform db sync after path := by
  rw [EntirelySynced, indexed.viewOf_eq, synced.indexed.viewOf_eq]
  rcases synced.entirely path with same | ⟨file, member, here, current⟩ | ⟨managed, absent, none⟩
  · exact Or.inl (by rw [same])
  · obtain ⟨content, mtimeMs, read, entry⟩ := current
    refine Or.inr (Or.inl ⟨file, member, here, content, mtimeMs, read, ?_⟩)
    rw [← here, entry, Option.map_some]
  · refine Or.inr (Or.inr ⟨managed, ?_, by rw [none, Option.map_none]⟩)
    intro file member here
    exact absent (mem_map.mpr ⟨file, member, here⟩)

/-- In every run whose syncs notice the files that change their scope, a sync that finishes
leaves a mirror of the files, and every sync leaves each path entirely old or entirely
new. -/
theorem sync_mirrors {platform : Platform} {sync : Sync}
    (injective : Set.InjOn digest.sha256 contents)
    (reached : Reached digest platform (Admitted digest contents) db)
    (admitted : Admitted digest contents db sync) :
    (∀ counts, (performSync digest platform db sync).2 = .ok counts →
        Mirrors digest platform sync (performSync digest platform db sync).1) ∧
      ∀ path, EntirelySynced digest platform db sync (performSync digest platform db sync).1
        path := by
  have indexed := reached.indexed injective
  have synced := performSync_synced platform injective indexed admitted
  exact ⟨fun _ finished => synced.mirrors finished, synced.entirelySynced indexed⟩

/-- The digests of the texts that the runs below ask for. -/
def knownDigest : Digest where
  sha256 text :=
    if text = "entry-v2\x00" then
      "017630ddd8ce80abcdf7ff7c4c68a413a830ba25ebb5bcb48174fd5ed536dd3a"
    else if text = "entry-v2\x00- x" then
      "010e89d31b5e3e4f93e30f7bc1ed697c5e3a86b60b4b072171b3b56b1fd919a1"
    else if text = "global:/a/m.md" then
      "ebc1a5e33c258304b7c5cac5cb28f28be818fa6c200cd07bbf10947709de0954"
    else if text = "project:/a/m.md" then
      "8b98726a1f2553d42633ba9902baa9d5f01e7ce728f10f9093030627ca838449"
    else if text = "ebc1a5e33c258304b7c5cac5:1:- x" then
      "8f7e5441ed2329514d270f6a8f80a0d64860ae507ebfb09cfed099de8f5bfbe0"
    else if text = "8b98726a1f2553d42633ba99:1:- x" then
      "f1a91d9fde7300285cf8e8829eab864f8d1f23c1d4456d8bae4ef59431fe000b"
    else ""

def posix : Platform := { win32 := false, toLowerCase := String.toLower }

def knownContents : Set String := {contentText "", contentText "- x"}

def globalSync (content : String) : Sync where
  globalRoot := "/a"
  projectRoot := "/b"
  includeProject := true
  globalFiles := [{ path := "/a/m.md", read := .ok (content, 0), now := 0, fault := none }]
  projectFiles := []
  removalFaults _ := none

def exchangedSync (content : String) : Sync where
  globalRoot := "/b"
  projectRoot := "/a"
  includeProject := true
  globalFiles := []
  projectFiles := [{ path := "/a/m.md", read := .ok (content, 0), now := 1, fault := none }]
  removalFaults _ := none

theorem knownDigest_injOn : Set.InjOn knownDigest.sha256 knownContents := by
  rintro one (rfl | rfl) other (rfl | rfl) same
  · rfl
  · exact absurd same (by decide +kernel)
  · exact absurd same (by decide +kernel)
  · rfl

theorem globalSync_listed {content : String} {contents : Set String}
    (known : contentText content ∈ contents) : Listed contents (globalSync content) where
  apart := nodup_singleton _
  known file member content mtimeMs read := by
    obtain rfl := mem_singleton.mp member
    cases read
    exact known

theorem exchangedSync_listed {content : String} (known : contentText content ∈ knownContents) :
    Listed knownContents (exchangedSync content) where
  apart := nodup_singleton _
  known file member content mtimeMs read := by
    obtain rfl := mem_singleton.mp member
    cases read
    exact known

/-- The file is empty at first, and has an entry once the roots are exchanged. -/
theorem sync_mirrors_exchanged :
    Mirrors knownDigest posix (exchangedSync "- x")
      (performSync knownDigest posix
        (performSync knownDigest posix { foreignKeys := false } (globalSync "")).1
          (exchangedSync "- x")).1 := by
  have first : Admitted knownDigest knownContents { foreignKeys := false } (globalSync "") :=
    { toListed := globalSync_listed (Or.inl rfl)
      keepsScope := fun _ _ _ _ _ _ _ entry => nomatch entry }
  have second : Admitted knownDigest knownContents
      (performSync knownDigest posix { foreignKeys := false } (globalSync "")).1
        (exchangedSync "- x") := by
    refine { toListed := exchangedSync_listed (Or.inr rfl), keepsScope := ?_ }
    intro file member content mtimeMs read previous chunks entry _
    obtain rfl := mem_singleton.mp member
    cases read
    have stored : (performSync knownDigest posix { foreignKeys := false }
        (globalSync "")).1.entryOf "/a/m.md" = some (documentOf knownDigest
            ⟨.global, { path := "/a/m.md", read := .ok ("", 0), now := 0, fault := none }⟩ "" 0,
              []) := by decide +kernel
    cases stored.symm.trans entry
    exact ⟨by decide +kernel, Or.inr rfl⟩
  exact (sync_mirrors knownDigest_injOn (.sync (.empty false) first) second).1
    { indexed := 1 } (by decide +kernel)

/-- A file that is found under the other scope as it was is taken for unchanged: its
document keeps the scope of the first listing. -/
theorem not_sync_mirrors :
    ¬ ∀ (digest : Digest) (contents : Set String) (platform : Platform) (db : Database)
        (sync : Sync), Set.InjOn digest.sha256 contents →
      Reached digest platform (fun _ sync => Listed contents sync) db → Listed contents sync →
        ∀ counts, (performSync digest platform db sync).2 = .ok counts →
          Mirrors digest platform sync (performSync digest platform db sync).1 := by
  intro claim
  have mirrors := claim knownDigest knownContents posix
    (performSync knownDigest posix { foreignKeys := true } (globalSync "- x")).1
    (exchangedSync "- x") knownDigest_injOn
    (.sync (.empty true) (globalSync_listed (Or.inr rfl))) (exchangedSync_listed (Or.inr rfl))
    { unchanged := 1 } (by decide +kernel)
  obtain ⟨content, mtimeMs, read, document, inside, same, -⟩ :=
    mirrors.document _ (mem_singleton_self _)
  have stale : ∀ row ∈ (performSync knownDigest posix
      (performSync knownDigest posix { foreignKeys := true } (globalSync "- x")).1
        (exchangedSync "- x")).1.documents, row.document.scope = .global := by decide +kernel
  have scope := stale document inside
  rw [same] at scope
  cases scope

end Recode.MemoryIndex

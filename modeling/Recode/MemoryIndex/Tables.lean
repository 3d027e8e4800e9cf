import Mathlib.Data.List.Nodup
import Recode.MemoryIndex.Manager

/-! # The three tables agree

What the statements of the store do to tables that agree: each document has the
chunks of one content, each chunk has a document, and the search has one row for
each chunk. -/

namespace Recode.MemoryIndex

open Database List

variable {digest : Digest} {contents : Set String} {db after : Database}

def Database.entryOf (db : Database) (path : String) :
    Option (RecodeMemoryDocument × List RecodeMemoryChunk) :=
  (db.getDocument path).map fun document =>
    (document, (db.chunksOf document.id).map ChunkRow.chunk)

/-- The tables agree, and every document is indexed with some content. -/
structure Indexed (digest : Digest) (contents : Set String) (db : Database) : Prop where
  paths : (db.documents.map fun row => row.document.path).Nodup
  ids : (db.documents.map fun row => row.document.id).Nodup
  named : ∀ row ∈ db.documents,
    row.document.id = recodeMemoryDocumentId digest row.document.scope row.document.path
  stored : ∀ row ∈ db.documents, ∃ content, contentText content ∈ contents ∧
    row.document.hash = contentHash digest content ∧
      (db.chunksOf row.document.id).map ChunkRow.chunk =
        chunkRecodeMemory digest row.document.id row.document.scope row.document.path content
  owned : ∀ row ∈ db.chunks, ∃ document ∈ db.documents, document.document.id = row.chunk.documentId
  distinct : (db.chunks.map fun row => row.chunk.id).Nodup
  mirrored : db.fts = db.chunks.map fun row => ftsRow row.chunk

theorem Indexed.empty (foreignKeys : Bool) :
    Indexed digest contents { foreignKeys := foreignKeys } where
  paths := nodup_nil
  ids := nodup_nil
  named _ member := absurd member not_mem_nil
  stored _ member := absurd member not_mem_nil
  owned _ member := absurd member not_mem_nil
  distinct := nodup_nil
  mirrored := rfl

variable {document : RecodeMemoryDocument} {chunks : List RecodeMemoryChunk} {now : Int}
  {path : String}

theorem getDocument_eq_some_iff (paths : (db.documents.map fun row => row.document.path).Nodup) :
    db.getDocument path = some document ↔
      ∃ row ∈ db.documents, row.document = document ∧ document.path = path := by
  rw [getDocument, Option.map_eq_some_iff]
  constructor
  · rintro ⟨row, found, rfl⟩
    have here := find?_some found
    exact ⟨row, mem_of_find?_eq_some found, rfl, by simpa using here⟩
  · rintro ⟨row, member, rfl, rfl⟩
    refine ⟨row, ?_, rfl⟩
    cases found : db.documents.find? fun other => other.document.path = row.document.path with
    | none =>
      have absent := find?_eq_none.mp found row member
      simp at absent
    | some other =>
      have here := find?_some found
      rw [inj_on_of_nodup_map paths (mem_of_find?_eq_some found) member (by simpa using here)]

theorem getDocument_eq_none_iff :
    db.getDocument path = none ↔ ∀ row ∈ db.documents, row.document.path ≠ path := by
  rw [getDocument, Option.map_eq_none_iff, find?_eq_none]
  simp

/-- A chunk row goes with the chunks of its document. -/
theorem foldl_deleteFts (rows : List ChunkRow) (db : Database) :
    rows.foldl (fun db row => db.deleteFts row.chunk.id) db =
      { db with fts := db.fts.filter fun row => row.id ∉ rows.map fun row => row.chunk.id } := by
  induction rows generalizing db with
  | nil => simp
  | cons row rows ih =>
    rw [foldl_cons, ih, deleteFts]
    simp only [filter_filter, map_cons, mem_cons, not_or, Bool.decide_and,
      Bool.and_comm, decide_not, ne_eq]

theorem Indexed.mem_chunksOf_iff (indexed : Indexed digest contents db) {documentId : String}
    {row : ChunkRow} (member : row ∈ db.chunks) :
    row.chunk.id ∈ (db.chunksOf documentId).map (fun row => row.chunk.id) ↔
      row.chunk.documentId = documentId := by
  rw [mem_map]
  constructor
  · rintro ⟨other, inside, same⟩
    obtain ⟨member', owner⟩ := mem_filter.mp inside
    rw [inj_on_of_nodup_map indexed.distinct member' member same] at owner
    exact of_decide_eq_true owner
  · intro owner
    exact ⟨row, mem_filter.mpr ⟨member, decide_eq_true owner⟩, rfl⟩

/-- The chunks of a document go together with their rows of the search. -/
theorem Indexed.deleteChunksOf_eq (indexed : Indexed digest contents db) (documentId : String) :
    db.deleteChunksOf documentId =
      { db with
        chunks := db.chunks.filter fun row => row.chunk.documentId ≠ documentId
        fts := (db.chunks.filter fun row => row.chunk.documentId ≠ documentId).map
          fun row => ftsRow row.chunk } := by
  have kept : db.fts.filter (fun row =>
      row.id ∉ (db.chunksOf documentId).map fun row => row.chunk.id) =
        (db.chunks.filter fun row => row.chunk.documentId ≠ documentId).map
          fun row => ftsRow row.chunk := by
    rw [indexed.mirrored, filter_map]
    congr 1
    apply filter_congr
    intro row member
    exact decide_eq_decide.mpr (not_congr (indexed.mem_chunksOf_iff member))
  rw [deleteChunksOf, foldl_deleteFts, kept]
  rfl

def chunkRows (now : Int) (chunks : List RecodeMemoryChunk) : List ChunkRow :=
  chunks.map fun chunk => { chunk := chunk, updatedAt := now }

theorem insertChunks_ok (distinct : (db.chunks.map fun row => row.chunk.id).Nodup)
    (inserted : db.insertChunks now chunks = .ok after) :
    after = { db with
        chunks := db.chunks ++ chunkRows now chunks
        fts := db.fts ++ chunks.map ftsRow } ∧
      (after.chunks.map fun row => row.chunk.id).Nodup := by
  induction chunks generalizing db with
  | nil =>
    cases inserted
    simpa [chunkRows] using distinct
  | cons chunk chunks ih =>
    rw [insertChunks, insertChunk] at inserted
    split at inserted
    · rename_i db' done
      split at done
      · cases done
      rename_i fresh
      split at done
      · cases done
      cases done
      have distinct' : ((db.chunks ++ chunkRows now [chunk]).map
          fun row => row.chunk.id).Nodup := by
        rw [map_append, nodup_append]
        refine ⟨distinct, nodup_singleton _, ?_⟩
        intro id member other single same
        obtain ⟨row, stored, rfl⟩ := mem_map.mp member
        rw [chunkRows, map_singleton, map_singleton, mem_singleton] at single
        exact fresh (any_eq_true.mpr ⟨row, stored, by simp [same, single]⟩)
      obtain ⟨result, unique⟩ := ih distinct' inserted
      refine ⟨?_, unique⟩
      rw [result]
      simp [insertFts, chunkRows]
    · cases inserted

theorem chunksOf_append_other {rows : List ChunkRow} {documentId : String}
    (others : ∀ row ∈ rows, row.chunk.documentId ≠ documentId) :
    rows.filter (fun row => row.chunk.documentId = documentId) = [] := by
  rw [filter_eq_nil_iff]
  intro row member
  simpa using others row member

def Database.upserted (db : Database) (row : DocumentRow) : List DocumentRow :=
  match db.getDocument row.document.path with
  | some _ => db.documents.map fun other =>
    if other.document.path = row.document.path then row else other
  | none => db.documents ++ [row]

theorem upsertDocument_ok {row : DocumentRow} (done : db.upsertDocument row = .ok after) :
    after = { db with documents := db.upserted row } ∧
      (∀ other ∈ db.documents, other.document.path ≠ row.document.path →
        other.document.id ≠ row.document.id) ∧
      ∀ old, db.getDocument row.document.path = some old → old.id = row.document.id ∨
        db.foreignKeys = false ∨ db.chunksOf old.id = [] := by
  rw [upsertDocument] at done
  cases found : db.getDocument row.document.path with
  | some old =>
    rw [found] at done
    dsimp only at done
    split at done
    · cases done
    rename_i alone
    split at done
    · cases done
    rename_i linked
    cases done
    refine ⟨by rw [upserted, found], ?_, ?_⟩
    · intro other member different same
      exact alone (any_eq_true.mpr ⟨other, member, by simp [different, same]⟩)
    · rintro _ ⟨⟩
      by_contra none
      rw [not_or, not_or] at none
      obtain ⟨changed, enforced, chunks⟩ := none
      rw [Bool.not_eq_false] at enforced
      exact linked (by simp [changed, enforced, chunks])
  | none =>
    rw [found] at done
    dsimp only at done
    split at done
    · cases done
    rename_i alone
    cases done
    refine ⟨by rw [upserted, found], ?_, fun old same => nomatch same⟩
    intro other member _ same
    exact alone (any_eq_true.mpr ⟨other, member, by simp [same]⟩)

/-- What replacing a document does, when its transaction commits. -/
structure Replaced (db : Database) (document : RecodeMemoryDocument)
    (chunks : List RecodeMemoryChunk) (now : Int) (after : Database) : Prop where
  /-- No other document has its id. -/
  alone : ∀ row ∈ db.documents, row.document.path ≠ document.path → row.document.id ≠ document.id
  /-- A document that gets another id has no chunks, when links are enforced. -/
  linked : ∀ old, db.getDocument document.path = some old → old.id = document.id ∨
    db.foreignKeys = false ∨ db.chunksOf old.id = []
  documents : after.documents = db.upserted ⟨document, now⟩
  chunks : after.chunks =
    db.chunks.filter (fun row => row.chunk.documentId ≠ document.id) ++ chunkRows now chunks
  fts : after.fts = after.chunks.map fun row => ftsRow row.chunk
  distinct : (after.chunks.map fun row => row.chunk.id).Nodup
  foreignKeys : after.foreignKeys = db.foreignKeys

theorem Indexed.replaced (indexed : Indexed digest contents db)
    (done : db.replaceStatements document chunks now = .ok after) :
    Replaced db document chunks now after := by
  rw [replaceStatements, indexed.deleteChunksOf_eq] at done
  split at done
  · rename_i middle upserted
    obtain ⟨rfl, alone, linked⟩ := upsertDocument_ok upserted
    have kept : ((db.chunks.filter fun row => row.chunk.documentId ≠ document.id).map
        fun row => row.chunk.id).Nodup :=
      indexed.distinct.sublist (filter_sublist.map _)
    obtain ⟨rfl, distinct⟩ := insertChunks_ok kept done
    refine ⟨alone, ?_, rfl, rfl, ?_, distinct, rfl⟩
    · intro old found
      rcases linked old found with same | free | none
      · exact Or.inl same
      · exact Or.inr (Or.inl free)
      by_cases same : old.id = document.id
      · exact Or.inl same
      -- The chunks of another id are not touched by the deletion.
      refine Or.inr (Or.inr ?_)
      rw [← none, chunksOf, chunksOf, filter_filter]
      apply filter_congr
      intro row _
      by_cases owner : row.chunk.documentId = old.id
      · simp [owner, same]
      · simp [owner]
    · simp [chunkRows, Function.comp_def]
  · cases done

theorem mem_upserted {row other : DocumentRow} :
    other ∈ db.upserted row ↔
      other = row ∨ other ∈ db.documents ∧ other.document.path ≠ row.document.path := by
  rw [upserted]
  cases found : db.getDocument row.document.path with
  | some old =>
    rw [getDocument, Option.map_eq_some_iff] at found
    obtain ⟨before, found, -⟩ := found
    have here := find?_some found
    rw [decide_eq_true_iff] at here
    rw [mem_map]
    constructor
    · rintro ⟨source, member, rfl⟩
      by_cases same : source.document.path = row.document.path
      · exact Or.inl (if_pos same)
      · rw [if_neg same]
        exact Or.inr ⟨member, same⟩
    · rintro (rfl | ⟨member, different⟩)
      · exact ⟨before, mem_of_find?_eq_some found, if_pos here⟩
      · exact ⟨other, member, if_neg different⟩
  | none =>
    have absent := getDocument_eq_none_iff.mp found
    rw [mem_append, mem_singleton, or_comm]
    exact or_congr_right ⟨fun member => ⟨member, absent other member⟩, And.left⟩

/-- A document that is inserted or updated leaves texts of the documents distinct, when
its own text is the text of no document with another path. -/
theorem upserted_nodup {row : DocumentRow} {text : DocumentRow → String}
    (paths : (db.documents.map fun other => other.document.path).Nodup)
    (texts : (db.documents.map text).Nodup)
    (alone : ∀ other ∈ db.documents, other.document.path ≠ row.document.path →
      text other ≠ text row) :
    ((db.upserted row).map text).Nodup := by
  rw [upserted]
  cases found : db.getDocument row.document.path with
  | some old =>
    dsimp only
    rw [map_map]
    apply texts.of_map.map_on
    intro one oneMember other otherMember same
    simp only [Function.comp_apply] at same
    by_cases onePath : one.document.path = row.document.path
    · by_cases otherPath : other.document.path = row.document.path
      · exact inj_on_of_nodup_map paths oneMember otherMember
          (onePath.trans otherPath.symm)
      · rw [if_pos onePath, if_neg otherPath] at same
        exact absurd same.symm (alone other otherMember otherPath)
    · by_cases otherPath : other.document.path = row.document.path
      · rw [if_neg onePath, if_pos otherPath] at same
        exact absurd same (alone one oneMember onePath)
      · rw [if_neg onePath, if_neg otherPath] at same
        exact inj_on_of_nodup_map texts oneMember otherMember same
  | none =>
    have absent := getDocument_eq_none_iff.mp found
    dsimp only
    rw [map_append, nodup_append]
    refine ⟨texts, nodup_singleton _, ?_⟩
    intro value member other single same
    obtain ⟨stored, inside, rfl⟩ := mem_map.mp member
    rw [map_singleton, mem_singleton] at single
    exact alone stored inside (absent stored inside) (same.trans single)

theorem entryOf_congr (paths : (db.documents.map fun row => row.document.path).Nodup)
    (paths' : (after.documents.map fun row => row.document.path).Nodup)
    (documents : ∀ row : DocumentRow, row.document.path = path →
      (row ∈ after.documents ↔ row ∈ db.documents))
    (chunks : ∀ row ∈ db.documents, row.document.path = path →
      after.chunksOf row.document.id = db.chunksOf row.document.id) :
    after.entryOf path = db.entryOf path := by
  have same : after.getDocument path = db.getDocument path := by
    ext document
    rw [getDocument_eq_some_iff paths', getDocument_eq_some_iff paths]
    constructor
    · rintro ⟨row, member, rfl, here⟩
      exact ⟨row, (documents row here).mp member, rfl, here⟩
    · rintro ⟨row, member, rfl, here⟩
      exact ⟨row, (documents row here).mpr member, rfl, here⟩
  rw [entryOf, entryOf, same]
  cases found : db.getDocument path with
  | none => rfl
  | some document =>
    obtain ⟨row, member, rfl, here⟩ := (getDocument_eq_some_iff paths).mp found
    rw [Option.map_some, Option.map_some, chunks row member here]

/-- The chunks of the new document are the inserted ones, and other documents keep
theirs. -/
theorem Replaced.chunksOf (replaced : Replaced db document chunks now after)
    (owned : ∀ chunk ∈ chunks, chunk.documentId = document.id) :
    after.chunksOf document.id = chunkRows now chunks ∧
      ∀ id, id ≠ document.id → after.chunksOf id = db.chunksOf id := by
  have inserted : ∀ row ∈ chunkRows now chunks, row.chunk.documentId = document.id := by
    intro row member
    obtain ⟨chunk, inside, rfl⟩ := mem_map.mp member
    exact owned chunk inside
  constructor
  · rw [Database.chunksOf, replaced.chunks, filter_append, filter_filter]
    have none : db.chunks.filter (fun row => decide (row.chunk.documentId = document.id) &&
        decide (row.chunk.documentId ≠ document.id)) = [] := by
      rw [filter_eq_nil_iff]
      intro row _
      simp
    rw [none, nil_append, filter_eq_self]
    intro row member
    exact decide_eq_true (inserted row member)
  · intro id different
    rw [Database.chunksOf, replaced.chunks, filter_append, filter_filter,
      chunksOf_append_other fun row member same =>
        different (same.symm.trans (inserted row member)), append_nil, Database.chunksOf]
    apply filter_congr
    intro row _
    by_cases owner : row.chunk.documentId = id
    · simp [owner, different]
    · simp [owner]

/-- A replaced document leaves tables that agree, unless its path had chunks under another
id. -/
theorem Replaced.indexed {content : String} (replaced : Replaced db document
      (chunkRecodeMemory digest document.id document.scope document.path content) now after)
    (indexed : Indexed digest contents db)
    (named : document.id = recodeMemoryDocumentId digest document.scope document.path)
    (known : contentText content ∈ contents) (hash : document.hash = contentHash digest content)
    (bare : ∀ old, db.getDocument document.path = some old → old.id = document.id ∨
      db.chunksOf old.id = []) :
    Indexed digest contents after ∧ after.entryOf document.path = some (document,
        chunkRecodeMemory digest document.id document.scope document.path content) ∧
      ∀ path, path ≠ document.path → after.entryOf path = db.entryOf path := by
  obtain ⟨own, others⟩ := replaced.chunksOf fun _ => chunk_documentId
  have texts : (after.chunksOf document.id).map ChunkRow.chunk =
      chunkRecodeMemory digest document.id document.scope document.path content := by
    rw [own, chunkRows, map_map, Function.comp_def, map_id']
  have members (row : DocumentRow) : row ∈ after.documents ↔ row = ⟨document, now⟩ ∨
      row ∈ db.documents ∧ row.document.path ≠ document.path := by
    rw [replaced.documents]
    exact mem_upserted
  have result : Indexed digest contents after := by
    refine ⟨?_, ?_, ?_, ?_, ?_, replaced.distinct, replaced.fts⟩
    · rw [replaced.documents]
      exact upserted_nodup indexed.paths indexed.paths fun _ _ different => different
    · rw [replaced.documents]
      exact upserted_nodup indexed.paths indexed.ids replaced.alone
    · intro row member
      rcases (members row).mp member with rfl | ⟨member, -⟩
      · exact named
      · exact indexed.named row member
    · intro row member
      rcases (members row).mp member with rfl | ⟨member, different⟩
      · exact ⟨content, known, hash, texts⟩
      · rw [others _ (replaced.alone row member different)]
        exact indexed.stored row member
    · intro row member
      rw [replaced.chunks, mem_append] at member
      rcases member with member | member
      · obtain ⟨member, other⟩ := mem_filter.mp member
        rw [decide_eq_true_iff] at other
        obtain ⟨owner, inside, same⟩ := indexed.owned row member
        by_cases path : owner.document.path = document.path
        · have found := (getDocument_eq_some_iff indexed.paths).mpr ⟨owner, inside, rfl, path⟩
          rcases bare _ found with same' | none
          · exact absurd (same.symm.trans same') other
          · have chunk : row ∈ db.chunksOf owner.document.id :=
              mem_filter.mpr ⟨member, decide_eq_true same.symm⟩
            rw [none] at chunk
            exact absurd chunk not_mem_nil
        · exact ⟨owner, (members owner).mpr (Or.inr ⟨inside, path⟩), same⟩
      · obtain ⟨chunk, inside, rfl⟩ := mem_map.mp member
        exact ⟨_, (members _).mpr (Or.inl rfl), (chunk_documentId inside).symm⟩
  refine ⟨result, ?_, ?_⟩
  · have found : after.getDocument document.path = some document :=
      (getDocument_eq_some_iff result.paths).mpr
        ⟨_, (members _).mpr (Or.inl rfl), rfl, rfl⟩
    rw [entryOf, found, Option.map_some, texts]
  · intro path different
    apply entryOf_congr indexed.paths result.paths
    · intro row here
      rw [members]
      constructor
      · rintro (rfl | ⟨member, -⟩)
        · exact absurd here (Ne.symm different)
        · exact member
      · exact fun member => Or.inr ⟨member, here.trans_ne different⟩
    · intro row member here
      exact others _ (replaced.alone row member (here.trans_ne different))

theorem Indexed.removed (indexed : Indexed digest contents db) (id : String) :
    Indexed digest contents ((db.deleteChunksOf id).deleteDocument id) ∧
      ∀ path, ((db.deleteChunksOf id).deleteDocument id).entryOf path =
        if ((db.getDocument path).map RecodeMemoryDocument.id) = some id then none
        else db.entryOf path := by
  rw [indexed.deleteChunksOf_eq, deleteDocument]
  have others (other : String) (different : other ≠ id) :
      (db.chunks.filter fun row => row.chunk.documentId ≠ id).filter
        (fun row => row.chunk.documentId = other) = db.chunksOf other := by
    rw [filter_filter, chunksOf]
    apply filter_congr
    intro row _
    by_cases owner : row.chunk.documentId = other
    · simp [owner, different]
    · simp [owner]
  have kept {row : DocumentRow} :
      row ∈ db.documents.filter (fun row => row.document.id ≠ id) ↔
        row ∈ db.documents ∧ row.document.id ≠ id := by
    rw [mem_filter, decide_eq_true_iff]
  have result : Indexed digest contents
      { db with
        documents := db.documents.filter fun row => row.document.id ≠ id
        chunks := db.chunks.filter fun row => row.chunk.documentId ≠ id
        fts := (db.chunks.filter fun row => row.chunk.documentId ≠ id).map
          fun row => ftsRow row.chunk } := by
    refine ⟨indexed.paths.sublist (filter_sublist.map _),
      indexed.ids.sublist (filter_sublist.map _), ?_, ?_, ?_,
      indexed.distinct.sublist (filter_sublist.map _), rfl⟩
    · exact fun row member => indexed.named row (kept.mp member).1
    · intro row member
      obtain ⟨member, different⟩ := kept.mp member
      rw [chunksOf, others _ different]
      exact indexed.stored row member
    · intro row member
      obtain ⟨member, different⟩ := mem_filter.mp member
      obtain ⟨owner, inside, same⟩ := indexed.owned row member
      exact ⟨owner, kept.mpr ⟨inside, same.trans_ne (of_decide_eq_true different)⟩, same⟩
  refine ⟨result, ?_⟩
  intro path
  split
  · rename_i removed
    rw [entryOf, Option.map_eq_none_iff, getDocument_eq_none_iff]
    intro row member here
    obtain ⟨member, different⟩ := kept.mp member
    rw [(getDocument_eq_some_iff indexed.paths).mpr ⟨row, member, rfl, here⟩] at removed
    exact different (Option.some.inj removed)
  · rename_i stays
    have different : ∀ row ∈ db.documents, row.document.path = path → row.document.id ≠ id := by
      intro row member here same
      rw [(getDocument_eq_some_iff indexed.paths).mpr ⟨row, member, rfl, here⟩] at stays
      exact stays (congrArg some same)
    apply entryOf_congr indexed.paths result.paths
    · intro row here
      exact kept.trans ⟨And.left, fun member => ⟨member, different row member here⟩⟩
    · intro row member here
      exact others _ (different row member here)

end Recode.MemoryIndex

import Recode.MemoryIndex.SyncGuarantees
import Mathlib.Data.List.Infix

/-! # Searching the memory index

A search takes the rows that the full-text engine finds, with their chunks. Chunks of a project
are told from those of other projects by a pattern that is made of the project's root. -/

namespace Recode.MemoryIndex

open List

/-- `LIKE`: `%` stands for any characters and `_` for one, and the case of ASCII letters does not
count. -/
def like : List Char → List Char → Bool
  | [], text => text.isEmpty
  | char :: pattern, text =>
    if char = '%' then text.tails.any (like pattern)
    else
      match text with
      | [] => false
      | other :: text => (char = '_' || char.toLower = other.toLower) && like pattern text

inductive RecodeMemoryScopeSelection
  | global
  | project
  | both

/-- What a search relies on: the letters and digits of Unicode, and the full-text engine. -/
structure SearchPlatform where
  isTermCharacter : Char → Bool
  toLowerCase : String → String
  matchesFts : String → FtsRow → Bool
  bm25 : Database → String → FtsRow → Rat

variable (platform : SearchPlatform)

def ftsQuery (query : String) : String :=
  let terms := ((platform.toLowerCase query).toList.splitOnP fun char =>
    !platform.isTermCharacter char).filter fun term => 2 ≤ term.length
  " OR ".intercalate ((terms.eraseDups.take 16).map fun term =>
    "\"" ++ String.ofList (term.flatMap fun char => if char = '"' then ['"', '"'] else [char]) ++
      "\"")

def separator (projectRoot : String) : Char :=
  if '\\' ∈ projectRoot.toList then '\\' else '/'

def projectPattern (projectRoot : String) : List Char :=
  projectRoot.toList ++ [separator projectRoot, '%']

def inScope (scope : RecodeMemoryScopeSelection) (projectRoot : String)
    (chunk : RecodeMemoryChunk) : Bool :=
  match scope with
  | .global => chunk.scope = .global
  | .project => chunk.scope = .project && like (projectPattern projectRoot) chunk.path.toList
  | .both => chunk.scope = .global ||
      chunk.scope = .project && like (projectPattern projectRoot) chunk.path.toList

/-- The rows of full-text search with their chunks. -/
def joined (db : Database) : List (FtsRow × ChunkRow) :=
  db.fts.flatMap fun row => (db.chunks.filter fun chunk => chunk.chunk.id = row.id).map (row, ·)

def eligible (db : Database) (term : String) (scope : RecodeMemoryScopeSelection)
    (projectRoot : String) : List (FtsRow × ChunkRow) :=
  (joined db).filter fun row =>
    platform.matchesFts term row.1 && inScope scope projectRoot row.2.chunk

def search (db : Database) (query : String) (scope : RecodeMemoryScopeSelection) (limit : Nat)
    (projectRoot : String) : List ChunkRow :=
  let term := ftsQuery platform query
  if term = "" then []
  else
    let ranked := (eligible platform db term scope projectRoot).mergeSort fun row other =>
      platform.bm25 db term row.1 ≤ platform.bm25 db term other.1
    (ranked.take limit).map Prod.snd

/-! ## Projects apart -/

/-- A path lies under a root. -/
def Under (projectRoot : String) (chunk : RecodeMemoryChunk) : Prop :=
  projectRoot.toList ++ [separator projectRoot] <+: chunk.path.toList

/-- A path that the pattern of a root takes for one under it, though it is not. -/
def Mistaken (projectRoot path : String) : Prop :=
  like (projectPattern projectRoot) path.toList = true ∧
    ¬ projectRoot.toList ++ [separator projectRoot] <+: path.toList

/-- Every result of a project lies under its root. -/
def Contained (db : Database) (query : String) (scope : RecodeMemoryScopeSelection)
    (projectRoot : String) : Prop :=
  ∀ limit, ∀ row ∈ search platform db query scope limit projectRoot,
    row.chunk.scope = .project → Under projectRoot row.chunk

/-- Two indexes differ in documents of other projects alone. -/
def DiffersOutside (projectRoot : String) (db changed : Database) : Prop :=
  ∀ row : FtsRow × ChunkRow, row.2.chunk.scope = .global ∨ Under projectRoot row.2.chunk →
    (row ∈ joined db ↔ row ∈ joined changed)

/-- The same chunks are found in two indexes as long as the limit leaves none out. -/
def SameFound (db changed : Database) (query : String) (scope : RecodeMemoryScopeSelection)
    (projectRoot : String) : Prop :=
  ∀ limit, (eligible platform db (ftsQuery platform query) scope projectRoot).length ≤ limit →
    (eligible platform changed (ftsQuery platform query) scope projectRoot).length ≤ limit →
    ∀ id, id ∈ (search platform db query scope limit projectRoot).map (·.chunk.id) ↔
      id ∈ (search platform changed query scope limit projectRoot).map (·.chunk.id)

/-- A chunk that a search is for: a global one, or one under the root. -/
def Own (scope : RecodeMemoryScopeSelection) (projectRoot : String) (chunk : RecodeMemoryChunk) :
    Prop :=
  (scope ≠ .project ∧ chunk.scope = .global) ∨
    (scope ≠ .global ∧ chunk.scope = .project ∧ Under projectRoot chunk)

/-- A chunk of another project whose path is mistaken. -/
def Foreign (projectRoot : String) (chunk : RecodeMemoryChunk) : Prop :=
  chunk.scope = .project ∧ Mistaken projectRoot chunk.path

/-- An identifier of a chunk of some kind that a query finds. -/
def Finds (db : Database) (query : String) (kind : RecodeMemoryChunk → Prop) (id : String) :
    Prop :=
  ∃ row ∈ joined db, platform.matchesFts (ftsQuery platform query) row.1 = true ∧
    kind row.2.chunk ∧ row.2.chunk.id = id

/-- A character that stands for itself alone in a pattern. -/
def Plain (char : Char) : Prop :=
  char ≠ '%' ∧ char ≠ '_' ∧ char.isAlpha = false

variable {platform}

theorem lower_upper : ∀ code < 128, (Char.ofNat code).isUpper = true →
    (Char.ofNat code).toLower.isAlpha = true := by decide

/-- The same letter in the other case. -/
def otherCase (char : Char) : Char := if char.isUpper then char.toLower else char.toUpper

theorem otherCase_alpha : ∀ code < 128, (Char.ofNat code).isAlpha = true →
    otherCase (Char.ofNat code) ≠ Char.ofNat code ∧
      (Char.ofNat code).toLower = (otherCase (Char.ofNat code)).toLower := by decide

theorem toNat_lt_of_isAlpha {char : Char} (letter : char.isAlpha = true) : char.toNat < 128 := by
  delta Char.isAlpha Char.isUpper Char.isLower at letter
  simp only [Bool.or_eq_true, Bool.and_eq_true, decide_eq_true_eq, UInt32.le_iff_toNat_le] at letter
  rcases letter with ⟨-, small⟩ | ⟨-, small⟩
  · exact small.trans_lt (by decide)
  · exact small.trans_lt (by decide)

theorem lower_eq_plain {char other : Char} (plain : Plain char)
    (same : char.toLower = other.toLower) : other = char := by
  have upper {char : Char} (known : char.isUpper = true) : char.toLower.isAlpha = true := by
    have small := @toNat_lt_of_isAlpha char (by delta Char.isAlpha; rw [known]; rfl)
    have lower := lower_upper char.toNat small
    rw [Char.ofNat_toNat] at lower
    exact lower known
  have low {char : Char} (known : ¬ char.isUpper = true) : char.toLower = char := by
    delta Char.isUpper at known
    rw [decide_eq_true_eq] at known
    delta Char.toLower
    rw [dif_neg known]
  have own : ¬ char.isUpper = true := fun known => by
    have letter : char.isAlpha = false := plain.2.2
    delta Char.isAlpha at letter
    rw [known] at letter
    cases letter
  by_cases known : other.isUpper = true
  · have letter := upper known
    rw [← same, low own, plain.2.2] at letter
    cases letter
  · rw [← low known, ← same, low own]

theorem prefix_of_like {root text : List Char} (plain : ∀ char ∈ root, Plain char)
    (matched : like (root ++ ['%']) text = true) : root <+: text := by
  induction root generalizing text with
  | nil => exact nil_prefix
  | cons char root ih =>
    have own := plain char mem_cons_self
    cases text with
    | nil =>
      rw [cons_append, like.eq_def] at matched
      simp [own.1] at matched
    | cons other text =>
      rw [cons_append, like, if_neg own.1] at matched
      simp only [Bool.and_eq_true, Bool.or_eq_true, decide_eq_true_eq] at matched
      obtain ⟨here, later⟩ := matched
      rw [lower_eq_plain own (here.resolve_left own.2.1)]
      exact (prefix_cons_inj char).mpr
        (ih (fun other member => plain other (mem_cons_of_mem _ member)) later)

theorem like_cons {char other : Char} {pattern text : List Char}
    (same : char = '%' ∨ char = '_' ∨ char.toLower = other.toLower)
    (matched : like pattern text = true) : like (char :: pattern) (other :: text) = true := by
  rw [like]
  split
  · exact any_eq_true.mpr ⟨text, (mem_tails _ _).mpr (suffix_cons other text), matched⟩
  · rename_i other_
    simp [same.resolve_left other_, matched]

theorem like_append (shared : List Char) {pattern text : List Char}
    (matched : like pattern text = true) : like (shared ++ pattern) (shared ++ text) = true := by
  induction shared with
  | nil => exact matched
  | cons char shared ih => exact like_cons (.inr (.inr rfl)) ih

theorem exists_mistaken {char : Char} (special : ¬ Plain char) : ∃ other, other ≠ char ∧
    (char = '%' ∨ char = '_' ∨ char.toLower = other.toLower) := by
  by_cases percent : char = '%'
  · exact ⟨'a', by rw [percent]; decide, .inl percent⟩
  by_cases underscore : char = '_'
  · exact ⟨'a', by rw [underscore]; decide, .inr (.inl underscore)⟩
  have letter : char.isAlpha = true := by
    by_contra none_
    exact special ⟨percent, underscore, Bool.eq_false_iff.mpr none_⟩
  have swapped := otherCase_alpha char.toNat (toNat_lt_of_isAlpha letter)
  rw [Char.ofNat_toNat] at swapped
  exact ⟨_, (swapped letter).1, .inr (.inr (swapped letter).2)⟩

theorem mem_search {db : Database} {query : String} {scope : RecodeMemoryScopeSelection}
    {limit : Nat} {projectRoot : String} {row : ChunkRow}
    (member : row ∈ search platform db query scope limit projectRoot) :
    ∃ fts, (fts, row) ∈ eligible platform db (ftsQuery platform query) scope projectRoot := by
  rw [search] at member
  dsimp only at member
  split at member
  · cases member
  · obtain ⟨⟨fts, _⟩, found, rfl⟩ := mem_map.mp member
    exact ⟨fts, mem_mergeSort.mp (mem_of_mem_take found)⟩

theorem search_complete {db : Database} {query : String} {scope : RecodeMemoryScopeSelection}
    {limit : Nat} {projectRoot : String} {row : FtsRow × ChunkRow}
    (present : ftsQuery platform query ≠ "")
    (all : (eligible platform db (ftsQuery platform query) scope projectRoot).length ≤ limit)
    (member : row ∈ eligible platform db (ftsQuery platform query) scope projectRoot) :
    row.2 ∈ search platform db query scope limit projectRoot := by
  rw [search]
  dsimp only
  rw [if_neg present, take_of_length_le (by rwa [length_mergeSort])]
  exact mem_map_of_mem (mem_mergeSort.mpr member)

theorem mem_ids_search {db : Database} {query : String} {scope : RecodeMemoryScopeSelection}
    {limit : Nat} {projectRoot id : String} (present : ftsQuery platform query ≠ "")
    (all : (eligible platform db (ftsQuery platform query) scope projectRoot).length ≤ limit) :
    id ∈ (search platform db query scope limit projectRoot).map (·.chunk.id) ↔
      Finds platform db query (inScope scope projectRoot · = true) id := by
  constructor
  · intro listed
    obtain ⟨row, member, rfl⟩ := mem_map.mp listed
    obtain ⟨fts, found⟩ := mem_search member
    obtain ⟨here, kept⟩ := mem_filter.mp found
    exact ⟨(fts, row), here, (Bool.and_eq_true_iff.mp kept).1,
      (Bool.and_eq_true_iff.mp kept).2, rfl⟩
  · rintro ⟨row, here, matched, kept, rfl⟩
    exact mem_map_of_mem (search_complete present all
      (mem_filter.mpr ⟨here, Bool.and_eq_true_iff.mpr ⟨matched, kept⟩⟩))

variable {scope : RecodeMemoryScopeSelection} {projectRoot : String}

/-- The pattern takes what is under the root, and what is mistaken for it. -/
theorem like_iff (chunk : RecodeMemoryChunk) :
    like (projectPattern projectRoot) chunk.path.toList = true ↔
      Under projectRoot chunk ∨ Mistaken projectRoot chunk.path := by
  by_cases under : Under projectRoot chunk
  · refine iff_of_true ?_ (.inl under)
    obtain ⟨rest, whole⟩ := under
    rw [← whole, projectPattern, show [separator projectRoot, '%'] =
        [separator projectRoot] ++ ['%']
      from rfl, ← append_assoc]
    refine like_append _ ?_
    rw [like.eq_def]
    exact any_eq_true.mpr ⟨[], (mem_tails _ _).mpr nil_suffix, rfl⟩
  · exact ⟨fun matched => .inr ⟨matched, under⟩, fun found => (found.resolve_left under).1⟩

theorem inScope_iff (chunk : RecodeMemoryChunk) : inScope scope projectRoot chunk = true ↔
    Own scope projectRoot chunk ∨ scope ≠ .global ∧ Foreign projectRoot chunk := by
  cases scope <;> simp only [inScope, Own, Foreign, Bool.or_eq_true, Bool.and_eq_true,
    decide_eq_true_eq, like_iff, ne_eq, reduceCtorEq, not_true_eq_false, not_false_eq_true,
    true_and, false_and, or_false, false_or] <;> tauto

theorem Own.outside {chunk : RecodeMemoryChunk} (own : Own scope projectRoot chunk) :
    chunk.scope = .global ∨ Under projectRoot chunk :=
  own.imp (·.2) (·.2.2)

theorem contained_iff (db : Database) (query : String) :
    Contained platform db query scope projectRoot ↔ scope = .global ∨ ftsQuery platform query = "" ∨
      ∀ id, ¬ Finds platform db query (Foreign projectRoot) id := by
  constructor
  · intro contained
    by_contra none_
    simp only [not_or, not_forall, not_not] at none_
    obtain ⟨inside, present, id, row, here, matched, foreign, -⟩ := none_
    have found : row ∈ eligible platform db (ftsQuery platform query) scope projectRoot :=
      mem_filter.mpr ⟨here, Bool.and_eq_true_iff.mpr
        ⟨matched, (inScope_iff _).mpr (.inr ⟨inside, foreign⟩)⟩⟩
    exact foreign.2.2 (contained _ _ (search_complete present (Nat.le_refl _) found) foreign.1)
  · intro condition limit row member project
    obtain ⟨fts, found⟩ := mem_search member
    obtain ⟨here, kept⟩ := mem_filter.mp found
    obtain ⟨matched, inside⟩ := Bool.and_eq_true_iff.mp kept
    rcases (inScope_iff _).mp inside with own | ⟨projects, foreign⟩
    · refine own.outside.resolve_left fun global => ?_
      rw [project] at global
      cases global
    rcases condition with global | none_ | clean
    · exact absurd global projects
    · rw [search, if_pos none_] at member
      cases member
    · exact absurd ⟨_, here, matched, foreign, rfl⟩ (clean row.chunk.id)

theorem sameFound_iff {db changed : Database} (outside : DiffersOutside projectRoot db changed)
    (query : String) :
    SameFound platform db changed query scope projectRoot ↔
      scope = .global ∨ ftsQuery platform query = "" ∨
        ∀ id, ¬ Finds platform db query (Own scope projectRoot) id →
          (Finds platform db query (Foreign projectRoot) id ↔
            Finds platform changed query (Foreign projectRoot) id) := by
  by_cases none_ : ftsQuery platform query = ""
  · refine iff_of_true (fun limit _ _ id => ?_) (.inr (.inl none_))
    rw [search, search, if_pos none_, if_pos none_]
  have same : ∀ id, Finds platform db query (Own scope projectRoot) id ↔
      Finds platform changed query (Own scope projectRoot) id := fun id => by
    constructor
    · rintro ⟨row, here, matched, own, named⟩
      exact ⟨row, (outside row own.outside).mp here, matched, own, named⟩
    · rintro ⟨row, here, matched, own, named⟩
      exact ⟨row, (outside row own.outside).mpr here, matched, own, named⟩
  have finds (db : Database) (id : String) :
      Finds platform db query (inScope scope projectRoot · = true) id ↔
        Finds platform db query (Own scope projectRoot) id ∨
          scope ≠ .global ∧ Finds platform db query (Foreign projectRoot) id := by
    by_cases global : scope = .global
    · simp only [Finds, inScope_iff, global, ne_eq, not_true_eq_false, false_and, or_false]
    · simp only [Finds, inScope_iff, ne_eq, global, not_false_eq_true, true_and, or_and_right,
        and_or_left, exists_or]
  have every : SameFound platform db changed query scope projectRoot ↔
      ∀ id, Finds platform db query (inScope scope projectRoot · = true) id ↔
        Finds platform changed query (inScope scope projectRoot · = true) id := by
    refine ⟨fun found id => ?_, fun found limit all all' id => ?_⟩
    · rw [← mem_ids_search none_ (Nat.le_max_left _ _),
        ← mem_ids_search none_ (Nat.le_max_right _ _)]
      exact found _ (Nat.le_max_left _ _) (Nat.le_max_right _ _) id
    · rw [mem_ids_search none_ all, mem_ids_search none_ all', found]
  rw [every]
  simp only [finds, ← same]
  by_cases global : scope = .global
  · simp [global]
  · simp only [global, none_, false_or, ne_eq, not_false_eq_true, true_and]
    refine forall_congr' fun id => ?_
    by_cases own : Finds platform db query (Own scope projectRoot) id
    · simp only [own, true_or, not_true_eq_false, false_implies]
    · simp only [own, false_or, not_false_eq_true, true_implies]

/-- Paths are mistaken exactly for roots with a letter of ASCII or a character that stands for
others. -/
theorem exists_mistaken_iff (projectRoot : String) :
    (∃ path, Mistaken projectRoot path) ↔ ∃ char ∈ projectRoot.toList, ¬ Plain char := by
  constructor
  · rintro ⟨path, matched, outside⟩
    by_contra plain
    simp only [not_exists, not_and, not_not] at plain
    refine outside (@prefix_of_like (projectRoot.toList ++ [separator projectRoot]) _ ?_ ?_)
    · intro char member
      rcases mem_append.mp member with own | last
      · exact plain char own
      · rw [mem_singleton.mp last, separator]
        split <;> exact ⟨by decide, by decide, by decide⟩
    · rwa [append_assoc]
  · rintro ⟨char, member, special⟩
    obtain ⟨other, differs, mistaken⟩ := exists_mistaken special
    obtain ⟨before, after, whole⟩ := append_of_mem member
    refine ⟨String.ofList (before ++ other :: (after ++ [separator projectRoot, 'm'])), ?_, ?_⟩
    · rw [projectPattern, whole, String.toList_ofList, append_assoc]
      apply like_append
      apply like_cons mistaken
      apply like_append
      apply like_cons (.inr (.inr rfl))
      rfl
    · rw [String.toList_ofList, whole, append_assoc, prefix_append_right_inj, cons_append,
        cons_prefix_cons]
      exact fun under => differs under.1.symm

/-- A chunk of a project at a path. -/
def soleRow (path text : String) : Database where
  foreignKeys := true
  chunks := [⟨⟨"id", "document", .project, path, 1, 1, text, 1⟩, 0⟩]
  fts := [⟨"id", path, text⟩]

/-- A full-text engine that finds a term in the texts that are the term. -/
def exactTerms : SearchPlatform where
  isTermCharacter := Char.isAlpha
  toLowerCase := id
  matchesFts term row := term = "\"" ++ row.text ++ "\""
  bm25 _ _ _ := 0

theorem ftsQuery_exactTerms : ftsQuery exactTerms "ab" = "\"ab\"" := by rfl

open Database

variable {digest : Digest} {contents : Set String} {db : Database} {α : Type}
  (rank : α → Rat) (limit : Nat) (items : List α)

/-- The best of some items, in order. Others are left out at the limit only, and are no better. -/
structure Best (best : List α) : Prop where
  ordered : best.Pairwise fun item other => rank item ≤ rank other
  rest : ∃ rest, best ++ rest ~ items ∧
    ∀ item ∈ rest, best.length = limit ∧ ∀ found ∈ best, rank found ≤ rank item

theorem best_mergeSort : Best rank limit items
    ((items.mergeSort fun item other => rank item ≤ rank other).take limit) := by
  have ordered := @pairwise_mergeSort α (fun item other => rank item ≤ rank other)
    (fun _ _ _ => by simpa using Rat.le_trans) (fun _ _ => by simpa using Rat.le_total) items
  have perm := items.mergeSort_perm fun item other => rank item ≤ rank other
  generalize items.mergeSort _ = sorted at ordered perm
  simp only [decide_eq_true_eq] at ordered
  rw [← take_append_drop limit sorted] at ordered perm
  refine ⟨(pairwise_append.mp ordered).1, _, perm, fun item left => ⟨?_, fun found among =>
    (pairwise_append.mp ordered).2.2 found among item left⟩⟩
  have more := length_pos_of_mem left
  simp only [length_drop, length_take] at more ⊢
  omega

theorem filter_id {rows : List ChunkRow} (distinct : (rows.map (·.chunk.id)).Nodup)
    {row : ChunkRow} (member : row ∈ rows) :
    rows.filter (fun other => other.chunk.id = row.chunk.id) = [row] := by
  induction rows with
  | nil => cases member
  | cons first rows ih =>
    rw [map_cons, nodup_cons] at distinct
    rcases mem_cons.mp member with rfl | later
    · simpa using distinct.1
    · have other : first.chunk.id ≠ row.chunk.id := fun same =>
        distinct.1 (same ▸ mem_map_of_mem later)
      rw [filter_cons_of_neg (by simpa), ih distinct.2 later]

theorem Indexed.joined_eq (indexed : Indexed digest contents db) :
    joined db = db.chunks.map fun row => (ftsRow row.chunk, row) := by
  unfold joined
  rw [indexed.mirrored, flatMap_map, map_eq_flatMap]
  refine flatMap_congr fun row member => ?_
  rw [show (ftsRow row.chunk).id = row.chunk.id from rfl, filter_id indexed.distinct member]
  rfl

/-- Over every index that syncs lead to, a search gives the best chunks that match in scope. -/
theorem search_ranked {onDisk : Platform} (injective : Set.InjOn digest.sha256 contents)
    (reached : Reached digest onDisk (Admitted digest contents) db) {query : String}
    (present : ftsQuery platform query ≠ "") (scope : RecodeMemoryScopeSelection) (limit : Nat)
    (projectRoot : String) :
    Best (fun row => platform.bm25 db (ftsQuery platform query) (ftsRow row.chunk)) limit
      (db.chunks.filter fun row => platform.matchesFts (ftsQuery platform query)
        (ftsRow row.chunk) && inScope scope projectRoot row.chunk)
      (search platform db query scope limit projectRoot) := by
  rw [search, if_neg present, eligible, (reached.indexed injective).joined_eq, filter_map]
  dsimp only
  rw [← map_mergeSort, ← map_take, map_map]
  · rw [show Prod.snd ∘ (fun row : ChunkRow => (ftsRow row.chunk, row)) = id from rfl, map_id]
    exact best_mergeSort _ _ _
  · exact fun _ _ _ _ => rfl

/-- An entry that is a word of two letters. -/
def wordDigest : Digest where
  sha256 text :=
    if text = "global:/a/m.md" then knownDigest.sha256 text
    else if text = "entry-v2\x00- ab" then
      "18521b478ae92e329f61380809413e545b2930aa5bd30fb26110866704372d43"
    else "365766a79e4ead7ac7fb3e83496e07bc0cbbdd6ed2bdb65a0c2cb006440ad5b4"

/-- A full-text engine that finds the word in its entry. -/
def wordTerms : SearchPlatform :=
  { exactTerms with matchesFts := fun term row => term = "\"ab\"" && row.text = "- ab" }

def wordIndex : Database :=
  (performSync wordDigest posix { foreignKeys := false } (globalSync "- ab")).1

theorem search_ranked_word :
    (search wordTerms wordIndex "ab" .global 1 "/a").map (·.chunk.text) = ["- ab"] ∧
      Best (fun row => wordTerms.bm25 wordIndex "\"ab\"" (ftsRow row.chunk)) 1 wordIndex.chunks
        (search wordTerms wordIndex "ab" .global 1 "/a") :=
  ⟨by decide +kernel, search_ranked (Set.injOn_singleton _ (contentText "- ab"))
    (.sync (.empty false)
      { toListed := globalSync_listed rfl
        keepsScope := fun _ _ _ _ _ _ _ entry => nomatch entry })
    (show ftsQuery wordTerms "ab" ≠ "" by decide +kernel) .global 1 "/a"⟩

end Recode.MemoryIndex

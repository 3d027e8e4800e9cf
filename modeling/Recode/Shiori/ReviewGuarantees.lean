import Recode.Shiori.Reviewer
import Mathlib.Data.List.Infix
import Mathlib.Data.List.Nodup

/-! # Reviews cover a branch once

Along every sequence of runs the checkpoint moves forward, each message up to it has been in
one chunk of the successful runs, and no message behind it has been in any. -/

namespace Recode.Shiori

open List Text EntryId

variable {state after : State}

def chunksOfRuns (runs : List (Run × RecodeShioriRunResult)) : List RecodeShioriReviewChunk :=
  runs.flatMap fun run => run.1.review.chunks

def InOneChunk (chunks : List RecodeShioriReviewChunk) (entry : SessionTreeEntry)
    (text : String) : Prop :=
  ∃ before chunk behind, chunks = before ++ chunk :: behind ∧ entry ∈ chunk.entries ∧
    Text.Contains chunk.transcript text ∧ ∀ other ∈ before ++ behind, entry ∉ other.entries

def atOrBefore (branch : List SessionTreeEntry) (requestedEnd : Option String) :
    List SessionTreeEntry :=
  match requestedEnd.bind fun id => branch.findIdx? fun entry => entry.id.text = id with
  | some index => branch.take (index + 1)
  | none => branch

/-- The reviews of a branch cover it exactly once. The part of an entry's text that its
transcript contains and the end that a run is asked to reach are parameters. -/
structure CoveredOnce (part : String → String) (requestedEnd : Run → Option String)
    (state : State) : Prop where
  forward : ∀ later, Relation.ReflTransGen Step state later →
    checkpointEnd state.branch ≤ checkpointEnd later.branch
  once : ∀ entry ∈ state.branch.take (checkpointEnd state.branch), ∀ text,
    renderEntry entry = some text → InOneChunk (chunksOfRuns state.succeeded) entry (part text)
  later : ∀ entry ∈ state.branch.drop (checkpointEnd state.branch),
    ∀ chunk ∈ chunksOfRuns state.succeeded, entry ∉ chunk.entries
  more : ∀ index run result, state.succeeded[index]? = some (run, result) →
    (result.hasMore = false ↔
      ∀ entry ∈ atOrBefore run.branch (requestedEnd run), renders entry = true →
        ∃ chunk ∈ chunksOfRuns (state.succeeded.take (index + 1)), entry ∈ chunk.entries)

/-- What a chunk keeps of a rendered text. -/
def chunkPart (text : String) : String := sliceFront text shioriChunkCharacters

/-- The requested end of a run, if it is among the entries that were still to be read. -/
def pendingEnd (run : Run) : Option String :=
  run.options.throughEntryId.filter fun id =>
    (pendingEntries run.branch).any fun entry => entry.id.text = id

/-! ## Chunks -/

/-- A chunk is made of the rendered texts of its entries. -/
structure WellCut (chunk : RecodeShioriReviewChunk) : Prop where
  nonempty : chunk.entries ≠ []
  transcript : chunk.transcript = "\n\n".intercalate
    (chunk.entries.map fun entry => chunkPart ((renderEntry entry).getD ""))

namespace ChunkBuilder

def allEntries (builder : ChunkBuilder) : List SessionTreeEntry :=
  builder.chunks.flatMap (·.entries) ++ builder.entries

structure Filling (builder : ChunkBuilder) : Prop where
  chunks : ∀ chunk ∈ builder.chunks, WellCut chunk
  parts : builder.transcriptParts =
    builder.entries.map fun entry => chunkPart ((renderEntry entry).getD "")

theorem filling_empty : Filling {} where
  chunks _ member := by cases member
  parts := rfl

variable (builder : ChunkBuilder)

theorem allEntries_flush :
    builder.flush.allEntries = builder.allEntries := by
  rw [flush]
  split
  · rfl
  · simp only [allEntries, flatMap_append, flatMap_singleton, append_nil]

theorem Filling.flush {builder : ChunkBuilder} (filling : builder.Filling) :
    builder.flush.Filling := by
  rw [ChunkBuilder.flush]
  split
  · exact filling
  rename_i nonempty
  refine ⟨?_, rfl⟩
  intro chunk member
  rcases mem_append.mp member with cut | last
  · exact filling.chunks chunk cut
  · cases mem_singleton.mp last
    exact ⟨nonempty, by rw [filling.parts]⟩

theorem allEntries_push (entry : SessionTreeEntry) :
    (builder.push entry).allEntries = builder.allEntries ++ [entry] := by
  have roomed (rendered : String) :
      (builder.room rendered).allEntries = builder.allEntries := by
    rw [room]
    split
    · exact builder.allEntries_flush
    · rfl
  rw [← roomed ((renderEntry entry).getD "")]
  simp only [push, allEntries, append_assoc]

theorem Filling.push {builder : ChunkBuilder} (filling : builder.Filling)
    (entry : SessionTreeEntry) : (builder.push entry).Filling := by
  have roomed (rendered : String) : (builder.room rendered).Filling := by
    rw [room]
    split
    · exact filling.flush
    · exact filling
  have roomed := roomed ((renderEntry entry).getD "")
  refine ⟨roomed.chunks, ?_⟩
  simp only [ChunkBuilder.push, roomed.parts, map_append, map_cons, map_nil, chunkPart]

theorem Filling.foldl {builder : ChunkBuilder} (filling : builder.Filling)
    (pending : List SessionTreeEntry) : (pending.foldl ChunkBuilder.push builder).Filling ∧
      (pending.foldl ChunkBuilder.push builder).allEntries = builder.allEntries ++ pending := by
  induction pending generalizing builder with
  | nil => exact ⟨filling, (append_nil _).symm⟩
  | cons entry pending ih =>
    obtain ⟨filled, all⟩ := ih (filling.push entry)
    refine ⟨filled, ?_⟩
    rw [foldl_cons, all, allEntries_push, append_assoc]
    rfl

theorem entries_flush : builder.flush.entries = [] := by
  rw [flush]
  split
  · assumption
  · rfl

end ChunkBuilder

/-- The chunks of some entries contain these entries in order. -/
theorem chunksOf_entries (pending : List SessionTreeEntry) :
    (chunksOf pending).flatMap (·.entries) = pending := by
  have all := (ChunkBuilder.filling_empty.foldl pending).2
  rw [← ChunkBuilder.allEntries_flush, ChunkBuilder.allEntries, ChunkBuilder.entries_flush,
    append_nil] at all
  exact all

theorem chunksOf_wellCut {pending : List SessionTreeEntry} {chunk : RecodeShioriReviewChunk}
    (member : chunk ∈ chunksOf pending) : WellCut chunk := by
  exact (ChunkBuilder.filling_empty.foldl pending).1.flush.chunks chunk member

theorem sliceChunks_start (chunks : List RecodeShioriReviewChunk) (count : Int) :
    sliceChunks chunks count <+: chunks := by
  cases count with
  | ofNat count => exact take_prefix _ _
  | negSucc count => exact take_prefix _ _

/-- A run that reviews anything has more to review exactly if it was not given all chunks. -/
theorem sliceChunks_eq_iff {chunks : List RecodeShioriReviewChunk} {count : Int}
    (some_ : sliceChunks chunks count ≠ []) :
    sliceChunks chunks count = chunks ↔ ¬ (chunks.length : Int) > count := by
  cases count with
  | ofNat count =>
    rw [sliceChunks, take_eq_self_iff]
    simp only [Int.ofNat_eq_natCast, gt_iff_lt, Nat.cast_lt, not_lt]
  | negSucc count =>
    have nonempty : chunks ≠ [] := by
      intro empty
      rw [empty, sliceChunks, take_nil] at some_
      exact some_ rfl
    have positive := length_pos_iff.mpr nonempty
    rw [sliceChunks, take_eq_self_iff]
    omega

theorem infix_intercalate {separator part : List Char} {parts : List (List Char)}
    (member : part ∈ parts) : part <:+: separator.intercalate parts := by
  induction parts with
  | nil => cases member
  | cons first rest ih =>
    cases rest with
    | nil =>
      cases mem_singleton.mp member
      rw [intercalate_singleton]
    | cons second rest =>
      rw [intercalate_cons_cons]
      rcases mem_cons.mp member with same | later
      · rw [same, append_assoc]
        exact (prefix_append _ _).isInfix
      · exact (ih later).trans (suffix_append _ _).isInfix

variable {entry : SessionTreeEntry} {run : Run}

theorem WellCut.contains {chunk : RecodeShioriReviewChunk} (cut : WellCut chunk)
    (member : entry ∈ chunk.entries) {text : String} (rendered : renderEntry entry = some text) :
    Text.Contains chunk.transcript (chunkPart text) := by
  rw [cut.transcript, Text.Contains, String.toList_intercalate]
  apply infix_intercalate
  apply mem_map_of_mem
  refine mem_map.mpr ⟨entry, member, ?_⟩
  rw [rendered, Option.getD_some]

/-! ## Positions on a branch -/

variable {branch : List SessionTreeEntry}

theorem checkpointEnd_le (branch : List SessionTreeEntry) :
    checkpointEnd branch ≤ branch.length := by
  rw [checkpointEnd]
  cases found : checkpointIndex branch with
  | none => exact Nat.zero_le _
  | some index =>
    obtain ⟨checkpoint, _, at_⟩ := Option.bind_eq_some_iff.mp found
    obtain ⟨short, _⟩ := findIdx?_eq_some_iff_getElem.mp at_
    exact short

theorem findIdx?_unique {front behind : List SessionTreeEntry}
    (unique : ((front ++ entry :: behind).map (·.id)).Nodup) {text : String}
    (named : entry.id.text = text) :
    (front ++ entry :: behind).findIdx? (fun entry => entry.id.text = text) =
      some front.length := by
  rw [findIdx?_append, findIdx?_cons, if_pos (by simpa using named),
    findIdx?_eq_none_iff.mpr]
  · simp
  · intro other member
    have apart : entry.id ∉ front.map (·.id) := by
      rw [map_append, map_cons] at unique
      intro inside
      exact (nodup_append.mp unique).2.2 _ inside _ mem_cons_self rfl
    refine decide_eq_false ?_
    intro same
    have ids : other.id = entry.id := by
      cases entryId : entry.id
      cases otherId : other.id
      rw [entryId] at named
      rw [otherId] at same
      cases named
      cases same
      rfl
    exact apart (ids ▸ mem_map_of_mem member)

theorem checkpointEnd_at {front behind : List SessionTreeEntry} {entry : SessionTreeEntry}
    (unique : ((front ++ entry :: behind).map (·.id)).Nodup) {checkpoint : RecodeShioriCheckpoint}
    (found : getRecodeShioriCheckpoint (front ++ entry :: behind) = some checkpoint)
    (named : entry.id.text = checkpoint.lastReviewedEntryId) :
    checkpointEnd (front ++ entry :: behind) = front.length + 1 := by
  rw [checkpointEnd, checkpointIndex, found, Option.bind_some, findIdx?_unique unique named]

theorem split_filter {entries kept rest : List SessionTreeEntry} {last : SessionTreeEntry}
    {keep : SessionTreeEntry → Bool} (filtered : entries.filter keep = (kept ++ [last]) ++ rest) :
    ∃ front behind, entries = front ++ last :: behind ∧
      (front ++ [last]).filter keep = kept ++ [last] := by
  obtain ⟨front, others, split, inFront, inOthers⟩ := filter_eq_append_iff.mp
    (filtered.trans (append_assoc _ _ _))
  obtain ⟨skipped, behind, others_eq, none_, passes, _⟩ := filter_eq_cons_iff.mp inOthers
  have nothing : skipped.filter keep = [] := filter_eq_nil_iff.mpr none_
  refine ⟨front ++ skipped, behind, ?_, ?_⟩
  · rw [split, others_eq, append_assoc]
  · rw [filter_append, filter_append, nothing, append_nil, inFront]
    simp only [filter_cons, passes, if_true, filter_nil]

theorem split_pending {kept rest : List SessionTreeEntry} {last : SessionTreeEntry}
    (pending : pendingEntries branch = (kept ++ [last]) ++ rest) :
    ∃ front behind, branch = front ++ last :: behind ∧ checkpointEnd branch ≤ front.length ∧
      (front ++ [last]).filter renders =
        (branch.take (checkpointEnd branch)).filter renders ++ (kept ++ [last]) := by
  obtain ⟨skipped, behind, dropped, upTo⟩ := split_filter pending
  refine ⟨branch.take (checkpointEnd branch) ++ skipped, behind, ?_, ?_, ?_⟩
  · rw [append_assoc, ← dropped, take_append_drop]
  · rw [length_append, length_take_of_le (checkpointEnd_le _)]
    exact Nat.le_add_right _ _
  · rw [append_assoc, filter_append, upTo]

theorem getRecodeShioriCheckpoint_append (branch more : List SessionTreeEntry)
    (others : ∀ entry ∈ more, checkpointFromEntry entry = none) :
    getRecodeShioriCheckpoint (branch ++ more) = getRecodeShioriCheckpoint branch := by
  rw [getRecodeShioriCheckpoint, reverse_append, findSome?_append,
    findSome?_eq_none_iff.mpr, Option.none_or]
  · rfl
  · intro entry member
    exact others entry (mem_reverse.mp member)

/-- The entries of a branch are apart, and its checkpoint names one of them. -/
structure Anchored (branch : List SessionTreeEntry) : Prop where
  unique : (branch.map (·.id)).Nodup
  known : ∀ checkpoint, getRecodeShioriCheckpoint branch = some checkpoint →
    ∃ entry ∈ branch, entry.id.text = checkpoint.lastReviewedEntryId

/-- Entries that are no checkpoints leave the checkpoint where it is. -/
theorem Anchored.checkpointEnd_append (anchored : Anchored branch)
    {more : List SessionTreeEntry} (others : ∀ entry ∈ more, checkpointFromEntry entry = none) :
    checkpointEnd (branch ++ more) = checkpointEnd branch := by
  rw [checkpointEnd, checkpointIndex, getRecodeShioriCheckpoint_append branch more others,
    checkpointEnd, checkpointIndex]
  cases found : getRecodeShioriCheckpoint branch with
  | none => rfl
  | some checkpoint =>
    obtain ⟨entry, member, named⟩ := anchored.known checkpoint found
    rw [Option.bind_some, Option.bind_some, findIdx?_append]
    cases index : branch.findIdx? fun entry => entry.id.text = checkpoint.lastReviewedEntryId with
    | none =>
      have absent := findIdx?_eq_none_iff.mp index entry member
      exact absurd named (of_decide_eq_false absent)
    | some index => rfl

theorem Anchored.append (anchored : Anchored branch) {more : List SessionTreeEntry}
    (others : ∀ entry ∈ more, checkpointFromEntry entry = none)
    (unique : ((branch ++ more).map (·.id)).Nodup) : Anchored (branch ++ more) := by
  refine ⟨unique, ?_⟩
  intro checkpoint found
  rw [getRecodeShioriCheckpoint_append branch more others] at found
  obtain ⟨entry, member, named⟩ := anchored.known checkpoint found
  exact ⟨entry, mem_append_left more member, named⟩

/-! ## A run in progress -/

/-- What holds of a run while the branch grows. -/
structure InProgress (branch : List SessionTreeEntry) (run : Run) : Prop where
  anchored : Anchored run.branch
  grown : ∃ more, branch = run.branch ++ more ∧ ∀ entry ∈ more, checkpointFromEntry entry = none
  review : run.review = buildRecodeShioriReviewChunks run.branch run.options.maxChunks
    run.options.throughEntryId
  nonempty : run.review.chunks ≠ []
  progress : ∃ done, run.review.chunks = done ++ run.remaining ∧
    ∀ chunk, done.getLast? = some chunk →
      run.tally.lastReviewedEntryId = chunk.entries.getLast?.map (·.id)

theorem pendingThrough_start (branch : List SessionTreeEntry) (throughEntryId : Option String) :
    pendingThrough branch throughEntryId <+: pendingEntries branch := by
  rw [pendingThrough]
  split
  · exact take_prefix _ _
  · exact prefix_rfl

namespace InProgress

variable {run : Run}

section

variable (inProgress : InProgress branch run)
include inProgress

theorem checkpointEnd_eq :
    checkpointEnd branch = checkpointEnd run.branch := by
  obtain ⟨more, grown, others⟩ := inProgress.grown
  rw [grown, inProgress.anchored.checkpointEnd_append others]

theorem take_eq :
    branch.take (checkpointEnd branch) = run.branch.take (checkpointEnd run.branch) := by
  rw [inProgress.checkpointEnd_eq]
  obtain ⟨more, grown, _⟩ := inProgress.grown
  rw [grown, take_append_of_le_length (checkpointEnd_le _)]

theorem append {entry : SessionTreeEntry}
    (other : checkpointFromEntry entry = none) : InProgress (branch ++ [entry]) run := by
  obtain ⟨more, grown, others⟩ := inProgress.grown
  refine { inProgress with grown := ⟨more ++ [entry], ?_, ?_⟩ }
  · rw [grown, append_assoc]
  · intro added member
    rcases mem_append.mp member with earlier | last
    · exact others added earlier
    · rw [mem_singleton.mp last]
      exact other

theorem reviewed {chunk : RecodeShioriReviewChunk}
    {rest : List RecodeShioriReviewChunk} (next : run.remaining = chunk :: rest)
    (candidates : List Candidate) : InProgress branch (run.reviewed chunk rest candidates) := by
  obtain ⟨done, split, _⟩ := inProgress.progress
  refine { inProgress with progress := ⟨done ++ [chunk], ?_, ?_⟩ }
  · change run.review.chunks = done ++ [chunk] ++ rest
    rw [split, next, append_assoc]
    rfl
  · intro last found
    rw [getLast?_append, getLast?_singleton, Option.some_or] at found
    cases found
    rfl

theorem chunks_eq : run.review.chunks =
    sliceChunks (chunksOf (pendingThrough run.branch run.options.throughEntryId))
      (run.options.maxChunks.getD shioriMaxChunksPerRun) := by
  rw [inProgress.review]
  rfl

theorem wellCut {chunk : RecodeShioriReviewChunk}
    (member : chunk ∈ run.review.chunks) : WellCut chunk := by
  rw [inProgress.chunks_eq] at member
  exact chunksOf_wellCut ((sliceChunks_start _ _).subset member)

/-- The entries of a run's chunks come first among those that it found pending. -/
theorem entries_start :
    run.review.chunks.flatMap (·.entries) <+:
      pendingThrough run.branch run.options.throughEntryId := by
  have sliced := (sliceChunks_start
    (chunksOf (pendingThrough run.branch run.options.throughEntryId))
    (run.options.maxChunks.getD shioriMaxChunksPerRun)).flatMap (·.entries)
  rw [chunksOf_entries, ← inProgress.chunks_eq] at sliced
  exact sliced

theorem reviewed_upTo (done : run.remaining = [])
    {lastId : EntryId} (last : run.tally.lastReviewedEntryId = some lastId) :
    ∃ front entry behind, run.branch = front ++ entry :: behind ∧ entry.id = lastId ∧
      checkpointEnd run.branch ≤ front.length ∧ (front ++ [entry]).filter renders =
        (run.branch.take (checkpointEnd run.branch)).filter renders ++
          run.review.chunks.flatMap (·.entries) := by
  obtain ⟨reviewed, split, recorded⟩ := inProgress.progress
  rw [done, append_nil] at split
  obtain ⟨earlier, chunk, chunks⟩ :=
    (eq_nil_or_concat' _).resolve_left inProgress.nonempty
  have lastChunk : reviewed.getLast? = some chunk := by
    rw [← split, chunks, getLast?_append, getLast?_singleton, Option.some_or]
  have cut : WellCut chunk := inProgress.wellCut (by
    rw [chunks]
    exact mem_append_right _ (mem_singleton_self _))
  obtain ⟨entries, entry, chunkEntries⟩ :=
    (eq_nil_or_concat' _).resolve_left cut.nonempty
  have named : entry.id = lastId := by
    have same := last.symm.trans (recorded chunk lastChunk)
    rw [chunkEntries, getLast?_append, getLast?_singleton, Option.some_or] at same
    exact (Option.some.inj same).symm
  have all : run.review.chunks.flatMap (·.entries) =
      (earlier.flatMap (·.entries) ++ entries) ++ [entry] := by
    rw [chunks, flatMap_append, flatMap_singleton, chunkEntries, append_assoc]
  obtain ⟨rest, pending⟩ := inProgress.entries_start.trans (pendingThrough_start _ _)
  rw [all] at pending
  obtain ⟨front, behind, split, reached, upTo⟩ := split_pending pending.symm
  exact ⟨front, entry, behind, split, named, reached, by rw [upTo, all]⟩

end

end InProgress

theorem atOrBefore_renders (anchored : Anchored run.branch) :
    (atOrBefore run.branch (pendingEnd run)).filter renders =
      (run.branch.take (checkpointEnd run.branch)).filter renders ++
        pendingThrough run.branch run.options.throughEntryId := by
  have whole : run.branch.filter renders =
      (run.branch.take (checkpointEnd run.branch)).filter renders ++ pendingEntries run.branch := by
    rw [pendingEntries, ← filter_append, take_append_drop]
  rw [atOrBefore, pendingEnd, pendingThrough]
  cases through : run.options.throughEntryId with
  | none => exact whole
  | some id =>
    by_cases pending : (pendingEntries run.branch).any (fun entry => entry.id.text = id) = true
    · obtain ⟨entry, member, named⟩ := any_eq_true.mp pending
      have named := of_decide_eq_true named
      obtain ⟨kept, rest, split⟩ := append_of_mem member
      have parts : pendingEntries run.branch = (kept ++ [entry]) ++ rest := by
        rw [split, append_assoc]
        rfl
      obtain ⟨front, behind, branch_eq, _, upTo⟩ := split_pending parts
      have unique := anchored.unique
      have pendingUnique : ((kept ++ entry :: rest).map (·.id)).Nodup := by
        rw [← split]
        exact unique.sublist ((filter_sublist.trans (drop_sublist _ _)).map _)
      have present : truthy (some id) = some id :=
        truthy_some (named ▸ entry.id.nonempty)
      have cut (front behind : List SessionTreeEntry) :
          (front ++ entry :: behind).take (front.length + 1) = front ++ [entry] := by
        rw [take_append, take_of_length_le (Nat.le_succ _), Nat.add_sub_cancel_left]
        rfl
      rw [branch_eq] at unique
      have found := findIdx?_unique unique named
      have upToFront := cut front behind
      rw [← branch_eq] at found upToFront
      rw [Option.filter_some, if_pos pending, present, Option.bind_some, Option.bind_some, found,
        split, findIdx?_unique pendingUnique named]
      change (run.branch.take _).filter renders = _ ++ (kept ++ entry :: rest).take _
      rw [cut kept rest, upToFront, upTo]
    · have absent : (pendingEntries run.branch).findIdx? (fun entry => entry.id.text = id) =
          none := by
        rw [findIdx?_eq_none_iff]
        intro entry member
        refine decide_eq_false ?_
        intro named
        exact pending (any_eq_true.mpr ⟨entry, member, decide_eq_true named⟩)
      have nothing : ((truthy (some id)).bind fun id =>
          (pendingEntries run.branch).findIdx? fun entry => entry.id.text = id) = none := by
        rw [truthy, Option.filter_some]
        split
        · exact absent
        · rfl
      rw [Option.filter_some, if_neg pending, nothing]
      exact whole

theorem Anchored.disjoint (anchored : Anchored branch) (count : Nat) :
    List.Disjoint (branch.take count) (branch.drop count) :=
  disjoint_take_drop (List.Nodup.of_map _ anchored.unique) (Nat.le_refl count)

theorem Anchored.pendingThrough_nodup (anchored : Anchored branch)
    (throughEntryId : Option String) : (pendingThrough branch throughEntryId).Nodup :=
  (List.Nodup.of_map _ anchored.unique).sublist
    ((pendingThrough_start branch throughEntryId).sublist.trans
      (filter_sublist.trans (drop_sublist _ _)))

/-- The first of some chunks contain all their entries only if they are all of them. -/
theorem chunks_eq_of_entries {chunks all : List RecodeShioriReviewChunk} (start : chunks <+: all)
    (cut : ∀ chunk ∈ all, WellCut chunk) (nodup : (all.flatMap (·.entries)).Nodup)
    (inside : ∀ entry ∈ all.flatMap (·.entries), ∃ chunk ∈ chunks, entry ∈ chunk.entries) :
    chunks = all := by
  obtain ⟨rest, split⟩ := start
  cases rest with
  | nil => rw [← split, append_nil]
  | cons chunk rest =>
    have member : chunk ∈ all := split ▸ mem_append_right _ mem_cons_self
    obtain ⟨entry, inChunk⟩ := exists_mem_of_ne_nil _ (cut chunk member).nonempty
    obtain ⟨earlier, among, inEarlier⟩ :=
      inside entry (mem_flatMap.mpr ⟨chunk, member, inChunk⟩)
    rw [← split, flatMap_append, flatMap_cons] at nodup
    exact absurd rfl ((nodup_append.mp nodup).2.2 entry
      (mem_flatMap.mpr ⟨earlier, among, inEarlier⟩) entry
      (mem_append_left _ inChunk))

theorem InProgress.hasMore_iff (inProgress : InProgress branch run)
    {chunks : List RecodeShioriReviewChunk} (covered : chunks.flatMap (·.entries) =
      (run.branch.take (checkpointEnd run.branch)).filter renders) :
    run.review.hasMore = false ↔
      ∀ entry ∈ atOrBefore run.branch (pendingEnd run), renders entry = true →
        ∃ chunk ∈ chunks ++ run.review.chunks, entry ∈ chunk.entries := by
  have split := atOrBefore_renders inProgress.anchored
  have pendingNodup := inProgress.anchored.pendingThrough_nodup run.options.throughEntryId
  have nonempty := inProgress.nonempty
  rw [inProgress.chunks_eq] at nonempty
  have more : run.review.hasMore = false ↔ run.review.chunks =
      chunksOf (pendingThrough run.branch run.options.throughEntryId) := by
    rw [inProgress.chunks_eq, sliceChunks_eq_iff nonempty, inProgress.review]
    exact decide_eq_false_iff_not
  have start := sliceChunks_start
    (chunksOf (pendingThrough run.branch run.options.throughEntryId))
    (run.options.maxChunks.getD shioriMaxChunksPerRun)
  rw [← inProgress.chunks_eq] at start
  rw [more]
  constructor
  · intro all entry member passes
    have among : entry ∈ (atOrBefore run.branch (pendingEnd run)).filter renders :=
      mem_filter.mpr ⟨member, passes⟩
    rw [split] at among
    rcases mem_append.mp among with earlier | pending
    · rw [← covered] at earlier
      obtain ⟨chunk, inside, inChunk⟩ := mem_flatMap.mp earlier
      exact ⟨chunk, mem_append_left _ inside, inChunk⟩
    · rw [← chunksOf_entries (pendingThrough _ _), ← all] at pending
      obtain ⟨chunk, inside, inChunk⟩ := mem_flatMap.mp pending
      exact ⟨chunk, mem_append_right _ inside, inChunk⟩
  · intro reviewed
    refine chunks_eq_of_entries start (fun chunk member => chunksOf_wellCut member)
      (by rwa [chunksOf_entries]) ?_
    rw [chunksOf_entries]
    intro entry pending
    have among : entry ∈ (atOrBefore run.branch (pendingEnd run)).filter renders :=
      split ▸ mem_append_right _ pending
    obtain ⟨chunk, inside, inChunk⟩ :=
      reviewed entry (mem_filter.mp among).1 (mem_filter.mp among).2
    rcases mem_append.mp inside with earlier | own
    · have before : entry ∈ run.branch.take (checkpointEnd run.branch) := by
        have member := mem_flatMap.mpr ⟨chunk, earlier, inChunk⟩
        rw [covered] at member
        exact (mem_filter.mp member).1
      have behind : entry ∈ run.branch.drop (checkpointEnd run.branch) :=
        (mem_filter.mp ((pendingThrough_start _ _).subset pending)).1
      exact absurd behind (inProgress.anchored.disjoint _ before)
    · exact ⟨chunk, own, inChunk⟩

theorem beginRun_inProgress (anchored : Anchored branch) {options : ReviewOptions}
    (started : beginRun branch options = .ok (some run)) : InProgress branch run := by
  rw [beginRun] at started
  split at started
  · cases started
  split at started
  · cases started
  simp only at started
  split at started
  · cases started
  rename_i chunk rest chunks
  cases started
  refine ⟨anchored, ⟨[], (append_nil branch).symm, fun _ member => by cases member⟩, rfl,
    ?_, [], rfl, fun _ found => by cases found⟩
  change (buildRecodeShioriReviewChunks _ _ _).chunks ≠ []
  rw [chunks]
  exact cons_ne_nil _ _

theorem appendEnd_entries (run : Run) (branch : List SessionTreeEntry) (stamps : FinishStamps)
    (lastId : EntryId) :
    ∃ entry messages checkpoint, run.appendEnd branch stamps lastId = branch ++ entry :: messages ∧
      checkpointFromEntry entry = some checkpoint ∧ checkpoint.lastReviewedEntryId = lastId.text ∧
      (∀ message ∈ messages, checkpointFromEntry message = none) ∧
      ((entry :: messages).map (·.id)).Sublist stamps.ids := by
  rw [Run.appendEnd]
  generalize record_eq : Json.obj _ = record
  have recorded (parentId : Option EntryId) : checkpointFromEntry
      ⟨stamps.checkpoint.id, parentId, stamps.checkpoint.timestamp,
        .custom recodeShioriCheckpoint record⟩ =
      some ⟨lastId.text, stamps.reviewedAt, .ofInt run.tally.saved⟩ := by
    rw [← record_eq]
    rfl
  split
  · rw [appendRecodeShioriMessage, appendCustomEntry, appendRecodeShioriMessage,
      appendCustomEntry, appendCustomEntry, append_assoc, append_assoc]
    refine ⟨_, _, _, rfl, recorded _, rfl, ?_, List.Sublist.refl stamps.ids⟩
    intro message member
    rcases mem_cons.mp member with first | second
    · cases first
      rfl
    · cases mem_singleton.mp second
      rfl
  · exact ⟨_, [], _, rfl, recorded _, rfl, fun _ member => (by cases member),
      (nil_sublist _).cons_cons _⟩

/-! ## Whole sequences of runs -/

/-- What holds between the steps on a branch under review. -/
structure Reviewing (state : State) : Prop where
  anchored : Anchored state.branch
  covered : (chunksOfRuns state.succeeded).flatMap (·.entries) =
    (state.branch.take (checkpointEnd state.branch)).filter renders
  cut : ∀ chunk ∈ chunksOfRuns state.succeeded, WellCut chunk
  running : ∀ run, state.running = some run → InProgress state.branch run
  more : ∀ index run result, state.succeeded[index]? = some (run, result) →
    (result.hasMore = false ↔
      ∀ entry ∈ atOrBefore run.branch (pendingEnd run), renders entry = true →
        ∃ chunk ∈ chunksOfRuns (state.succeeded.take (index + 1)), entry ∈ chunk.entries)

theorem Reviewing.append (reviewing : Reviewing state)
    (fresh : entry.id ∉ state.branch.map (·.id)) (other : checkpointFromEntry entry = none) :
    Reviewing { state with branch := state.branch ++ [entry] } := by
  have others : ∀ added ∈ [entry], checkpointFromEntry added = none := by
    intro added member
    rw [mem_singleton.mp member]
    exact other
  have unique : ((state.branch ++ [entry]).map (·.id)).Nodup := by
    rw [map_append]
    refine nodup_append.mpr ⟨reviewing.anchored.unique, pairwise_singleton _ _, ?_⟩
    intro id member added single same
    rw [map_cons, map_nil] at single
    rw [same, mem_singleton.mp single] at member
    exact fresh member
  refine { reviewing with
    anchored := reviewing.anchored.append others unique, covered := ?_, running := ?_ }
  · rw [reviewing.covered, reviewing.anchored.checkpointEnd_append others,
      take_append_of_le_length (checkpointEnd_le _)]
  · intro run running
    exact (reviewing.running run running).append other

/-- A run that succeeds moves the checkpoint to the end of what it has reviewed. -/
theorem Reviewing.finish (reviewing : Reviewing state) {lastId : EntryId}
    {stamps : FinishStamps} (running : state.running = some run) (done : run.remaining = [])
    (last : run.tally.lastReviewedEntryId = some lastId)
    (fresh : ∀ id ∈ stamps.ids, id ∉ state.branch.map (·.id)) (apart : stamps.ids.Nodup) :
    checkpointEnd state.branch ≤ checkpointEnd (run.appendEnd state.branch stamps lastId) ∧
      Reviewing { branch := run.appendEnd state.branch stamps lastId, running := none,
                  succeeded := state.succeeded ++ [(run, run.result lastId)] } := by
  have inProgress := reviewing.running run running
  obtain ⟨front, entry, behind, split, named, reached, upTo⟩ :=
    inProgress.reviewed_upTo done last
  obtain ⟨more, grown, others⟩ := inProgress.grown
  obtain ⟨record, messages, checkpoint, ended, recorded, names, silent, ids⟩ :=
    appendEnd_entries run state.branch stamps lastId
  have branch_eq : run.appendEnd state.branch stamps lastId =
      front ++ entry :: (behind ++ (more ++ record :: messages)) := by
    rw [ended, grown, split]
    simp only [append_assoc, cons_append]
  have unique : ((run.appendEnd state.branch stamps lastId).map (·.id)).Nodup := by
    rw [ended, map_append]
    refine nodup_append.mpr ⟨reviewing.anchored.unique, apart.sublist ids, ?_⟩
    intro id old other new same
    exact fresh id (same ▸ ids.subset new) old
  have found : getRecodeShioriCheckpoint (run.appendEnd state.branch stamps lastId) =
      some checkpoint := by
    rw [ended, append_cons, getRecodeShioriCheckpoint_append _ _ silent,
      getRecodeShioriCheckpoint, reverse_append]
    change (record :: state.branch.reverse).findSome? checkpointFromEntry = _
    rw [findSome?_cons, recorded]
  have named_text : entry.id.text = checkpoint.lastReviewedEntryId := by rw [named, names]
  have position : checkpointEnd (run.appendEnd state.branch stamps lastId) = front.length + 1 := by
    rw [branch_eq] at unique found ⊢
    exact checkpointEnd_at unique found named_text
  have covered : (chunksOfRuns state.succeeded).flatMap (·.entries) =
      (run.branch.take (checkpointEnd run.branch)).filter renders := by
    rw [reviewing.covered, inProgress.take_eq]
  have chunks_eq : chunksOfRuns (state.succeeded ++ [(run, run.result lastId)]) =
      chunksOfRuns state.succeeded ++ run.review.chunks := by
    rw [chunksOfRuns, flatMap_append, flatMap_singleton]
    rfl
  refine ⟨?_, ⟨unique, ?_⟩, ?_, ?_, fun _ present => (by cases present), ?_⟩
  · rw [position, inProgress.checkpointEnd_eq]
    omega
  · intro other present
    cases found.symm.trans present
    exact ⟨entry, branch_eq ▸ mem_append_right _ mem_cons_self, named_text⟩
  · rw [position, branch_eq, chunks_eq, flatMap_append, covered, ← upTo, take_append,
      take_of_length_le (Nat.le_succ _), Nat.add_sub_cancel_left]
    rfl
  · intro chunk member
    rw [chunks_eq] at member
    rcases mem_append.mp member with earlier | own
    · exact reviewing.cut chunk earlier
    · exact inProgress.wellCut own
  · intro index other result present
    by_cases earlier : index < state.succeeded.length
    · rw [getElem?_append_left earlier] at present
      rw [take_append_of_le_length earlier]
      exact reviewing.more index other result present
    rw [getElem?_append_right (Nat.le_of_not_lt earlier), getElem?_singleton] at present
    split at present
    · cases present
      rw [take_of_length_le (by rw [length_append, length_singleton]; omega), chunks_eq]
      exact inProgress.hasMore_iff covered
    · cases present

theorem Step.kept (step : Step state after) (reviewing : Reviewing state) :
    checkpointEnd state.branch ≤ checkpointEnd after.branch ∧ Reviewing after := by
  cases step with
  | append entry fresh other =>
    refine ⟨Nat.le_of_eq ?_, reviewing.append fresh other⟩
    refine (reviewing.anchored.checkpointEnd_append ?_).symm
    intro added member
    rw [mem_singleton.mp member]
    exact other
  | refuse options message idle refused => exact ⟨Nat.le_refl _, reviewing⟩
  | start options run idle started =>
    refine ⟨Nat.le_refl _, { reviewing with running := ?_ }⟩
    intro begun present
    cases present
    exact beginRun_inProgress reviewing.anchored started
  | review run chunk rest candidates running next =>
    refine ⟨Nat.le_refl _, { reviewing with running := ?_ }⟩
    intro advanced present
    cases present
    exact (reviewing.running run running).reviewed next candidates
  | fail run running =>
    exact ⟨Nat.le_refl _, { reviewing with running := fun _ present => by cases present }⟩
  | finish run lastId stamps running done last fresh apart =>
    exact reviewing.finish running done last fresh apart

theorem Reachable.reviewing (reachable : Reachable state) : Reviewing state := by
  induction reachable with
  | initial =>
    exact ⟨⟨nodup_nil, fun _ found => (by cases found)⟩, rfl,
      fun _ member => (by cases member), fun _ present => (by cases present),
      fun _ _ _ present => (by cases present)⟩
  | step _ step ih => exact (step.kept ih).2

theorem Reviewing.forward (reviewing : Reviewing state)
    (steps : Relation.ReflTransGen Step state after) :
    checkpointEnd state.branch ≤ checkpointEnd after.branch ∧ Reviewing after := by
  induction steps with
  | refl => exact ⟨Nat.le_refl _, reviewing⟩
  | tail _ step ih =>
    obtain ⟨further, kept⟩ := step.kept ih.2
    exact ⟨ih.1.trans further, kept⟩

/-- The successful runs have read every entry up to the checkpoint in one chunk, up to what
a chunk may hold of it, and no entry behind it. -/
theorem reviews_coverOnce (reachable : Reachable state) :
    CoveredOnce chunkPart pendingEnd state := by
  have reviewing := reachable.reviewing
  have nodup : ((chunksOfRuns state.succeeded).flatMap (·.entries)).Nodup := by
    rw [reviewing.covered]
    exact (List.Nodup.of_map _ reviewing.anchored.unique).sublist
      (filter_sublist.trans (take_sublist _ _))
  refine ⟨fun later steps => (reviewing.forward steps).1, ?_, ?_, reviewing.more⟩
  · intro entry member text rendered
    have passes : renders entry = true := by rw [renders, rendered, Option.isSome_some]
    have inside : entry ∈ (chunksOfRuns state.succeeded).flatMap (·.entries) := by
      rw [reviewing.covered]
      exact mem_filter.mpr ⟨member, passes⟩
    obtain ⟨chunk, among, inChunk⟩ := mem_flatMap.mp inside
    obtain ⟨before, behind, split⟩ := append_of_mem among
    refine ⟨before, chunk, behind, split, inChunk,
      (reviewing.cut chunk among).contains inChunk rendered, ?_⟩
    intro other elsewhere inOther
    rw [split, flatMap_append, flatMap_cons] at nodup
    obtain ⟨_, ownNodup, apart⟩ := nodup_append.mp nodup
    rcases mem_append.mp elsewhere with earlier | later
    · exact apart entry (mem_flatMap.mpr ⟨other, earlier, inOther⟩) entry
        (mem_append_left _ inChunk) rfl
    · exact (nodup_append.mp ownNodup).2.2 entry inChunk entry
        (mem_flatMap.mpr ⟨other, later, inOther⟩) rfl
  · intro entry behind chunk among inChunk
    have inside := mem_flatMap.mpr ⟨chunk, among, inChunk⟩
    rw [reviewing.covered] at inside
    exact reviewing.anchored.disjoint _ (mem_filter.mp inside).1 behind

/-! ## A long message and an end that is not pending -/

def numbered (number : Nat) (body : EntryBody) : SessionTreeEntry :=
  ⟨.nth 'e' number, none, number, body⟩

def note : SessionTreeEntry := numbered 0 (.custom "note" none)

def shortMessage : SessionTreeEntry := numbered 1 (.message (.user (.text "Use tabs.") 1))

def longText (count : Nat) : String := String.ofList (replicate count 'x')

def longMessage (count : Nat) : SessionTreeEntry :=
  numbered 2 (.message (.user (.text (longText count)) 2))

def noted (count : Nat) : List SessionTreeEntry := [note, shortMessage, longMessage count]

def shortChunk : RecodeShioriReviewChunk := ⟨[shortMessage], "[e1] USER\nUse tabs."⟩

def longChunk (count : Nat) : RecodeShioriReviewChunk :=
  ⟨[longMessage count], chunkPart ("[e2] USER\n" ++ longText count)⟩

theorem trim_longText (count : Nat) : trim (longText count) = longText count := by
  have kept (count : Nat) : (replicate count 'x').dropWhile isTrimmed =
      replicate count 'x' := by
    cases count with
    | zero => rfl
    | succ count =>
      rw [replicate_succ, dropWhile_cons_of_neg]
      decide
  rw [longText, trim, String.toList_ofList, kept, reverse_replicate, kept, reverse_replicate]

theorem utf16Length_append (left right : String) :
    utf16Length (left ++ right) = utf16Length left + utf16Length right := by
  rw [utf16Length, String.toList_append, map_append, sum_append]
  rfl

theorem utf16Length_longText (count : Nat) : utf16Length (longText count) = count := by
  have one : (utf16Units 'x').length = 1 := rfl
  rw [longText, utf16Length_ofList, map_replicate, sum_replicate_nat, one, Nat.mul_one]

theorem utf16Length_le_of_contains {text part : String} (contains : Text.Contains text part) :
    utf16Length part ≤ utf16Length text := by
  obtain ⟨before, behind, split⟩ := contains
  rw [utf16Length, utf16Length, ← split, map_append, map_append, sum_append, sum_append]
  omega

theorem renderEntry_shortMessage : renderEntry shortMessage = some "[e1] USER\nUse tabs." := by
  decide +kernel

variable {count : Nat}

theorem renderEntry_longMessage (long : 24000 ≤ count) :
    renderEntry (longMessage count) = some ("[e2] USER\n" ++ longText count) := by
  have trimmed : trim (inputText (.text (longText count))) = longText count :=
    trim_longText count
  have nonempty : longText count ≠ "" := by
    intro empty
    have length := utf16Length_longText count
    rw [empty] at length
    change 0 = count at length
    omega
  rw [renderEntry, longMessage, numbered]
  simp only [trimmed, if_neg nonempty]
  rfl

theorem utf16Length_rendered (count : Nat) :
    utf16Length ("[e2] USER\n" ++ longText count) = 10 + count := by
  rw [utf16Length_append, utf16Length_longText]
  rfl

theorem chunksOf_noted (long : 24000 ≤ count) :
    chunksOf [shortMessage, longMessage count] = [shortChunk, longChunk count] := by
  have first : ChunkBuilder.push {} shortMessage =
      ⟨[], [shortMessage], ["[e1] USER\nUse tabs."], 21⟩ := by
    rw [ChunkBuilder.push, renderEntry_shortMessage]
    rfl
  have second : ChunkBuilder.push ⟨[], [shortMessage], ["[e1] USER\nUse tabs."], 21⟩
      (longMessage count) = ⟨[shortChunk], [longMessage count], [(longChunk count).transcript],
          0 + (10 + count) + 2⟩ := by
    rw [ChunkBuilder.push, renderEntry_longMessage long, Option.getD_some, ChunkBuilder.room,
      if_pos, utf16Length_rendered]
    · rfl
    · rw [utf16Length_rendered]
      refine ⟨cons_ne_nil _ _, ?_⟩
      change 21 + (10 + count) + 2 > 24000
      omega
  rw [chunksOf, foldl_cons, foldl_cons, foldl_nil, first, second]
  rfl

theorem pendingEntries_noted (long : 24000 ≤ count) :
    pendingEntries (noted count) = [shortMessage, longMessage count] := by
  have short : renders shortMessage = true := by rw [renders, renderEntry_shortMessage]; rfl
  have renders_long : renders (longMessage count) = true := by
    rw [renders, renderEntry_longMessage long]
    rfl
  have none_ : renders note = false := rfl
  change ([note, shortMessage, longMessage count].filter renders) = _
  simp only [filter_cons, none_, short, renders_long, if_true, Bool.false_eq_true, if_false,
    filter_nil]

theorem review_chunks (branch : List SessionTreeEntry) (maxChunks : Option Int)
    (throughEntryId : Option String) :
    (buildRecodeShioriReviewChunks branch maxChunks throughEntryId).chunks =
      sliceChunks (chunksOf (pendingThrough branch throughEntryId))
        (maxChunks.getD shioriMaxChunksPerRun) :=
  rfl

theorem review_hasMore (branch : List SessionTreeEntry) (maxChunks : Option Int)
    (throughEntryId : Option String) :
    (buildRecodeShioriReviewChunks branch maxChunks throughEntryId).hasMore =
      decide (((chunksOf (pendingThrough branch throughEntryId)).length : Int) >
        maxChunks.getD shioriMaxChunksPerRun) :=
  rfl

def runOn (count : Nat) (options : ReviewOptions) : Run :=
  let review := buildRecodeShioriReviewChunks (noted count) options.maxChunks
    options.throughEntryId
  ⟨noted count, options, review, review.chunks, { lastReviewedEntryId := some shortMessage.id }⟩

def stamps : FinishStamps :=
  ⟨⟨.nth 'e' 3, 3⟩, ⟨.nth 'e' 4, 4⟩, ⟨.nth 'e' 5, 5⟩, "2026-07-17T00:01:00.000Z"⟩

def ended (count : Nat) (run : Run) (lastId : EntryId) : State where
  branch := run.appendEnd (noted count) stamps lastId
  succeeded := [(run, run.result lastId)]

/-- A run over both chunks of the branch. -/
def bothOptions : ReviewOptions := { appendMessages := some false }

def bothRun (count : Nat) : Run :=
  ((runOn count bothOptions).reviewed shortChunk [longChunk count] []).reviewed
    (longChunk count) [] []

/-- A run over one chunk, asked to go no further than the note. -/
def noteOptions : ReviewOptions where
  maxChunks := some 1
  throughEntryId := some "e0"
  appendMessages := some false

def noteRun (count : Nat) : Run := (runOn count noteOptions).reviewed shortChunk [] []

theorem reachable_noted (count : Nat) : Reachable { branch := noted count } := by
  have note_ : Reachable { branch := [note] } :=
    .step .initial (.append note not_mem_nil rfl)
  have short : nth 'e' 1 ∉ [nth 'e' 0] := by decide
  have long : nth 'e' 2 ∉ [nth 'e' 0, nth 'e' 1] := by decide
  exact .step (.step note_ (.append shortMessage short rfl)) (.append (longMessage count) long rfl)

theorem fresh_stamps : ∀ id ∈ stamps.ids, id ∉ (noted count).map (·.id) := by
  have fresh : ∀ id ∈ stamps.ids,
      id ∉ [nth 'e' 0, nth 'e' 1, nth 'e' 2] := by decide
  exact fresh

theorem both_chunks (long : 24000 ≤ count) :
    (runOn count bothOptions).review.chunks = [shortChunk, longChunk count] := by
  have all : pendingThrough (noted count) none = pendingEntries (noted count) := rfl
  rw [runOn, review_chunks, bothOptions, all, pendingEntries_noted long, chunksOf_noted long]
  rfl

theorem note_pending (long : 24000 ≤ count) :
    pendingThrough (noted count) (some "e0") = [shortMessage, longMessage count] := by
  have absent : [shortMessage, longMessage count].findIdx? (fun entry => entry.id.text = "e0") =
      none := by
    rw [findIdx?_eq_none_iff]
    intro entry member
    rcases mem_cons.mp member with short | long_
    · rw [short]
      decide
    · rw [mem_singleton.mp long_]
      exact of_decide_eq_true rfl
  rw [pendingThrough, pendingEntries_noted long, truthy_some (by decide), Option.bind_some,
    absent]

theorem note_chunks (long : 24000 ≤ count) :
    (runOn count noteOptions).review.chunks = [shortChunk] ∧
      (runOn count noteOptions).review.hasMore = true := by
  constructor
  · rw [runOn, review_chunks, noteOptions, note_pending long, chunksOf_noted long]
    rfl
  · rw [runOn, review_hasMore, noteOptions, note_pending long, chunksOf_noted long]
    rfl

theorem reachable_running {options : ReviewOptions} {rest : List RecodeShioriReviewChunk}
    (allowed : options.enabled = true ∧ options.projectTrusted = true)
    (chunks : (runOn count options).review.chunks = shortChunk :: rest) :
    Reachable { branch := noted count, running := some (runOn count options) } := by
  refine .step (reachable_noted count) (.start options (some (runOn count options)) rfl ?_)
  have review_chunks : (buildRecodeShioriReviewChunks (noted count) options.maxChunks
      options.throughEntryId).chunks = shortChunk :: rest := chunks
  rw [beginRun, allowed.1, allowed.2]
  simp only [Bool.not_true, Bool.false_eq_true, if_false]
  rw [review_chunks]
  simp only [runOn, review_chunks]
  rfl

theorem runOn_remaining (count : Nat) (options : ReviewOptions) :
    (runOn count options).remaining = (runOn count options).review.chunks :=
  rfl

theorem reachable_both (long : 24000 ≤ count) :
    Reachable (ended count (bothRun count) (longMessage count).id) := by
  have chunks := both_chunks long
  have running := reachable_running ⟨rfl, rfl⟩ chunks
  have first := Reachable.step running (.review _ shortChunk [longChunk count] [] rfl
    ((runOn_remaining _ _).trans chunks))
  have second := Reachable.step first (.review _ (longChunk count) [] [] rfl rfl)
  exact .step second (.finish (bothRun count) (longMessage count).id stamps rfl rfl rfl
    fresh_stamps (by decide))

theorem reachable_note (long : 24000 ≤ count) :
    Reachable (ended count (noteRun count) shortMessage.id) := by
  have chunks := (note_chunks long).1
  have running := reachable_running ⟨rfl, rfl⟩ chunks
  have first := Reachable.step running (.review _ shortChunk [] [] rfl
    ((runOn_remaining _ _).trans chunks))
  exact .step first (.finish (noteRun count) shortMessage.id stamps rfl rfl rfl fresh_stamps
    (by decide))

theorem both_checkpointEnd (count : Nat) :
    checkpointEnd (ended count (bothRun count) (longMessage count).id).branch = 3 := by
  have found : getRecodeShioriCheckpoint
      (ended count (bothRun count) (longMessage count).id).branch =
        some ⟨(longMessage count).id.text, stamps.reviewedAt, .ofInt 0⟩ := rfl
  have unique : [nth 'e' 0, nth 'e' 1, nth 'e' 2,
      nth 'e' 3].Nodup := by decide
  exact @checkpointEnd_at [note, shortMessage] _ (longMessage count) unique _ found rfl

theorem both_incomplete (long : 24000 ≤ count) (requestedEnd : Run → Option String) :
    ¬ CoveredOnce id requestedEnd (ended count (bothRun count) (longMessage count).id) := by
  intro covered
  have member : longMessage count ∈ (ended count (bothRun count) (longMessage count).id).branch.take
      (checkpointEnd (ended count (bothRun count) (longMessage count).id).branch) := by
    rw [both_checkpointEnd]
    exact mem_cons_of_mem _ (mem_cons_of_mem _ mem_cons_self)
  obtain ⟨before, chunk, behind, split, inChunk, contains, _⟩ :=
    covered.once _ member _ (renderEntry_longMessage long)
  have own : chunksOfRuns (ended count (bothRun count) (longMessage count).id).succeeded =
      [shortChunk, longChunk count] := by
    rw [← both_chunks long, chunksOfRuns, ended, flatMap_singleton]
    rfl
  have among : chunk ∈ [shortChunk, longChunk count] := by
    rw [← own, split]
    exact mem_append_right _ mem_cons_self
  rcases mem_cons.mp among with short | long_
  · rw [short] at inChunk
    cases congrArg SessionTreeEntry.timestamp (mem_singleton.mp inChunk)
  have transcript : (longChunk count).transcript =
      chunkPart ("[e2] USER\n" ++ longText count) := rfl
  rw [mem_singleton.mp long_, transcript, id_eq] at contains
  have longer := utf16Length_le_of_contains contains
  have clipped := utf16Length_sliceFront_le ("[e2] USER\n" ++ longText count)
    shioriChunkCharacters
  rw [chunkPart] at longer
  have whole := utf16Length_rendered count
  rw [shioriChunkCharacters] at longer clipped
  omega

/-- A run whose requested end is no pending entry goes on behind it, and says so. -/
theorem note_passed (long : 24000 ≤ count) (part : String → String) :
    ¬ CoveredOnce part (fun run => run.options.throughEntryId)
      (ended count (noteRun count) shortMessage.id) := by
  intro covered
  have only : (ended count (noteRun count) shortMessage.id).succeeded[0]? =
      some (noteRun count, (noteRun count).result shortMessage.id) := by
    rw [ended, getElem?_cons_zero]
  have more := covered.more 0 _ _ only
  have hasMore : ((noteRun count).result shortMessage.id).hasMore = true := by
    simp only [Run.result, noteRun, Run.reviewed, (note_chunks long).2]
  rw [hasMore] at more
  have upTo : atOrBefore (noted count) (some "e0") = [note] := by
    rw [atOrBefore, Option.bind_some, noted, findIdx?_cons, if_pos (by decide)]
    rfl
  have nothing : ∀ entry ∈ atOrBefore (noted count) (some "e0"), renders entry = true →
      ∃ chunk ∈ chunksOfRuns ((ended count (noteRun count) shortMessage.id).succeeded.take 1),
        entry ∈ chunk.entries := by
    intro entry member passes
    rw [upTo] at member
    rw [mem_singleton.mp member] at passes
    cases passes
  cases more.mpr nothing

/-- Complete texts, the requested end as it is given, and both together are too much. -/
theorem not_reviews_coverOnce :
    (¬ ∀ state, Reachable state → CoveredOnce id (fun run => run.options.throughEntryId) state) ∧
      (¬ ∀ state, Reachable state → CoveredOnce id pendingEnd state) ∧ ¬ ∀ state, Reachable state →
        CoveredOnce chunkPart (fun run => run.options.throughEntryId) state := by
  have long : 24000 ≤ 24000 := Nat.le_refl _
  refine ⟨?_, ?_, ?_⟩
  · intro all
    exact both_incomplete long _ (all _ (reachable_both long))
  · intro all
    exact both_incomplete long _ (all _ (reachable_both long))
  · intro all
    exact note_passed long _ (all _ (reachable_note long))

theorem reviews_coverOnce_twoChunks :
    CoveredOnce chunkPart pendingEnd (ended 24000 (bothRun 24000) (longMessage 24000).id) :=
  reviews_coverOnce (reachable_both (Nat.le_refl _))

end Recode.Shiori

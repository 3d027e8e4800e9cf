import Recode.Lib.Paging
import Recode.SessionV4.ForkReads

/-! # Paging through a session

A client that wants all entries of a query, all entries of a branch or the whole log asks for
one page at a time and passes the number of the last item it was given. Together the pages are
the unpaged answer. Entries and log items that are added between two pages are read as well,
if the order is that of their adding. -/

namespace Recode.SessionV4
namespace SessionState

open Paging List

variable {state : SessionState} {Item : Type}
  {pages : SessionState → Option Int → Except SessionError (List Item)} (keep bound : Item → Bool)

theorem collect_unlimited (results items : List Item) :
    (collect keep bound none results items).1 =
      results ++ (takeThrough bound items).filter keep := by
  induction items generalizing results with
  | nil => simp [collect, takeThrough]
  | cons item items ih =>
    simp only [collect, takeThrough, reduceCtorEq, decide_false, Bool.or_false]
    cases stops : bound item <;> cases kept : keep item <;> simp [ih, kept]

theorem collect_limited {limit : Nat}
    {results : List Item} (room : results.length < limit) (items : List Item) :
    (collect keep bound (some (limit : Int)) results items).1 =
      results ++ ((takeThrough bound items).filter keep).take (limit - results.length) := by
  have full : ∀ found : List Item, decide (some (limit : Int) = some (found.length : Int)) =
      decide (limit = found.length) := by
    intro found
    simp only [Option.some.injEq, Nat.cast_inj]
  induction items generalizing results with
  | nil => simp [collect, takeThrough]
  | cons item items ih =>
    simp only [collect, takeThrough, full]
    cases kept : keep item with
    | false =>
      have notFull : limit ≠ results.length := Nat.ne_of_gt room
      cases stops : bound item <;> simp [notFull, ih room, kept]
    | true =>
      have size : (results ++ [item]).length = results.length + 1 := by
        rw [length_append, length_singleton]
      have left : limit - results.length = (limit - (results.length + 1)) + 1 := by omega
      rw [left]
      by_cases last : limit = results.length + 1
      · cases stops : bound item <;> simp [← last, size, kept]
      · have further := @ih (results ++ [item]) (by omega)
        rw [size] at further
        cases stops : bound item <;> simp [last, size, further, kept]

/-- The numbers that come later in an order. -/
def comesAfter (order : Option EntryOrder) (last seq : Int) : Bool :=
  if order = some .oldestFirst then decide (last < seq) else decide (seq < last)

def unpaged (query : EntryQuery) : EntryQuery := { query with limit := none, afterSeq := none }

def paged (query : EntryQuery) (limit : Nat) (cursor : Option Int) : EntryQuery :=
  { query with limit := some (limit : Int), afterSeq := cursor }

theorem matches_paged (query : EntryQuery) (limit : Nat) (cursor : Option Int) (entry : Entry) :
    matchesEntryQuery entry (paged query limit cursor) =
      (cursor.all (comesAfter query.order · entry.seq) &&
        matchesEntryQuery entry (unpaged query)) := by
  have order : (fun afterSeq : Int =>
      if query.order = some .oldestFirst then decide ((entry.seq : Int) > afterSeq)
      else decide ((entry.seq : Int) < afterSeq)) = (comesAfter query.order · entry.seq) := by
    funext afterSeq
    rw [comesAfter]
  simp only [matchesEntryQuery, paged, unpaged, Option.all_none, Bool.and_true]
  rw [Bool.and_comm]
  exact congrArg₂ (· && ·) (congrArg cursor.all order) rfl

variable {limit : Nat} {seqOf : Item → Nat}

theorem collect_paged (positive : 0 < limit)
    (items : List Item) : (collect keep bound (some (limit : Int)) [] items).1 =
      ((takeThrough bound items).filter keep).take limit := by
  have cut := @collect_limited Item keep bound limit [] positive items
  rwa [nil_append, length_nil, Nat.sub_zero] at cut

/-- A page of a listing that is ordered by its numbers holds the first items behind the
cursor. -/
theorem filter_paged (query : EntryQuery) (limit : Nat) {entries given rest : List Entry}
    (ordered : entries.Pairwise fun entry later =>
      comesAfter query.order entry.seq later.seq)
    (listed : entries.filter (matchesEntryQuery · (unpaged query)) = given ++ rest) :
    entries.filter (matchesEntryQuery ·
      (paged query limit (given.getLast?.map fun entry => (entry.seq : Int)))) = rest := by
  have transitive : ∀ first second third, comesAfter query.order first second →
      comesAfter query.order second third → comesAfter query.order first third := by
    intro first second third before after
    unfold comesAfter at before after ⊢
    split at before <;> simp_all <;> omega
  have irreflexive : ∀ seq, comesAfter query.order seq seq = false := by
    intro seq
    unfold comesAfter
    split <;> simp
  have kept := ordered.filter (matchesEntryQuery · (unpaged query))
  rw [listed] at kept
  have behind := @filter_behind Entry Int (fun entry => (entry.seq : Int)) _ transitive
    irreflexive _ _ kept
  simp only [matches_paged]
  rw [← filter_filter, listed]
  exact behind

theorem assertValidCursor_seq (seqOf : Item → Nat) (given : List Item) :
    assertValidCursor (given.getLast?.map fun item => (seqOf item : Int)) = .ok () := by
  rw [assertValidCursor, if_neg]
  cases given.getLast? with
  | none => simp
  | some last => simp

theorem assertValidLimit_positive (positive : 0 < limit) :
    assertValidLimit (some (limit : Int)) = .ok () := by
  rw [assertValidLimit, if_neg]
  simp
  omega

def listing (query : EntryQuery) (state : SessionState) : List Entry :=
  (ordered state.entries query.order).filter (matchesEntryQuery · (unpaged query))

theorem findEntries_unpaged (state : SessionState) (query : EntryQuery) :
    state.findEntries (unpaged query) = .ok (listing query state) := by
  have all := collect_unlimited (matchesEntryQuery · (unpaged query)) (fun _ => false) []
    (ordered state.entries query.order)
  rw [takeThrough_never fun _ _ => rfl, nil_append] at all
  exact congrArg Except.ok all

theorem Projected.ordered_comesAfter (projected : state.Projected)
    (order : Option EntryOrder) : (ordered state.entries order).Pairwise fun entry later =>
      comesAfter order entry.seq later.seq := by
  unfold ordered comesAfter
  split
  · refine projected.entries_ordered.imp fun before => ?_
    simpa using before
  · rw [pairwise_reverse]
    refine projected.entries_ordered.imp fun before => ?_
    simpa using before

theorem Projected.findEntries_gives (projected : state.Projected)
    (query : EntryQuery) (positive : 0 < limit) :
    GivesPages (fun state cursor => state.findEntries (paged query limit cursor))
      (fun entry => (entry.seq : Int)) (listing query) limit state := by
  intro given rest listed
  have page := filter_paged query limit (projected.ordered_comesAfter query.order) listed
  simp only [findEntries, paged]
  rw [assertValidLimit_positive positive, assertValidCursor_seq]
  change Except.ok (collect (matchesEntryQuery · (paged query limit _)) _ _ [] _).1 = _
  rw [collect_paged _ _ positive, takeThrough_never fun _ _ => rfl, page]

theorem takeThrough_sublist (stop : Item → Bool) (items : List Item) :
    (takeThrough stop items).Sublist items := by
  induction items with
  | nil => exact .slnil
  | cons item items ih =>
    rw [takeThrough]
    split
    · exact (nil_sublist items).cons_cons item
    · exact ih.cons_cons item

def branchEntries (order : Option EntryOrder) (bounds : BranchBounds) (path : List Entry) :
    List Entry :=
  takeThrough (reachedBound bounds) (if order = some .oldestFirst then path.reverse else path)

/-- What a query along a branch lists without a limit and a cursor. -/
def branchListing (query : EntryQuery) (bounds : BranchBounds) (path : List Entry) : List Entry :=
  (branchEntries query.order bounds path).filter (matchesEntryQuery · (unpaged query))

theorem branchAnswer_unpaged (path : List Entry) (query : EntryQuery) (bounds : BranchBounds) :
    branchAnswer path (unpaged query) bounds = branchListing query bounds path := by
  have asked : (unpaged query).order = query.order := rfl
  have free : (unpaged query).limit = none := rfl
  rw [branchAnswer, branchListing, branchEntries, asked, free]
  by_cases oldest : query.order = some .oldestFirst
  · rw [if_pos oldest, if_pos oldest, collect_unlimited, nil_append]
  · rw [if_neg oldest, if_neg oldest, collect_unlimited, takeThrough_never fun _ _ => rfl,
      nil_append]

theorem branchAnswer_paged (path : List Entry) (query : EntryQuery) (bounds : BranchBounds)
    (positive : 0 < limit) (cursor : Option Int) :
    branchAnswer path (paged query limit cursor) bounds =
      ((branchEntries query.order bounds path).filter
        (matchesEntryQuery · (paged query limit cursor))).take limit := by
  have asked : (paged query limit cursor).order = query.order := rfl
  have cut : (paged query limit cursor).limit = some (limit : Int) := rfl
  rw [branchAnswer, branchEntries, asked, cut]
  by_cases oldest : query.order = some .oldestFirst
  · rw [if_pos oldest, if_pos oldest, collect_paged _ _ positive]
  · rw [if_neg oldest, if_neg oldest, collect_paged _ _ positive, takeThrough_never fun _ _ => rfl]

theorem branchEntries_comesAfter (order : Option EntryOrder) {path : List Entry}
    (bounds : BranchBounds)
    (numbered : path.reverse.Pairwise fun older newer => older.seq < newer.seq) :
    (branchEntries order bounds path).Pairwise fun entry later =>
      comesAfter order entry.seq later.seq := by
  apply List.Pairwise.sublist (takeThrough_sublist _ _)
  unfold comesAfter
  split
  · refine numbered.imp fun before => ?_
    simpa using before
  · rw [pairwise_reverse] at numbered
    refine numbered.imp fun before => ?_
    simpa using before

theorem Projected.findEntriesOnBranch_pages (projected : state.Projected)
    {entry : Entry} (stored : entry ∈ state.entries) (query : EntryQuery) (bounds : BranchBounds)
    (positive : 0 < limit) :
    ∃ listed, state.findEntriesOnBranch (unpaged query) bounds entry.id = .ok listed ∧
      (listed.Pairwise fun entry later => comesAfter query.order entry.seq later.seq) ∧
      GivesPages (fun state cursor =>
          state.findEntriesOnBranch (paged query limit cursor) bounds entry.id)
        (fun entry => (entry.seq : Int)) (fun _ => listed) limit state := by
  obtain ⟨path, chain, -, -, along⟩ := projected.exists_chain stored
  have numbered := projected.entries_ordered.sublist along
  have ordered := branchEntries_comesAfter query.order bounds numbered
  refine ⟨branchListing query bounds path, ?_, ordered.filter _, ?_⟩
  · rw [projected.findEntriesOnBranch_eq stored chain, branchAnswer_unpaged]
    rfl
  · intro given rest listed
    have page := filter_paged query limit ordered listed
    simp only []
    rw [projected.findEntriesOnBranch_eq stored chain, branchAnswer_paged _ _ _ positive, page]
    simp only [paged]
    rw [assertValidLimit_positive positive, assertValidCursor_seq]
    rfl

theorem Projected.getLog_gives (projected : state.Projected) (positive : 0 < limit) :
    GivesPages (fun state cursor => state.getLog cursor (some (limit : Int)))
      (fun item => (item.seq : Int)) (·.log) limit state := by
  intro given rest listed
  change state.log = given ++ rest at listed
  have numbered : state.log.Pairwise fun item later =>
      decide ((item.seq : Int) < (later.seq : Int)) = true := by
    have ordered : (state.log.map LogItem.seq).Pairwise (· < ·) := by
      rw [projected.sequence]
      exact pairwise_lt_range'
    refine (pairwise_map.mp ordered).imp fun before => ?_
    simpa using before
  rw [listed] at numbered
  have behind := @filter_behind LogItem Int (fun item => (item.seq : Int))
    (fun last seq => decide (last < seq))
    (by
      intro first second third before after
      rw [decide_eq_true_eq] at before after ⊢
      exact before.trans after)
    (fun seq => by simp) _ _ numbered
  simp only [getLog]
  rw [assertValidLimit_positive positive, assertValidCursor_seq]
  change Except.ok (collect _ _ _ [] _).1 = _
  rw [collect_paged _ _ positive, takeThrough_never fun _ _ => rfl, listed]
  exact congrArg (fun behind => Except.ok (List.take limit behind)) behind

theorem getLog_unpaged (state : SessionState) : state.getLog none none = .ok state.log := by
  have all := collect_unlimited (fun item : LogItem =>
    (none : Option Int).all ((item.seq : Int) > ·)) (fun _ => false) [] state.log
  rw [takeThrough_never fun _ _ => rfl, nil_append] at all
  rw [filter_eq_self.mpr fun _ _ => Option.all_none] at all
  exact congrArg Except.ok all

/-- Mutations keep what is stored and add to its end. -/
theorem Projected.attemptAll_extends (projected : state.Projected)
    (invalid : String → SessionError) (mutations : List SessionMutation) :
    (state.attemptAll invalid mutations).Projected ∧
      state.entries <+: (state.attemptAll invalid mutations).entries ∧
      state.log <+: (state.attemptAll invalid mutations).log := by
  refine @attemptAll_induction invalid (fun after =>
    after.Projected ∧ state.entries <+: after.entries ∧ state.log <+: after.log) state
    ⟨projected, prefix_rfl, prefix_rfl⟩ ?_ mutations
  intro after mutation extended accepted
  obtain ⟨still, entries, log⟩ := extended
  refine ⟨still.applied accepted, ?_, ?_⟩
  · rw [applied_entries]
    exact entries.trans (prefix_append _ _)
  · rw [applied_log]
    exact log.trans (prefix_append _ _)

/-- Reading pages until one is empty gives what the unpaged query answers in the state in which
the reading stops, each item once. -/
def PagesThrough {Item : Type} (pages : SessionState → Option Int → Except SessionError (List Item))
    (whole : SessionState → Except SessionError (List Item)) (seqOf : Item → Nat)
    (changes : List (SessionState → SessionState)) (state : SessionState) : Prop :=
  ∃ count rounds, (∀ fuel, rounds ≤ fuel →
      readPages pages (fun item => (seqOf item : Int)) fuel changes state none =
        some ((whole (afterChanges (changes.take count) state)).map fun all =>
          (all, afterChanges (changes.take count) state))) ∧
    ∀ all, whole (afterChanges (changes.take count) state) = .ok all → (all.map seqOf).Nodup

theorem pagesThrough_of_readsOn {whole : SessionState → Except SessionError (List Item)}
    (items : SessionState → List Item) {changes : List (SessionState → SessionState)}
    {state : SessionState}
    (reads : ReadsOn pages (fun item => (seqOf item : Int)) items changes state [])
    (answers : ∀ count, whole (afterChanges (changes.take count) state) =
      .ok (items (afterChanges (changes.take count) state)))
    (distinct : ∀ count, ((items (afterChanges (changes.take count) state)).map seqOf).Nodup) :
    PagesThrough pages whole seqOf changes state := by
  obtain ⟨rounds, count, more, listed, reads⟩ := reads
  rw [nil_append] at listed
  refine ⟨count, rounds, ?_, ?_⟩
  · intro fuel enough
    rw [answers, listed]
    exact reads fuel enough
  · intro all answered
    rw [answers, Except.ok.injEq] at answered
    exact answered ▸ distinct count

theorem pagesThrough_of_error {whole : SessionState → Except SessionError (List Item)}
    {changes : List (SessionState → SessionState)} {state : SessionState} {error : SessionError}
    (fails : pages state none = .error error) (failsWhole : whole state = .error error) :
    PagesThrough pages whole seqOf changes state := by
  refine ⟨0, 1, ?_, ?_⟩
  · intro fuel enough
    obtain ⟨fuel, rfl⟩ := Nat.exists_eq_succ_of_ne_zero (Nat.ne_of_gt enough)
    rw [readPages, fails]
    change _ = some (Except.map _ (whole state))
    rw [failsWhole]
    rfl
  · intro all answered
    change whole state = _ at answered
    rw [failsWhole] at answered
    cases answered

theorem nodup_of_comesAfter {order : Option EntryOrder} {entries : List Entry}
    (ordered : entries.Pairwise fun entry later => comesAfter order entry.seq later.seq) :
    (entries.map (·.seq)).Nodup := by
  rw [List.Nodup, pairwise_map]
  refine ordered.imp fun {entry later} before same => ?_
  unfold comesAfter at before
  rw [same] at before
  split at before <;> simp at before

def mutationChanges (invalid : String → SessionError) (between : List (List SessionMutation)) :
    List (SessionState → SessionState) :=
  between.map fun mutations state => state.attemptAll invalid mutations

theorem Projected.afterChanges (projected : state.Projected)
    (invalid : String → SessionError) (between : List (List SessionMutation)) (count : Nat) :
    (afterChanges ((mutationChanges invalid between).take count) state).Projected := by
  rw [mutationChanges, ← map_take]
  induction between.take count generalizing state with
  | nil => exact projected
  | cons mutations between ih => exact ih (projected.attemptAll_extends invalid mutations).1

theorem Projected.readsOn_mutations {items : SessionState → List Item} (positive : 0 < limit)
    (gives : ∀ state : SessionState, state.Projected →
      GivesPages pages (fun item => (seqOf item : Int)) items limit state)
    (invalid : String → SessionError) (grows : ∀ (state : SessionState) mutations,
      state.Projected → items state <+: items (state.attemptAll invalid mutations))
    {state : SessionState} (projected : state.Projected) (between : List (List SessionMutation)) :
    ReadsOn pages (fun item => (seqOf item : Int)) items (mutationChanges invalid between)
      state [] := by
  refine readsOn_growing positive gives ?_ projected (nil_append _).symm
  intro change member state still
  obtain ⟨mutations, -, rfl⟩ := mem_map.mp member
  exact ⟨(still.attemptAll_extends invalid mutations).1, grows state mutations still⟩

theorem listing_grows {query : EntryQuery} (oldest : query.order = some .oldestFirst)
    {state after : SessionState} (more : state.entries <+: after.entries) :
    listing query state <+: listing query after := by
  unfold listing ordered
  rw [if_pos oldest, if_pos oldest]
  exact more.filter _

theorem findEntriesOnBranch_missing {start : String} (missing : state.entriesById.get? start = none)
    (query : EntryQuery) (bounds : BranchBounds) (limited : assertValidLimit query.limit = .ok ())
    (placed : assertValidCursor query.afterSeq = .ok ()) :
    state.findEntriesOnBranch query bounds start =
      .error ⟨.notFound, s!"Entry not found: {start}"⟩ := by
  have walk : ∀ bounds, state.walkToRoot (some start) bounds =
      ⟨[], some ⟨.notFound, s!"Entry not found: {start}"⟩⟩ := by
    intro bounds
    simp only [walkToRoot, missing]
  rw [findEntriesOnBranch, limited, placed]
  by_cases oldest : query.order = some .oldestFirst
  · rw [if_pos oldest, walk]
    rfl
  · rw [if_neg oldest, walk]
    rfl

/-- Paging visits everything once: all entries of a query, all entries of a branch up to its
bounds, and the whole log. Mutations between the pages of the log, or of all entries with the
oldest first, are visited too. What the unpaged queries answer is said by `findEntries_unpaged`,
`branchAnswer_unpaged` and `getLog_unpaged`. -/
theorem paging_complete (invalid : String → SessionError) (mutations : List SessionMutation)
    (query : EntryQuery) (bounds : BranchBounds) (start : String) {limit : Nat}
    (positive : 0 < limit) (between : List (List SessionMutation)) :
    PagesThrough (fun state cursor => state.findEntries (paged query limit cursor))
        (·.findEntries (unpaged query)) (·.seq) [] (initial.attemptAll invalid mutations) ∧
      PagesThrough
        (fun state cursor => state.findEntriesOnBranch (paged query limit cursor) bounds start)
        (·.findEntriesOnBranch (unpaged query) bounds start) (·.seq) []
        (initial.attemptAll invalid mutations) ∧
      PagesThrough (fun state cursor => state.getLog cursor (some (limit : Int)))
        (·.getLog none none) (·.seq) (mutationChanges invalid between)
        (initial.attemptAll invalid mutations) ∧ (query.order = some .oldestFirst →
        PagesThrough (fun state cursor => state.findEntries (paged query limit cursor))
          (·.findEntries (unpaged query)) (·.seq) (mutationChanges invalid between)
          (initial.attemptAll invalid mutations)) := by
  have projected := attemptAll_projected invalid mutations
  generalize initial.attemptAll invalid mutations = state at projected ⊢
  have listed (state : SessionState) (still : state.Projected) :
      ((listing query state).map (·.seq)).Nodup :=
    nodup_of_comesAfter ((still.ordered_comesAfter query.order).filter _)
  refine ⟨?_, ?_, ?_, ?_⟩
  · apply pagesThrough_of_readsOn (listing query)
    · exact readsOn_unchanged positive (projected.findEntries_gives query positive) rfl
    · exact fun _ => findEntries_unpaged _ query
    · intro count
      rw [take_nil]
      exact listed state projected
  · cases found : state.entriesById.get? start with
    | none =>
      apply pagesThrough_of_error
      · exact findEntriesOnBranch_missing found _ bounds (assertValidLimit_positive positive) rfl
      · exact findEntriesOnBranch_missing found _ bounds rfl rfl
    | some entry =>
      obtain ⟨stored, rfl⟩ := (projected.wellFormed.indexed start entry).mp found
      obtain ⟨items, whole, ordered, gives⟩ :=
        projected.findEntriesOnBranch_pages stored query bounds positive
      apply pagesThrough_of_readsOn fun _ => items
      · exact readsOn_unchanged positive gives rfl
      · intro count
        rw [take_nil]
        exact whole
      · exact fun _ => nodup_of_comesAfter ordered
  · apply pagesThrough_of_readsOn (·.log)
    · exact projected.readsOn_mutations positive (fun _ still => still.getLog_gives positive)
          invalid
        (fun _ mutations still => (still.attemptAll_extends invalid mutations).2.2) between
    · exact fun _ => getLog_unpaged _
    · intro count
      rw [(projected.afterChanges invalid between count).sequence]
      exact nodup_range'
  · intro oldest
    apply pagesThrough_of_readsOn (listing query)
    · exact projected.readsOn_mutations positive
        (fun _ still => still.findEntries_gives query positive) invalid
        (fun _ mutations still =>
          listing_grows oldest (still.attemptAll_extends invalid mutations).2.1) between
    · exact fun _ => findEntries_unpaged _ query
    · exact fun count => listed _ (projected.afterChanges invalid between count)

/-- Custom entries of a branch, one by one, and the log while the session is named. -/
theorem paging_complete_labelled :
    PagesThrough (fun state cursor => state.findEntriesOnBranch
        (paged { type := some .custom } 1 cursor) { stopAtId := some "m1" } "m1")
      (·.findEntriesOnBranch (unpaged { type := some .custom }) { stopAtId := some "m1" } "m1")
      (·.seq) [] (initial.attemptAll invalidMutation labelledMessage) ∧
    PagesThrough (fun state cursor => state.getLog cursor (some ((1 : Nat) : Int)))
      (·.getLog none none) (·.seq)
      (mutationChanges invalidMutation [[.fact 3 (.name "named")], [.fact 4 (.name "renamed")]])
      (initial.attemptAll invalidMutation labelledMessage) :=
  have complete := paging_complete invalidMutation labelledMessage { type := some .custom }
    { stopAtId := some "m1" } "m1" Nat.one_pos
    [[.fact 3 (.name "named")], [.fact 4 (.name "renamed")]]
  ⟨complete.2.1, complete.2.2.1⟩

end SessionState
end Recode.SessionV4

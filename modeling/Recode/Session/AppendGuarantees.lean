import Recode.Session.AppendRuns
import Recode.Session.Fork
import Recode.Session.SqliteBranch

/-! # Appends on one branch

Appends that are not awaited end up on one branch exactly when each of them reads
the leaf after the one before it has published its entry. Otherwise two entries
share a parent, and the branch of the leaf misses one of them. -/

namespace Recode.Appends

open InMemorySessionStorage SqliteSessionStorage List Option JsonlSessionStorage GrownTree
open InsertionMap

variable {entries : List SessionTreeEntry} {final : Appends} {more : List SessionTreeEntry}

theorem leafIdAfter_append (noLeaf : ∀ entry ∈ more, ∀ targetId, entry.body ≠ .leaf targetId) :
    leafIdAfter (entries ++ more) =
      (more.getLast?.map SessionTreeEntry.id).or (leafIdAfter entries) := by
  rcases more.eq_nil_or_concat' with rfl | ⟨older, last, rfl⟩
  · rw [append_nil]
    rfl
  rw [← append_assoc, Appended.leafIdAfter_append_singleton, getLast?_concat,
    map_some, some_or, leafIdAfterEntry]
  split
  · next targetId body => exact absurd body (noLeaf last (by simp) targetId)
  · rfl

variable {steps : List AppendStep} {appends : Appends}

theorem Ran.appended_noLeaf (ran : Ran (.loadJsonlStorage entries) steps appends) :
    ∀ entry ∈ appends.appended, ∀ targetId, entry.body ≠ .leaf targetId := by
  intro entry member
  obtain ⟨⟨caller, published⟩, listed, rfl⟩ := mem_map.mp member
  apply ran.noLeaf caller
  rw [(ran.mem_resolved_iff caller published).mp listed]
  rfl

/-! ## Appends in order -/

/-- Every entry was appended under the one before it, and the file has the entries in the same
order. -/
structure InOrder (entries : List SessionTreeEntry) (appends : Appends) : Prop where
  linked : GrownTree.LinkedFrom SessionTreeEntry.id SessionTreeEntry.parentId
    (leafIdAfter entries) appends.appended
  file : (appends.storage.file = entries ++ appends.appended ∧
      ∀ caller entry, appends.phase caller ≠ .written entry) ∨
    ∃ caller entry, appends.phase caller = .written entry ∧
      (∀ other written, appends.phase other = .written written → other = caller) ∧
      appends.storage.file = entries ++ appends.appended ++ [entry]

theorem inOrder_start : InOrder entries (start (.loadJsonlStorage entries)) where
  linked := trivial
  file := Or.inl ⟨(append_nil entries).symm, fun _ _ never => nomatch never⟩

/-- A step that neither writes nor publishes keeps the order. -/
theorem InOrder.keep {appends next : Appends} (inOrder : InOrder entries appends)
    (storage : next.storage = appends.storage) (resolved : next.resolved = appends.resolved)
    (written : ∀ caller entry, next.phase caller = .written entry ↔
      appends.phase caller = .written entry) : InOrder entries next where
  linked := by
    rw [appended, resolved]
    exact inOrder.linked
  file := by
    simp only [ne_eq, written, storage, appended, resolved]
    exact inOrder.file

theorem advance_written_iff {caller : Nat} {phase : AppendPhase}
    (before : ∀ entry, appends.phase caller ≠ .written entry)
    (after : ∀ entry, phase ≠ .written entry) (other : Nat) (entry : SessionTreeEntry) :
    (appends.advance caller phase).phase other = .written entry ↔
      appends.phase other = .written entry := by
  by_cases same : other = caller
  · subst same
    rw [advance_self]
    exact ⟨fun written => absurd written (after entry),
      fun written => absurd written (before entry)⟩
  · rw [advance_of_ne _ _ same]

section Ordered

variable {total done todo : List AppendStep} {appends : Appends}
  (ordered : ReadsAfterPublication total) (whole : total = done ++ todo)
  (ran : Ran (.loadJsonlStorage entries) done appends)
include ordered whole ran

theorem exists_seen {caller : Nat} {parentId : Option EntryId}
    (read : (appends.phase caller).parent? = some parentId)
    (unresolved : ∀ entry, appends.phase caller ≠ .resolved entry)
    (resolves : .publish caller ∈ total) :
    ∃ seen : Appends, parentId = leafIdAfter (entries ++ seen.appended) ∧
      seen.resolved <+: appends.resolved ∧
      ∀ other ≠ caller, (appends.phase other).parent?.isSome = true → .publish other ∈ total →
        ∃ entry, (other, entry) ∈ seen.resolved := by
  obtain ⟨before, seen, after, rfl, reached, -, leaf, kept⟩ := ran.read read
  have unpublished : .publish caller ∉ before ++ .getLeafId caller :: after := by
    rw [ran.publish_mem_iff]
    rintro ⟨entry, resolved⟩
    exact unresolved entry resolved
  refine ⟨seen, leaf, kept, ?_⟩
  intro other different read' resolves'
  obtain ⟨above, readAbove⟩ := isSome_iff_exists.mp read'
  obtain ⟨before', -, after', same, -⟩ := ran.read readAbove
  have listed : .getLeafId other ∈ before ++ .getLeafId caller :: after := by
    rw [same]
    simp
  have published := published_before ordered whole resolves unpublished different listed resolves'
  obtain ⟨entry, resolved⟩ := (reached.publish_mem_iff other).mp published
  exact ⟨entry, (reached.mem_resolved_iff other entry).mpr resolved⟩

theorem parent_eq_leaf {caller : Nat} {entry : SessionTreeEntry}
    (written : appends.phase caller = .written entry) (resolves : .publish caller ∈ total) :
    entry.parentId = leafIdAfter (entries ++ appends.appended) := by
  have read : (appends.phase caller).parent? = some entry.parentId := by
    rw [written]
    rfl
  obtain ⟨seen, leaf, ⟨rest, kept⟩, others⟩ := exists_seen ordered whole ran read
    (by rw [written]; exact fun _ never => nomatch never) resolves
  have none_ : rest = [] := by
    rw [eq_nil_iff_forall_not_mem]
    rintro ⟨other, published⟩ member
    have resolved := (ran.mem_resolved_iff other published).mp
      (kept ▸ mem_append_right _ member)
    have different : other ≠ caller := by
      rintro rfl
      rw [written] at resolved
      cases resolved
    have earlier : .publish other ∈ total := by
      rw [whole]
      exact mem_append_left _ ((ran.publish_mem_iff other).mpr ⟨published, resolved⟩)
    obtain ⟨before, listed⟩ := others other different (by rw [resolved]; rfl) earlier
    have distinct := ran.callers_nodup
    rw [← kept, map_append, nodup_append] at distinct
    exact distinct.2.2 other (mem_map_of_mem (f := Prod.fst) listed) other
      (mem_map_of_mem (f := Prod.fst) member) rfl
  rw [leaf, appended, appended, ← kept, none_, append_nil]

theorem not_written {caller other : Nat} {parentId : Option EntryId} {entry : SessionTreeEntry}
    (read : (appends.phase caller).parent? = some parentId)
    (unresolved : ∀ entry, appends.phase caller ≠ .resolved entry)
    (resolves : .publish caller ∈ total) (different : other ≠ caller)
    (resolves' : .publish other ∈ total) : appends.phase other ≠ .written entry := by
  intro written
  obtain ⟨seen, -, kept, others⟩ := exists_seen ordered whole ran read unresolved resolves
  obtain ⟨published, listed⟩ := others other different (by rw [written]; rfl) resolves'
  have resolved := (ran.mem_resolved_iff other published).mp (kept.subset listed)
  rw [written] at resolved
  cases resolved

theorem InOrder.step {step : AppendStep} {next final : Appends} {later : List AppendStep}
    (inOrder : InOrder entries appends) (taken : appends.Takes step next)
    (rest : todo = step :: later) (runs : next.run later = some final)
    (settled : final.Settled) : InOrder entries next := by
  subst rest
  have later_mem : ∀ caller entry, next.phase caller = .written entry →
      .publish caller ∈ total := by
    intro caller entry written
    rw [whole]
    exact mem_append_right _
      (mem_cons_of_mem _ (publish_mem_of_written runs settled written))
  cases taken with
  | write caller timestamp body id parentId linked =>
    have resolves := later_mem caller _ (advance_self _ _ _)
    have read : (appends.phase caller).parent? = some parentId := by
      rw [linked]
      rfl
    have alone : ∀ other entry, other ≠ caller → appends.phase other ≠ .written entry := by
      intro other entry different written
      refine not_written ordered whole ran read
        (by rw [linked]; exact fun _ never => nomatch never) resolves
        different (later_mem other entry ?_) written
      rw [← written]
      exact advance_of_ne _ _ different
    refine ⟨inOrder.linked, Or.inr ⟨caller, _, advance_self _ _ _, ?_, ?_⟩⟩
    · intro other entry written
      by_contra different
      rw [show _ = appends.phase other from advance_of_ne _ _ different] at written
      exact alone other entry different written
    · rcases inOrder.file with ⟨file, -⟩ | ⟨other, entry, written, -⟩
      · exact congrArg (· ++ _) file
      have same : other ≠ caller := by
        rintro rfl
        rw [linked] at written
        cases written
      exact absurd written (alone other entry same)
  | publish caller entry written =>
    have resolves : .publish caller ∈ total := by
      rw [whole]
      simp
    have parent := parent_eq_leaf ordered whole ran written resolves
    rcases inOrder.file with ⟨-, none_⟩ | ⟨other, published, written', only, file⟩
    · exact absurd written (none_ caller entry)
    obtain rfl := only caller entry written
    obtain rfl : entry = published := by
      rw [written, AppendPhase.written.injEq] at written'
      exact written'
    refine ⟨?_, Or.inl ⟨?_, ?_⟩⟩
    · rw [appended, map_append, linkedFrom_append]
      refine ⟨inOrder.linked, ?_, trivial⟩
      exact parent.trans (leafIdAfter_append ran.appended_noLeaf)
    · rw [appended, map_append, ← append_assoc]
      exact file
    · intro other entry' later
      by_cases same : other = caller
      · subst same
        rw [show _ = AppendPhase.resolved entry from advance_self _ _ _] at later
        cases later
      · rw [show _ = appends.phase other from advance_of_ne _ _ same] at later
        exact same (only other entry' later)
  | call caller call body idle named =>
    exact inOrder.keep rfl rfl (advance_written_iff (by simp [idle]) (by simp))
  | refuse caller call idle =>
    exact inOrder.keep rfl rfl (advance_written_iff (by simp [idle]) (by simp))
  | createEntryId caller id body called new =>
    exact inOrder.keep rfl rfl (advance_written_iff (by simp [called]) (by simp))
  | getLeafId caller body id leafId identified leaf =>
    exact inOrder.keep rfl rfl (advance_written_iff (by simp [identified]) (by simp))
  | dangling caller body id identified =>
    exact inOrder.keep rfl rfl (advance_written_iff (by simp [identified]) (by simp))
  | fail caller timestamp body id parentId linked =>
    exact inOrder.keep rfl rfl (advance_written_iff (by simp [linked]) (by simp))

end Ordered

theorem inOrder_of_run {total done todo : List AppendStep} {appends final : Appends}
    (ordered : ReadsAfterPublication total) (whole : total = done ++ todo)
    (ran : Ran (.loadJsonlStorage entries) done appends) (inOrder : InOrder entries appends)
    (runs : appends.run todo = some final) (settled : final.Settled) : InOrder entries final := by
  induction todo generalizing done appends with
  | nil =>
    cases runs
    exact inOrder
  | cons step later ih =>
    obtain ⟨next, taken, runs⟩ := bind_eq_some_iff.mp runs
    have taken := takes_of_step taken
    exact ih (by rw [whole, append_assoc, singleton_append]) (ran.step taken)
      (inOrder.step ordered whole ran taken rfl runs settled) runs

/-! ## The branch of the leaf -/

/-- Where the parents of the appended entries were read. -/
structure Reads (entries more : List SessionTreeEntry) : Prop where
  new : ∀ entry ∈ more, entry.id ∉ entries.map SessionTreeEntry.id
  noLeaf : ∀ entry ∈ more, ∀ targetId, entry.body ≠ .leaf targetId
  parents : ∀ older entry newer, more = older ++ entry :: newer →
    ∃ seen, seen <+: older ∧ entry.parentId = leafIdAfter (entries ++ seen)

/-- Entries with identifiers of their own, appended under leaves that were read, are those of a
session. -/
theorem Reads.appended (grown : Appended entries) (reads : Reads entries more)
    (distinct : (more.map SessionTreeEntry.id).Nodup) : Appended (entries ++ more) := by
  induction more using reverseRecOn with
  | nil => rwa [append_nil]
  | append_singleton more last ih =>
    rw [map_append, nodup_append] at distinct
    have earlier : Appended (entries ++ more) := by
      apply ih _ distinct.1
      refine ⟨fun entry member => reads.new entry (mem_append_left _ member),
        fun entry member => reads.noLeaf entry (mem_append_left _ member), ?_⟩
      rintro older entry newer rfl
      exact reads.parents older entry (newer ++ [last]) (by simp)
    rw [← append_assoc]
    apply earlier.append_singleton
    · rw [map_append, mem_append]
      rintro (old | repeated)
      · exact reads.new last (by simp) old
      · exact distinct.2.2 _ repeated _ (by simp) rfl
    · intro id above
      obtain ⟨seen, ⟨rest, rfl⟩, leaf⟩ := reads.parents more last [] rfl
      have noLeaf : ∀ entry ∈ seen, ∀ targetId, entry.body ≠ .leaf targetId :=
        fun entry member => reads.noLeaf entry (by simp [member])
      rw [above, leafIdAfter_append noLeaf] at leaf
      rw [← append_assoc, map_append]
      apply mem_append_left
      rcases seen.eq_nil_or_concat' with rfl | ⟨older, newest, rfl⟩
      · rw [append_nil]
        exact grown.leaf_mem leaf.symm
      · rw [getLast?_concat, map_some, some_or, some.injEq] at leaf
        simp [leaf]
    · intro id body
      exact absurd body (reads.noLeaf last (by simp) _)

/-- The entries a caller saw when it read the leaf were published before its own. -/
theorem Ran.seen_of_resolved (ran : Ran (.loadJsonlStorage entries) steps appends)
    {older newer : List (Nat × SessionTreeEntry)} {caller : Nat} {entry : SessionTreeEntry}
    (split : appends.resolved = older ++ (caller, entry) :: newer) :
    ∃ before seen after, steps = before ++ .getLeafId caller :: after ∧
      Ran (.loadJsonlStorage entries) before seen ∧ (seen.phase caller).beforeReading = true ∧
      entry.parentId = leafIdAfter (entries ++ seen.appended) ∧ seen.resolved <+: older := by
  have resolved := (ran.mem_resolved_iff caller entry).mp (by rw [split]; simp)
  have read : (appends.phase caller).parent? = some entry.parentId := by
    rw [resolved]
    rfl
  obtain ⟨before, seen, after, whole, reached, unread, leaf, kept⟩ := ran.read read
  refine ⟨before, seen, after, whole, reached, unread, leaf, ?_⟩
  rw [split] at kept
  rcases prefix_or_prefix_of_prefix kept (prefix_append older _) with shorter | longer
  · exact shorter
  obtain ⟨rest, same⟩ := longer
  cases rest with
  | nil =>
    rw [← same, append_nil]
  | cons first rest =>
    rw [← same, prefix_append_right_inj, cons_prefix_cons] at kept
    have published := (reached.mem_resolved_iff caller entry).mp (by
      rw [← same, kept.1]
      simp)
    rw [published] at unread
    cases unread

theorem Ran.reads
    (ran : Ran (.loadJsonlStorage entries) steps appends) : Reads entries appends.appended where
  new := by
    intro entry member
    obtain ⟨⟨caller, published⟩, listed, rfl⟩ := mem_map.mp member
    apply ran.id_new caller
    rw [(ran.mem_resolved_iff caller published).mp listed]
    rfl
  noLeaf := ran.appended_noLeaf
  parents := by
    intro older entry newer whole
    obtain ⟨before, rest, split, rfl, same⟩ := map_eq_append_iff.mp whole
    obtain ⟨⟨caller, published⟩, after, rfl, rfl, rfl⟩ := map_eq_cons_iff.mp same
    obtain ⟨-, seen, -, -, -, -, leaf, kept⟩ := ran.seen_of_resolved split
    exact ⟨seen.appended, kept.map Prod.snd, leaf⟩

theorem Reads.seen_eq (grown : Appended entries) (reads : Reads entries more)
    (distinct : (more.map SessionTreeEntry.id).Nodup) {above : Option EntryId}
    (linked : GrownTree.LinkedFrom SessionTreeEntry.id SessionTreeEntry.parentId above more)
    {older seen newer : List SessionTreeEntry} {entry : SessionTreeEntry}
    (split : more = older ++ entry :: newer) (kept : seen <+: older)
    (parent : entry.parentId = leafIdAfter (entries ++ seen)) : seen = older := by
  have noLeaf : ∀ entry ∈ seen, ∀ targetId, entry.body ≠ .leaf targetId := fun entry member =>
    reads.noLeaf entry (split ▸ mem_append_left _ (kept.subset member))
  rw [leafIdAfter_append noLeaf] at parent
  rcases older.eq_nil_or_concat' with rfl | ⟨front, last, rfl⟩
  · exact prefix_nil.mp kept
  have link : entry.parentId = some last.id := by
    rw [split, linkedFrom_append] at linked
    have link := linked.2.1
    rwa [getLast?_concat] at link
  rw [link] at parent
  have member : last ∈ more := by
    rw [split]
    simp
  rcases seen.eq_nil_or_concat' with rfl | ⟨before, newest, rfl⟩
  · exact absurd (grown.leaf_mem parent.symm) (reads.new last member)
  rw [getLast?_concat, map_some, some_or, some.injEq] at parent
  have same : last = newest := by
    apply inj_on_of_nodup_map distinct member _ parent
    rw [split]
    exact mem_append_left _ (kept.subset (by simp))
  rcases prefix_concat_iff.mp kept with whole | shorter
  · exact whole
  · have earlier : newest ∈ front := shorter.subset (by simp)
    rw [split, append_assoc, map_append, nodup_append] at distinct
    refine absurd rfl (distinct.2.2 newest.id (mem_map_of_mem earlier) newest.id ?_)
    simp [← same]

/-- Entries on one branch were appended by callers that read the leaf after each publication. -/
theorem readsAfterPublication_of_linked (grown : Appended entries) {steps : List AppendStep}
    (ran : Ran (.loadJsonlStorage entries) steps final)
    (distinct : (final.appended.map SessionTreeEntry.id).Nodup) {above : Option EntryId}
    (linked : GrownTree.LinkedFrom SessionTreeEntry.id SessionTreeEntry.parentId above
      final.appended) : ReadsAfterPublication steps := by
  have complete : ∀ {older newer : List (Nat × SessionTreeEntry)} {caller : Nat}
      {entry : SessionTreeEntry}, final.resolved = older ++ (caller, entry) :: newer →
        ∃ before seen after, steps = before ++ .getLeafId caller :: after ∧
          Ran (.loadJsonlStorage entries) before seen ∧
          .getLeafId caller ∉ before ∧ seen.resolved = older := by
    intro older newer caller entry split
    obtain ⟨before, seen, after, whole, reached, unread, parent, kept⟩ :=
      ran.seen_of_resolved split
    refine ⟨before, seen, after, whole, reached, ?_, kept.eq_of_length ?_⟩
    · intro read
      rw [reached.not_beforeReading read] at unread
      cases unread
    · have split : final.appended = older.map Prod.snd ++ entry :: newer.map Prod.snd := by
        rw [appended, split, map_append]
        rfl
      have same := ran.reads.seen_eq grown distinct linked split (kept.map Prod.snd) parent
      simpa using congrArg length same
  have split : ∀ {caller}, .publish caller ∈ steps → ∃ entry older newer,
      final.resolved = older ++ (caller, entry) :: newer := by
    intro caller resolves
    obtain ⟨entry, resolved⟩ := (ran.publish_mem_iff caller).mp resolves
    obtain ⟨older, newer, split⟩ :=
      append_of_mem ((ran.mem_resolved_iff caller entry).mpr resolved)
    exact ⟨entry, older, newer, split⟩
  intro before reader after whole resolves other read resolves'
  obtain ⟨mid, reached, unread⟩ := (whole ▸ ran).unread
  have first : .getLeafId reader ∉ before := by
    intro read
    rw [reached.not_beforeReading read] at unread
    cases unread
  obtain ⟨entry, older, newer, listed⟩ := split resolves
  obtain ⟨before', seen, after', whole', reached', first', rfl⟩ := complete listed
  have same : before = before' := by
    rcases append_eq_append_iff.mp (whole.symm.trans whole') with
      ⟨_ | ⟨_, rest⟩, rfl, split⟩ | ⟨_ | ⟨_, rest⟩, rfl, split⟩
    · exact (append_nil before).symm
    · cases split
      exact absurd (by simp) first'
    · exact append_nil before'
    · cases split
      exact absurd (by simp) first
  subst same
  obtain ⟨entry', resolved'⟩ := (ran.publish_mem_iff other).mp resolves'
  have member := (ran.mem_resolved_iff other entry').mpr resolved'
  rw [listed] at member
  rcases mem_append.mp member with earlier | member
  · exact (reached'.publish_mem_iff other).mpr
      ⟨entry', (reached'.mem_resolved_iff other entry').mp earlier⟩
  rcases mem_cons.mp member with same | later
  · cases same
    exact absurd read first
  obtain ⟨between, rest, rfl⟩ := append_of_mem later
  rw [← cons_append, ← append_assoc] at listed
  obtain ⟨before', seen', after', whole', reached', first', all⟩ := complete listed
  have published : .publish reader ∈ before' :=
    (reached'.publish_mem_iff reader).mpr
      ⟨entry, (reached'.mem_resolved_iff reader entry).mp (by rw [all]; simp)⟩
  have front' : before' <+: steps := ⟨_, whole'.symm⟩
  have front : before <+: steps := ⟨_, whole.symm⟩
  rcases prefix_or_prefix_of_prefix front' front with shorter | longer
  · obtain ⟨_, resolved⟩ := (reached.publish_mem_iff reader).mp (shorter.subset published)
    rw [resolved] at unread
    cases unread
  · exact absurd (longer.subset read) first'

theorem linked_of_completePath (grown : Appended entries) {leafId : Option EntryId}
    {path : List SessionTreeEntry}
    (complete : CompletePath (indexBy SessionTreeEntry.id entries) leafId path) :
    GrownTree.LinkedFrom SessionTreeEntry.id SessionTreeEntry.parentId none path := by
  have initial : ∀ older newer, path = older ++ newer →
      GrownTree.LinkedFrom SessionTreeEntry.id SessionTreeEntry.parentId none older := by
    intro older
    induction older using reverseRecOn with
    | nil => exact fun _ _ => trivial
    | append_singleton older entry ih =>
      intro newer same
      rw [append_assoc, singleton_append] at same
      rw [linkedFrom_append, or_none]
      refine ⟨ih _ same, ?_, trivial⟩
      have keyed := (EntryTree.ofGrown entries grown.grows).keyed
      exact parent_of_completePath keyed (same ▸ complete)
  exact initial path [] (append_nil path).symm

theorem completePath_append {more path : List SessionTreeEntry} (grown : Appended (entries ++ more))
    (noLeaf : ∀ entry ∈ more, ∀ targetId, entry.body ≠ .leaf targetId)
    (linked : GrownTree.LinkedFrom SessionTreeEntry.id SessionTreeEntry.parentId
      (leafIdAfter entries) more)
    (complete : CompletePath (indexBy SessionTreeEntry.id entries)
      (leafIdAfter entries) path) :
    CompletePath (indexBy SessionTreeEntry.id (entries ++ more))
      (leafIdAfter (entries ++ more)) (path ++ more) := by
  induction more using reverseRecOn with
  | nil => rwa [append_nil, append_nil]
  | append_singleton more last ih =>
    rw [linkedFrom_append] at linked
    rw [← append_assoc] at grown
    have noLeaf' : ∀ entry ∈ more, ∀ targetId, entry.body ≠ .leaf targetId :=
      fun entry member => noLeaf entry (mem_append_left _ member)
    have earlier := ih grown.of_append_singleton noLeaf' linked.1
    have link : last.parentId = leafIdAfter (entries ++ more) :=
      linked.2.1.trans (leafIdAfter_append noLeaf').symm
    rw [leafIdAfter_append noLeaf, getLast?_concat, ← append_assoc, ← append_assoc]
    exact completePath_of_parent grown (link ▸ earlier)

theorem Ran.getBranch (ran : Ran (.loadJsonlStorage entries) steps final)
    (grown : Appended (entries ++ final.appended)) :
    ∃ path, CompletePath (indexBy SessionTreeEntry.id (entries ++ final.appended))
        (leafIdAfter (entries ++ final.appended)) path ∧
      Session.getBranch final.storage = .ok (loadedPath path) :=
  exists_getBranch grown ran.memory

/-- After a run in which reads come after publications the file holds what is in memory. -/
theorem storage_of_ordered (runs : (start (.loadJsonlStorage entries)).run steps = some final)
    (settled : final.Settled) (ordered : ReadsAfterPublication steps) :
    final.storage = .loadJsonlStorage (entries ++ final.appended) := by
  have ran : Ran (.loadJsonlStorage entries) steps final := ran_of_run .start runs
  have inOrder := inOrder_of_run ordered rfl .start inOrder_start runs settled
  have file : final.storage.file = entries ++ final.appended := by
    rcases inOrder.file with ⟨file, -⟩ | ⟨caller, entry, written, -⟩
    · exact file
    · rcases settled caller with idle | ⟨published, resolved⟩ | rejected <;> simp_all
  rw [loadJsonlStorage_eq, ← ran.memory, ← file]

/-- Reads after publications put the appended entries on one branch, when no compaction among them
hides the entries before it. -/
theorem onOneBranch_of_ordered (grown : Appended entries) {steps : List AppendStep}
    (runs : (start (.loadJsonlStorage entries)).run steps = some final)
    (settled : final.Settled) (distinct : (final.appended.map SessionTreeEntry.id).Nodup)
    (ordered : ReadsAfterPublication steps) (shown : ClimbPasses final.appended.tail) :
    final.OnOneBranch := by
  have ran : Ran (.loadJsonlStorage entries) steps final := ran_of_run .start runs
  have inOrder := inOrder_of_run ordered rfl .start inOrder_start runs settled
  have whole := ran.reads.appended grown distinct
  obtain ⟨path, complete, -⟩ := exists_getBranch grown
    (show (loadJsonlStorage entries).toInMemorySessionStorage = _ from rfl)
  have complete := completePath_append whole ran.appended_noLeaf inOrder.linked complete
  obtain ⟨path', complete', branch⟩ := ran.getBranch whole
  obtain rfl := completePath_unique complete complete'
  have reloaded : loadJsonlStorage final.storage.file = final.storage := by
    rw [storage_of_ordered runs settled ordered]
    rfl
  obtain ⟨kept, same⟩ : ∃ kept, loadedPath (path ++ final.appended) = kept ++ final.appended := by
    cases more : final.appended with
    | nil =>
      rw [append_nil]
      exact ⟨_, (append_nil _).symm⟩
    | cons first rest =>
      rw [more] at shown
      obtain ⟨hidden, kept, -, same⟩ := loadedPath_of_passes path first shown
      exact ⟨kept, same⟩
  obtain ⟨hidden, split⟩ := loadedPath_split (path ++ final.appended)
  have ids := (EntryTree.ofGrown _ whole.grows).ids_nodup_of_completePath complete
  have linked := linked_of_completePath whole complete
  rw [split, map_append] at ids
  rw [split, linkedFrom_append] at linked
  refine ⟨loadedPath (path ++ final.appended), branch, ?_, ids.of_append_right,
    ⟨_, linked.2⟩, reloaded.symm ▸ branch⟩
  rw [same]
  exact (sublist_append_right kept final.appended).subperm

/-- The entries of one branch were read in order, and no compaction among them hides another. -/
theorem ordered_of_onOneBranch (grown : Appended entries) {steps : List AppendStep}
    (ran : Ran (.loadJsonlStorage entries) steps final) (onBranch : final.OnOneBranch) :
    (final.appended.map SessionTreeEntry.id).Nodup ∧ ReadsAfterPublication steps ∧
      ClimbPasses final.appended.tail := by
  obtain ⟨branch, loads, inside, ids, -, -⟩ := onBranch
  have distinct : (final.appended.map SessionTreeEntry.id).Nodup := by
    obtain ⟨ordering, permuted, sublist⟩ := inside
    exact ((permuted.map SessionTreeEntry.id).nodup_iff).mp
      (ids.sublist (sublist.map SessionTreeEntry.id))
  have whole := ran.reads.appended grown distinct
  obtain ⟨path, complete, branch'⟩ := ran.getBranch whole
  obtain rfl : branch = loadedPath path := Except.ok.inj (loads.symm.trans branch')
  obtain ⟨hidden, split⟩ := loadedPath_split path
  -- A path follows the order of appending, so the appended entries are its end.
  obtain ⟨front, tail, same, inFront, inTail⟩ := sublist_append_iff.mp
    (completePath_sublist whole complete)
  have all : ∀ entry ∈ final.appended, entry ∈ tail := by
    intro entry member
    have listed : entry ∈ path := split ▸ mem_append_right _ (inside.subset member)
    rw [same] at listed
    rcases mem_append.mp listed with old | new
    · exact absurd (mem_map_of_mem (inFront.subset old)) (ran.reads.new entry member)
    · exact new
  obtain rfl : tail = final.appended := by
    apply inTail.eq_of_length_le
    exact (subperm_of_subset (List.Nodup.of_map _ distinct) all).length_le
  subst same
  have linked := linked_of_completePath whole complete
  rw [linkedFrom_append] at linked
  refine ⟨distinct, readsAfterPublication_of_linked grown ran distinct linked.2, ?_⟩
  cases more : final.appended with
  | nil => trivial
  | cons first rest =>
    by_contra blocked
    rw [tail_cons] at blocked
    have loaded := inside.subset (show first ∈ final.appended by simp [more])
    rw [more, loadedPath_of_not_passes front first blocked] at loaded
    obtain ⟨hidden, split⟩ := loadedPath_split rest
    rw [more, map_cons, nodup_cons] at distinct
    exact distinct.1 (mem_map_of_mem (split ▸ mem_append_right _ loaded))

/-- **Appends that are not awaited.** Once all appends are over, the branch of the leaf holds every
appended entry once, in one chain, and the file reads back as that branch, exactly when the entries
have identifiers of their own, every caller read the leaf after the callers that read it before had
published, and no compaction among the entries hides an earlier one. -/
theorem onOneBranch_iff (grown : Appended entries) {steps : List AppendStep} {final : Appends}
    (runs : (start (.loadJsonlStorage entries)).run steps = some final)
    (settled : final.Settled) :
    final.OnOneBranch ↔ (final.appended.map SessionTreeEntry.id).Nodup ∧
      ReadsAfterPublication steps ∧ ClimbPasses final.appended.tail :=
  ⟨ordered_of_onOneBranch grown (ran_of_run .start runs), fun ⟨distinct, ordered, shown⟩ =>
    onOneBranch_of_ordered grown runs settled distinct ordered shown⟩

/-- A session with one entry. -/
def namedSession : List SessionTreeEntry := [⟨.nth 'e' 0, none, 0, .sessionInfo "notes"⟩]

theorem appended_namedSession : Appended namedSession :=
  Appended.nil.append_singleton _ (by simp) nofun nofun

/-- The second caller begins before the first one reads the leaf, and reads it after the first one
has published. -/
def appendInTurn : List AppendStep :=
  [.call 0 (.appendThinkingLevelChange "high"), .call 1 (.appendModelChange "anthropic" "opus"),
    .createEntryId 1 (.nth 'e' 2), .createEntryId 0 (.nth 'e' 1), .getLeafId 0,
    .appendFile 0 1 true, .publish 0, .getLeafId 1, .appendFile 1 2 true, .publish 1]

theorem readsAfterPublication_appendInTurn : ReadsAfterPublication appendInTurn := by
  intro before reader after whole _ other read _
  have splits : before = appendInTurn.take 4 ∨ before = appendInTurn.take 7 := by
    simp only [appendInTurn, cons_eq_append_iff] at whole
    simp [appendInTurn] at whole ⊢
    grind
  rcases splits with rfl | rfl
  · simp [appendInTurn] at read
  · simp [appendInTurn] at read ⊢
    exact read

theorem onOneBranch_appendInTurn :
    ∃ final, (start (.loadJsonlStorage namedSession)).run appendInTurn = some final ∧
      final.OnOneBranch := by
  refine ⟨_, rfl, (onOneBranch_iff appended_namedSession
    (show run _ appendInTurn = some _ from rfl) ?_).mpr
      ⟨by decide, readsAfterPublication_appendInTurn, by decide⟩⟩
  rintro (_ | _ | caller)
  · exact Or.inr (Or.inl ⟨_, rfl⟩)
  · exact Or.inr (Or.inl ⟨_, rfl⟩)
  · exact Or.inl rfl

def appendTogether : List AppendStep :=
  [.call 0 (.appendThinkingLevelChange "high"), .call 1 (.appendModelChange "anthropic" "opus"),
    .createEntryId 0 (.nth 'e' 1), .createEntryId 1 (.nth 'e' 2), .getLeafId 0, .getLeafId 1,
    .appendFile 0 1 true, .publish 0, .appendFile 1 2 true, .publish 1]

/-- The branch of the leaf misses the entry of the first append. -/
theorem not_onOneBranch_appendTogether :
    ∃ final, (start (.loadJsonlStorage [])).run appendTogether = some final ∧ final.Settled ∧
      ¬ final.OnOneBranch := by
  refine ⟨_, rfl, ?_, ?_⟩
  · rintro (_ | _ | caller)
    · exact Or.inr (Or.inl ⟨_, rfl⟩)
    · exact Or.inr (Or.inl ⟨_, rfl⟩)
    · exact Or.inl rfl
  · rintro ⟨path, branch, inside, -⟩
    cases branch
    exact absurd inside.length_le (by decide)

end Recode.Appends

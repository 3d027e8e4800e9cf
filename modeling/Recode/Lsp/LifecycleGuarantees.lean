import Recode.Lsp.Lifecycle

/-! # Restarts are bounded and stops are kept

The invariant ties each timer to the workspace that keeps it and counts a timer that waits as a
start. Every step changes one server of a workspace, or all of them together. -/

namespace Recode.Lsp

open Function List Option Lifecycles WorkspaceLifecycle Nat

variable {state after : Lifecycles} {workspace changed : WorkspaceLifecycle}
variable {configFingerprint : LspConfig → String}

/-- A name of a server, the key of its client, and its settings. -/
structure WorkspaceLifecycle.Serves (workspace : WorkspaceLifecycle) (key name : String)
    (config : LspServerConfig) : Prop where
  named : workspace.serverNameForKey key = some name
  configured : workspace.config.server name = some config
  keyed : getLspClientKey config workspace.cwd = key

variable {cwd key : String} {occurrence : Occurrence} {config : LspServerConfig}
  (log : List Occurrence) {id : Nat} {name : String}

theorem server_of_mem {servers : List (String × LspServerConfig)}
    (distinct : (servers.map Prod.fst).Nodup)
    (member : (name, config) ∈ servers) : servers.lookup name = some config := by
  induction servers with
  | nil => cases member
  | cons server servers hypothesis =>
    obtain ⟨first, settings⟩ := server
    rw [map_cons, nodup_cons] at distinct
    rcases mem_cons.mp member with same | later
    · cases same
      exact lookup_cons_self
    have different : name ≠ first := by
      rintro rfl
      exact distinct.1 (mem_map.mpr ⟨_, later, rfl⟩)
    rw [lookup_cons, beq_eq_false_iff_ne.mpr different]
    exact hypothesis distinct.2 later

theorem WorkspaceLifecycle.serves_of_name {key name : String}
    (found : workspace.serverNameForKey key = some name) :
    ∃ config, workspace.Serves key name config := by
  obtain ⟨⟨name', config⟩, here, rfl⟩ := map_eq_some_iff.mp found
  refine ⟨config, found, ?_, ?_⟩
  · exact server_of_mem workspace.config.distinct (mem_of_find?_eq_some here)
  · have matches_ := find?_some here
    exact of_decide_eq_true matches_

/-- What is known of a server after more occurrences. -/
theorem watched_append (cwd key : String) (log more : List Occurrence) :
    watched cwd key (log ++ more) = more.foldl (Watch.next cwd key) (watched cwd key log) :=
  foldl_append

/-- Occurrences that are not about a server tell nothing of it. -/
theorem watched_other {more : List Occurrence}
    (elsewhere : ∀ occurrence ∈ more, occurrence.concerns cwd key = false) :
    watched cwd key (log ++ more) = watched cwd key log := by
  rw [watched_append]
  induction more with
  | nil => rfl
  | cons occurrence more hypothesis =>
    rw [foldl_cons, Watch.next, elsewhere occurrence (mem_cons_self ..)]
    exact hypothesis fun occurrence member => elsewhere occurrence (mem_cons_of_mem _ member)

/-- Every occurrence but the one that begins the attempts again concerns one server. -/
theorem concerns_iff {at_ of_ : String} :
    (decide (cwd = at_) && decide (key = of_)) = true ↔ at_ = cwd ∧ of_ = key := by
  rw [Bool.and_eq_true, decide_eq_true_iff, decide_eq_true_iff, eq_comm, @eq_comm _ key]

theorem watched_own (concerns : occurrence.concerns cwd key = true) :
    watched cwd key (log ++ [occurrence]) = (watched cwd key log).change occurrence := by
  rw [watched_append]
  exact if_pos concerns

theorem StopsKept.append {log : List Occurrence} (kept : StopsKept log)
    (allowed : ∀ cwd key, occurrence = .started cwd key → (watched cwd key log).mayStart = true) :
    StopsKept (log ++ [occurrence]) := by
  intro before rest cwd key same
  rcases eq_nil_or_concat rest with rfl | ⟨rest, last, rfl⟩
  · obtain ⟨rfl, this⟩ := append_inj' same rfl
    exact allowed cwd key (singleton_inj.mp this)
  · have split : log ++ [occurrence] = (before ++ .started cwd key :: rest) ++ [last] := by
      rw [same]
      simp only [concat_eq_append, append_assoc, cons_append]
    exact kept before rest cwd key (append_inj' split rfl).1

/-- Of a server whose failures are counted: every start and the timer that waits are among its
attempts, and it is only counted as ready while no timer waits for it. -/
structure WorkspaceLifecycle.Counts (workspace : WorkspaceLifecycle) (name : String)
    (watch : Watch) : Prop where
  attempts : watch.starts + (if (workspace.restartTimers name).isSome then 1 else 0) ≤
    (workspace.restartAttempts name).getD 0
  bounded : watch.starts + (if (workspace.restartTimers name).isSome then 1 else 0) ≤
    MAX_RESTART_ATTEMPTS
  ready : ∀ readyAt, workspace.readyAt name = some readyAt → watch.readySince = some readyAt
  waiting : (workspace.restartTimers name).isSome → workspace.readyAt name = none

theorem WorkspaceLifecycle.ready_of_none {watch : Watch} (unready : workspace.readyAt name = none)
    (readyAt : Nat) (same : workspace.readyAt name = some readyAt) :
    watch.readySince = some readyAt :=
  nomatch unready.symm.trans same

/-- A timer that waits is kept by the workspace it is for, and its server may be started. -/
structure Waiting (state : Lifecycles) (handle : Nat) (timer : RestartTimer)
    (workspace : WorkspaceLifecycle) : Prop where
  found : state.objects timer.workspace = some workspace
  current : state.workspaces workspace.cwd = some timer.workspace
  kept : workspace.restartTimers timer.name = some handle
  generation : workspace.generation = timer.generation
  serves : workspace.Serves (getLspClientKey timer.config workspace.cwd) timer.name timer.config
  mayStart : (watched workspace.cwd (getLspClientKey timer.config workspace.cwd)
    state.log).mayStart = true

/-- A start that is under way was allowed when it began. -/
structure UnderWay (state : Lifecycles) (restart : Restart) (workspace : WorkspaceLifecycle) :
    Prop where
  found : state.objects restart.workspace = some workspace
  generation : restart.generation ≤ workspace.generation
  serves : restart.generation = workspace.generation →
    workspace.Serves (getLspClientKey restart.config workspace.cwd) restart.name restart.config
  since : restart.since ≤ state.log.length
  mayStart : (watched workspace.cwd (getLspClientKey restart.config workspace.cwd)
    (state.log.take restart.since)).mayStart = true

/-- What holds between steps. -/
structure InHand (state : Lifecycles) : Prop where
  objects : ∀ cwd id, state.workspaces cwd = some id →
    ∃ workspace, state.objects id = some workspace ∧ workspace.cwd = cwd
  fresh : ∀ id, state.next ≤ id → state.objects id = none
  timers : ∀ handle timer, state.timers handle = some timer →
    ∃ workspace, Waiting state handle timer workspace
  restarts : ∀ id restart, state.restarts id = some restart →
    ∃ workspace, UnderWay state restart workspace
  absent : ∀ cwd key, state.workspaces cwd = none → (watched cwd key state.log).starts = 0
  unknown : ∀ cwd id workspace key, state.workspaces cwd = some id →
    state.objects id = some workspace → workspace.serverNameForKey key = none →
      (watched cwd key state.log).starts = 0
  counts : ∀ cwd id workspace key name, state.workspaces cwd = some id →
    state.objects id = some workspace → workspace.serverNameForKey key = some name →
      workspace.Counts name (watched cwd key state.log)
  stops : StopsKept state.log

/-- Only what a workspace keeps of one server, or of its statuses and delays, has changed. -/
structure Alike (workspace changed : WorkspaceLifecycle) (name : String) : Prop where
  cwd : changed.cwd = workspace.cwd
  config : changed.config = workspace.config
  generation : changed.generation = workspace.generation
  timers : ∀ other, other ≠ name → changed.restartTimers other = workspace.restartTimers other
  attempts : ∀ other, other ≠ name → changed.restartAttempts other = workspace.restartAttempts other
  readyAt : ∀ other, other ≠ name → changed.readyAt other = workspace.readyAt other

theorem Alike.serverNameForKey (alike : Alike workspace changed name)
    (key : String) : changed.serverNameForKey key = workspace.serverNameForKey key := by
  rw [WorkspaceLifecycle.serverNameForKey, WorkspaceLifecycle.serverNameForKey, alike.config,
    alike.cwd]

theorem Alike.serves {name key other : String}
    (alike : Alike workspace changed name) (serves : workspace.Serves key other config) :
    changed.Serves key other config where
  named := (alike.serverNameForKey key).trans serves.named
  configured := by
    rw [alike.config]
    exact serves.configured
  keyed := by
    rw [alike.cwd]
    exact serves.keyed

theorem Alike.counts {name other : String} {watch : Watch} (alike : Alike workspace changed name)
    (different : other ≠ name) (counts : workspace.Counts other watch) :
    changed.Counts other watch where
  attempts := by
    rw [alike.timers other different, alike.attempts other different]
    exact counts.attempts
  bounded := by
    rw [alike.timers other different]
    exact counts.bounded
  ready := by
    rw [alike.readyAt other different]
    exact counts.ready
  waiting := by
    rw [alike.timers other different, alike.readyAt other different]
    exact counts.waiting

/-- A server has one key. -/
theorem WorkspaceLifecycle.Serves.key_eq {key first second : String}
    (serves : workspace.Serves first key config)
    (named : workspace.serverNameForKey second = some key) : second = first := by
  obtain ⟨other, same⟩ := serves_of_name named
  obtain rfl := some.inj (serves.configured.symm.trans same.configured)
  exact same.keyed.symm.trans serves.keyed

/-- What a change of one server of a workspace has to see to. -/
structure Turn (state after : Lifecycles) (id : Nat) (workspace changed : WorkspaceLifecycle)
    (key name : String) : Prop where
  found : state.objects id = some workspace
  current : state.workspaces workspace.cwd = some id
  named : workspace.serverNameForKey key = some name
  alike : Alike workspace changed name
  workspaces : after.workspaces = state.workspaces
  objects : after.objects = update state.objects id (some changed)
  next : state.next ≤ after.next
  log : ∃ more, after.log = state.log ++ more ∧ ∀ occurrence ∈ more, ∀ at_ of_,
    occurrence.concerns at_ of_ = true → at_ = workspace.cwd ∧ of_ = key
  counts : changed.Counts name (watched workspace.cwd key after.log)
  timers : ∀ handle timer, after.timers handle = some timer →
    state.timers handle = some timer ∧ (timer.workspace = id → timer.name = name →
      changed.restartTimers name = some handle ∧
        ((watched workspace.cwd key state.log).mayStart = true →
          (watched workspace.cwd key after.log).mayStart = true)) ∨
    Waiting after handle timer changed
  restarts : ∀ restartId restart, after.restarts restartId = some restart →
    state.restarts restartId = some restart ∨ UnderWay after restart changed
  stops : StopsKept after.log

section Turn

variable {id : Nat} {key name : String}
variable (inHand : InHand state) (turn : Turn state after id workspace changed key name)

include turn

/-- Of another server nothing is told. -/
theorem Turn.watched_other {cwd other : String}
    (different : ¬ (cwd = workspace.cwd ∧ other = key)) :
    watched cwd other after.log = watched cwd other state.log := by
  obtain ⟨more, log, about⟩ := turn.log
  rw [log]
  refine Lsp.watched_other state.log fun occurrence member => ?_
  by_contra concerns
  exact different (about occurrence member cwd other (Bool.not_eq_false _ ▸ concerns))

theorem Turn.object {other : Nat} {now : WorkspaceLifecycle}
    (present : after.objects other = some now) :
    other = id ∧ now = changed ∨ other ≠ id ∧ state.objects other = some now := by
  rw [turn.objects] at present
  by_cases same : other = id
  · subst same
    rw [update_self] at present
    exact .inl ⟨rfl, (some.inj present).symm⟩
  · rw [update_of_ne same] at present
    exact .inr ⟨same, present⟩

theorem Turn.unchanged {other : Nat} (different : other ≠ id) :
    after.objects other = state.objects other := by
  rw [turn.objects, update_of_ne different]

theorem Turn.self : after.objects id = some changed := by
  rw [turn.objects, update_self]

theorem Turn.elsewhere {cwd : String} {other : Nat} (different : other ≠ id)
    (present : state.workspaces cwd = some other) : cwd ≠ workspace.cwd := by
  rintro rfl
  exact different (some.inj (present.symm.trans turn.current))

include inHand

theorem Turn.waiting {handle : Nat} {timer : RestartTimer}
    (present : after.timers handle = some timer) : ∃ now, Waiting after handle timer now := by
  rcases turn.timers handle timer present with ⟨before, own⟩ | fresh
  · obtain ⟨old, waiting⟩ := inHand.timers handle timer before
    by_cases mine : timer.workspace = id
    · obtain rfl : old = workspace := by
        have := waiting.found
        rw [mine, turn.found] at this
        exact (some.inj this).symm
      have serves := turn.alike.serves waiting.serves
      refine ⟨changed, ?_, ?_, ?_, ?_, ?_, ?_⟩
      · rw [mine]
        exact turn.self
      · rw [turn.workspaces, turn.alike.cwd]
        exact waiting.current
      · by_cases same : timer.name = name
        · rw [same]
          exact (own mine same).1
        · rw [turn.alike.timers _ same]
          exact waiting.kept
      · exact turn.alike.generation.trans waiting.generation
      · rw [turn.alike.cwd]
        exact serves
      · rw [turn.alike.cwd]
        by_cases same : timer.name = name
        · obtain rfl := waiting.serves.key_eq (same ▸ turn.named)
          exact (own mine same).2 waiting.mayStart
        rw [turn.watched_other]
        · exact waiting.mayStart
        · rintro ⟨-, keys⟩
          have other := turn.named
          rw [← keys, waiting.serves.named] at other
          exact same (some.inj other)
    · refine ⟨old, ?_, ?_, waiting.kept, waiting.generation, waiting.serves, ?_⟩
      · exact (turn.unchanged mine).trans waiting.found
      · rw [turn.workspaces]
        exact waiting.current
      · rw [turn.watched_other]
        · exact waiting.mayStart
        · rintro ⟨same, -⟩
          exact turn.elsewhere mine waiting.current same
  · exact ⟨changed, fresh⟩

theorem Turn.underWay {restartId : Nat} {restart : Restart}
    (present : after.restarts restartId = some restart) : ∃ now, UnderWay after restart now := by
  rcases turn.restarts restartId restart present with before | fresh
  · obtain ⟨old, underWay⟩ := inHand.restarts restartId restart before
    obtain ⟨more, log, about⟩ := turn.log
    have since : restart.since ≤ after.log.length := by
      rw [log, length_append]
      exact le_add_right_of_le underWay.since
    have early : after.log.take restart.since = state.log.take restart.since := by
      rw [log, take_append_of_le_length underWay.since]
    by_cases mine : restart.workspace = id
    · obtain rfl : old = workspace := by
        have := underWay.found
        rw [mine, turn.found] at this
        exact (some.inj this).symm
      refine ⟨changed, ?_, ?_, ?_, since, ?_⟩
      · rw [mine]
        exact turn.self
      · rw [turn.alike.generation]
        exact underWay.generation
      · rw [turn.alike.generation, turn.alike.cwd]
        exact fun same => turn.alike.serves (underWay.serves same)
      · rw [turn.alike.cwd, early]
        exact underWay.mayStart
    · refine ⟨old, ?_, underWay.generation, underWay.serves, since, ?_⟩
      · exact (turn.unchanged mine).trans underWay.found
      · rw [early]
        exact underWay.mayStart
  · exact ⟨changed, fresh⟩

theorem Turn.kept : InHand after where
  objects cwd other present := by
    rw [turn.workspaces] at present
    obtain ⟨old, found, at_⟩ := inHand.objects cwd other present
    by_cases same : other = id
    · subst same
      obtain rfl := some.inj (turn.found.symm.trans found)
      exact ⟨changed, turn.self, turn.alike.cwd.trans at_⟩
    · exact ⟨old, (turn.unchanged same).trans found, at_⟩
  fresh other beyond := by
    have unknown := inHand.fresh other (le_trans turn.next beyond)
    rw [turn.unchanged ?_]
    · exact unknown
    · rintro rfl
      rw [turn.found] at unknown
      cases unknown
  timers handle timer present := turn.waiting inHand present
  restarts restartId restart present := turn.underWay inHand present
  absent cwd other absent := by
    rw [turn.workspaces] at absent
    rw [turn.watched_other]
    · exact inHand.absent cwd other absent
    · rintro ⟨rfl, -⟩
      rw [turn.current] at absent
      cases absent
  unknown cwd other now server present found unnamed := by
    rw [turn.workspaces] at present
    rcases turn.object found with ⟨rfl, rfl⟩ | ⟨different, before⟩
    · rw [turn.alike.serverNameForKey] at unnamed
      rw [turn.watched_other]
      · exact inHand.unknown cwd other workspace server present turn.found unnamed
      · rintro ⟨-, rfl⟩
        rw [turn.named] at unnamed
        cases unnamed
    · rw [turn.watched_other]
      · exact inHand.unknown cwd other now server present before unnamed
      · rintro ⟨same, -⟩
        exact turn.elsewhere different present same
  counts cwd other now server of_ present found named := by
    rw [turn.workspaces] at present
    rcases turn.object found with ⟨rfl, rfl⟩ | ⟨different, before⟩
    · rw [turn.alike.serverNameForKey] at named
      obtain ⟨old, oldFound, at_⟩ := inHand.objects cwd other present
      obtain rfl := some.inj (turn.found.symm.trans oldFound)
      by_cases same : server = key
      · subst same
        obtain rfl := some.inj (turn.named.symm.trans named)
        rw [← at_]
        exact turn.counts
      have others : of_ ≠ name := by
        rintro rfl
        obtain ⟨config, serves⟩ := serves_of_name turn.named
        exact same (serves.key_eq named)
      rw [turn.watched_other fun both => same both.2]
      exact turn.alike.counts others
        (inHand.counts cwd other workspace server of_ present turn.found named)
    · rw [turn.watched_other]
      · exact inHand.counts cwd other now server of_ present before named
      · rintro ⟨same, -⟩
        exact turn.elsewhere different present same
  stops := turn.stops

end Turn

theorem stabilityMs_current (found : state.objects id = some workspace)
    (current : state.workspaces workspace.cwd = some id) :
    state.stabilityMs workspace.cwd = workspace.restartStabilityMs := by
  rw [stabilityMs, current, bind_some, found]
  rfl

/-- A server that is no longer ready was not started more often since. -/
theorem unready_starts_le (watch : Watch) (now stabilityMs : Nat) :
    (watch.unready now stabilityMs).starts ≤ watch.starts := by
  rw [Watch.unready]
  dsimp only
  split
  · exact zero_le _
  · exact le_refl _

/-- The starts since the last failure are among the attempts that are not forgotten. -/
theorem WorkspaceLifecycle.Counts.unready {watch : Watch} (counts : workspace.Counts name watch) :
    (watch.unready state.now workspace.restartStabilityMs).starts + 1 ≤
      ((state.attempted workspace name).restartAttempts name).getD 0 := by
  have attempts := counts.attempts
  rw [attempted]
  dsimp only
  rw [update_self, getD_some]
  apply succ_le_succ
  cases readyAt : workspace.readyAt name with
  | none =>
    rw [any_none]
    have := unready_starts_le watch state.now workspace.restartStabilityMs
    change _ ≤ (workspace.restartAttempts name).getD 0
    omega
  | some since =>
    rw [any_some, Watch.unready, counts.ready since readyAt, any_some]
    dsimp only
    split
    · exact zero_le _
    · omega

section Servers

variable {id : Nat} {key name : String}
variable (inHand : InHand state) (found : state.objects id = some workspace)
variable (current : state.workspaces workspace.cwd = some id)
variable (named : workspace.serverNameForKey key = some name)

include inHand found

theorem InHand.keptNow {handle : Nat} {timer : RestartTimer}
    (present : state.timers handle = some timer) (mine : timer.workspace = id)
    (same : timer.name = name) : workspace.restartTimers name = some handle := by
  obtain ⟨old, waiting⟩ := inHand.timers handle timer present
  have objects := waiting.found
  rw [mine, found] at objects
  obtain rfl := some.inj objects
  rw [← same]
  exact waiting.kept

theorem InHand.cleared {handle : Nat} {timer : RestartTimer}
    (present : (state.clearTimeout (workspace.restartTimers name)).timers handle = some timer) :
    state.timers handle = some timer ∧ (timer.workspace = id → timer.name = name → False) := by
  rw [clearTimeout] at present
  dsimp only at present
  split at present
  · cases present
  · rename_i other
    exact ⟨present, fun mine same =>
      other (inHand.keptNow found present mine same).symm⟩

include current named

theorem InHand.countsNow : workspace.Counts name (watched workspace.cwd key state.log) :=
  inHand.counts workspace.cwd id workspace key name current found named

theorem starting_turn (status : LspServerStatus) :
    Turn state (state.setObject id (workspace.emitStatus status)) id workspace
      (workspace.emitStatus status) key name where
  found := found
  current := current
  named := named
  alike := ⟨rfl, rfl, rfl, fun _ _ => rfl, fun _ _ => rfl, fun _ _ => rfl⟩
  workspaces := rfl
  objects := rfl
  next := le_refl _
  log := ⟨[], (append_nil _).symm, nofun⟩
  counts :=
    have counts := inHand.countsNow found current named
    ⟨counts.attempts, counts.bounded, counts.ready, counts.waiting⟩
  timers _ _ present := .inl ⟨present, fun mine same =>
    ⟨inHand.keptNow found present mine same, fun mayStart => mayStart⟩⟩
  restarts _ _ present := .inl present
  stops := inHand.stops

omit found current named in
/-- What an occurrence of one server tells, if it is no start. -/
theorem InHand.tell {cwd : String} {occurrence : Occurrence}
    (concerns : ∀ at_ of_, occurrence.concerns at_ of_ = true ↔ at_ = cwd ∧ of_ = key)
    (silent : ∀ cwd key, occurrence ≠ .started cwd key) :
    (∀ other ∈ [occurrence], ∀ at_ of_,
      other.concerns at_ of_ = true → at_ = cwd ∧ of_ = key) ∧
    StopsKept (state.log ++ [occurrence]) ∧
    watched cwd key (state.log ++ [occurrence]) =
      (watched cwd key state.log).change occurrence := by
  refine ⟨?_, ?_, watched_own state.log ((concerns ..).mpr ⟨rfl, rfl⟩)⟩
  · intro other member at_ of_ told
    obtain rfl := mem_singleton.mp member
    exact (concerns at_ of_).mp told
  · exact inHand.stops.append fun at_ of_ same => (silent at_ of_ same).elim

/-- A client is ready or has stopped: no timer waits for its server. -/
theorem cleared_turn {occurrence : Occurrence} (alike : Alike workspace changed name)
    (concerns : ∀ at_ of_, occurrence.concerns at_ of_ = true ↔ at_ = workspace.cwd ∧ of_ = key)
    (silent : ∀ cwd key, occurrence ≠ .started cwd key)
    (counts : changed.Counts name ((watched workspace.cwd key state.log).change occurrence)) :
    Turn state (((state.clearTimeout (workspace.restartTimers name)).setObject id changed).see
      [occurrence]) id workspace changed key name := by
  obtain ⟨about, stops, told⟩ := inHand.tell concerns silent
  refine ⟨found, current, named, alike, rfl, rfl, le_refl _, ⟨_, rfl, about⟩, ?_, ?_,
    fun _ _ present => .inl present, stops⟩
  · change changed.Counts name (watched _ key (state.log ++ _))
    rw [told]
    exact counts
  · intro handle timer present
    obtain ⟨before, never⟩ := inHand.cleared found present
    exact .inl ⟨before, fun mine same => (never mine same).elim⟩

theorem ready_turn (config : LspServerConfig) :
    Turn state ((state.clientReady id workspace name config).see
      [.ready workspace.cwd key state.now]) id workspace
        (workspace.serverReady name config state.now) key name := by
  have counts := inHand.countsNow found current named
  refine cleared_turn inHand found current named ⟨rfl, rfl, rfl, ?_, fun _ _ => rfl, ?_⟩
    (fun _ _ => concerns_iff) nofun ?_
  · exact fun other different => update_of_ne different ..
  · exact fun other different => update_of_ne different ..
  · have attempts := counts.attempts
    have bounded := counts.bounded
    refine ⟨?_, ?_, ?_, ?_⟩ <;>
      simp only [serverReady, emitStatus,
        clearRestartTimer, update_self, isSome_none,
        Bool.false_eq_true, if_false]
    · exact le_of_add_right_le attempts
    · exact le_of_add_right_le bounded
    · exact fun _ same => same
    · exact fun never => never.elim

theorem stopped_turn (config : LspServerConfig) (now stabilityMs : Nat) :
    Turn state ((state.clientStopped id workspace name config).see
      [.stopped workspace.cwd key now stabilityMs]) id workspace
        (workspace.serverStopped name config) key name := by
  refine cleared_turn inHand found current named ⟨rfl, rfl, rfl, ?_, ?_, ?_⟩
    (fun _ _ => concerns_iff) nofun ?_
  · exact fun other different => update_of_ne different ..
  · exact fun other different => update_of_ne different ..
  · exact fun other different => update_of_ne different ..
  · refine ⟨?_, ?_, ?_, ?_⟩ <;>
      simp only [serverStopped, emitStatus,
        clearRestartTimer, update_self, isSome_none,
        Bool.false_eq_true, if_false, Watch.change]
    · exact zero_le _
    · exact zero_le _
    · exact nofun
    · exact fun never => never.elim

/-- An occurrence that ends a time in which a server of a workspace was ready. -/
structure Ends (state : Lifecycles) (workspace : WorkspaceLifecycle) (key : String)
    (occurrence : Occurrence) : Prop where
  concerns : ∀ at_ of_, occurrence.concerns at_ of_ = true ↔ at_ = workspace.cwd ∧ of_ = key
  starts : ∀ watch : Watch, (watch.change occurrence).starts =
    (watch.unready state.now workspace.restartStabilityMs).starts
  readySince : ∀ watch : Watch, (watch.change occurrence).readySince = none
  silent : ∀ cwd key, occurrence ≠ .started cwd key

variable {occurrence : Occurrence}

omit inHand found current named in
/-- A failure is counted: the starts so far and the attempt that follows are among the
attempts. -/
theorem Ends.counts (ends : Ends state workspace key occurrence)
    {watch : Watch} (counts : workspace.Counts name watch) :
    (watch.change occurrence).starts + 1 ≤
        ((state.attempted workspace name).restartAttempts name).getD 0 ∧
      (watch.change occurrence).starts ≤ watch.starts := by
  rw [ends.starts]
  exact ⟨counts.unready, unready_starts_le ..⟩

theorem Ends.seen (ends : Ends state workspace key occurrence) :
    (∀ other ∈ [occurrence], ∀ at_ of_,
      other.concerns at_ of_ = true → at_ = workspace.cwd ∧ of_ = key) ∧
    StopsKept (state.log ++ [occurrence]) ∧
    (watched workspace.cwd key (state.log ++ [occurrence])).readySince = none ∧
    (watched workspace.cwd key (state.log ++ [occurrence])).starts + 1 ≤
      ((state.attempted workspace name).restartAttempts name).getD 0 ∧
    (watched workspace.cwd key (state.log ++ [occurrence])).starts ≤
      (watched workspace.cwd key state.log).starts := by
  obtain ⟨about, stops, told⟩ := inHand.tell ends.concerns ends.silent
  rw [told]
  exact ⟨about, stops, ends.readySince _, ends.counts (inHand.countsNow found current named)⟩

theorem givenUp_turn (ends : Ends state workspace key occurrence)
    (waits : workspace.restartTimers name = none) (status : LspServerStatus) :
    Turn state ((state.setObject id ((state.attempted workspace name).emitStatus status)).see
      [occurrence]) id workspace ((state.attempted workspace name).emitStatus status) key name := by
  obtain ⟨about, stops, unready, most, fewer⟩ := ends.seen inHand found current named
  refine ⟨found, current, named, ⟨rfl, rfl, rfl, fun _ _ => rfl, ?_, ?_⟩, rfl, rfl,
    le_refl _, ⟨_, rfl, about⟩, ?_, ?_, fun _ _ present => .inl present, stops⟩
  · exact fun other different => update_of_ne different ..
  · exact fun other different => update_of_ne different ..
  · have bounded := (inHand.countsNow found current named).bounded
    have silent : (((state.attempted workspace name).emitStatus status).restartTimers
        name).isSome = false := by
      change (workspace.restartTimers name).isSome = false
      rw [waits]
      rfl
    refine ⟨?_, ?_, ready_of_none (update_self ..), fun _ => update_self ..⟩
    · rw [silent]
      exact le_of_succ_le most
    · rw [silent]
      exact le_trans fewer (le_trans (Nat.le_add_right ..) bounded)
  · intro handle timer present
    refine .inl ⟨present, fun mine same => ?_⟩
    have kept := inHand.keptNow found present mine same
    rw [waits] at kept
    cases kept

theorem timer_turn {config : LspServerConfig} (ends : Ends state workspace key occurrence)
    (mayStart : (watched workspace.cwd key (state.log ++ [occurrence])).mayStart = true)
    (serves : workspace.Serves key name config) (waits : workspace.restartTimers name = none)
    (few : ((state.attempted workspace name).restartAttempts name).getD 0 ≤ MAX_RESTART_ATTEMPTS)
    (status : LspServerStatus) (attempt retryAt : Nat) :
    Turn state ((state.setTimer id ((state.attempted workspace name).emitStatus status) name config
      attempt retryAt).see [occurrence]) id workspace
        { (state.attempted workspace name).emitStatus status with
          restartTimers := update workspace.restartTimers name (some state.next) }
        key name := by
  obtain ⟨about, stops, unready, most, fewer⟩ := ends.seen inHand found current named
  refine ⟨found, current, named, ⟨rfl, rfl, rfl, ?_, ?_, ?_⟩, rfl, rfl,
    le_succ _, ⟨_, rfl, about⟩, ?_, ?_, fun _ _ present => .inl present, stops⟩
  · exact fun other different => update_of_ne different ..
  · exact fun other different => update_of_ne different ..
  · exact fun other different => update_of_ne different ..
  · refine ⟨?_, ?_, ready_of_none (update_self ..), fun _ => update_self ..⟩
    · simp only [update_self, isSome_some, if_true]
      exact most
    · simp only [update_self, isSome_some, if_true]
      exact le_trans most few
  · intro handle timer present
    change update state.timers state.next _ handle = some timer at present
    by_cases same : handle = state.next
    · subst same
      rw [update_self] at present
      obtain rfl := some.inj present
      refine .inr ⟨update_self .., current, update_self .., rfl, ?_, ?_⟩
      · change WorkspaceLifecycle.Serves _ (getLspClientKey config workspace.cwd) name config
        rw [serves.keyed]
        exact ⟨serves.named, serves.configured, serves.keyed⟩
      · change (watched workspace.cwd (getLspClientKey config workspace.cwd) _).mayStart = true
        rw [serves.keyed]
        exact mayStart
    · rw [update_of_ne same] at present
      refine .inl ⟨present, fun mine same => ?_⟩
      have kept := inHand.keptNow found present mine same
      rw [waits] at kept
      cases kept

/-- A failure of a server for which a timer waits already. -/
theorem waiting_turn {handle : Nat} (ends : Ends state workspace key occurrence)
    (mayStart : (watched workspace.cwd key state.log).mayStart = true →
      (watched workspace.cwd key (state.log ++ [occurrence])).mayStart = true)
    (waits : workspace.restartTimers name = some handle) :
    Turn state (state.see [occurrence]) id workspace workspace key name := by
  obtain ⟨about, stops, unready, most, fewer⟩ := ends.seen inHand found current named
  have counts := inHand.countsNow found current named
  have waiting := counts.waiting (isSome_of_mem waits)
  refine ⟨found, current, named, ⟨rfl, rfl, rfl, fun _ _ => rfl, fun _ _ => rfl,
    fun _ _ => rfl⟩, rfl, (update_eq_self_iff.mpr found.symm).symm, Nat.le_refl _,
    ⟨_, rfl, about⟩, ?_, ?_, fun _ _ present => .inl present, stops⟩
  · exact ⟨Nat.le_trans (Nat.add_le_add_right fewer _) counts.attempts,
      Nat.le_trans (Nat.add_le_add_right fewer _) counts.bounded, ready_of_none waiting,
      counts.waiting⟩
  · exact fun handle timer present => .inl ⟨present, fun mine same =>
      ⟨inHand.keptNow found present mine same, mayStart⟩⟩

theorem scheduled_turn {error : String} (ends : Ends state workspace key occurrence)
    (mayStart : (watched workspace.cwd key (state.log ++ [occurrence])).mayStart = true) :
    InHand ((state.scheduleRestart id workspace name error).see [occurrence]) := by
  unfold scheduleRestart
  cases waits : workspace.restartTimers name with
  | some handle =>
    exact (waiting_turn inHand found current named ends (fun _ => mayStart) waits).kept inHand
  | none =>
    obtain ⟨config, serves⟩ := serves_of_name named
    rw [serves.configured]
    dsimp only
    by_cases many : MAX_RESTART_ATTEMPTS <
        ((state.attempted workspace name).restartAttempts name).getD 0
    · rw [if_pos many]
      exact (givenUp_turn inHand found current named ends waits _).kept inHand
    · rw [if_neg many]
      exact (timer_turn inHand found current named ends mayStart serves waits
        (Nat.le_of_not_lt many) _ _ _).kept inHand

end Servers

theorem fired_kept (inHand : InHand state) {handle : Nat} {timer : RestartTimer}
    (present : state.timers handle = some timer) : InHand (state.timerFires handle timer) := by
  obtain ⟨workspace, waiting⟩ := inHand.timers handle timer present
  let key := getLspClientKey timer.config workspace.cwd
  have counts := inHand.countsNow waiting.found waiting.current waiting.serves.named
  have told : watched workspace.cwd key (state.log ++ [.started workspace.cwd key]) =
      (watched workspace.cwd key state.log).change (.started workspace.cwd key) :=
    watched_own state.log (concerns_iff.mpr ⟨rfl, rfl⟩)
  have mayStart :
      (watched workspace.cwd key (state.log ++ [.started workspace.cwd key])).mayStart = true := by
    rw [told]
    exact waiting.mayStart
  have same : ¬ (state.workspaces (workspace.clearRestartTimer timer.name).cwd ≠
      some timer.workspace ∨
        (workspace.clearRestartTimer timer.name).generation ≠ timer.generation) := by
    rintro (other | other)
    · exact other waiting.current
    · exact other waiting.generation
  rw [timerFires, waiting.found]
  dsimp only
  rw [if_neg same]
  refine @Turn.kept state _ workspace ((workspace.clearRestartTimer timer.name).emitStatus _)
    timer.workspace key timer.name inHand
    ⟨waiting.found, waiting.current, waiting.serves.named,
      ⟨rfl, rfl, rfl, ?_, fun _ _ => rfl, fun _ _ => rfl⟩, rfl, rfl, le_succ _,
      ⟨_, rfl, ?_⟩, ?_, ?_, ?_, ?_⟩
  · exact fun other different => update_of_ne different ..
  · intro occurrence member at_ of_ concerns
    rw [mem_singleton.mp member] at concerns
    exact concerns_iff.mp concerns
  · change WorkspaceLifecycle.Counts _ timer.name
      (watched _ key (state.log ++ [.started workspace.cwd key]))
    rw [told]
    have attempts := counts.attempts
    have bounded := counts.bounded
    rw [waiting.kept, isSome_some, if_pos rfl] at attempts bounded
    have ready := counts.waiting (by rw [waiting.kept]; rfl)
    refine ⟨?_, ?_, ready_of_none ready, fun _ => ready⟩
    · simp only [emitStatus, clearRestartTimer,
        update_self, isSome_none, Bool.false_eq_true, if_false]
      exact attempts
    · simp only [emitStatus, clearRestartTimer,
        update_self, isSome_none, Bool.false_eq_true, if_false]
      exact bounded
  · intro other found present
    change (if some other = some handle then none else state.timers other) = some found at present
    split at present
    · cases present
    · rename_i different
      refine .inl ⟨present, fun mine same => (different ?_).elim⟩
      rw [← inHand.keptNow waiting.found present mine same]
      exact waiting.kept
  · intro restartId restart present
    change update state.restarts state.next _ restartId = some restart at present
    by_cases same : restartId = state.next
    · subst same
      rw [update_self] at present
      obtain rfl := some.inj present
      refine .inr ⟨update_self .., le_of_eq waiting.generation.symm, fun _ => ?_, ?_, ?_⟩
      · exact ⟨waiting.serves.named, waiting.serves.configured, rfl⟩
      · change state.log.length + 1 ≤ (state.log ++ [_]).length
        rw [length_append]
        exact le_refl _
      · change (watched workspace.cwd key
          ((state.log ++ [_]).take (state.log.length + 1))).mayStart = true
        rw [take_of_length_le (by rw [length_append]; exact le_refl _)]
        exact mayStart
    · rw [update_of_ne same] at present
      exact .inl present
  · refine inHand.stops.append fun at_ of_ same => ?_
    cases same
    exact waiting.mayStart

theorem InHand.overlooked (inHand : InHand state)
    (about : ∀ at_ of_, occurrence.concerns at_ of_ = true → at_ = cwd ∧ of_ = key)
    (unserved : ∀ id workspace, state.workspaces cwd = some id →
      state.objects id = some workspace → workspace.serverNameForKey key = none)
    (starts : ∀ watch : Watch, (watch.change occurrence).starts ≤ watch.starts)
    (silent : ∀ at_ of_, occurrence ≠ .started at_ of_) : InHand (state.see [occurrence]) := by
  have other {at_ of_ : String} (different : ¬ (at_ = cwd ∧ of_ = key)) :
      watched at_ of_ (state.log ++ [occurrence]) = watched at_ of_ state.log := by
    refine watched_other state.log fun found member => ?_
    obtain rfl := mem_singleton.mp member
    by_contra concerns
    exact different (about at_ of_ (Bool.not_eq_false _ ▸ concerns))
  have fewer (at_ of_ : String) : (watched at_ of_ (state.log ++ [occurrence])).starts ≤
      (watched at_ of_ state.log).starts := by
    cases concerns : occurrence.concerns at_ of_ with
    | true =>
      rw [watched_own state.log concerns]
      exact starts _
    | false =>
      refine le_of_eq (congrArg Watch.starts (watched_other state.log ?_))
      intro found member
      rwa [mem_singleton.mp member]
  refine ⟨inHand.objects, inHand.fresh, ?_, ?_, ?_, ?_, ?_, ?_⟩
  · intro handle timer present
    obtain ⟨workspace, waiting⟩ := inHand.timers handle timer present
    refine ⟨workspace, waiting.found, waiting.current, waiting.kept, waiting.generation,
      waiting.serves, ?_⟩
    change (watched _ _ (state.log ++ [occurrence])).mayStart = true
    rw [other]
    · exact waiting.mayStart
    · rintro ⟨rfl, keys⟩
      have unnamed := unserved _ workspace waiting.current waiting.found
      rw [← keys, waiting.serves.named] at unnamed
      cases unnamed
  · intro id restart present
    obtain ⟨workspace, underWay⟩ := inHand.restarts id restart present
    refine ⟨workspace, underWay.found, underWay.generation, underWay.serves, ?_, ?_⟩
    · exact le_trans underWay.since (by
        change _ ≤ (state.log ++ [occurrence]).length
        rw [length_append]
        exact Nat.le_add_right ..)
    · change (watched _ _ ((state.log ++ [occurrence]).take restart.since)).mayStart = true
      rw [take_append_of_le_length underWay.since]
      exact underWay.mayStart
  · intro at_ of_ absent
    exact le_zero.mp (inHand.absent at_ of_ absent ▸ fewer at_ of_)
  · intro at_ id workspace of_ present found unnamed
    exact le_zero.mp (inHand.unknown at_ id workspace of_ present found unnamed ▸ fewer at_ of_)
  · intro at_ id workspace of_ name present found named
    change workspace.Counts name (watched at_ of_ (state.log ++ [occurrence]))
    rw [other]
    · exact inHand.counts at_ id workspace of_ name present found named
    · rintro ⟨rfl, rfl⟩
      rw [unserved id workspace present found] at named
      cases named
  · exact inHand.stops.append fun at_ of_ same => (silent at_ of_ same).elim

/-- Nothing is counted of a server, and no timer waits for it. -/
structure WorkspaceLifecycle.Blank (workspace : WorkspaceLifecycle) : Prop where
  timers : ∀ name, workspace.restartTimers name = none
  readyAt : ∀ name, workspace.readyAt name = none

theorem WorkspaceLifecycle.Blank.counts {watch : Watch} (blank : workspace.Blank)
    (starts : watch.starts = 0) : workspace.Counts name watch where
  attempts := by
    rw [starts, blank.timers name]
    exact zero_le _
  bounded := by
    rw [starts, blank.timers name]
    exact zero_le _
  ready := ready_of_none (blank.readyAt name)
  waiting _ := blank.readyAt name

/-- What a change of whole workspaces has to see to. Of some directories, the attempts begin
again. -/
structure Reset (state after : Lifecycles) (cleared : String → Bool) : Prop where
  workspaces : ∀ cwd id, after.workspaces cwd = some id → state.workspaces cwd = some id
  gone : ∀ cwd, after.workspaces cwd = none → state.workspaces cwd = none ∨ cleared cwd = true
  objects : ∀ id workspace, state.objects id = some workspace → ∃ changed,
    after.objects id = some changed ∧ changed.cwd = workspace.cwd ∧
      workspace.generation ≤ changed.generation ∧
      (changed.generation = workspace.generation → changed.config = workspace.config)
  fresh : ∀ id, state.objects id = none → after.objects id = none
  next : after.next = state.next
  current : ∀ cwd id changed, after.workspaces cwd = some id → after.objects id = some changed →
    cleared cwd = false ∧ state.objects id = some changed ∨ cleared cwd = true ∧ changed.Blank
  timers : ∀ handle timer, after.timers handle = some timer →
    state.timers handle = some timer ∧ ∀ workspace, state.objects timer.workspace = some workspace →
        state.workspaces workspace.cwd = some timer.workspace →
          workspace.restartTimers timer.name = some handle →
            cleared workspace.cwd = false ∧ after.objects timer.workspace = some workspace ∧
              after.workspaces workspace.cwd = some timer.workspace
  restarts : after.restarts = state.restarts
  log : ∃ more, after.log = state.log ++ more
  told : ∀ cwd key, watched cwd key after.log =
    { watched cwd key state.log with
      starts := if cleared cwd then 0 else (watched cwd key state.log).starts }
  stops : StopsKept after.log

section Reset

variable {cleared : String → Bool} (reset : Reset state after cleared)

include reset

theorem Reset.untold {cwd : String} (kept : cleared cwd = false) (key : String) :
    watched cwd key after.log = watched cwd key state.log := by
  rw [reset.told cwd key, kept]
  rfl

theorem Reset.mayStart (cwd key : String) :
    (watched cwd key after.log).mayStart = (watched cwd key state.log).mayStart := by
  rw [reset.told cwd key]

theorem Reset.starts_le (cwd key : String) :
    (watched cwd key after.log).starts ≤ (watched cwd key state.log).starts := by
  rw [reset.told cwd key]
  dsimp only
  split
  · exact zero_le _
  · exact le_refl _

theorem Reset.starts_cleared {cwd : String} (again : cleared cwd = true) (key : String) :
    (watched cwd key after.log).starts = 0 := by
  rw [reset.told cwd key, again]
  rfl

/-- A change of whole workspaces keeps the lifecycles in hand. -/
theorem Reset.kept (inHand : InHand state) : InHand after where
  objects cwd id present := by
    obtain ⟨workspace, found, at_⟩ := inHand.objects cwd id (reset.workspaces cwd id present)
    obtain ⟨changed, now, same, -⟩ := reset.objects id workspace found
    exact ⟨changed, now, same.trans at_⟩
  fresh id beyond := by
    rw [reset.next] at beyond
    exact reset.fresh id (inHand.fresh id beyond)
  timers handle timer present := by
    obtain ⟨before, kept⟩ := reset.timers handle timer present
    obtain ⟨workspace, waiting⟩ := inHand.timers handle timer before
    obtain ⟨-, found, current⟩ := kept workspace waiting.found waiting.current waiting.kept
    refine ⟨workspace, found, current, waiting.kept, waiting.generation, waiting.serves, ?_⟩
    rw [reset.mayStart]
    exact waiting.mayStart
  restarts id restart present := by
    rw [reset.restarts] at present
    obtain ⟨workspace, underWay⟩ := inHand.restarts id restart present
    obtain ⟨changed, now, at_, later, alike⟩ := reset.objects _ workspace underWay.found
    obtain ⟨more, log⟩ := reset.log
    refine ⟨changed, now, le_trans underWay.generation later, ?_, ?_, ?_⟩
    · intro same
      have generation : changed.generation = workspace.generation :=
        le_antisymm (same ▸ underWay.generation) later
      have serves := underWay.serves (same.trans generation)
      rw [at_]
      refine ⟨?_, ?_, ?_⟩
      · rw [← serves.named, serverNameForKey,
          serverNameForKey, alike generation, at_]
      · rw [alike generation]
        exact serves.configured
      · rw [at_]
    · rw [log, length_append]
      exact le_add_right_of_le underWay.since
    · rw [at_, log, take_append_of_le_length underWay.since]
      exact underWay.mayStart
  absent cwd key absent := by
    rcases reset.gone cwd absent with before | again
    · exact le_zero.mp (inHand.absent cwd key before ▸ reset.starts_le cwd key)
    · exact reset.starts_cleared again key
  unknown cwd id changed key present found unnamed := by
    rcases reset.current cwd id changed present found with ⟨kept, before⟩ | ⟨again, -⟩
    · rw [reset.untold kept]
      exact inHand.unknown cwd id changed key (reset.workspaces cwd id present) before unnamed
    · exact reset.starts_cleared again key
  counts cwd id changed key name present found named := by
    rcases reset.current cwd id changed present found with ⟨kept, before⟩ | ⟨again, blank⟩
    · rw [reset.untold kept]
      exact inHand.counts cwd id changed key name (reset.workspaces cwd id present) before named
    · exact blank.counts (reset.starts_cleared again key)
  stops := reset.stops

end Reset

/-- What is told of a server when its attempts begin again. -/
theorem told_reset (at_ : Option String) (log : List Occurrence) (cwd key : String) :
    watched cwd key (log ++ [.reset at_]) =
      { watched cwd key log with
        starts := if at_.all (· = cwd) then 0 else (watched cwd key log).starts } := by
  cases concerns : at_.all (· = cwd) with
  | true => exact watched_own log concerns
  | false =>
    refine watched_other log fun occurrence member => ?_
    rw [mem_singleton.mp member]
    exact concerns

theorem left_of_cleared (found : state.objects id = some workspace) {handle : Nat}
    {timer : RestartTimer} {old : WorkspaceLifecycle}
    (present : (state.clearRestartTimers workspace).timers handle = some timer)
    (object : state.objects timer.workspace = some old)
    (kept : old.restartTimers timer.name = some handle) : timer.workspace ≠ id := by
  intro same
  rw [same, found] at object
  obtain rfl := some.inj object
  exact of_decide_eq_true (filter_eq_some_iff.mp present).2 kept

/-- One workspace changes. -/
theorem one_changed (found : state.objects id = some workspace)
    (cwd : changed.cwd = workspace.cwd) (later : workspace.generation ≤ changed.generation)
    (config : changed.generation = workspace.generation → changed.config = workspace.config)
    (other : Nat) (old : WorkspaceLifecycle) (before : state.objects other = some old) :
    ∃ now, update state.objects id (some changed) other = some now ∧ now.cwd = old.cwd ∧
      old.generation ≤ now.generation ∧
        (now.generation = old.generation → now.config = old.config) := by
  by_cases same : other = id
  · subst same
    obtain rfl := some.inj (found.symm.trans before)
    exact ⟨_, update_self .., cwd, later, config⟩
  · exact ⟨old, (update_of_ne same ..).trans before, rfl, le_refl _, fun _ => rfl⟩

theorem none_changed (found : state.objects id = some workspace) (other : Nat)
    (unknown : state.objects other = none) :
    update state.objects id (some changed) other = none := by
  have different : other ≠ id := by
    rintro rfl
    rw [found] at unknown
    cases unknown
  exact (update_of_ne different ..).trans unknown

/-- The attempts of a directory without a workspace begin again. -/
theorem InHand.unused (inHand : InHand state) {cwd : String}
    (absent : state.workspaces cwd = none) : InHand (state.see [.reset (some cwd)]) := by
  have kept {other : String} {id : Nat} (present : state.workspaces other = some id) :
      (some cwd).all (· = other) = false := by
    refine decide_eq_false fun same => ?_
    rw [← same, absent] at present
    cases present
  refine @Reset.kept state _ (fun other => (some cwd).all (· = other)) ?_ inHand
  exact {
    workspaces := fun _ _ present => present
    gone := fun _ absent => .inl absent
    objects := fun id workspace found => ⟨workspace, found, rfl, le_refl _, fun _ => rfl⟩
    fresh := fun _ unknown => unknown
    next := rfl
    current := fun other id changed present found => .inl ⟨kept present, found⟩
    timers := fun handle timer present => ⟨present, fun workspace found current _ =>
      ⟨kept current, found, current⟩⟩
    restarts := rfl
    log := ⟨_, rfl⟩
    told := told_reset (some cwd) state.log
    stops := inHand.stops.append nofun }

theorem InHand.stopped (inHand : InHand state) (cwd : String) :
    InHand ((state.stopLspLifecycleForCwd cwd).see [.reset (some cwd)]) := by
  rw [stopLspLifecycleForCwd]
  cases present : state.workspaces cwd with
  | none => exact inHand.unused present
  | some id =>
    obtain ⟨workspace, found, rfl⟩ := inHand.objects cwd id present
    rw [bind_some, found]
    refine @Reset.kept state _ (fun other => (some workspace.cwd).all (· = other)) ?_ inHand
    exact {
      workspaces := fun other here present_ => by
        change update state.workspaces workspace.cwd none other = some here at present_
        by_cases same : other = workspace.cwd
        · subst same
          rw [update_self] at present_
          cases present_
        · rwa [update_of_ne same] at present_
      gone := fun other absent => by
        change update state.workspaces workspace.cwd none other = none at absent
        by_cases same : other = workspace.cwd
        · exact .inr (decide_eq_true same.symm)
        · rw [update_of_ne same] at absent
          exact .inl absent
      objects := one_changed found rfl (le_refl _) fun _ => rfl
      fresh := none_changed found
      next := rfl
      current := fun other here changed present_ found_ => by
        change update state.workspaces workspace.cwd none other = some here at present_
        change update state.objects id _ here = some changed at found_
        have different : other ≠ workspace.cwd := by
          rintro rfl
          rw [update_self] at present_
          cases present_
        rw [update_of_ne different] at present_
        have elsewhere : here ≠ id := by
          rintro rfl
          obtain ⟨old, before, at_⟩ := inHand.objects other here present_
          obtain rfl := some.inj (found.symm.trans before)
          exact different at_.symm
        rw [update_of_ne elsewhere] at found_
        exact .inl ⟨decide_eq_false (Ne.symm different), found_⟩
      timers := fun handle timer waits => by
        refine ⟨(filter_eq_some_iff.mp waits).1, fun old objects current kept => ?_⟩
        have elsewhere := left_of_cleared found waits objects kept
        have different : old.cwd ≠ workspace.cwd := by
          intro same
          rw [same, present] at current
          exact elsewhere (some.inj current).symm
        exact ⟨decide_eq_false (Ne.symm different), (update_of_ne elsewhere ..).trans objects,
          (update_of_ne different ..).trans current⟩
      restarts := rfl
      log := ⟨_, rfl⟩
      told := told_reset (some workspace.cwd) state.log
      stops := inHand.stops.append nofun }

theorem InHand.stoppedAll (inHand : InHand state) :
    InHand (state.shutdownAllLspLifecycles.see [.reset none]) := by
  refine @Reset.kept state _ (fun other => Option.all (· = other) none) ?_ inHand
  exact {
    workspaces := nofun
    gone := fun _ _ => .inr rfl
    objects := fun id workspace found => by
      refine ⟨if state.current id workspace then { workspace with restartTimers := fun _ => none }
        else workspace, ?_, ?_⟩
      · change (state.objects id).map _ = _
        rw [found]
        rfl
      · split
        · exact ⟨rfl, Nat.le_refl _, fun _ => rfl⟩
        · exact ⟨rfl, Nat.le_refl _, fun _ => rfl⟩
    fresh := fun id unknown => by
      change (state.objects id).map _ = none
      rw [unknown]
      rfl
    next := rfl
    current := nofun
    timers := fun handle timer waits => by
      obtain ⟨before, other⟩ := filter_eq_some_iff.mp waits
      refine ⟨before, fun workspace found current kept => ?_⟩
      rw [found, any_some, Lifecycles.current, current, kept] at other
      simp only [decide_true, Bool.and_self, Bool.not_true, Bool.false_eq_true] at other
    restarts := rfl
    log := ⟨_, rfl⟩
    told := told_reset none state.log
    stops := inHand.stops.append nofun }

theorem see_nil : state.see [] = state := by
  rw [see, append_nil]

/-- A workspace gets another configuration, and its attempts begin again. -/
theorem InHand.reconciled (inHand : InHand state) (config : LspConfig)
    (forceRestart : Bool) (found : state.objects id = some workspace) :
    InHand ((state.reconcileWorkspace configFingerprint id workspace config forceRestart).see
      (state.seenReset configFingerprint id workspace config forceRestart)) := by
  rw [reconcileWorkspace, seenReset]
  by_cases same : (configFingerprint config = workspace.fingerprint && !forceRestart) = true
  · have nothing : (state.current id workspace &&
        (decide (configFingerprint config ≠ workspace.fingerprint) || forceRestart)) = false := by
      rw [Bool.and_eq_true, decide_eq_true_eq, Bool.not_eq_true'] at same
      rw [same.1, same.2]
      simp only [ne_eq, not_true_eq_false, decide_false, Bool.or_self, Bool.and_false]
    rw [if_pos same, nothing, if_neg Bool.false_ne_true, see_nil]
    exact inHand
  · have anew : (decide (configFingerprint config ≠ workspace.fingerprint) || forceRestart) =
        true := by
      rw [Bool.and_eq_true, decide_eq_true_eq, Bool.not_eq_true', not_and,
        Bool.not_eq_false] at same
      by_cases equal : configFingerprint config = workspace.fingerprint
      · rw [same equal, Bool.or_true]
      · rw [decide_eq_true equal, Bool.true_or]
    rw [if_neg same, anew, Bool.and_true]
    have current {cwd : String} (present : state.workspaces cwd = some id) :
        cwd = workspace.cwd ∧ state.current id workspace = true := by
      obtain ⟨old, before, rfl⟩ := inHand.objects cwd id present
      obtain rfl := some.inj (found.symm.trans before)
      exact ⟨rfl, decide_eq_true present⟩
    refine @Reset.kept state _
      (fun other => state.current id workspace && workspace.cwd = other) ?_ inHand
    exact {
      workspaces := fun _ _ present => present
      gone := fun _ absent => .inl absent
      objects := one_changed found rfl (le_succ _) fun same =>
        (succ_ne_self _ same).elim
      fresh := none_changed found
      next := rfl
      current := fun other here changed present found_ => by
        change update state.objects id _ here = some changed at found_
        by_cases same : here = id
        · subst same
          rw [update_self] at found_
          obtain rfl := some.inj found_
          obtain ⟨at_, now⟩ := current present
          refine .inr ⟨?_, fun _ => rfl, fun _ => rfl⟩
          rw [now, Bool.true_and]
          exact decide_eq_true at_.symm
        · rw [update_of_ne same] at found_
          refine .inl ⟨?_, found_⟩
          cases now : state.current id workspace with
          | false => rfl
          | true =>
            refine decide_eq_false fun at_ => same ?_
            rw [Lifecycles.current, decide_eq_true_eq, at_] at now
            exact some.inj (present.symm.trans now)
      timers := fun handle timer waits => by
        refine ⟨(filter_eq_some_iff.mp waits).1, fun old objects present kept => ?_⟩
        have elsewhere := left_of_cleared found waits objects kept
        refine ⟨?_, (update_of_ne elsewhere ..).trans objects, present⟩
        cases now : state.current id workspace with
        | false => rfl
        | true =>
          refine decide_eq_false fun at_ => elsewhere ?_
          rw [Lifecycles.current, decide_eq_true_eq, at_, present] at now
          exact some.inj now
      restarts := rfl
      log := ⟨_, rfl⟩
      told := fun cwd key => by
        change watched cwd key (state.log ++ _) = _
        cases now : state.current id workspace with
        | false =>
          rw [if_neg Bool.false_ne_true, append_nil]
          rfl
        | true =>
          rw [if_pos rfl]
          exact told_reset (some workspace.cwd) state.log cwd key
      stops := by
        change StopsKept (state.log ++ _)
        split
        · exact inHand.stops.append nofun
        · rw [append_nil]
          exact inHand.stops }

theorem InHand.delayed (inHand : InHand state) (found : state.objects id = some workspace)
    (restartBaseDelayMs restartStabilityMs : Nat) :
    InHand (state.setObject id
      { workspace with
        restartBaseDelayMs := restartBaseDelayMs
        restartStabilityMs := restartStabilityMs }) := by
  let delayed : WorkspaceLifecycle :=
    { workspace with
      restartBaseDelayMs := restartBaseDelayMs
      restartStabilityMs := restartStabilityMs }
  -- An object is as it was, but for its delays.
  have before {other : Nat} {now : WorkspaceLifecycle}
      (present : update state.objects id (some delayed) other = some now) :
      ∃ old base stability, state.objects other = some old ∧
        now = { old with restartBaseDelayMs := base, restartStabilityMs := stability } := by
    by_cases same : other = id
    · subst same
      refine ⟨workspace, restartBaseDelayMs, restartStabilityMs, found, ?_⟩
      rw [update_self] at present
      exact (some.inj present).symm
    · exact ⟨now, now.restartBaseDelayMs, now.restartStabilityMs,
        (update_of_ne same ..).symm.trans present, rfl⟩
  have after {other : Nat} {old : WorkspaceLifecycle} (present : state.objects other = some old) :
      ∃ base stability, update state.objects id (some delayed) other =
        some { old with restartBaseDelayMs := base, restartStabilityMs := stability } := by
    by_cases same : other = id
    · subst same
      obtain rfl := some.inj (found.symm.trans present)
      exact ⟨restartBaseDelayMs, restartStabilityMs, update_self ..⟩
    · exact ⟨old.restartBaseDelayMs, old.restartStabilityMs,
        (update_of_ne same ..).trans present⟩
  refine ⟨?_, ?_, ?_, ?_, inHand.absent, ?_, ?_, inHand.stops⟩
  · intro cwd other present
    obtain ⟨old, objects, at_⟩ := inHand.objects cwd other present
    obtain ⟨base, stability, now⟩ := after objects
    exact ⟨_, now, at_⟩
  · exact fun other beyond => none_changed found other (inHand.fresh other beyond)
  · intro handle timer present
    obtain ⟨old, waiting⟩ := inHand.timers handle timer present
    obtain ⟨base, stability, now⟩ := after waiting.found
    exact ⟨_, now, waiting.current, waiting.kept, waiting.generation,
      ⟨waiting.serves.named, waiting.serves.configured, waiting.serves.keyed⟩, waiting.mayStart⟩
  · intro restartId restart present
    obtain ⟨old, underWay⟩ := inHand.restarts restartId restart present
    obtain ⟨base, stability, now⟩ := after underWay.found
    refine ⟨_, now, underWay.generation, fun same => ?_, underWay.since, underWay.mayStart⟩
    have serves := underWay.serves same
    exact ⟨serves.named, serves.configured, serves.keyed⟩
  · intro cwd other now key present objects unnamed
    obtain ⟨old, base, stability, before, rfl⟩ := before objects
    exact inHand.unknown cwd other old key present before unnamed
  · intro cwd other now key name present objects named
    obtain ⟨old, base, stability, before, rfl⟩ := before objects
    have counts := inHand.counts cwd other old key name present before named
    exact ⟨counts.attempts, counts.bounded, counts.ready, counts.waiting⟩

theorem InHand.opened (inHand : InHand state) (absent : state.workspaces workspace.cwd = none)
    (blank : workspace.Blank) :
    InHand { state.setObject state.next workspace with
      workspaces := update state.workspaces workspace.cwd (some state.next)
      next := state.next + 1 } := by
  have unknown : state.objects state.next = none := inHand.fresh state.next (le_refl _)
  have kept {other : Nat} {old : WorkspaceLifecycle} (present : state.objects other = some old) :
      update state.objects state.next (some workspace) other = some old := by
    have different : other ≠ state.next := by
      rintro rfl
      rw [unknown] at present
      cases present
    exact (update_of_ne different ..).trans present
  have current {cwd : String} {other : Nat} (present : state.workspaces cwd = some other) :
      update state.workspaces workspace.cwd (some state.next) cwd = some other := by
    have different : cwd ≠ workspace.cwd := by
      rintro rfl
      rw [absent] at present
      cases present
    exact (update_of_ne different ..).trans present
  -- A workspace that is found is the new one, or it was there before.
  have before {cwd : String} {other : Nat} {now : WorkspaceLifecycle}
      (present : update state.workspaces workspace.cwd (some state.next) cwd = some other)
      (found : update state.objects state.next (some workspace) other = some now) :
      (cwd = workspace.cwd ∧ other = state.next ∧ now = workspace) ∨
        (state.workspaces cwd = some other ∧ state.objects other = some now) := by
    by_cases same : cwd = workspace.cwd
    · subst same
      rw [update_self] at present
      obtain rfl := some.inj present
      rw [update_self] at found
      exact .inl ⟨rfl, rfl, (some.inj found).symm⟩
    · rw [update_of_ne same] at present
      obtain ⟨old, objects, -⟩ := inHand.objects cwd other present
      rw [kept objects] at found
      obtain rfl := some.inj found
      exact .inr ⟨present, objects⟩
  refine ⟨?_, ?_, ?_, ?_, ?_, ?_, ?_, inHand.stops⟩
  · intro cwd other present
    by_cases same : cwd = workspace.cwd
    · subst same
      change update state.workspaces workspace.cwd _ workspace.cwd = some other at present
      rw [update_self] at present
      obtain rfl := some.inj present
      exact ⟨workspace, update_self .., rfl⟩
    · obtain ⟨old, objects, at_⟩ :=
        inHand.objects cwd other ((update_of_ne same ..).symm.trans present)
      exact ⟨old, kept objects, at_⟩
  · intro other beyond
    have later : state.next + 1 ≤ other := beyond
    have different : other ≠ state.next := by omega
    exact (update_of_ne different ..).trans (inHand.fresh other (by omega))
  · intro handle timer present
    obtain ⟨old, waiting⟩ := inHand.timers handle timer present
    exact ⟨old, kept waiting.found, current waiting.current, waiting.kept, waiting.generation,
      waiting.serves, waiting.mayStart⟩
  · intro restartId restart present
    obtain ⟨old, underWay⟩ := inHand.restarts restartId restart present
    exact ⟨old, kept underWay.found, underWay.generation, underWay.serves, underWay.since,
      underWay.mayStart⟩
  · intro cwd key none
    refine inHand.absent cwd key ?_
    have different : cwd ≠ workspace.cwd := by
      rintro rfl
      change update state.workspaces workspace.cwd _ workspace.cwd = .none at none
      rw [update_self] at none
      cases none
    exact (update_of_ne different ..).symm.trans none
  · intro cwd other now key present found unnamed
    rcases before present found with ⟨rfl, -, -⟩ | ⟨present, found⟩
    · exact inHand.absent _ key absent
    · exact inHand.unknown cwd other now key present found unnamed
  · intro cwd other now key name present found named
    rcases before present found with ⟨rfl, -, rfl⟩ | ⟨present, found⟩
    · exact blank.counts (inHand.absent _ key absent)
    · exact inHand.counts cwd other now key name present found named

theorem InHand.started (inHand : InHand state) (cwd : String) (config : LspConfig)
    (restartBaseDelayMs restartStabilityMs : Option Nat) :
    InHand (state.startLspLifecycle configFingerprint cwd config restartBaseDelayMs
      restartStabilityMs) := by
  rw [startLspLifecycle]
  cases present : state.workspaces cwd with
  | some id =>
    obtain ⟨workspace, found, rfl⟩ := inHand.objects cwd id present
    rw [bind_some, found]
    exact inHand.delayed found _ _
  | none => exact inHand.opened present ⟨fun _ => rfl, fun _ => rfl⟩

theorem seen_about {client : ClientState} (seen : state.seen cwd key client = [occurrence]) :
    (∀ at_ of_, occurrence.concerns at_ of_ = true → at_ = cwd ∧ of_ = key) ∧
      (∀ watch : Watch, (watch.change occurrence).starts ≤ watch.starts) ∧
        ∀ at_ of_, occurrence ≠ .started at_ of_ := by
  cases client with
  | starting => cases seen
  | ready =>
    obtain rfl := singleton_inj.mp seen
    exact ⟨fun _ _ => concerns_iff.mp, fun _ => le_refl _, nofun⟩
  | error =>
    obtain rfl := singleton_inj.mp seen
    exact ⟨fun _ _ => concerns_iff.mp, fun watch => unready_starts_le watch _ _, nofun⟩
  | stopped =>
    obtain rfl := singleton_inj.mp seen
    exact ⟨fun _ _ => concerns_iff.mp, fun _ => zero_le _, nofun⟩

theorem InHand.unserved (inHand : InHand state) (client : ClientState)
    (unserved : ∀ id workspace, state.workspaces cwd = some id →
      state.objects id = some workspace → workspace.serverNameForKey key = none) :
    InHand (state.see (state.seen cwd key client)) := by
  cases seen : state.seen cwd key client with
  | nil =>
    rw [see_nil]
    exact inHand
  | cons occurrence rest =>
    have single : rest = [] := by
      cases client <;> cases seen <;> rfl
    subst single
    obtain ⟨about, starts, silent⟩ := seen_about seen
    exact inHand.overlooked about unserved starts silent

theorem InHand.client (inHand : InHand state) (cwd key : String) (client : ClientState)
    (error : Option String) :
    InHand ((state.handleClientState cwd key client error).see (state.seen cwd key client)) := by
  cases present : state.workspaces cwd with
  | none =>
    unfold handleClientState
    rw [present]
    exact inHand.unserved client fun id workspace now => by
      rw [present] at now
      cases now
  | some id =>
    obtain ⟨workspace, found, rfl⟩ := inHand.objects cwd id present
    unfold handleClientState
    rw [present]
    dsimp only
    rw [found]
    dsimp only
    cases named : workspace.serverNameForKey key with
    | none =>
      refine inHand.unserved client fun other now same objects => ?_
      obtain rfl := some.inj (present.symm.trans same)
      obtain rfl := some.inj (found.symm.trans objects)
      exact named
    | some name =>
      obtain ⟨config, serves⟩ := serves_of_name named
      dsimp only
      rw [serves.configured]
      cases client with
      | starting =>
        rw [seen, see_nil]
        exact (starting_turn inHand found present named _).kept inHand
      | ready => exact (ready_turn inHand found present named config).kept inHand
      | stopped => exact (stopped_turn inHand found present named config _ _).kept inHand
      | error =>
        rw [seen, stabilityMs_current found present]
        refine scheduled_turn inHand found present named
          ⟨fun _ _ => concerns_iff, fun _ => rfl, fun _ => rfl, nofun⟩ ?_
        rw [watched_own state.log (by exact concerns_iff.mpr ⟨rfl, rfl⟩)]
        rfl

/-- A start by the lifecycle fails in place: its workspace is still the one of its directory and
has the same configuration, and the server was not stopped meanwhile. -/
def FailsInPlace (state : Lifecycles) : LifecycleEvent → Prop
  | .restartRejected _ restart _ => ∃ workspace, state.objects restart.workspace = some workspace ∧
      state.workspaces workspace.cwd = some restart.workspace ∧
      workspace.generation = restart.generation ∧
      ∀ now stabilityMs, .stopped workspace.cwd (getLspClientKey restart.config workspace.cwd) now
        stabilityMs ∉ state.log.drop restart.since
  | _ => True

theorem mayStart_append {more : List Occurrence} (mayStart : (watched cwd key log).mayStart = true)
    (never : ∀ now stabilityMs, .stopped cwd key now stabilityMs ∉ more) :
    (watched cwd key (log ++ more)).mayStart = true := by
  induction more generalizing log with
  | nil =>
    rw [append_nil]
    exact mayStart
  | cons occurrence more hypothesis =>
    have split : log ++ occurrence :: more = (log ++ [occurrence]) ++ more := by
      rw [append_assoc, singleton_append]
    rw [split]
    refine hypothesis (log ++ [occurrence]) ?_ fun now stabilityMs later =>
      never now stabilityMs (mem_cons_of_mem _ later)
    cases concerns : occurrence.concerns cwd key with
    | false =>
      rw [watched_other log fun found member => by rwa [mem_singleton.mp member]]
      exact mayStart
    | true =>
      rw [watched_own log concerns]
      cases occurrence with
      | stopped at_ of_ now stabilityMs =>
        simp only [Occurrence.concerns, Bool.and_eq_true, decide_eq_true_eq] at concerns
        obtain ⟨rfl, rfl⟩ := concerns
        exact (never now stabilityMs (mem_cons_self ..)).elim
      | failed => rfl
      | _ => exact mayStart

/-- Time passes, or starts that were under way end. -/
theorem InHand.fewer (inHand : InHand state) (now : Nat) {restarts : Nat → Option Restart}
    (before : ∀ id restart, restarts id = some restart → state.restarts id = some restart) :
    InHand { state with now := now, restarts := restarts } :=
  { inHand with
    timers := fun handle timer present => by
      obtain ⟨workspace, waiting⟩ := inHand.timers handle timer present
      exact ⟨workspace, waiting.found, waiting.current, waiting.kept, waiting.generation,
        waiting.serves, waiting.mayStart⟩
    restarts := fun id restart present => by
      obtain ⟨workspace, underWay⟩ := inHand.restarts id restart (before id restart present)
      exact ⟨workspace, underWay.found, underWay.generation, underWay.serves, underWay.since,
        underWay.mayStart⟩ }

theorem InHand.settled (inHand : InHand state) (id : Nat) :
    InHand { state with restarts := update state.restarts id none } := by
  refine inHand.fewer state.now fun other restart present => ?_
  by_cases same : other = id
  · rw [same, update_self] at present
    cases present
  · rwa [update_of_ne same] at present

theorem InHand.rejected (inHand : InHand state) {restart : Restart} {error : String}
    (present : state.restarts id = some restart)
    (inPlace : FailsInPlace state (.restartRejected id restart error)) :
    InHand (state.step configFingerprint (.restartRejected id restart error)) := by
  obtain ⟨workspace, found, current, generation, never⟩ := inPlace
  obtain ⟨old, underWay⟩ := inHand.restarts id restart present
  obtain rfl := some.inj (found.symm.trans underWay.found)
  have serves := underWay.serves generation.symm
  let key := getLspClientKey restart.config workspace.cwd
  have server : state.restartServer restart = (workspace.cwd, key) := by
    rw [restartServer, found]
    rfl
  have mayStart : (watched workspace.cwd key state.log).mayStart = true := by
    rw [← take_append_drop restart.since state.log]
    exact mayStart_append _ underWay.mayStart never
  have settled := inHand.settled id
  have ends : Ends { state with restarts := update state.restarts id none } workspace
      key (.rejected workspace.cwd key state.now workspace.restartStabilityMs) :=
    ⟨fun _ _ => concerns_iff, fun _ => rfl, fun _ => rfl, nofun⟩
  have still : (watched workspace.cwd key (state.log ++ [.rejected workspace.cwd key
      state.now workspace.restartStabilityMs])).mayStart = true := by
    refine mayStart_append state.log mayStart fun now stabilityMs member => ?_
    cases mem_singleton.mp member
  rw [step, server]
  dsimp only
  rw [stabilityMs_current found current, restartRejected, found]
  dsimp only
  cases waits : workspace.restartTimers restart.name with
  | some handle =>
    rw [isSome_some, if_pos rfl]
    exact (waiting_turn settled found current serves.named ends (fun _ => still) waits).kept
      settled
  | none =>
    rw [isSome_none, if_neg Bool.false_ne_true]
    exact scheduled_turn settled found current serves.named ends still

theorem InHand.step (inHand : InHand state) {event : LifecycleEvent}
    (possible : event.Possible state) (inPlace : FailsInPlace state event) :
    InHand (state.step configFingerprint event) := by
  cases event with
  | wait ms => exact inHand.fewer _ fun _ _ present => present
  | clientState cwd key client error => exact inHand.client cwd key client error
  | timerFires handle timer => exact fired_kept inHand possible.1
  | restartResolved id => exact inHand.settled id
  | restartRejected id restart error => exact inHand.rejected possible inPlace
  | reconcile id workspace config forceRestart =>
    exact inHand.reconciled config forceRestart possible
  | start cwd config restartBaseDelayMs restartStabilityMs =>
    exact inHand.started cwd config restartBaseDelayMs restartStabilityMs
  | stop cwd => exact inHand.stopped cwd
  | stopAll => exact inHand.stoppedAll

theorem inHand_reached (reached : LifecyclesReached configFingerprint FailsInPlace state) :
    InHand state := by
  induction reached with
  | start =>
    refine ⟨?_, fun _ _ => rfl, ?_, ?_, fun _ _ _ => rfl, ?_, ?_, ?_⟩
    · exact nofun
    · exact nofun
    · exact nofun
    · exact nofun
    · exact nofun
    · exact fun before after cwd key same => by
        cases append_eq_nil_iff.mp same.symm with
        | intro _ never => cases never
  | step event reached possible inPlace inHand => exact inHand.step possible inPlace

theorem InHand.restartsBounded (inHand : InHand state) : RestartsBounded state := by
  intro cwd key
  cases present : state.workspaces cwd with
  | none =>
    rw [inHand.absent cwd key present]
    exact zero_le _
  | some id =>
    obtain ⟨workspace, found, at_⟩ := inHand.objects cwd id present
    cases named : workspace.serverNameForKey key with
    | none =>
      rw [inHand.unknown cwd id workspace key present found named]
      exact zero_le _
    | some name =>
      have counts := inHand.counts cwd id workspace key name present found named
      exact le_trans (Nat.le_add_right ..) counts.bounded

theorem InHand.oneRestartTimer (inHand : InHand state) : OneRestartTimer state := by
  intro first second earlier later one two names directories
  obtain ⟨workspace, waiting⟩ := inHand.timers first earlier one
  obtain ⟨other, also⟩ := inHand.timers second later two
  rw [RestartTimer.cwd, RestartTimer.cwd, waiting.found, also.found] at directories
  have same : workspace.cwd = other.cwd := some.inj directories
  have ids : earlier.workspace = later.workspace :=
    some.inj (waiting.current.symm.trans (same ▸ also.current))
  have objects := waiting.found
  rw [ids, also.found] at objects
  obtain rfl := some.inj objects
  have kept := waiting.kept
  rw [names, also.kept] at kept
  exact (some.inj kept).symm

/-- If starts by the lifecycle fail in place, a server is started at most three times after its
attempts have begun, has one timer, and is not started after a stop until it has failed. -/
theorem restarts_kept (configFingerprint : LspConfig → String) (state : Lifecycles)
    (reached : LifecyclesReached configFingerprint FailsInPlace state) :
    RestartsBounded state ∧ OneRestartTimer state ∧ StopsKept state.log := by
  have inHand := inHand_reached reached
  exact ⟨inHand.restartsBounded, inHand.oneRestartTimer, inHand.stops⟩

def oneServer (settings : String) : LspConfig where
  servers := [("ts", { command := "tsserver", fileTypes := ["ts"], settings := settings })]
  distinct := pairwise_singleton _ _

def settingsOf (config : LspConfig) : String :=
  (config.servers.head?.map fun server => server.2.settings).getD ""

/-- The timer of an attempt to start the server of `oneServer`. -/
def tsTimer (settings : String) (attempt generation : Nat) : RestartTimer where
  workspace := 0
  name := "ts"
  config := { command := "tsserver", fileTypes := ["ts"], settings := settings }
  attempt := attempt
  generation := generation
  firesAt := 0

/-- A server that fails is started again. This start fails in place, and the next one is made. -/
theorem restarts_kept_rejected :
    ∃ state, LifecyclesReached settingsOf FailsInPlace state ∧
      (watched "/w" "tsserver:/w" state.log).starts = 2 ∧
        RestartsBounded state ∧ OneRestartTimer state ∧ StopsKept state.log := by
  have opened : LifecyclesReached settingsOf FailsInPlace _ :=
    .step (.start "/w" (oneServer "") (some 0) none) .start trivial trivial
  have failed := opened.step (.clientState "/w" "tsserver:/w" .error none) trivial trivial
  have first := failed.step (.timerFires 1 (tsTimer "" 1 0))
    ⟨by decide +kernel, by decide +kernel⟩ trivial
  have rejected := first.step (.restartRejected 2
    { workspace := 0, name := "ts"
      config := { command := "tsserver", fileTypes := ["ts"], settings := "" }
      generation := 0, since := 2 } "spawn failed")
    (by unfold LifecycleEvent.Possible; decide +kernel) ⟨_, rfl, rfl, rfl, fun _ _ => nofun⟩
  have second := rejected.step (.timerFires 3 (tsTimer "" 2 0))
    ⟨by decide +kernel, by decide +kernel⟩ trivial
  exact ⟨_, second, by decide +kernel, restarts_kept settingsOf _ second⟩

/-- A server whose attempts end with a stop is started a fourth time, and a start that a stop
has interrupted is tried again. -/
theorem not_restarts_kept :
    (¬ ∀ (configFingerprint : LspConfig → String) (state : Lifecycles),
      LifecyclesReached configFingerprint (fun _ _ => True) state →
        RestartsBoundedByStability state) ∧
    ¬ ∀ (configFingerprint : LspConfig → String) (state : Lifecycles),
      LifecyclesReached configFingerprint (fun _ _ => True) state → StopsKept state.log := by
  have possible (event : LifecycleEvent) {state : Lifecycles}
      (reached : LifecyclesReached settingsOf (fun _ _ => True) state)
      (possible : event.Possible state) :
      LifecyclesReached settingsOf (fun _ _ => True) (state.step settingsOf event) :=
    .step event reached possible trivial
  have opened := possible (.start "/w" (oneServer "") (some 0) none) .start trivial
  have failed := possible (.clientState "/w" "tsserver:/w" .error none) opened trivial
  have first := possible (.timerFires 1 (tsTimer "" 1 0)) failed
    ⟨by decide +kernel, by decide +kernel⟩
  constructor
  · intro bounded
    have again := possible (.clientState "/w" "tsserver:/w" .error none) first trivial
    have second := possible (.timerFires 3 (tsTimer "" 2 0)) again
      ⟨by decide +kernel, by decide +kernel⟩
    have oncemore := possible (.clientState "/w" "tsserver:/w" .error none) second trivial
    have third := possible (.timerFires 5 (tsTimer "" 3 0)) oncemore
      ⟨by decide +kernel, by decide +kernel⟩
    have stopped := possible (.clientState "/w" "tsserver:/w" .stopped none) third trivial
    have requested := possible (.clientState "/w" "tsserver:/w" .error none) stopped trivial
    have fourth := possible (.timerFires 7 (tsTimer "" 1 0)) requested
      ⟨by decide +kernel, by decide +kernel⟩
    exact absurd (bounded settingsOf _ fourth "/w" "tsserver:/w") (by decide +kernel)
  · intro kept
    have configured := possible (.reconcile 0 _ (oneServer "strict") true) first rfl
    have stopped := possible (.clientState "/w" "tsserver:/w" .stopped none) configured trivial
    have rejected := possible (.restartRejected 2
      { workspace := 0, name := "ts"
        config := { command := "tsserver", fileTypes := ["ts"], settings := "" }
        generation := 0, since := 2 } "stopped during initialization") stopped
      (by unfold LifecycleEvent.Possible; decide +kernel)
    have undone := possible (.timerFires 3 (tsTimer "strict" 1 1)) rejected
      ⟨by decide +kernel, by decide +kernel⟩
    exact absurd (kept settingsOf _ undone
      [.failed "/w" "tsserver:/w" 0 30000, .started "/w" "tsserver:/w", .reset (some "/w"),
        .stopped "/w" "tsserver:/w" 0 30000, .rejected "/w" "tsserver:/w" 0 30000] []
      "/w" "tsserver:/w" (by decide +kernel)) (by decide +kernel)

end Recode.Lsp

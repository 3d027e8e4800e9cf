import Mathlib.Algebra.Ring.Nat
import Recode.Lsp.Clients

/-! # Lifecycle of language servers

A workspace starts a server again after its client has failed: after a delay that grows, a few
times, and from the beginning once the server was ready for long enough. States of clients
arrive as events, and timers, configurations and rejected starts come in any order. -/

namespace Recode.Lsp

open Function

def MAX_RESTART_ATTEMPTS : Nat := 3
def DEFAULT_RESTART_BASE_DELAY_MS : Nat := 750
def DEFAULT_RESTART_STABILITY_MS : Nat := 30000

/-- A server of a configuration. The settings that the lifecycle only compares are one text. -/
structure LspServerConfig where
  command : String
  fileTypes : List String
  settings : String
deriving DecidableEq

/-- Every server of a configuration has its own name. -/
structure LspConfig where
  servers : List (String × LspServerConfig)
  distinct : (servers.map Prod.fst).Nodup
  idleTimeoutMs : Option Nat := none

def LspConfig.server (config : LspConfig) (name : String) : Option LspServerConfig :=
  config.servers.lookup name

def getLspClientKey (config : LspServerConfig) (cwd : String) : String :=
  config.command ++ ":" ++ cwd

inductive LspServerState
  | unstarted
  | starting
  | ready
  | backoff
  | error
  | stopped
deriving DecidableEq

structure LspServerStatus where
  name : String
  state : LspServerState
  fileTypes : List String
  error : Option String := none
  restartAttempt : Option Nat := none
  retryAt : Option Nat := none
deriving DecidableEq

def createStatus (name : String) (config : LspServerConfig) : LspServerStatus :=
  { name := name, state := .unstarted, fileTypes := config.fileTypes }

/-- A timer that has been set and has not fired. -/
structure RestartTimer where
  workspace : Nat
  name : String
  config : LspServerConfig
  attempt : Nat
  generation : Nat
  firesAt : Nat
deriving DecidableEq

/-- A start of a server by the lifecycle that is under way. It keeps in mind when it began. -/
structure Restart where
  workspace : Nat
  name : String
  config : LspServerConfig
  generation : Nat
  since : Nat
deriving DecidableEq

structure WorkspaceLifecycle where
  cwd : String
  config : LspConfig
  fingerprint : String
  restartBaseDelayMs : Nat := DEFAULT_RESTART_BASE_DELAY_MS
  restartStabilityMs : Nat := DEFAULT_RESTART_STABILITY_MS
  generation : Nat := 0
  statuses : String → Option LspServerStatus := fun _ => none
  restartAttempts : String → Option Nat := fun _ => none
  readyAt : String → Option Nat := fun _ => none
  restartTimers : String → Option Nat := fun _ => none

/-- What can be seen of the servers of a workspace, in the order in which it happens. What ends
a time in which a server was ready comes with the time that counts as stable. -/
inductive Occurrence
  | ready (cwd key : String) (now : Nat)
  | failed (cwd key : String) (now stabilityMs : Nat)
  | rejected (cwd key : String) (now stabilityMs : Nat)
  | stopped (cwd key : String) (now stabilityMs : Nat)
  | reset (cwd : Option String)
  | started (cwd key : String)
deriving DecidableEq

structure Lifecycles where
  now : Nat := 0
  workspaces : String → Option Nat := fun _ => none
  objects : Nat → Option WorkspaceLifecycle := fun _ => none
  timers : Nat → Option RestartTimer := fun _ => none
  restarts : Nat → Option Restart := fun _ => none
  next : Nat := 0
  log : List Occurrence := []

namespace WorkspaceLifecycle

variable (workspace : WorkspaceLifecycle)

def emitStatus (status : LspServerStatus) : WorkspaceLifecycle :=
  { workspace with statuses := update workspace.statuses status.name (some status) }

def serverNameForKey (key : String) : Option String :=
  (workspace.config.servers.find? fun server =>
    getLspClientKey server.2 workspace.cwd = key).map Prod.fst

/-- The workspace no longer keeps the timer of a server. -/
def clearRestartTimer (name : String) : WorkspaceLifecycle :=
  { workspace with restartTimers := update workspace.restartTimers name none }

def serverReady (name : String) (config : LspServerConfig) (now : Nat) : WorkspaceLifecycle :=
  { workspace.clearRestartTimer name with
    readyAt := update workspace.readyAt name (some now) }.emitStatus
      { name := name, state := .ready, fileTypes := config.fileTypes }

def serverStopped (name : String) (config : LspServerConfig) : WorkspaceLifecycle :=
  { workspace.clearRestartTimer name with
    restartAttempts := update workspace.restartAttempts name none
    readyAt := update workspace.readyAt name none }.emitStatus
      (createStatus name config)

def unstarted (config : LspConfig) : String → Option LspServerStatus :=
  fun name => (config.server name).map (createStatus name)

end WorkspaceLifecycle

namespace Lifecycles

def setObject (state : Lifecycles) (id : Nat) (workspace : WorkspaceLifecycle) : Lifecycles :=
  { state with objects := update state.objects id (some workspace) }

def clearTimeout (state : Lifecycles) (timer : Option Nat) : Lifecycles :=
  { state with timers := fun handle => if some handle = timer then none else state.timers handle }

/-- No timer is left that a workspace keeps for one of its servers. -/
def clearRestartTimers (state : Lifecycles) (workspace : WorkspaceLifecycle) : Lifecycles :=
  { state with
    timers := fun handle => (state.timers handle).filter fun timer =>
      workspace.restartTimers timer.name ≠ some handle }

def note (state : Lifecycles) (occurrence : Occurrence) : Lifecycles :=
  { state with log := state.log ++ [occurrence] }

/-- The workspace once a failure has been counted as an attempt. -/
def attempted (state : Lifecycles) (workspace : WorkspaceLifecycle) (name : String) :
    WorkspaceLifecycle :=
  let stable := (workspace.readyAt name).any fun readyAt =>
    workspace.restartStabilityMs ≤ state.now - readyAt
  let attempts := if stable then none else workspace.restartAttempts name
  { workspace with
    readyAt := update workspace.readyAt name none
    restartAttempts := update workspace.restartAttempts name (some (attempts.getD 0 + 1)) }

def setTimer (state : Lifecycles) (id : Nat) (workspace : WorkspaceLifecycle) (name : String)
    (config : LspServerConfig) (attempt retryAt : Nat) : Lifecycles :=
  { state.setObject id
      { workspace with
        restartTimers := update workspace.restartTimers name (some state.next) } with
    timers := update state.timers state.next
      (some { workspace := id, name := name, config := config, attempt := attempt
              generation := workspace.generation, firesAt := retryAt })
    next := state.next + 1 }

def scheduleRestart (state : Lifecycles) (id : Nat) (workspace : WorkspaceLifecycle)
    (name error : String) : Lifecycles :=
  match workspace.restartTimers name, workspace.config.server name with
  | some _, _ => state
  | none, none => state
  | none, some config =>
    let workspace := state.attempted workspace name
    let attempt := (workspace.restartAttempts name).getD 0
    if MAX_RESTART_ATTEMPTS < attempt then
      state.setObject id
        (workspace.emitStatus
          { name := name, state := .error, fileTypes := config.fileTypes, error := some error
            restartAttempt := some MAX_RESTART_ATTEMPTS })
    else
      let retryAt := state.now + workspace.restartBaseDelayMs * 2 ^ (attempt - 1)
      state.setTimer id
        (workspace.emitStatus
          { name := name, state := .backoff, fileTypes := config.fileTypes, error := some error
            restartAttempt := some attempt, retryAt := some retryAt })
        name config attempt retryAt

def clientReady (state : Lifecycles) (id : Nat) (workspace : WorkspaceLifecycle) (name : String)
    (config : LspServerConfig) : Lifecycles :=
  (state.clearTimeout (workspace.restartTimers name)).setObject id
    (workspace.serverReady name config state.now)

def clientStopped (state : Lifecycles) (id : Nat) (workspace : WorkspaceLifecycle) (name : String)
    (config : LspServerConfig) : Lifecycles :=
  (state.clearTimeout (workspace.restartTimers name)).setObject id
    (workspace.serverStopped name config)

def handleClientState (state : Lifecycles) (cwd key : String) (client : ClientState)
    (error : Option String) : Lifecycles :=
  match state.workspaces cwd with
  | none => state
  | some id =>
    match state.objects id with
    | none => state
    | some workspace =>
      match workspace.serverNameForKey key with
      | none => state
      | some name =>
        match workspace.config.server name with
        | none => state
        | some config =>
          match client with
          | .ready => state.clientReady id workspace name config
          | .error => state.scheduleRestart id workspace name
              (error.getD "Language server exited unexpectedly")
          | .stopped => state.clientStopped id workspace name config
          | .starting => state.setObject id
              (workspace.emitStatus
                { name := name, state := .starting, fileTypes := config.fileTypes
                  error := error })

/-- A timer fires: it starts its server, unless its workspace is another one by then. -/
def timerFires (state : Lifecycles) (handle : Nat) (timer : RestartTimer) : Lifecycles :=
  let fired := state.clearTimeout (some handle)
  match state.objects timer.workspace with
  | none => fired
  | some workspace =>
    let workspace := workspace.clearRestartTimer timer.name
    if state.workspaces workspace.cwd ≠ some timer.workspace ∨
        workspace.generation ≠ timer.generation then
      fired.setObject timer.workspace workspace
    else
      { (fired.setObject timer.workspace
          (workspace.emitStatus
            { name := timer.name, state := .starting, fileTypes := timer.config.fileTypes
              restartAttempt := some timer.attempt })).note
            (.started workspace.cwd (getLspClientKey timer.config workspace.cwd)) with
        restarts := update state.restarts state.next
          (some { workspace := timer.workspace, name := timer.name, config := timer.config
                  generation := timer.generation, since := state.log.length + 1 })
        next := state.next + 1 }

def restartRejected (state : Lifecycles) (id : Nat) (restart : Restart) (error : String) :
    Lifecycles :=
  let settled := { state with restarts := update state.restarts id none }
  match state.objects restart.workspace with
  | none => settled
  | some workspace =>
    if (workspace.restartTimers restart.name).isSome then settled
    else settled.scheduleRestart restart.workspace workspace restart.name error

def reconcileWorkspace (configFingerprint : LspConfig → String) (state : Lifecycles) (id : Nat)
    (workspace : WorkspaceLifecycle) (config : LspConfig) (forceRestart : Bool) : Lifecycles :=
  let nextFingerprint := configFingerprint config
  if nextFingerprint = workspace.fingerprint && !forceRestart then state
  else
    (state.clearRestartTimers workspace).setObject id
      { workspace with
        generation := workspace.generation + 1
        restartTimers := fun _ => none
        restartAttempts := fun _ => none
        readyAt := fun _ => none
        config := config
        fingerprint := nextFingerprint
        statuses := WorkspaceLifecycle.unstarted config }

/-- `startLspLifecycle`, up to the reconciliation that it queues. -/
def startLspLifecycle (configFingerprint : LspConfig → String) (state : Lifecycles) (cwd : String)
    (config : LspConfig) (restartBaseDelayMs restartStabilityMs : Option Nat) : Lifecycles :=
  match (state.workspaces cwd).bind fun id => (state.objects id).map fun found => (id, found) with
  | none =>
    { state.setObject state.next
        { cwd := cwd
          config := config
          fingerprint := configFingerprint config
          restartBaseDelayMs := restartBaseDelayMs.getD DEFAULT_RESTART_BASE_DELAY_MS
          restartStabilityMs := restartStabilityMs.getD DEFAULT_RESTART_STABILITY_MS
          statuses := WorkspaceLifecycle.unstarted config } with
      workspaces := update state.workspaces cwd (some state.next)
      next := state.next + 1 }
  | some (id, workspace) =>
    state.setObject id
      { workspace with
        restartBaseDelayMs := restartBaseDelayMs.getD workspace.restartBaseDelayMs
        restartStabilityMs := restartStabilityMs.getD workspace.restartStabilityMs }

def stopLspLifecycleForCwd (state : Lifecycles) (cwd : String) : Lifecycles :=
  match (state.workspaces cwd).bind fun id => (state.objects id).map fun found => (id, found) with
  | none => state
  | some (id, workspace) =>
    { (state.clearRestartTimers workspace).setObject id
        { workspace with restartTimers := fun _ => none } with
      workspaces := update state.workspaces cwd none }

def current (state : Lifecycles) (id : Nat) (workspace : WorkspaceLifecycle) : Bool :=
  state.workspaces workspace.cwd = some id

def shutdownAllLspLifecycles (state : Lifecycles) : Lifecycles :=
  { state with
    timers := fun handle => (state.timers handle).filter fun timer =>
      !(state.objects timer.workspace).any fun workspace =>
        state.current timer.workspace workspace &&
          workspace.restartTimers timer.name = some handle
    objects := fun id => (state.objects id).map fun workspace =>
      if state.current id workspace then { workspace with restartTimers := fun _ => none }
      else workspace
    workspaces := fun _ => none }

end Lifecycles

/-- What happens to the lifecycles of workspaces. -/
inductive LifecycleEvent
  | wait (ms : Nat)
  | clientState (cwd key : String) (client : ClientState) (error : Option String)
  | timerFires (handle : Nat) (timer : RestartTimer)
  | restartResolved (id : Nat)
  | restartRejected (id : Nat) (restart : Restart) (error : String)
  | reconcile (id : Nat) (workspace : WorkspaceLifecycle) (config : LspConfig)
      (forceRestart : Bool)
  | start (cwd : String) (config : LspConfig)
      (restartBaseDelayMs restartStabilityMs : Option Nat)
  | stop (cwd : String)
  | stopAll

def LifecycleEvent.Possible (state : Lifecycles) : LifecycleEvent → Prop
  | .timerFires handle timer => state.timers handle = some timer ∧ timer.firesAt ≤ state.now
  | .restartRejected id restart _ => state.restarts id = some restart
  | .reconcile id workspace _ _ => state.objects id = some workspace
  | _ => True

namespace Lifecycles

/-- For how long a server of a directory has to be ready to be stable. -/
def stabilityMs (state : Lifecycles) (cwd : String) : Nat :=
  (((state.workspaces cwd).bind state.objects).map fun workspace =>
    workspace.restartStabilityMs).getD DEFAULT_RESTART_STABILITY_MS

def seen (state : Lifecycles) (cwd key : String) : ClientState → List Occurrence
  | .starting => []
  | .ready => [.ready cwd key state.now]
  | .error => [.failed cwd key state.now (state.stabilityMs cwd)]
  | .stopped => [.stopped cwd key state.now (state.stabilityMs cwd)]

def seenReset (configFingerprint : LspConfig → String) (state : Lifecycles) (id : Nat)
    (workspace : WorkspaceLifecycle) (config : LspConfig) (forceRestart : Bool) : List Occurrence :=
  if state.current id workspace &&
      (configFingerprint config ≠ workspace.fingerprint || forceRestart) then
    [.reset (some workspace.cwd)]
  else []

/-- The directory and the key of a server that is started again. -/
def restartServer (state : Lifecycles) (restart : Restart) : String × String :=
  let cwd := ((state.objects restart.workspace).map WorkspaceLifecycle.cwd).getD ""
  (cwd, getLspClientKey restart.config cwd)

def see (state : Lifecycles) (occurrences : List Occurrence) : Lifecycles :=
  { state with log := state.log ++ occurrences }

def step (configFingerprint : LspConfig → String) (state : Lifecycles) :
    LifecycleEvent → Lifecycles
  | .wait ms => { state with now := state.now + ms }
  | .clientState cwd key client error =>
    (state.handleClientState cwd key client error).see (state.seen cwd key client)
  | .timerFires handle timer => state.timerFires handle timer
  | .restartResolved id => { state with restarts := update state.restarts id none }
  | .restartRejected id restart error =>
    let server := state.restartServer restart
    (state.restartRejected id restart error).see
      [.rejected server.1 server.2 state.now (state.stabilityMs server.1)]
  | .reconcile id workspace config forceRestart =>
    (state.reconcileWorkspace configFingerprint id workspace config forceRestart).see
      (state.seenReset configFingerprint id workspace config forceRestart)
  | .start cwd config restartBaseDelayMs restartStabilityMs =>
    state.startLspLifecycle configFingerprint cwd config restartBaseDelayMs restartStabilityMs
  | .stop cwd => (state.stopLspLifecycleForCwd cwd).see [.reset (some cwd)]
  | .stopAll => state.shutdownAllLspLifecycles.see [.reset none]

end Lifecycles

/-- The states that lifecycles come to, each event under a condition. -/
inductive LifecyclesReached (configFingerprint : LspConfig → String)
    (condition : Lifecycles → LifecycleEvent → Prop) : Lifecycles → Prop
  | start : LifecyclesReached configFingerprint condition {}
  | step {state : Lifecycles} (event : LifecycleEvent)
      (reached : LifecyclesReached configFingerprint condition state)
      (possible : event.Possible state) (keeps : condition state event) :
      LifecyclesReached configFingerprint condition (state.step configFingerprint event)

/-- What is known of one server: how often it was started since its attempts began again and
since it was stable, since when it is ready, and whether it has failed since it was stopped. -/
structure Watch where
  starts : Nat := 0
  startsSinceStable : Nat := 0
  readySince : Option Nat := none
  mayStart : Bool := true
deriving DecidableEq

/-- A time in which a server was ready has ended. -/
def Watch.unready (watch : Watch) (now stabilityMs : Nat) : Watch :=
  let stable := watch.readySince.any fun readySince => stabilityMs ≤ now - readySince
  { watch with
    starts := if stable then 0 else watch.starts
    startsSinceStable := if stable then 0 else watch.startsSinceStable
    readySince := none }

def Watch.change (watch : Watch) : Occurrence → Watch
  | .ready _ _ now => { watch with readySince := some now }
  | .failed _ _ now stabilityMs => { watch.unready now stabilityMs with mayStart := true }
  | .rejected _ _ now stabilityMs => watch.unready now stabilityMs
  | .stopped _ _ now stabilityMs =>
    { watch.unready now stabilityMs with starts := 0, mayStart := false }
  | .reset _ => { watch with starts := 0 }
  | .started _ _ =>
    { watch with
      starts := watch.starts + 1
      startsSinceStable := watch.startsSinceStable + 1 }

def Occurrence.concerns (cwd key : String) : Occurrence → Bool
  | .ready at_ of_ _ | .failed at_ of_ _ _ | .rejected at_ of_ _ _ | .stopped at_ of_ _ _
  | .started at_ of_ => at_ = cwd && of_ = key
  | .reset at_ => at_.all (· = cwd)

def Watch.next (cwd key : String) (watch : Watch) (occurrence : Occurrence) : Watch :=
  if occurrence.concerns cwd key then watch.change occurrence else watch

def watched (cwd key : String) (log : List Occurrence) : Watch :=
  log.foldl (Watch.next cwd key) {}

/-- A server that failed again and again is not started more often than this. -/
def RestartsBounded (state : Lifecycles) : Prop :=
  ∀ cwd key, (watched cwd key state.log).starts ≤ MAX_RESTART_ATTEMPTS

/-- The same without an end to the attempts when a server is stopped or configured anew. -/
def RestartsBoundedByStability (state : Lifecycles) : Prop :=
  ∀ cwd key, (watched cwd key state.log).startsSinceStable ≤ MAX_RESTART_ATTEMPTS

def RestartTimer.cwd (state : Lifecycles) (timer : RestartTimer) : Option String :=
  (state.objects timer.workspace).map WorkspaceLifecycle.cwd

def OneRestartTimer (state : Lifecycles) : Prop :=
  ∀ first second earlier later, state.timers first = some earlier →
    state.timers second = some later → earlier.name = later.name →
      RestartTimer.cwd state earlier = RestartTimer.cwd state later → first = second

/-- A server that was stopped is only started again after it has failed. -/
def StopsKept (log : List Occurrence) : Prop :=
  ∀ before after cwd key, log = before ++ .started cwd key :: after →
    (watched cwd key before).mayStart = true

end Recode.Lsp

import Caal.Lib.LTS
import Caal.Session.Identity

/-!
# The login shell as a program

`main` of `caalsh.c` from the limit check on, with `container_start`,
`session_disk_setup`, `pty_bridge_recv`, `pty_bridge_run`, `container_stop`,
`session_disk_cleanup` and `crun_delete` inlined. A control point is the call that
is made next, in the order of the source. `Point.next` is the control flow, by the
outcome of the call; `Proc.effect` is what the call does.

The process is interleaved with its children and with signals (`Act`). Nothing is
assumed here about the outcomes: the host model constrains those that depend on
the daemon or on the mounts.
-/

namespace Caal

open CMemory

/-- Who a session is on its host: the process and the second of its start. -/
structure SessionKey where
  pid : Int32
  time : Int64
  deriving DecidableEq

namespace SessionKey

/-- The container id of the session. -/
def id (key : SessionKey) : Bytes :=
  containerId key.pid key.time

theorem id_injective : Function.Injective SessionKey.id := by
  intro left right equal
  rcases containerId_inj equal with ⟨pid, time⟩
  cases left
  cases right
  exact congr (congrArg SessionKey.mk pid) time

@[simp] theorem cstr_id (key : SessionKey) : cstr key.id = key.id :=
  cstr_of_zero_free (zero_notMem_containerId key.pid key.time)

end SessionKey

/-- What `main` reads before it starts a container. -/
structure Config where
  username : Bytes
  bundle : Bytes
  maxSessions : Int
  timeout : Int

/-- Where crun finds the root filesystem of the bundle. -/
def Config.rootfs (config : Config) : Bytes :=
  config.bundle ++ ascii "/rootfs"

/-- What the field `rootfs` of `container_t` keeps of it. -/
def Config.mountPoint (config : Config) : Bytes :=
  config.rootfs.take 127

/-! ## Control points -/

/-- Where the common part of a teardown is entered from: an error of
`container_start`, or `container_stop` before `main` returns. -/
inductive Site where
  | startFailed
  | stop (code : Nat)
  deriving DecidableEq

inductive Signal where
  | winch
  | term
  | hup
  | pipe
  /-- Any other signal that ends a process: `SIGINT`, `SIGQUIT`, `SIGKILL`. -/
  | other
  deriving DecidableEq

/-- The call made next. -/
inductive Point where
  -- `count_active_sessions`, the limit check, and all that `main` looks up
  | count
  | limit (count : Int)
  | lookups
  -- `session_disk_setup`
  | mkdirSession
  | openImage
  | fallocate
  | mkfs
  | mountImage
  | mkdirUpper
  | mkdirWork
  -- `container_start`
  | mountOverlay
  | socket
  | unlinkStale
  | bind
  | listen
  | forkCrun
  -- `main` behind `container_start`
  | forkTimer
  | connectRegister
  | register
  -- `pty_bridge_recv`
  | acceptConsole
  | recvConsole
  -- `pty_bridge_run`: `TIOCGWINSZ`, `TIOCSWINSZ` and what follows
  | askSize
  | pushSize
  | sigWinch
  | sigTerm
  | sigHup
  | rawMode
  | select
  | readMaster (stdin : Bool)
  | writeStdout (stdin : Bool)
  | readStdin
  | writeMaster
  | restoreMode
  | waitChild
  -- `main` behind `pty_bridge_run`
  | killTimer
  | connectUnregister
  | unregister
  | printCleaned
  -- `container_stop`, and the error exits of `container_start`
  | unlinkSock (site : Site)
  | umountOverlay (site : Site)
  -- `session_disk_cleanup`
  | umountDisk (site : Site)
  | unlinkImage (site : Site)
  | forkRm (site : Site)
  | waitRm (site : Site)
  -- `crun_delete`
  | forkDelete (code : Nat)
  | waitDelete (code : Nat)
  -- the process has ended
  | exited (code : Nat)
  | killed (signal : Signal)
  deriving DecidableEq

/-- How a call returns. -/
inductive Outcome where
  | ok
  | fail
  /-- -1 with `EINTR`. -/
  | intr
  /-- `caald_session_count` answers, or the directories are counted instead. -/
  | counted (count : Int)
  | fallback (count : Int)
  /-- `select` reports which of the two descriptors are readable. -/
  | ready (master stdin : Bool)
  /-- The daemon served the request, and its answer was received or was lost. -/
  | answered (ok : Bool)
  | lost (ok : Bool)
  deriving DecidableEq

/-- Behind `session_disk_cleanup`. -/
def Site.after : Site → Point
  | .startFailed => .exited 1
  | .stop code => .forkDelete code

/-- A call of which only success is followed by the rest. -/
def Outcome.checked (outcome : Outcome) (success failure : Point) : Option Point :=
  match outcome with
  | .ok => some success
  | .fail => some failure
  | _ => none

/-- A call whose result is not looked at. -/
def Outcome.unchecked (outcome : Outcome) (next : Point) : Option Point :=
  outcome.checked next next

namespace Point

/-- Behind `container_start`: the watchdog is only forked with a timeout. -/
def started (config : Config) : Point :=
  if 0 < config.timeout then .forkTimer else .connectRegister

/-- The loop of `pty_bridge_run` after `select`. -/
def dispatch (master stdin : Bool) : Point :=
  if master then .readMaster stdin else if stdin then .readStdin else .select

/-- Behind the `waitpid` of `pty_bridge_run`: the watchdog is killed if there is one. -/
def afterWait (watched : Bool) : Point :=
  if watched then .killTimer else .connectUnregister

/-- The control flow. `terminate` is `g_terminate`, and `watched` is
`timer_pid > 0`. -/
def next (config : Config) (terminate watched : Bool) : Point → Outcome → Option Point
  | .count, .counted sessions => some (.limit sessions)
  | .count, .fallback sessions => some (.limit sessions)
  | .count, _ => none
  | .limit sessions, .ok =>
      some (if config.maxSessions ≤ sessions then .exited 1 else .lookups)
  | .limit _, _ => none
  | .lookups, outcome => outcome.checked .mkdirSession (.exited 1)
  | .mkdirSession, outcome => outcome.checked .openImage (.exited 1)
  | .openImage, outcome => outcome.checked .fallocate (.exited 1)
  | .fallocate, outcome => outcome.checked .mkfs (.exited 1)
  | .mkfs, outcome => outcome.checked .mountImage (.exited 1)
  | .mountImage, outcome => outcome.checked .mkdirUpper (.exited 1)
  | .mkdirUpper, outcome => outcome.checked .mkdirWork (.exited 1)
  | .mkdirWork, outcome => outcome.checked .mountOverlay (.exited 1)
  | .mountOverlay, outcome => outcome.checked .socket (.umountDisk .startFailed)
  | .socket, outcome => outcome.checked .unlinkStale (.umountOverlay .startFailed)
  | .unlinkStale, outcome => outcome.unchecked .bind
  | .bind, outcome => outcome.checked .listen (.umountOverlay .startFailed)
  | .listen, outcome => outcome.checked .forkCrun (.umountOverlay .startFailed)
  | .forkCrun, outcome => outcome.checked (started config) (.unlinkSock .startFailed)
  | .forkTimer, outcome => outcome.unchecked .connectRegister
  | .connectRegister, outcome => outcome.checked .register .acceptConsole
  | .register, .answered _ => some .acceptConsole
  | .register, .lost _ => some .acceptConsole
  | .register, .fail => some .acceptConsole
  | .register, _ => none
  | .acceptConsole, outcome => outcome.checked .recvConsole (.unlinkSock (.stop 1))
  | .recvConsole, outcome => outcome.checked .askSize (.unlinkSock (.stop 1))
  | .askSize, outcome => outcome.checked .pushSize .sigWinch
  | .pushSize, outcome => outcome.unchecked .sigWinch
  | .sigWinch, outcome => outcome.unchecked .sigTerm
  | .sigTerm, outcome => outcome.unchecked .sigHup
  | .sigHup, outcome => outcome.unchecked .rawMode
  | .rawMode, outcome => outcome.unchecked .select
  | .select, .ready master stdin => some (dispatch master stdin)
  | .select, .intr => some (if terminate then .restoreMode else .select)
  | .select, .fail => some .restoreMode
  | .select, _ => none
  | .readMaster stdin, outcome => outcome.checked (.writeStdout stdin) .restoreMode
  | .writeStdout stdin, outcome => outcome.unchecked (if stdin then .readStdin else .select)
  | .readStdin, outcome => outcome.checked .writeMaster .restoreMode
  | .writeMaster, outcome => outcome.unchecked .select
  | .restoreMode, outcome => outcome.unchecked .waitChild
  | .waitChild, .ok => some (afterWait watched)
  | .waitChild, .intr => some (afterWait watched)
  | .waitChild, _ => none
  | .killTimer, outcome => outcome.unchecked .connectUnregister
  | .connectUnregister, outcome => outcome.checked .unregister .printCleaned
  | .unregister, .answered _ => some .printCleaned
  | .unregister, .lost _ => some .printCleaned
  | .unregister, .fail => some .printCleaned
  | .unregister, _ => none
  | .printCleaned, outcome => outcome.unchecked (.unlinkSock (.stop 0))
  | .unlinkSock site, outcome => outcome.unchecked (.umountOverlay site)
  | .umountOverlay site, outcome => outcome.unchecked (.umountDisk site)
  | .umountDisk site, outcome => outcome.unchecked (.unlinkImage site)
  | .unlinkImage site, outcome => outcome.unchecked (.forkRm site)
  | .forkRm site, outcome => outcome.checked (.waitRm site) site.after
  | .waitRm site, .ok => some site.after
  | .waitRm site, .intr => some site.after
  | .waitRm _, _ => none
  | .forkDelete code, outcome => outcome.checked (.waitDelete code) (.exited code)
  | .waitDelete code, .ok => some (.exited code)
  | .waitDelete code, .intr => some (.exited code)
  | .waitDelete _, _ => none
  | .exited _, _ => none
  | .killed _, _ => none

end Point

/-! ## The process and its host -/

/-- Something the process may hold on the host. It is released once the call that
releases it has returned. -/
inductive Hold where
  | absent
  | held
  | released
  deriving DecidableEq

/-- A helper process of the teardown, which is waited for if it could be forked. -/
inductive Helper where
  | absent
  | running
  | done
  | unforked
  deriving DecidableEq

/-- The watchdog. -/
inductive Timer where
  | absent
  | running
  | killed
  deriving DecidableEq

/-- The crun child and its container. The root of a running container is what its
rootfs path resolved to: the sessions whose layers lie over the bundle. -/
inductive Child where
  | absent
  | forked
  | running (root : List SessionKey)
  /-- The container has exited, and crun is still to end. -/
  | ended
  /-- crun has exited. -/
  | exited
  deriving DecidableEq

/-- What one login shell has on its host. -/
structure Holdings where
  child : Child
  dir : Hold
  image : Hold
  disk : Hold
  overlay : Hold
  sock : Hold
  rm : Helper
  delete : Helper
  deriving DecidableEq

def Holdings.empty : Holdings where
  child := .absent
  dir := .absent
  image := .absent
  disk := .absent
  overlay := .absent
  sock := .absent
  rm := .absent
  delete := .absent

/-- The state of one login shell: its control point, the handlers it has installed,
its globals, and what it has done. -/
structure Proc where
  point : Point
  onWinch : Bool
  onTerm : Bool
  onHup : Bool
  /-- `g_terminate`, and `g_master_fd >= 0`. -/
  terminate : Bool
  masterOpen : Bool
  /-- A handler has run at this control point. -/
  interrupted : Bool
  timer : Timer
  /-- The daemon accepted the REGISTER; an exchange for the UNREGISTER failed. -/
  accepted : Bool
  unreachable : Bool
  /-- The PTY master was received. -/
  received : Bool
  /-- The `waitpid` for crun was cut short. -/
  waitCut : Bool
  holds : Holdings
  deriving DecidableEq

namespace Proc

/-- The process once the config has been parsed. -/
def start (config : Config) : Proc where
  point := if 0 < config.maxSessions then .count else .lookups
  onWinch := false
  onTerm := false
  onHup := false
  terminate := false
  masterOpen := false
  interrupted := false
  timer := .absent
  accepted := false
  unreachable := false
  received := false
  waitCut := false
  holds := .empty

/-- What the call at the control point does when it returns. -/
def effect (proc : Proc) : Point → Outcome → Proc
  | .mkdirSession, .ok => { proc with holds.dir := .held }
  | .openImage, .ok => { proc with holds.image := .held }
  | .mountImage, .ok => { proc with holds.disk := .held }
  | .mountOverlay, .ok => { proc with holds.overlay := .held }
  | .bind, .ok => { proc with holds.sock := .held }
  | .forkCrun, .ok => { proc with holds.child := .forked }
  | .forkTimer, .ok => { proc with timer := .running }
  | .register, .answered ok => { proc with accepted := ok }
  | .register, .lost ok => { proc with accepted := ok }
  | .recvConsole, .ok => { proc with received := true, masterOpen := true }
  | .sigWinch, .ok => { proc with onWinch := true }
  | .sigTerm, .ok => { proc with onTerm := true }
  | .sigHup, .ok => { proc with onHup := true }
  | .waitChild, .ok => { proc with masterOpen := false }
  | .waitChild, .intr => { proc with masterOpen := false, waitCut := true }
  | .killTimer, _ => { proc with timer := .killed }
  | .connectUnregister, .fail => { proc with unreachable := true }
  | .unregister, .fail => { proc with unreachable := true }
  | .unlinkSock _, _ => { proc with holds.sock := .released }
  | .umountOverlay _, _ => { proc with holds.overlay := .released }
  | .umountDisk _, _ => { proc with holds.disk := .released }
  | .unlinkImage _, _ => { proc with holds.image := .released }
  | .forkRm _, .ok => { proc with holds.rm := .running }
  | .forkRm _, _ => { proc with holds.rm := .unforked }
  | .forkDelete _, .ok => { proc with holds.delete := .running }
  | .forkDelete _, _ => { proc with holds.delete := .unforked }
  | _, _ => proc

/-- Whether the call at the control point can return in this way: an interrupted
call needs a handler that ran, and a wait needs a child that has ended. -/
def Returns (proc : Proc) : Point → Outcome → Prop
  | .waitChild, .ok => proc.holds.child = .exited
  | .waitRm _, .ok => proc.holds.rm = .done
  | .waitDelete _, .ok => proc.holds.delete = .done
  | _, .intr => proc.interrupted = true
  | _, _ => True

instance (proc : Proc) (point : Point) (outcome : Outcome) :
    Decidable (proc.Returns point outcome) := by
  unfold Returns
  split <;> infer_instance

/-- The process comes to another control point. -/
def arrive (proc : Proc) (point : Point) : Proc :=
  { proc with point, interrupted := false }

/-- The call at the control point returns. -/
def call (config : Config) (proc : Proc) (outcome : Outcome) : Option Proc :=
  if proc.Returns proc.point outcome then
    (proc.point.next config proc.terminate (proc.timer == .running) outcome).map
      (proc.effect proc.point outcome).arrive
  else none

/-- The handler installed for a signal, if there is one. -/
def handles (proc : Proc) : Signal → Bool
  | .winch => proc.onWinch
  | .term => proc.onTerm
  | .hup => proc.onHup
  | .pipe => false
  | .other => false

/-- `on_winch` and `on_term`. -/
def handler (proc : Proc) : Signal → Proc
  | .winch => { proc with interrupted := true }
  | _ => { proc with interrupted := true, terminate := true, masterOpen := false }

/-- A signal is delivered. Without a handler `SIGWINCH` is ignored, and the others end
the process. -/
def deliver (proc : Proc) (signal : Signal) : Proc :=
  if proc.handles signal then proc.handler signal
  else if signal = .winch then proc
  else { proc with point := .killed signal }

/-- The process has ended. -/
def Ended (proc : Proc) : Prop :=
  match proc.point with
  | .exited _ => True
  | .killed _ => True
  | _ => False

instance (proc : Proc) : Decidable proc.Ended := by
  unfold Ended
  split <;> infer_instance

end Proc

/-- A step of a child of the process, or of its container. -/
inductive ChildEvent where
  /-- crun resolves its rootfs and starts the container. -/
  | crunStarted (root : List SessionKey)
  | containerExited
  /-- crun exits: its container has exited, or it could not start one. -/
  | crunExited
  | rmDone
  | deleteDone
  deriving DecidableEq

/-- What a child of the process does to its holdings. `crun delete --force` ends a
container that is running, and crun follows it. -/
def Holdings.progress (holds : Holdings) : ChildEvent → Option Holdings
  | .crunStarted root =>
      match holds.child with
      | .forked => some { holds with child := .running root }
      | _ => none
  | .containerExited =>
      match holds.child with
      | .running _ => some { holds with child := .ended }
      | _ => none
  | .crunExited =>
      match holds.child with
      | .forked => some { holds with child := .exited }
      | .ended => some { holds with child := .exited }
      | _ => none
  | .rmDone =>
      match holds.rm with
      | .running => some { holds with rm := .done, dir := .released }
      | _ => none
  | .deleteDone =>
      match holds.delete, holds.child with
      | .running, .running _ => some { holds with delete := .done, child := .ended }
      | .running, _ => some { holds with delete := .done }
      | _, _ => none

/-- A step of the process or of one of its children, or a signal to it. -/
inductive Act where
  | call (outcome : Outcome)
  | signal (signal : Signal)
  | child (event : ChildEvent)
  deriving DecidableEq

namespace Proc

/-- A step; the children go on when the process has ended. -/
def step (config : Config) (proc : Proc) : Act → Option Proc
  | .call outcome => proc.call config outcome
  | .signal signal => if proc.Ended then none else some (proc.deliver signal)
  | .child event => (proc.holds.progress event).map fun holds => { proc with holds }

/-- What a returning call makes of the process. -/
theorem call_eq_some {config : Config} {proc next : Proc} {outcome : Outcome} :
    proc.call config outcome = some next ↔
      proc.Returns proc.point outcome ∧
        ∃ point, proc.point.next config proc.terminate (proc.timer == .running) outcome =
            some point ∧
          next = (proc.effect proc.point outcome).arrive point := by
  rw [call]
  split
  case isTrue returns =>
    rw [Option.map_eq_some_iff]
    constructor
    · intro ⟨point, moved, equal⟩
      exact ⟨returns, point, moved, equal.symm⟩
    · intro ⟨_, point, moved, equal⟩
      exact ⟨point, moved, equal.symm⟩
  case isFalse stuck =>
    constructor
    · intro none
      cases none
    · intro ⟨returns, _⟩
      exact (stuck returns).elim

/-- What can happen in one step. -/
theorem step_cases {config : Config} {proc next : Proc} {act : Act}
    (step : proc.step config act = some next) :
    (∃ outcome, act = .call outcome ∧ proc.call config outcome = some next) ∨
    (∃ signal, act = .signal signal ∧ ¬ proc.Ended ∧ next = proc.deliver signal) ∨
    (∃ event holds, act = .child event ∧ proc.holds.progress event = some holds ∧
      next = { proc with holds }) := by
  cases act with
  | call outcome => exact .inl ⟨outcome, rfl, step⟩
  | signal signal =>
      rw [Proc.step] at step
      split at step
      · cases step
      · cases step
        rename_i alive
        exact .inr (.inl ⟨signal, rfl, alive, rfl⟩)
  | child event =>
      rcases Option.map_eq_some_iff.mp step with ⟨holds, progressed, equal⟩
      exact .inr (.inr ⟨event, holds, rfl, progressed, equal.symm⟩)

end Proc

/-- One login shell, with its host free to answer its calls in any way. -/
def session (config : Config) : LTS Proc Act where
  init proc := proc = Proc.start config
  step proc act next := proc.step config act = some next

/-! ## Stretches of a login without incidents -/

/-- An account without limits, and `main` up to the fork of crun. -/
def plainConfig : Config := ⟨[100, 101, 118], [47, 98], 0, 0⟩

def startUp : List Act := List.replicate 14 (.call .ok)

/-- `main` from the fork of crun into the relay loop. -/
def enterRelay (root : List SessionKey) : List Act :=
  [.call .ok, .call (.answered true), .child (.crunStarted root), .call .ok, .call .ok,
    .call .ok, .call .ok, .call .ok, .call .ok, .call .ok, .call .ok]

/-- The container ends, and with it the relay loop. -/
def endRelay : List Act :=
  [.child .containerExited, .call (.ready true false), .call .fail, .call .ok]

/-- `main` from its `waitpid` on. -/
def leave : List Act :=
  [.child .crunExited, .call .ok, .call .ok, .call (.answered true), .call .ok, .call .ok,
    .call .ok, .call .ok, .call .ok, .call .ok, .child .rmDone, .call .ok, .call .ok,
    .child .deleteDone, .call .ok]

end Caal

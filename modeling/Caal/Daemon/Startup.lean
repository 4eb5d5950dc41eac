import Caal.Daemon.Serve
import Caal.Lib.Decimal

/-!
# Starting the daemon

`main` of `caald.c` in front of its accept loop, for any number of starts at any times: the
lock on the pid file, the fork, the pid file and the socket. A start is two processes, the
one that was started and the child that becomes the daemon. Both have the same open pid
file, and the lock is held as long as one of them has it open.
-/

namespace Caal

open CMemory LTS

/-! ## One start -/

/-- Where the process that was started is in `main`. -/
inductive Launch.Starter where
  | opening
  | locking
  | forking
  | leaving
  | ended
  deriving DecidableEq

/-- Where the child is in `main`. -/
inductive Launch.Child where
  | unborn
  | detaching
  | clearing
  | recording (cleared : Bool)
  | socketing
  | unlinking
  | binding
  | restricting
  | listening
  | loading
  | handling (table : Table)
  | serving (table : Table)
  | ended
  deriving DecidableEq

/-- A start of `caald`. -/
structure Launch where
  starter : Launch.Starter
  child : Launch.Child
  /-- What `open` returned for the pid file. -/
  pidFd : Nat
  /-- The pid of the child. -/
  pid : Nat
  /-- The pid file was emptied and the pid written whole. -/
  recorded : Bool
  /-- `chmod` of the socket succeeded. -/
  restricted : Bool
  deriving DecidableEq

/-- A start that has not run yet. -/
def Launch.begin : Launch := ⟨.opening, .unborn, 3, 0, false, false⟩

/-- The socket at `CAALD_SOCK_PATH`, by the start that bound it, and whether its mode is
0600. -/
structure BoundSocket (Id : Type) where
  owner : Id
  restricted : Bool

/-- What is under `/run`: the text of the pid file, the start whose open file is locked, and
the socket. -/
structure RunDir (Id : Type) where
  pidFile : Option Bytes
  lock : Option Id
  socket : Option (BoundSocket Id)

/-- The text that the child writes. -/
def pidText (pid : Nat) : Bytes :=
  decimal pid ++ [10]

namespace Launch

def starterOpen (launch : Launch) : Bool :=
  match launch.starter with
  | .locking | .forking | .leaving => true
  | _ => false

/-- The child runs. -/
def live (launch : Launch) : Bool :=
  match launch.child with
  | .unborn | .ended => false
  | _ => true

/-- The child closes the standard descriptors, which the pid file could be one of. -/
def childOpen (launch : Launch) : Bool :=
  match launch.child with
  | .unborn | .ended => false
  | .detaching => true
  | _ => 2 < launch.pidFd

/-- One of the processes has the pid file open. -/
def opened (launch : Launch) : Bool :=
  launch.starterOpen || launch.childOpen

/-- The start is behind `flock`, which has succeeded, and its open file is still there. -/
def locked (launch : Launch) : Bool :=
  launch.starter = .forking || launch.starter = .leaving || launch.childOpen

end Launch

/-- A call of one of the two processes with its outcome, or its end by a signal. -/
inductive StartAct where
  | open (fd : Option Nat)
  | flock (interrupted : Bool)
  | fork (pid : Option Nat)
  | exit
  | detach
  | truncate (ok : Bool)
  | write (moved : Nat)
  | socket (ok : Bool)
  | unlink (ok : Bool)
  | bind (ok : Bool)
  | chmod (ok : Bool)
  | listen (ok : Bool)
  | reload (file : ConfigFile) (allocated : Bool)
  | sigaction
  | pass (pass : Pass)
  | killStarter
  | killChild

section Main

variable {Id : Type}

def Launch.end (launch : Launch) : Launch := { launch with child := .ended }

/-- What a `write` at the start of the file leaves of its text. -/
def overwrite (text old : Bytes) (moved : Nat) : Bytes :=
  text.take moved ++ old.drop (min moved text.length)

/-- A pass of the accept loop. -/
def Pass.process (caald : Int32) (table : Table) : Pass → Process
  | .client connection now => (handleClient caald table connection now).process
  | .reload file allocated => .accepting (table.reloadConfig file allocated)

theorem Pass.step_process (caald : Int32) (table : Table) (pass : Pass) :
    ServerStep caald (.accepting table) pass (pass.process caald table) := by
  cases pass with
  | client connection now => exact .client table connection now
  | reload file allocated => exact .reload table file allocated

/-- The calls of the process that was started. -/
def starterCall (id : Id) (launch : Launch) (run : RunDir Id) :
    StartAct → Option (Launch × RunDir Id)
  | .open fd =>
      if launch.starter = .opening then
        match fd with
        | some fd =>
            some ({ launch with starter := .locking, pidFd := fd },
              { run with pidFile := some (run.pidFile.getD []) })
        | none => some ({ launch with starter := .ended }, run)
      else none
  | .flock interrupted =>
      if launch.starter = .locking then
        if run.lock = none ∧ interrupted = false then
          some ({ launch with starter := .forking }, { run with lock := some id })
        else some ({ launch with starter := .ended }, run)
      else none
  | .fork pid =>
      if launch.starter = .forking then
        match pid with
        | some pid =>
            some ({ launch with starter := .leaving, child := .detaching, pid := pid }, run)
        | none => some ({ launch with starter := .leaving }, run)
      else none
  | .exit =>
      if launch.starter = .leaving then some ({ launch with starter := .ended }, run) else none
  | .killStarter =>
      if launch.starter ≠ .ended then some ({ launch with starter := .ended }, run) else none
  | _ => none

/-- The calls of the child. -/
def childCall (id : Id) (launch : Launch) (run : RunDir Id) :
    StartAct → Option (Launch × RunDir Id)
  | .detach =>
      match launch.child with
      | .detaching => some ({ launch with child := .clearing }, run)
      | _ => none
  | .truncate ok =>
      match launch.child with
      | .clearing =>
          some ({ launch with child := .recording (ok && launch.childOpen) },
            if ok && launch.childOpen then { run with pidFile := some [] } else run)
      | _ => none
  | .write moved =>
      match launch.child with
      | .recording cleared =>
          if launch.childOpen then
            some ({ launch with
                child := .socketing
                recorded := cleared && (pidText launch.pid).length ≤ moved },
              { run with
                pidFile := run.pidFile.map fun old => overwrite (pidText launch.pid) old moved })
          else some ({ launch with child := .socketing }, run)
      | _ => none
  | .socket ok =>
      match launch.child with
      | .socketing => some (if ok then { launch with child := .unlinking } else launch.end, run)
      | _ => none
  | .unlink ok =>
      match launch.child with
      | .unlinking =>
          some ({ launch with child := .binding }, if ok then { run with socket := none } else run)
      | _ => none
  | .bind ok =>
      match launch.child with
      | .binding =>
          if ok ∧ run.socket.isNone then
            some ({ launch with child := .restricting }, { run with socket := some ⟨id, false⟩ })
          else some (launch.end, run)
      | _ => none
  | .chmod ok =>
      match launch.child with
      | .restricting =>
          some ({ launch with child := .listening, restricted := ok },
            { run with socket := run.socket.map fun socket =>
              { socket with restricted := socket.restricted || ok } })
      | _ => none
  | .listen ok =>
      match launch.child with
      | .listening => some (if ok then { launch with child := .loading } else launch.end, run)
      | _ => none
  | .reload file allocated =>
      match launch.child with
      | .loading =>
          some (if (Table.initial.reloadConfig file allocated).sessions.isEmpty then launch.end
            else
              { launch with child := .handling (Table.initial.reloadConfig file allocated) }, run)
      | _ => none
  | .sigaction =>
      match launch.child with
      | .handling table => some ({ launch with child := .serving table }, run)
      | _ => none
  | .pass pass =>
      match launch.child with
      | .serving table =>
          match pass.process (.ofNat launch.pid) table with
          | .accepting after => some ({ launch with child := .serving after }, run)
          | .terminated => some (launch.end, run)
      | _ => none
  | .killChild => if launch.live then some (launch.end, run) else none
  | _ => none

section Lock

variable [DecidableEq Id]

/-- A lock goes with the last open descriptor. -/
def RunDir.release (run : RunDir Id) (id : Id) (launch : Launch) : RunDir Id :=
  if launch.opened then run
  else { run with lock := if run.lock = some id then none else run.lock }

/-- A call of one of the processes; a process that ends closes the pid file. -/
def startCall (id : Id) (launch : Launch) (run : RunDir Id) (act : StartAct) :
    Option (Launch × RunDir Id) :=
  ((starterCall id launch run act).or (childCall id launch run act)).map fun moved =>
    (moved.1, moved.2.release id moved.1)

/-- Somebody else removes the pid file, as the service manager does behind a daemon that has
ended. -/
inductive RunDirEvent where
  | pidFileRemoved

/-- All starts of `caald` on a host. The file that `open` makes where there is none has no
lock on it. -/
def starts : Processes Id Launch (RunDir Id) StartAct RunDirEvent where
  start _ := .begin
  shared run := run.lock = none
  act := startCall
  env _ run _ := some { run with pidFile := none, lock := none }

end Lock

/-- The standard descriptors are open where `caald` is started, so that `open` returns none of
them; and nobody removes the pid file while it is open. -/
def Tended (state : Processes.State Id Launch (RunDir Id)) :
    Processes.Label Id StartAct RunDirEvent → Prop
  | .act _ (.open (some fd)) => 2 < fd
  | .act _ _ => True
  | .env _ => ∀ id, (state.procs id).opened = false

/-! ## What a call can do -/

/-- The moves of the process that was started. -/
inductive StarterMove (id : Id) (launch : Launch) (run : RunDir Id) :
    Launch → RunDir Id → Prop where
  | opened (fd : Nat) (here : launch.starter = .opening) (behind : 2 < fd) :
      StarterMove id launch run { launch with starter := .locking, pidFd := fd }
        { run with pidFile := some (run.pidFile.getD []) }
  | locked (here : launch.starter = .locking) (free : run.lock = none) :
      StarterMove id launch run { launch with starter := .forking } { run with lock := some id }
  | forked (pid : Nat) (here : launch.starter = .forking) :
      StarterMove id launch run { launch with starter := .leaving, child := .detaching, pid := pid }
        run
  | unforked (here : launch.starter = .forking) :
      StarterMove id launch run { launch with starter := .leaving } run
  | ended : StarterMove id launch run { launch with starter := .ended } run

theorem starterMove {id : Id} {launch launch' : Launch} {run run' : RunDir Id} {act : StartAct}
    (behind : ∀ fd, act = .open (some fd) → 2 < fd)
    (called : starterCall id launch run act = some (launch', run')) :
    StarterMove id launch run launch' run' := by
  rw [starterCall.eq_def] at called
  cases act with
  | «open» fd =>
      dsimp only at called
      split at called
      case isFalse => cases called
      case isTrue here =>
        cases fd with
        | none =>
            cases called
            exact .ended
        | some fd =>
            cases called
            exact .opened fd here (behind fd rfl)
  | flock interrupted =>
      dsimp only at called
      split at called
      case isFalse => cases called
      case isTrue here =>
        split at called
        case isTrue free =>
          cases called
          exact .locked here free.1
        case isFalse =>
          cases called
          exact .ended
  | fork pid =>
      dsimp only at called
      split at called
      case isFalse => cases called
      case isTrue here =>
        cases pid with
        | none =>
            cases called
            exact .unforked here
        | some pid =>
            cases called
            exact .forked pid here
  | exit =>
      dsimp only at called
      split at called
      · cases called
        exact .ended
      · cases called
  | killStarter =>
      dsimp only at called
      split at called
      · cases called
        exact .ended
      · cases called
  | _ => cases called

/-- The moves of the child. -/
inductive ChildMove (id : Id) (launch : Launch) (run : RunDir Id) : Launch → RunDir Id → Prop where
  | detached (here : launch.child = .detaching) :
      ChildMove id launch run { launch with child := .clearing } run
  | truncated (cleared : Bool) (here : launch.child = .clearing) :
      ChildMove id launch run { launch with child := .recording cleared }
        (if cleared then { run with pidFile := some [] } else run)
  | wrote (cleared : Bool) (moved : Nat) (here : launch.child = .recording cleared) :
      ChildMove id launch run
        { launch with
          child := .socketing
          recorded := cleared && (pidText launch.pid).length ≤ moved }
        { run with
          pidFile := run.pidFile.map fun old => overwrite (pidText launch.pid) old moved }
  | unwritten (cleared : Bool) (here : launch.child = .recording cleared)
      (closed : launch.childOpen = false) :
      ChildMove id launch run { launch with child := .socketing } run
  | socketed (here : launch.child = .socketing) :
      ChildMove id launch run { launch with child := .unlinking } run
  | unlinked (ok : Bool) (here : launch.child = .unlinking) :
      ChildMove id launch run { launch with child := .binding }
        (if ok then { run with socket := none } else run)
  | bound (here : launch.child = .binding) :
      ChildMove id launch run { launch with child := .restricting }
        { run with socket := some ⟨id, false⟩ }
  | restricted (ok : Bool) (here : launch.child = .restricting) :
      ChildMove id launch run { launch with child := .listening, restricted := ok }
        { run with socket := run.socket.map fun socket =>
          { socket with restricted := socket.restricted || ok } }
  | listened (here : launch.child = .listening) :
      ChildMove id launch run { launch with child := .loading } run
  | loaded (table : Table) (here : launch.child = .loading)
      (started : (server (.ofNat launch.pid)).init (.accepting table)) :
      ChildMove id launch run { launch with child := .handling table } run
  | handled (table : Table) (here : launch.child = .handling table) :
      ChildMove id launch run { launch with child := .serving table } run
  | passed (table after : Table) (pass : Pass) (here : launch.child = .serving table)
      (step : ServerStep (.ofNat launch.pid) (.accepting table) pass (.accepting after)) :
      ChildMove id launch run { launch with child := .serving after } run
  | ended (alive : launch.live = true) : ChildMove id launch run launch.end run

theorem childMove {id : Id} {launch launch' : Launch} {run run' : RunDir Id} {act : StartAct}
    (called : childCall id launch run act = some (launch', run')) :
    ChildMove id launch run launch' run' := by
  have alive {child : Launch.Child} (here : launch.child = child)
      (running : child ≠ .unborn ∧ child ≠ .ended) : launch.live = true := by
    rw [Launch.live, here]
    split
    · exact (running.1 rfl).elim
    · exact (running.2 rfl).elim
    · rfl
  rw [childCall.eq_def] at called
  cases act with
  | detach =>
      dsimp only at called
      split at called <;> cases called
      exact .detached ‹_›
  | truncate ok =>
      dsimp only at called
      split at called <;> cases called
      exact .truncated _ ‹_›
  | write moved =>
      dsimp only at called
      split at called
      case h_2 => cases called
      case h_1 cleared here =>
        split at called
        case isTrue =>
          cases called
          exact .wrote cleared moved here
        case isFalse closed =>
          cases called
          exact .unwritten cleared here (Bool.eq_false_of_not_eq_true closed)
  | socket ok =>
      dsimp only at called
      split at called <;> cases called
      cases ok with
      | true => exact .socketed ‹_›
      | false => exact .ended (alive ‹_› (by simp))
  | unlink ok =>
      dsimp only at called
      split at called <;> cases called
      exact .unlinked ok ‹_›
  | bind ok =>
      dsimp only at called
      split at called
      case h_2 => cases called
      case h_1 here =>
        split at called <;> cases called
        · exact .bound here
        · exact .ended (alive here (by simp))
  | chmod ok =>
      dsimp only at called
      split at called <;> cases called
      exact .restricted ok ‹_›
  | listen ok =>
      dsimp only at called
      split at called <;> cases called
      cases ok with
      | true => exact .listened ‹_›
      | false => exact .ended (alive ‹_› (by simp))
  | reload file allocated =>
      dsimp only at called
      split at called
      case h_2 => cases called
      case h_1 here =>
        cases empty : (Table.initial.reloadConfig file allocated).sessions.isEmpty with
        | true =>
            rw [empty] at called
            cases called
            exact .ended (alive here (by simp))
        | false =>
            rw [empty] at called
            cases called
            refine .loaded _ here ⟨file, allocated, ?_, rfl⟩
            intro unallocated
            rw [unallocated] at empty
            cases empty
  | sigaction =>
      dsimp only at called
      split at called <;> cases called
      exact .handled _ ‹_›
  | pass pass =>
      dsimp only at called
      split at called
      case h_2 => cases called
      case h_1 table here =>
        have step := pass.step_process (.ofNat launch.pid) table
        split at called <;> cases called
        case h_1 after accepts =>
          rw [accepts] at step
          exact .passed table after pass here step
        case h_2 => exact .ended (alive here (by simp))
  | killChild =>
      dsimp only at called
      split at called <;> cases called
      exact .ended ‹_›
  | _ => cases called

end Main

end Caal

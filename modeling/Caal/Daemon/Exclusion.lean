import Caal.Daemon.Startup

/-!
# One daemon at a time

Whatever the order in which starts of `caald` run, fail and are killed: at most one of them is
past the lock, and what is under `/run` belongs to it.
-/

namespace Caal

open CMemory LTS

variable {Id : Type}

/-! ## What the file, the lock and the socket say -/

/-- The mode of the socket that the child has bound. -/
def Launch.boundAs (launch : Launch) : Option Bool :=
  match launch.child with
  | .restricting => some false
  | .listening | .loading | .handling _ | .serving _ => some launch.restricted
  | _ => none

/-- The text of the pid file, as far as the child knows it. -/
def Launch.wrote (launch : Launch) : Option Bytes :=
  match launch.child with
  | .recording true => some []
  | .socketing | .unlinking | .binding | .restricting | .listening | .loading | .handling _
  | .serving _ => if launch.recorded then some (pidText launch.pid) else none
  | _ => none

/-- What the child of a start has come to know. -/
structure Knows (id : Id) (launch : Launch) (run : RunDir Id) : Prop where
  socket : ∀ mode, launch.boundAs = some mode → run.socket = some ⟨id, mode⟩
  text : ∀ text, launch.wrote = some text → run.pidFile = some text
  handles : ∀ table, launch.child = .handling table →
    (server (.ofNat launch.pid)).init (.accepting table)
  serves : ∀ table, launch.child = .serving table →
    (server (.ofNat launch.pid)).Reachable (.accepting table)

/-- How a start and what is under `/run` fit together. -/
structure Owns (id : Id) (launch : Launch) (run : RunDir Id) : Prop extends
    Knows id launch run where
  early : launch.live = true → launch.starter = .leaving ∨ launch.starter = .ended
  behind : 2 < launch.pidFd
  lock : run.lock = some id ↔ launch.locked = true
  file : launch.opened = true → run.pidFile.isSome = true

theorem Launch.childOpen_eq_live {launch : Launch} (behind : 2 < launch.pidFd) :
    launch.childOpen = launch.live := by
  rw [Launch.childOpen.eq_def, Launch.live.eq_def]
  cases launch.child <;> simp [behind]

section Moves

variable {id : Id} {launch launch' : Launch} {run run' : RunDir Id}

theorem Owns.locked_of_live (owns : Owns id launch run) (alive : launch.live = true) :
    launch.locked = true := by
  rw [Launch.locked, Launch.childOpen_eq_live owns.behind, alive, Bool.or_true]

theorem Launch.opened_of_locked (locked : launch.locked = true) : launch.opened = true := by
  rw [Launch.locked, Bool.or_eq_true, Bool.or_eq_true, decide_eq_true_eq,
    decide_eq_true_eq] at locked
  rw [Launch.opened, Launch.starterOpen]
  rcases locked with (forking | leaving) | opened
  · rw [forking]
    rfl
  · rw [leaving]
    rfl
  · rw [opened, Bool.or_true]

theorem ChildMove.alive (move : ChildMove id launch run launch' run') : launch.live = true := by
  cases move <;> first | assumption | simp [Launch.live, *]

/-- A child that changes nothing knows what it knew. -/
theorem Knows.same (knows : Knows id launch run) {child : Launch.Child}
    (socket : ∀ mode, { launch with child }.boundAs = some mode → launch.boundAs = some mode)
    (text : { launch with child }.wrote = launch.wrote)
    (handles : ∀ table, child = .handling table →
      (server (.ofNat launch.pid)).init (.accepting table))
    (serves : ∀ table, child = .serving table →
      (server (.ofNat launch.pid)).Reachable (.accepting table)) :
    Knows id { launch with child } run where
  socket mode bound := knows.socket mode (socket mode bound)
  text text' written := knows.text text' (text ▸ written)
  handles := handles
  serves := serves

theorem Owns.unborn (owns : Owns id launch run)
    (here : launch.starter = .opening ∨ launch.starter = .locking ∨ launch.starter = .forking) :
    launch.live = false := by
  by_contra alive
  rcases owns.early (Bool.eq_true_of_not_eq_false alive) with late | late
  · simp [late] at here
  · simp [late] at here

theorem Owns.locked_iff (owns : Owns id launch run) :
    launch.locked = true ↔
      launch.starter = .forking ∨ launch.starter = .leaving ∨ launch.live = true := by
  rw [Launch.locked, Launch.childOpen_eq_live owns.behind, Bool.or_eq_true, Bool.or_eq_true,
    decide_eq_true_eq, decide_eq_true_eq, or_assoc]

/-- Without a child there is nothing to know. -/
theorem Knows.of_not_live (unborn : launch.live = false) : Knows id launch run := by
  have here : launch.child = .unborn ∨ launch.child = .ended := by
    rw [Launch.live.eq_def] at unborn
    split at unborn
    · exact .inl ‹_›
    · exact .inr ‹_›
    · cases unborn
  constructor <;> rcases here with here | here <;> simp [Launch.boundAs, Launch.wrote, here]

/-- What a move of one start leaves alone of what another one owns. -/
structure Spares (launch : Launch) (other : Id) (run run' : RunDir Id) : Prop where
  lock : run'.lock = some other ↔ run.lock = some other
  file : run.pidFile.isSome = true → run'.pidFile.isSome = true
  idle : launch.live = false → run'.socket = run.socket ∧
    (run.pidFile.isSome = true → run'.pidFile = run.pidFile)

theorem StarterMove.spares {other : Id} (move : StarterMove id launch run launch' run')
    (different : other ≠ id) : Spares launch other run run' := by
  have same : Spares launch other run run :=
    ⟨Iff.rfl, fun filled => filled, fun _ => ⟨rfl, fun _ => rfl⟩⟩
  cases move with
  | opened fd here behind =>
      refine ⟨Iff.rfl, fun _ => rfl, fun _ => ⟨rfl, ?_⟩⟩
      intro filled
      rcases Option.isSome_iff_exists.mp filled with ⟨text, there⟩
      change some (run.pidFile.getD []) = _
      rw [there]
      rfl
  | locked here free =>
      refine ⟨?_, fun filled => filled, fun _ => ⟨rfl, fun _ => rfl⟩⟩
      rw [free]
      exact iff_of_false (fun mine => different (Option.some.inj mine).symm) nofun
  | forked pid here => exact same
  | unforked here => exact same
  | ended => exact same

theorem ChildMove.spares (other : Id) (move : ChildMove id launch run launch' run') :
    Spares launch other run run' := by
  have alive := move.alive
  have dead (idle : launch.live = false) : False := Bool.false_ne_true (idle.symm.trans alive)
  have same : Spares launch other run run :=
    ⟨Iff.rfl, fun filled => filled, fun _ => ⟨rfl, fun _ => rfl⟩⟩
  cases move with
  | truncated cleared here =>
      cases cleared with
      | false => exact same
      | true => exact ⟨Iff.rfl, fun _ => rfl, fun idle => (dead idle).elim⟩
  | wrote cleared moved here =>
      refine ⟨Iff.rfl, ?_, fun idle => (dead idle).elim⟩
      intro filled
      rw [Option.isSome_map]
      exact filled
  | unlinked ok here =>
      cases ok with
      | false => exact same
      | true => exact ⟨Iff.rfl, fun filled => filled, fun idle => (dead idle).elim⟩
  | bound here => exact ⟨Iff.rfl, fun filled => filled, fun idle => (dead idle).elim⟩
  | restricted ok here => exact ⟨Iff.rfl, fun filled => filled, fun idle => (dead idle).elim⟩
  | _ => exact same

/-- A start without a child changes nothing that is there. -/
theorem Spares.eq {other : Id} (spares : Spares launch other run run') (idle : launch.live = false)
    (held : run.lock = some other) (there : run.pidFile.isSome = true) : run' = run := by
  rcases spares.idle idle with ⟨socket, file⟩
  have lock : run'.lock = run.lock := (spares.lock.mpr held).trans held.symm
  rcases run with ⟨file', lock', socket'⟩
  rcases run' with ⟨file'', lock'', socket''⟩
  cases socket
  cases lock
  cases file there
  rfl

/-- What is spared is still owned, when only one start can have a live child. -/
theorem Owns.spared {other : Id} {launchOther : Launch} (owns : Owns other launchOther run)
    (acting : Owns id launch run) (different : other ≠ id) (spares : Spares launch other run run') :
    Owns other launchOther run' := by
  have untouched (alive : launchOther.live = true) :
      run'.socket = run.socket ∧ run'.pidFile = run.pidFile := by
    have locked := owns.locked_of_live alive
    have idle : launch.live = false := by
      by_contra live
      have mine := acting.lock.mpr (acting.locked_of_live (Bool.eq_true_of_not_eq_false live))
      exact different (Option.some.inj ((owns.lock.mpr locked).symm.trans mine))
    rcases spares.idle idle with ⟨socket, file⟩
    exact ⟨socket, file (owns.file (Launch.opened_of_locked locked))⟩
  constructor
  case toKnows =>
    cases alive : launchOther.live with
    | false => exact .of_not_live alive
    | true =>
        rcases untouched alive with ⟨socket, file⟩
        exact
          { socket := by
              rw [socket]
              exact owns.socket
            text := by
              rw [file]
              exact owns.text
            handles := owns.handles
            serves := owns.serves }
  case early => exact owns.early
  case behind => exact owns.behind
  case lock => exact spares.lock.trans owns.lock
  case file => exact fun opened => spares.file (owns.file opened)

variable [DecidableEq Id]

theorem RunDir.release_socket (run : RunDir Id) (id : Id) (launch : Launch) :
    (run.release id launch).socket = run.socket := by
  rw [release]
  split <;> rfl

theorem RunDir.release_pidFile (run : RunDir Id) (id : Id) (launch : Launch) :
    (run.release id launch).pidFile = run.pidFile := by
  rw [release]
  split <;> rfl

theorem RunDir.release_lock (run : RunDir Id) (id : Id) (launch : Launch) :
    (run.release id launch).lock = some id ↔ run.lock = some id ∧ launch.opened = true := by
  rw [release]
  split
  case isTrue opened => exact (and_iff_left opened).symm
  case isFalse closed =>
    refine iff_of_false ?_ fun both => closed both.2
    dsimp only
    split
    · exact nofun
    · assumption

theorem RunDir.release_lock_other (run : RunDir Id) {id other : Id} (launch : Launch)
    (different : other ≠ id) : (run.release id launch).lock = some other ↔
      run.lock = some other := by
  rw [release]
  split
  case isTrue => exact Iff.rfl
  case isFalse =>
    dsimp only
    split
    case isTrue mine =>
      rw [mine]
      exact iff_of_false nofun fun same => different (Option.some.inj same).symm
    case isFalse => exact Iff.rfl

theorem Knows.release (knows : Knows id launch run) : Knows id launch (run.release id launch) where
  socket := by
    rw [RunDir.release_socket]
    exact knows.socket
  text := by
    rw [RunDir.release_pidFile]
    exact knows.text
  handles := knows.handles
  serves := knows.serves

/-- A child that goes on. -/
theorem Owns.go_on (owns : Owns id launch run) (alive : launch.live = true)
    (goesOn : launch'.live = true) (starter : launch'.starter = launch.starter)
    (fd : launch'.pidFd = launch.pidFd) (lock : run'.lock = run.lock)
    (file : run.pidFile.isSome = true → run'.pidFile.isSome = true)
    (knows : Knows id launch' run') :
    Owns id launch' (run'.release id launch') := by
  have behind : 2 < launch'.pidFd := by
    rw [fd]
    exact owns.behind
  have locked : launch'.locked = true := by
    rw [Launch.locked, Launch.childOpen_eq_live behind, goesOn, Bool.or_true]
  have opened := Launch.opened_of_locked locked
  have opensLocked := owns.locked_of_live alive
  constructor
  case early => exact fun _ => starter ▸ owns.early alive
  case behind => exact behind
  case lock =>
    rw [RunDir.release_lock, lock]
    exact iff_of_true ⟨owns.lock.mpr opensLocked, opened⟩ locked
  case file =>
    intro _
    rw [RunDir.release_pidFile]
    exact file (owns.file (Launch.opened_of_locked opensLocked))
  case toKnows => exact knows.release

/-- A child that ends closes the pid file; the lock goes with it if nobody else has it open. -/
theorem Owns.end (owns : Owns id launch run) (alive : launch.live = true) :
    Owns id launch.end (run.release id launch.end) := by
  have locked := owns.locked_of_live alive
  have held : run.lock = some id := owns.lock.mpr locked
  have closed : launch.end.childOpen = false := rfl
  constructor
  case early => exact nofun
  case behind => exact owns.behind
  case lock =>
    rw [RunDir.release_lock, and_iff_right held, Launch.opened, Launch.locked, closed,
      Bool.or_false,
      Bool.or_false, Launch.starterOpen]
    rcases owns.early alive with leaving | ended
    · simp [Launch.end, leaving]
    · simp [Launch.end, ended]
  case file =>
    intro _
    rw [RunDir.release_pidFile]
    exact owns.file (Launch.opened_of_locked locked)
  case toKnows => constructor <;> nofun

/-- A move of its child leaves a start what it owns. -/
theorem Owns.child (owns : Owns id launch run) (move : ChildMove id launch run launch' run') :
    Owns id launch' (run'.release id launch') := by
  have alive := move.alive
  have knows := owns.toKnows
  cases move with
  | detached here =>
      refine owns.go_on alive rfl rfl rfl rfl (fun filled => filled) ?_
      constructor <;> nofun
  | truncated cleared here =>
      cases cleared with
      | false =>
          refine owns.go_on alive rfl rfl rfl rfl (fun filled => filled) ?_
          constructor <;> nofun
      | true =>
          refine owns.go_on alive rfl rfl rfl rfl (fun _ => rfl) ?_
          constructor
          case text =>
            rintro _ ⟨⟩
            rfl
          all_goals nofun
  | wrote cleared moved here =>
      refine owns.go_on alive rfl rfl rfl rfl ?_ ?_
      · intro filled
        rw [Option.isSome_map]
        exact filled
      · constructor
        case text =>
          intro text written
          change (if (cleared && decide ((pidText launch.pid).length ≤ moved)) = true then
            some (pidText launch.pid) else none) = some text at written
          split at written
          case isFalse => cases written
          case isTrue whole =>
            cases written
            rw [Bool.and_eq_true, decide_eq_true_eq] at whole
            have empty : run.pidFile = some [] := by
              apply knows.text
              rw [Launch.wrote, here, whole.1]
            change run.pidFile.map _ = _
            rw [empty, Option.map_some, overwrite, List.drop_nil, List.append_nil,
              List.take_of_length_le whole.2]
        all_goals nofun
  | unwritten cleared here closed =>
      rw [Launch.childOpen_eq_live owns.behind, alive] at closed
      cases closed
  | socketed here =>
      refine owns.go_on alive rfl rfl rfl rfl (fun filled => filled) ?_
      apply knows.same <;> simp [Launch.boundAs, Launch.wrote, here]
  | unlinked ok here =>
      have later : Knows id { launch with child := .binding } run := by
        apply knows.same <;> simp [Launch.boundAs, Launch.wrote, here]
      cases ok with
      | false => exact owns.go_on alive rfl rfl rfl rfl (fun filled => filled) later
      | true =>
          refine owns.go_on alive rfl rfl rfl rfl (fun filled => filled) ?_
          exact { later with socket := nofun }
  | bound here =>
      have later : Knows id { launch with child := .restricting }
          { run with socket := some ⟨id, false⟩ } :=
        { socket := by
            rintro _ ⟨⟩
            rfl
          text := by
            intro text written
            apply knows.text
            rw [Launch.wrote, here]
            exact written
          handles := nofun
          serves := nofun }
      exact owns.go_on alive rfl rfl rfl rfl (fun filled => filled) later
  | restricted ok here =>
      have bound : run.socket = some ⟨id, false⟩ := by
        apply knows.socket
        rw [Launch.boundAs, here]
      refine owns.go_on alive rfl rfl rfl rfl (fun filled => filled) ?_
      constructor
      case socket =>
        rintro _ ⟨⟩
        change run.socket.map _ = _
        rw [bound]
        rfl
      case text =>
        intro text written
        apply knows.text
        rw [Launch.wrote, here]
        exact written
      all_goals nofun
  | listened here =>
      refine owns.go_on alive rfl rfl rfl rfl (fun filled => filled) ?_
      apply knows.same <;> simp [Launch.boundAs, Launch.wrote, here]
  | loaded table here started =>
      refine owns.go_on alive rfl rfl rfl rfl (fun filled => filled) ?_
      apply knows.same <;> simp [Launch.boundAs, Launch.wrote, here]
      exact started
  | handled table here =>
      refine owns.go_on alive rfl rfl rfl rfl (fun filled => filled) ?_
      apply knows.same <;> simp [Launch.boundAs, Launch.wrote, here]
      exact .of_init (knows.handles table here)
  | passed table after pass here step =>
      refine owns.go_on alive rfl rfl rfl rfl (fun filled => filled) ?_
      apply knows.same <;> simp [Launch.boundAs, Launch.wrote, here]
      exact (knows.serves table here).step step
  | ended alive => exact owns.end alive

/-- So does a move of the process that was started. -/
theorem Owns.starter (owns : Owns id launch run) (move : StarterMove id launch run launch' run') :
    Owns id launch' (run'.release id launch') := by
  cases move with
  | opened fd here behind =>
      have unborn := owns.unborn (.inl here)
      have unlocked : ¬ run.lock = some id := by
        rw [owns.lock, owns.locked_iff, here, unborn]
        simp
      have later : Launch.locked { launch with starter := .locking, pidFd := fd } = false := by
        rw [Launch.locked, Launch.childOpen_eq_live behind]
        exact unborn
      constructor
      case toKnows =>
        apply Knows.release
        exact .of_not_live unborn
      case early => exact fun alive => (Bool.false_ne_true (unborn.symm.trans alive)).elim
      case behind => exact behind
      case lock =>
        rw [RunDir.release_lock, later]
        exact iff_of_false (fun both => unlocked both.1) Bool.false_ne_true
      case file =>
        intro _
        rw [RunDir.release_pidFile]
        rfl
  | locked here free =>
      have unborn := owns.unborn (.inr (.inl here))
      constructor
      case toKnows =>
        apply Knows.release
        exact .of_not_live unborn
      case early => exact fun alive => (Bool.false_ne_true (unborn.symm.trans alive)).elim
      case behind => exact owns.behind
      case lock =>
        rw [RunDir.release_lock]
        exact iff_of_true ⟨rfl, rfl⟩ rfl
      case file =>
        intro _
        rw [RunDir.release_pidFile]
        exact owns.file (by simp [Launch.opened, Launch.starterOpen, here])
  | forked pid here =>
      have locked := owns.locked_iff.mpr (.inl here)
      constructor
      case toKnows => constructor <;> nofun
      case early => exact fun _ => .inl rfl
      case behind => exact owns.behind
      case lock =>
        rw [RunDir.release_lock]
        exact iff_of_true ⟨owns.lock.mpr locked, rfl⟩ rfl
      case file =>
        intro _
        rw [RunDir.release_pidFile]
        exact owns.file (Launch.opened_of_locked locked)
  | unforked here =>
      have locked := owns.locked_iff.mpr (.inl here)
      have unborn := owns.unborn (.inr (.inr here))
      constructor
      case toKnows =>
        apply Knows.release
        exact .of_not_live unborn
      case early => exact fun _ => .inl rfl
      case behind => exact owns.behind
      case lock =>
        rw [RunDir.release_lock]
        exact iff_of_true ⟨owns.lock.mpr locked, rfl⟩ rfl
      case file =>
        intro _
        rw [RunDir.release_pidFile]
        exact owns.file (Launch.opened_of_locked locked)
  | ended =>
      have opened : Launch.opened { launch with starter := .ended } = launch.live := by
        rw [← Launch.childOpen_eq_live owns.behind]
        rfl
      have locked : Launch.locked { launch with starter := .ended } = launch.live := by
        rw [← Launch.childOpen_eq_live owns.behind]
        rfl
      constructor
      case toKnows =>
        have same : Knows id { launch with starter := .ended } run :=
          { owns.toKnows with }
        exact same.release
      case early => exact fun _ => .inr rfl
      case behind => exact owns.behind
      case lock =>
        rw [RunDir.release_lock, opened, locked, owns.lock, owns.locked_iff]
        exact ⟨And.right, fun alive => ⟨.inr (.inr alive), alive⟩⟩
      case file =>
        rw [opened, RunDir.release_pidFile]
        exact fun alive => owns.file (Launch.opened_of_locked (owns.locked_of_live alive))

theorem Spares.release {other : Id} (spares : Spares launch other run run') (different : other ≠ id)
    (after : Launch) : Spares launch other run (run'.release id after) where
  lock := (RunDir.release_lock_other run' after different).trans spares.lock
  file := by
    rw [RunDir.release_pidFile]
    exact spares.file
  idle := by
    rw [RunDir.release_pidFile, RunDir.release_socket]
    exact spares.idle

/-- A call of one start: what it owns afterwards, and what it leaves alone. -/
theorem Owns.call (owns : Owns id launch run) {act : StartAct}
    (behind : ∀ fd, act = .open (some fd) → 2 < fd)
    (called : startCall id launch run act = some (launch', run')) :
    Owns id launch' run' ∧ ∀ other, other ≠ id → Spares launch other run run' := by
  rcases Option.map_eq_some_iff.mp called with ⟨⟨after, left⟩, moved, equal⟩
  cases equal
  rcases Option.or_eq_some_iff.mp moved with starter | ⟨_, child⟩
  · have move := starterMove behind starter
    exact ⟨owns.starter move, fun other different => (move.spares different).release different _⟩
  · have move := childMove child
    exact ⟨owns.child move, fun other different => (move.spares other).release different _⟩

end Moves

/-! ## All starts -/

section Starts

variable [DecidableEq Id] {state : Processes.State Id Launch (RunDir Id)}

/-- Each start owns what its point in `main` says, whatever the others do. -/
theorem owns_of_reachable (reachable : (starts.toLTS.restrict Tended).Reachable state) :
    ∀ id : Id, Owns id (state.procs id) state.shared := by
  apply reachable.invariant
  · rintro ⟨procs, run⟩ ⟨started, free⟩ id
    change procs = _ at started
    change run.lock = none at free
    subst started
    constructor
    case toKnows => exact .of_not_live rfl
    case early => exact nofun
    case behind => exact Nat.lt_succ_self 2
    case lock =>
      rw [free]
      exact iff_of_false nofun Bool.false_ne_true
    case file => exact nofun
  · intro state label after owns step
    cases label with
    | act acting act =>
        rcases Processes.step_act step.2 with ⟨called, others⟩
        have behind : ∀ fd, act = .open (some fd) → 2 < fd := by
          rintro fd rfl
          exact step.1
        rcases (owns acting).call behind called with ⟨own, spares⟩
        intro id
        by_cases same : id = acting
        · subst same
          exact own
        · rw [others id same]
          exact (owns id).spared (owns acting) same (spares id same)
    | env event =>
        rcases Processes.step_env step.2 with ⟨moved, procs⟩
        have removed : after.shared = { state.shared with pidFile := none, lock := none } :=
          (Option.some.inj moved).symm
        intro id
        have closed : (state.procs id).opened = false := step.1 id
        have unlocked : (state.procs id).locked = false := by
          by_contra locked
          exact Bool.false_ne_true (closed.symm.trans
            (Launch.opened_of_locked (Bool.eq_true_of_not_eq_false locked)))
        have unborn : (state.procs id).live = false := by
          by_contra alive
          exact Bool.false_ne_true (unlocked.symm.trans
            ((owns id).locked_of_live (Bool.eq_true_of_not_eq_false alive)))
        rw [procs, removed]
        constructor
        case toKnows => exact .of_not_live unborn
        case early => exact (owns id).early
        case behind => exact (owns id).behind
        case lock =>
          rw [unlocked]
          exact iff_of_false nofun Bool.false_ne_true
        case file =>
          rw [closed]
          exact nofun

/-- Of any number of starts at most one is past the lock, and the daemon that serves is the one
that the pid file names and that the socket leads to; its table is one of the accept loop. -/
theorem one_daemon (reachable : (starts.toLTS.restrict Tended).Reachable state) :
    (∀ first second : Id, (state.procs first).locked = true →
      (state.procs second).locked = true → first = second) ∧
      ∀ id table, (state.procs id).child = .serving table →
        state.shared.lock = some id ∧
          state.shared.socket = some ⟨id, (state.procs id).restricted⟩ ∧
          ((state.procs id).recorded = true →
            state.shared.pidFile = some (pidText (state.procs id).pid)) ∧
          (server (.ofNat (state.procs id).pid)).Reachable (.accepting table) := by
  have owns := owns_of_reachable reachable
  constructor
  · intro first second lockedFirst lockedSecond
    have held := (owns first).lock.mpr lockedFirst
    exact Option.some.inj (held.symm.trans ((owns second).lock.mpr lockedSecond))
  · intro id table here
    have alive : (state.procs id).live = true := by
      rw [Launch.live, here]
    refine ⟨(owns id).lock.mpr ((owns id).locked_of_live alive), ?_, ?_,
      (owns id).serves table here⟩
    · apply (owns id).socket
      rw [Launch.boundAs, here]
    · intro recorded
      apply (owns id).text
      rw [Launch.wrote, here]
      exact if_pos recorded

/-- While a daemon lives, other starts change nothing under `/run` and do not get past the
lock. -/
theorem second_start_idle {finish : Processes.State Id Launch (RunDir Id)} {id : Id}
    {labels : List (Processes.Label Id StartAct RunDirEvent)}
    (reachable : (starts.toLTS.restrict Tended).Reachable state)
    (alive : (state.procs id).live = true)
    (run : (starts.toLTS.restrict Tended).Run state labels finish)
    (others : ∀ act, .act id act ∉ labels) :
    finish.shared = state.shared ∧ finish.procs id = state.procs id ∧
      ∀ other, other ≠ id → (finish.procs other).locked = false := by
  have same : finish.procs id = state.procs id := Processes.procs_of_run run.of_restrict others
  have shared : finish.shared = state.shared ∧ (starts.toLTS.restrict Tended).Reachable finish := by
    have kept := @LTS.Run.preserves _ _ _ (fun after => after.shared = state.shared ∧
      after.procs id = state.procs id ∧ (starts.toLTS.restrict Tended).Reachable after) _ _ _ run
      ⟨rfl, rfl, reachable⟩
    refine (kept ?_).imp_right And.right
    rintro before label next ⟨unchanged, here, reached⟩ member step
    have owns := owns_of_reachable reached
    have aliveBefore : (before.procs id).live = true := by
      rw [here]
      exact alive
    have locked := (owns id).locked_of_live aliveBefore
    refine ⟨?_, ?_, reached.step step⟩
    · cases label with
      | act acting act =>
          have different : acting ≠ id := by
            rintro rfl
            exact others act member
          rcases Processes.step_act step.2 with ⟨called, _⟩
          have behind : ∀ fd, act = .open (some fd) → 2 < fd := by
            rintro fd rfl
            exact step.1
          rcases (owns acting).call behind called with ⟨_, spares⟩
          have idle : (before.procs acting).live = false := by
            by_contra live
            exact different ((one_daemon reached).1 acting id
              ((owns acting).locked_of_live (Bool.eq_true_of_not_eq_false live)) locked)
          rw [← unchanged]
          exact (spares id different.symm).eq idle ((owns id).lock.mpr locked)
            ((owns id).file (Launch.opened_of_locked locked))
      | env event =>
          have closed : (before.procs id).opened = false := step.1 id
          exact (Bool.false_ne_true (closed.symm.trans (Launch.opened_of_locked locked))).elim
    · cases label with
      | act acting act =>
          have different : id ≠ acting := by
            rintro rfl
            exact others act member
          exact ((Processes.step_act step.2).2 id different).trans here
      | env event =>
          rw [(Processes.step_env step.2).2]
          exact here
  refine ⟨shared.1, same, ?_⟩
  intro other different
  have owns := owns_of_reachable shared.2
  have locked : (finish.procs id).locked = true := by
    rw [same]
    exact (owns_of_reachable reachable id).locked_of_live alive
  by_contra past
  exact different ((one_daemon shared.2).1 other id (Bool.eq_true_of_not_eq_false past) locked)

/-- A start in which all calls succeed, up to the pid file. -/
def detachCalls (pid : Nat) : List StartAct :=
  [.open (some 3), .flock false, .fork (some pid), .exit, .detach, .truncate true]

/-- The calls behind the pid file that make the socket. -/
def listenCalls : List StartAct :=
  [.socket true, .unlink true, .bind true, .chmod true, .listen true]

/-- A start in which all calls succeed, until the daemon serves. -/
def launchCalls (pid : Nat) (file : ConfigFile) : List StartAct :=
  detachCalls pid ++ (.write (pidText pid).length ::
    (listenCalls ++ [.reload file true, .sigaction]))

theorem execute_detachCalls (id : Id) {run : RunDir Id} (free : run.lock = none) (pid : Nat) :
    execute (fun own act => startCall id own.1 own.2 act) (.begin, run) (detachCalls pid) =
      some (⟨.ended, .recording true, 3, pid, false, false⟩, ⟨some [], some id, run.socket⟩) := by
  rcases run with ⟨file, lock, socket⟩
  cases free
  rfl

/-- The pid written to the file that was emptied. -/
theorem startCall_write (id : Id) (socket : Option (BoundSocket Id)) (pid : Nat) :
    startCall id ⟨.ended, .recording true, 3, pid, false, false⟩ ⟨some [], some id, socket⟩
        (.write (pidText pid).length) =
      some (⟨.ended, .socketing, 3, pid, true, false⟩, ⟨some (pidText pid), some id, socket⟩) := by
  have written : overwrite (pidText pid) [] (pidText pid).length = pidText pid := by
    rw [overwrite, List.take_length, List.drop_nil, List.append_nil]
  have whole : (true && decide ((pidText pid).length ≤ (pidText pid).length)) = true :=
    decide_eq_true (Nat.le_refl _)
  change some ((⟨_, _, _, _, true && _, _⟩ : Launch),
    (⟨some (overwrite _ _ _), _, _⟩ : RunDir Id)) = _
  rw [written, whole]

theorem execute_listenCalls (id : Id) (text : Bytes) (socket : Option (BoundSocket Id))
    (pid : Nat) :
    execute (fun own act => startCall id own.1 own.2 act)
        (⟨.ended, .socketing, 3, pid, true, false⟩, ⟨some text, some id, socket⟩) listenCalls =
      some (⟨.ended, .loading, 3, pid, true, true⟩, ⟨some text, some id, some ⟨id, true⟩⟩) :=
  rfl

theorem execute_launchCalls (id : Id) {run : RunDir Id} (free : run.lock = none) (pid : Nat)
    {file : ConfigFile} (usable : (Table.initial.reloadConfig file true).sessions ≠ []) :
    execute (fun own act => startCall id own.1 own.2 act) (.begin, run) (launchCalls pid file) =
      some (⟨.ended, .serving (Table.initial.reloadConfig file true), 3, pid, true, true⟩,
        ⟨some (pidText pid), some id, some ⟨id, true⟩⟩) := by
  have there : (Table.initial.reloadConfig file true).sessions.isEmpty = false :=
    List.isEmpty_eq_false_iff.mpr usable
  have loaded (run : RunDir Id) :
      startCall id ⟨.ended, .loading, 3, pid, true, true⟩ run (.reload file true) =
        some (⟨.ended, .handling (Table.initial.reloadConfig file true),
          3, pid, true, true⟩, run) := by
    rw [startCall, starterCall.eq_def, childCall.eq_def]
    dsimp only
    rw [there]
    rfl
  rw [launchCalls, execute_append, execute_detachCalls id free, Option.bind_some, execute,
    startCall_write, Option.bind_some, execute_append, execute_listenCalls, Option.bind_some,
    execute,
    loaded, Option.bind_some]
  rfl

/-- Where nobody has the lock, a start that is not disturbed comes to serve. -/
theorem run_launchCalls (id : Id) (free : state.shared.lock = none)
    (fresh : state.procs id = .begin) (pid : Nat) {file : ConfigFile}
    (usable : (Table.initial.reloadConfig file true).sessions ≠ []) :
    (starts.toLTS.restrict Tended).Run state ((launchCalls pid file).map (.act id))
      ⟨Function.update state.procs id
          ⟨.ended, .serving (Table.initial.reloadConfig file true), 3, pid, true, true⟩,
        ⟨some (pidText pid), some id, some ⟨id, true⟩⟩⟩ := by
  have executed := execute_launchCalls id free pid usable
  rw [← fresh] at executed
  refine @Processes.run_alone _ _ _ _ _ _ starts Tended id state (launchCalls pid file) (_, _) ?_
    executed
  intro act member state
  cases act with
  | «open» fd =>
      cases fd with
      | none => trivial
      | some fd =>
          have opened : fd = 3 := by
            simpa [launchCalls, detachCalls, listenCalls] using member
          rw [opened]
          exact Nat.lt_succ_self 2
  | _ => trivial

/-- Whatever starts that are gone have left under `/run`, the next one comes to serve. -/
theorem restart_serves {id : Id} (reachable : (starts.toLTS.restrict Tended).Reachable state)
    (gone : ∀ other, (state.procs other).locked = false) (fresh : state.procs id = .begin)
    (pid : Nat) {file : ConfigFile}
    (usable : (Table.initial.reloadConfig file true).sessions ≠ []) :
    ∃ finish, (starts.toLTS.restrict Tended).Run state ((launchCalls pid file).map (.act id))
      finish ∧
      (finish.procs id).child = .serving (Table.initial.reloadConfig file true) ∧
      finish.shared = ⟨some (pidText pid), some id, some ⟨id, true⟩⟩ := by
  have free : state.shared.lock = none := by
    rw [Option.eq_none_iff_forall_ne_some]
    intro other held
    exact Bool.false_ne_true
      ((gone other).symm.trans ((owns_of_reachable reachable other).lock.mp held))
  refine ⟨_, run_launchCalls id free fresh pid usable, ?_, rfl⟩
  dsimp only
  rw [Function.update_self]

end Starts

/-! ## Two starts -/

/-- A host on which `caald` has not been started yet. -/
def notStarted : Processes.State Nat Launch (RunDir Nat) :=
  ⟨fun _ => .begin, ⟨none, none, none⟩⟩

theorem notStarted_reachable : (starts.toLTS.restrict Tended).Reachable notStarted :=
  .of_init ⟨rfl, rfl⟩

/-- The same host, with a daemon for one session. -/
def oneStarted : Processes.State Nat Launch (RunDir Nat) :=
  ⟨Function.update notStarted.procs 0 ⟨.ended, .serving oneSlot, 3, 77, true, true⟩,
    ⟨some (pidText 77), some 0, some ⟨0, true⟩⟩⟩

theorem oneStarted_reachable : (starts.toLTS.restrict Tended).Reachable oneStarted :=
  notStarted_reachable.run (run_launchCalls 0 rfl rfl 77 (by decide))

theorem one_daemon_started :
    (oneStarted.procs 1).locked = false ∧
      oneStarted.shared.socket = some ⟨0, true⟩ ∧ (server 77).Reachable (.accepting oneSlot) := by
  rcases one_daemon oneStarted_reachable with ⟨_, serving⟩
  rcases serving 0 oneSlot rfl with ⟨_, socket, _, table⟩
  exact ⟨rfl, socket, table⟩

/-- The second start is refused the lock. -/
theorem second_start_idle_refused :
    ∃ finish, (starts.toLTS.restrict Tended).Run oneStarted
        [.act 1 (.open (some 5)), .act 1 (.flock false)] finish ∧
      finish.shared = oneStarted.shared ∧ (finish.procs 1).locked = false := by
  have run : (starts.toLTS.restrict Tended).Run oneStarted
      [.act 1 (.open (some 5)), .act 1 (.flock false)]
      ⟨Function.update oneStarted.procs 1 { Launch.begin with starter := .ended, pidFd := 5 },
        oneStarted.shared⟩ := by
    refine @Processes.run_alone _ _ _ _ _ _ starts Tended 1 oneStarted
      [.open (some 5), .flock false] (_, oneStarted.shared) ?_ rfl
    intro act member state
    simp only [List.mem_cons, List.not_mem_nil, or_false] at member
    rcases member with rfl | rfl
    · exact Nat.lt_of_sub_ne_zero nofun
    · trivial
  have idle := @second_start_idle _ _ _ _ 0 _ oneStarted_reachable rfl run (by simp)
  exact ⟨_, run, idle.1, idle.2.2 1 (by decide)⟩

theorem restart_serves_first :
    ∃ finish, (starts.toLTS.restrict Tended).Run notStarted
        ((launchCalls 77 (.parsed (.int64 1))).map (.act 0)) finish ∧
      (finish.procs 0).child = .serving oneSlot ∧
      finish.shared = ⟨some (pidText 77), some 0, some ⟨0, true⟩⟩ :=
  restart_serves notStarted_reachable (fun _ => rfl) rfl 77 (by decide)

end Caal

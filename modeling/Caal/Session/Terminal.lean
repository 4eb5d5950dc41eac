import Caal.Session.Phases
import Caal.Session.Signals

/-!
# The terminal of the user

What `pty_bridge_run` does to the terminal on stdin: the raw mode in which its loop runs, the mode
that it puts back, and the window size that it hands on to the container's terminal, once by
itself and then in `on_winch`.
-/

namespace Caal

open LTS

/-! ## The terminal -/

/-- The terminal on stdin and that of the container. -/
structure Tty (Mode Size : Type) where
  mode : Mode
  /-- `orig`, if `tcgetattr` could read it. -/
  saved : Option Mode
  size : Size
  /-- `ws`, as `TIOCGWINSZ` has filled it. -/
  asked : Size
  inner : Size
  /-- The window has changed, and the `SIGWINCH` for it has not been delivered. -/
  owed : Bool
  deriving DecidableEq

namespace Tty

variable {Mode Size : Type}

/-- What a call does to the terminal when it returns, where `raw` is `cfmakeraw`. With `got`,
`tcgetattr` has succeeded before `tcsetattr`. -/
def call (raw : Mode → Mode) (tty : Tty Mode Size) (got : Bool) :
    Point → Outcome → Option (Tty Mode Size)
  | .askSize, .ok => some { tty with asked := tty.size }
  | .pushSize, .ok => some { tty with inner := tty.asked }
  | .rawMode, .ok =>
      if got then some { tty with mode := raw tty.mode, saved := some tty.mode } else none
  | .rawMode, _ => some { tty with saved := if got then some tty.mode else none }
  | .restoreMode, .ok => some { tty with mode := tty.saved.getD tty.mode }
  | _, _ => some tty

/-- `on_winch`, and whether both `ioctl` calls succeed. A change of the window between the two
comes with a `SIGWINCH` of its own, which waits until the handler has returned. -/
def winch (tty : Tty Mode Size) (masterOpen told : Bool) : Tty Mode Size :=
  if masterOpen && told then { tty with inner := tty.size } else tty

/-- A signal is delivered. -/
def deliver (tty : Tty Mode Size) (proc : Proc) (told : Bool) (signal : Signal) : Tty Mode Size :=
  if signal = .winch then
    { (if proc.handles .winch then tty.winch proc.masterOpen told else tty) with owed := false }
  else tty

/-- The window changes its size. -/
def resize (tty : Tty Mode Size) (size : Size) : Tty Mode Size :=
  { tty with size := size, owed := true }

end Tty

/-- A step of the login shell or of its children, a signal to it, or a change of the window. -/
inductive TtyAct (Size : Type) where
  | call (outcome : Outcome) (got : Bool)
  | signal (signal : Signal) (told : Bool)
  | child (event : ChildEvent)
  | resize (size : Size)
  deriving DecidableEq

section Terminal

variable {Mode Size : Type}

def terminalStep (config : Config) (raw : Mode → Mode) (state : Proc × Tty Mode Size) :
    TtyAct Size → Option (Proc × Tty Mode Size)
  | .call outcome got =>
      (state.1.call config outcome).bind fun proc =>
        (state.2.call raw got state.1.point outcome).map fun tty => (proc, tty)
  | .signal signal told =>
      (state.1.step config (.signal signal)).map fun proc =>
        (proc, state.2.deliver state.1 told signal)
  | .child event => (state.1.step config (.child event)).map fun proc => (proc, state.2)
  | .resize size => some (state.1, state.2.resize size)

/-- One login shell with the terminal that `sshd` has given it, in some mode. -/
def terminal (config : Config) (raw : Mode → Mode) (first : Mode) :
    LTS (Proc × Tty Mode Size) (TtyAct Size) where
  init state := state.1 = Proc.start config ∧ state.2.mode = first ∧ state.2.saved = none
  step state act next := terminalStep config raw state act = some next

/-- The terminal does not show in the session. -/
def TtyAct.shown : TtyAct Size → Option Act
  | .call outcome _ => some (.call outcome)
  | .signal sent _ => some (.signal sent)
  | .child event => some (.child event)
  | .resize _ => none

/-- A run at a terminal is a run of its session. -/
theorem terminal_run {config : Config} {raw : Mode → Mode} {first : Mode}
    {start finish : Proc × Tty Mode Size} {acts : List (TtyAct Size)}
    (run : (terminal config raw first).Run start acts finish) :
    (session config).Run start.1 (acts.filterMap TtyAct.shown) finish.1 := by
  apply run.project
  intro state act after step
  cases act with
  | call outcome got =>
      rcases Option.bind_eq_some_iff.mp step with ⟨proc, called, rest⟩
      rcases Option.map_eq_some_iff.mp rest with ⟨tty, _, rfl⟩
      exact .single called
  | signal sent told =>
      rcases Option.map_eq_some_iff.mp step with ⟨proc, delivered, rfl⟩
      exact .single delivered
  | child event =>
      rcases Option.map_eq_some_iff.mp step with ⟨proc, progressed, rfl⟩
      exact .single progressed
  | resize size =>
      cases step
      exact .nil _

/-! ## How far `pty_bridge_run` has got -/

inductive Episode where
  | before
  /-- The size has been read, and is not pushed yet. -/
  | asked
  /-- Between the first push of the size and the handler for its changes. -/
  | pushed
  | armed
  /-- In the loop, and about to put the mode back. -/
  | looping
  | after
  | killed
  deriving DecidableEq

def Phase.episode : Phase → Episode
  | .query => .before
  | .setup => .before
  | .starting => .before
  | .registering => .before
  | .console => .before
  | .relay => .looping
  | .restoring => .looping
  | .waiting => .after
  | .closing => .after
  | .teardown => .after
  | .over => .after

def Point.episode : Point → Episode
  | .askSize => .before
  | .pushSize => .asked
  | .sigWinch => .pushed
  | .sigTerm => .armed
  | .sigHup => .armed
  | .rawMode => .armed
  | .killed _ => .killed
  | point => point.phase.episode

/-- The calls that concern the terminal. -/
def Point.handlesTty : Point → Bool
  | .askSize => true
  | .pushSize => true
  | .rawMode => true
  | .restoreMode => true
  | _ => false

/-- Where the control flow goes, as far as the terminal is concerned. -/
inductive TtyMove : Point → Outcome → Point → Prop where
  | quiet {point next : Point} {outcome : Outcome} (same : next.episode = point.episode)
      (idle : point.handlesTty = false) : TtyMove point outcome next
  | leaves {point next : Point} {outcome : Outcome} (before : point.episode = .before)
      (after : next.episode = .after) (idle : point.handlesTty = false) :
      TtyMove point outcome next
  | asks : TtyMove .askSize .ok .pushSize
  | asksInVain : TtyMove .askSize .fail .sigWinch
  | pushes {outcome : Outcome} : TtyMove .pushSize outcome .sigWinch
  | arms {outcome : Outcome} : TtyMove .sigWinch outcome .sigTerm
  | raw {outcome : Outcome} : TtyMove .rawMode outcome .select
  | restores {outcome : Outcome} : TtyMove .restoreMode outcome .waitChild

theorem Point.episode_of_phase {point : Point} {phase : Phase} (here : point.phase = phase)
    (elsewhere : phase ≠ .relay) (alive : phase ≠ .over) : point.episode = phase.episode := by
  subst here
  cases point <;> first | rfl | exact (elsewhere rfl).elim | exact (alive rfl).elim

theorem Site.episode_after (site : Site) : site.after.episode = .after := by
  cases site <;> rfl

variable {config : Config} {terminate watched : Bool} {point next : Point} {outcome : Outcome}

/-- A move outside the loop and the calls around it. -/
theorem Move.tty (move : Move config terminate watched point outcome next)
    (relay : point.phase ≠ .relay) (restoring : point.phase ≠ .restoring) :
    TtyMove point outcome next := by
  have idle : point.handlesTty = false := by
    cases point <;> first | rfl | exact (relay rfl).elim | exact (restoring rfl).elim
  cases move with
  | within same inside neutral =>
      have alive : point.phase ≠ .over := fun ended => by rw [ended] at inside; cases inside
      exact .quiet ((Point.episode_of_phase same relay alive).trans
        (Point.episode_of_phase rfl relay alive).symm) idle
  | setupFailed setup neutral =>
      exact .leaves (Point.episode_of_phase setup nofun nofun) rfl idle
  | socketFailed starting neutral =>
      exact .leaves (Point.episode_of_phase starting nofun nofun) rfl idle
  | consoleFailed console neutral =>
      exact .leaves (Point.episode_of_phase console nofun nofun) rfl idle
  | full reached => exact .leaves rfl rfl idle
  | mountFailed => exact .leaves rfl rfl idle
  | forkFailed => exact .leaves rfl rfl idle
  | forked =>
      refine .quiet ?_ idle
      rw [Point.started]
      split <;> rfl
  | relayLeft leaves inside neutral => exact (relay inside).elim
  | relayEnded neutral => exact (restoring rfl).elim
  | waited => cases watched <;> exact .quiet rfl idle
  | waitCut => cases watched <;> exact .quiet rfl idle
  | rmUnforked site => exact .quiet site.episode_after idle
  | rmWaited site => exact .quiet site.episode_after idle
  | rmWaitCut site => exact .quiet site.episode_after idle
  | _ => exact .quiet rfl idle

theorem TtyMove.unchecked {target : Point} (went : outcome.unchecked target = some next)
    (move : TtyMove point outcome target) : TtyMove point outcome next := by
  rcases Outcome.unchecked_eq_some.mp went with ⟨_, rfl⟩
  exact move

/-- The control flow makes no other moves. -/
theorem Point.next_tty (went : point.next config terminate watched outcome = some next) :
    TtyMove point outcome next := by
  cases point with
  | askSize =>
      rcases Outcome.checked_eq_some.mp went with ⟨rfl, rfl⟩ | ⟨rfl, rfl⟩
      · exact .asks
      · exact .asksInVain
  | pushSize => exact .unchecked went .pushes
  | sigWinch => exact .unchecked went .arms
  | sigTerm => exact .unchecked went (.quiet rfl rfl)
  | sigHup => exact .unchecked went (.quiet rfl rfl)
  | rawMode => exact .unchecked went .raw
  | select =>
      have looping : next.episode = .looping := by
        cases outcome with
        | ready master stdin =>
            cases went
            cases master <;> cases stdin <;> rfl
        | intr =>
            cases went
            cases terminate <;> rfl
        | fail =>
            cases went
            rfl
        | _ => cases went
      exact .quiet looping rfl
  | readMaster stdin =>
      rcases Outcome.checked_eq_some.mp went with ⟨rfl, rfl⟩ | ⟨rfl, rfl⟩ <;>
        exact .quiet rfl rfl
  | writeStdout stdin =>
      cases stdin <;> exact .unchecked went (.quiet rfl rfl)
  | readStdin =>
      rcases Outcome.checked_eq_some.mp went with ⟨rfl, rfl⟩ | ⟨rfl, rfl⟩ <;>
        exact .quiet rfl rfl
  | writeMaster => exact .unchecked went (.quiet rfl rfl)
  | restoreMode => exact .unchecked went .restores
  | _ => exact (Point.next_move went).tty nofun nofun

/-! ## What can happen in one step -/

variable {raw : Mode → Mode} {first : Mode} {state after : Proc × Tty Mode Size} {act : TtyAct Size}

theorem terminalStep_cases (step : terminalStep config raw state act = some after) :
    (∃ outcome got point, act = .call outcome got ∧
      state.1.point.next config state.1.terminate (state.1.timer == .running) outcome = some point ∧
      state.2.call raw got state.1.point outcome = some after.2 ∧
      after.1 = (state.1.effect state.1.point outcome).arrive point) ∨
    (∃ signal told, act = .signal signal told ∧ ¬ state.1.Ended ∧
      after = (state.1.deliver signal, state.2.deliver state.1 told signal)) ∨
    (∃ event holds, act = .child event ∧ after = ({ state.1 with holds }, state.2)) ∨
    ∃ size, act = .resize size ∧ after = (state.1, state.2.resize size) := by
  cases act with
  | call outcome got =>
      rcases Option.bind_eq_some_iff.mp step with ⟨proc, called, rest⟩
      rcases Option.map_eq_some_iff.mp rest with ⟨tty, did, rfl⟩
      rcases Proc.call_eq_some.mp called with ⟨_, point, went, equal⟩
      exact .inl ⟨outcome, got, point, rfl, went, did, equal⟩
  | signal signal told =>
      rcases Option.map_eq_some_iff.mp step with ⟨proc, delivered, rfl⟩
      rcases Proc.step_cases delivered with
        ⟨_, other, _⟩ | ⟨_, same, alive, equal⟩ | ⟨_, _, other, _⟩
      · cases other
      · cases same
        exact .inr (.inl ⟨signal, told, rfl, alive, by rw [equal]⟩)
      · cases other
  | child event =>
      rcases Option.map_eq_some_iff.mp step with ⟨proc, progressed, rfl⟩
      rcases Option.map_eq_some_iff.mp progressed with ⟨holds, _, rfl⟩
      exact .inr (.inr (.inl ⟨event, holds, rfl, rfl⟩))
  | resize size =>
      cases step
      exact .inr (.inr (.inr ⟨size, rfl, rfl⟩))

theorem Tty.call_idle {tty : Tty Mode Size} {got : Bool} {called : Tty Mode Size}
    (idle : point.handlesTty = false) (did : tty.call raw got point outcome = some called) :
    called = tty := by
  cases point <;> first | (cases idle; done) | (cases did; rfl)

/-- A signal leaves the process where it is, or ends it if there is no handler. -/
theorem Proc.deliver_cases (proc : Proc) (signal : Signal) :
    (proc.deliver signal).point = proc.point ∨
      proc.handles signal = false ∧
        proc.deliver signal = { proc with point := .killed signal } := by
  rw [Proc.deliver]
  split
  · exact .inl (Proc.point_handler proc signal)
  · split
    · exact .inl rfl
    · exact .inr ⟨eq_false_of_ne_true ‹_›, rfl⟩

/-! ## The mode -/

/-- The mode that was read can be put back. -/
def RestoresMode (state : Proc × Tty Mode Size) : TtyAct Size → Prop
  | .call outcome _ => state.1.point = .restoreMode → outcome = .ok
  | _ => True

instance (state : Proc × Tty Mode Size) : (act : TtyAct Size) → Decidable (RestoresMode state act)
  | .call outcome _ => inferInstanceAs (Decidable (state.1.point = .restoreMode → outcome = .ok))
  | .signal _ _ => isTrue trivial
  | .child _ => isTrue trivial
  | .resize _ => isTrue trivial

/-- The terminal is in its first mode, or the first mode is known and will be put back unless a
signal has ended the process. -/
structure Restorable (first : Mode) (state : Proc × Tty Mode Size) : Prop where
  saved : ∀ mode, state.2.saved = some mode → mode = first
  mode : state.2.mode = first ∨ state.2.saved = some first ∧
    (state.1.point.episode = .looping ∨ state.1.point.episode = .killed)
  killed : ∀ signal, state.1.point = .killed signal → state.1.handles signal = false

theorem Restorable.mode_eq (restorable : Restorable first state)
    (elsewhere : state.1.point.episode ≠ .looping)
    (alive : state.1.point.episode ≠ .killed) : state.2.mode = first := by
  rcases restorable.mode with same | ⟨_, looping | killed⟩
  · exact same
  · exact (elsewhere looping).elim
  · exact (alive killed).elim

/-- A call keeps the first mode or the knowledge of it. -/
theorem Restorable.call (restorable : Restorable first state) {got : Bool} {tty : Tty Mode Size}
    (restores : state.1.point = .restoreMode → outcome = .ok)
    (move : TtyMove state.1.point outcome point)
    (did : state.2.call raw got state.1.point outcome = some tty) :
    (∀ mode, tty.saved = some mode → mode = first) ∧
      (tty.mode = first ∨ tty.saved = some first ∧
        (point.episode = .looping ∨ point.episode = .killed)) := by
  have same := restorable.mode_eq
  have saved := restorable.saved
  have mode := restorable.mode
  rcases state with ⟨proc, before⟩
  dsimp only at restores move did same saved mode
  generalize proc.point = here at restores move did same mode
  cases move with
  | quiet episode idle =>
      rw [Tty.call_idle idle did, episode]
      exact ⟨saved, mode⟩
  | leaves starts after idle =>
      rw [Tty.call_idle idle did]
      exact ⟨saved, .inl (same (by rw [starts]; nofun) (by rw [starts]; nofun))⟩
  | asks =>
      cases did
      exact ⟨saved, .inl (same nofun nofun)⟩
  | asksInVain =>
      cases did
      exact ⟨saved, .inl (same nofun nofun)⟩
  | pushes =>
      have unmoved := same nofun nofun
      cases outcome <;> cases did <;> exact ⟨saved, .inl unmoved⟩
  | arms =>
      cases did
      exact ⟨saved, .inl (same nofun nofun)⟩
  | raw =>
      have unmoved := same nofun nofun
      rw [Tty.call.eq_def] at did
      cases outcome with
      | ok =>
          cases got with
          | true =>
              cases did
              refine ⟨?_, .inr ⟨congrArg some unmoved, .inl rfl⟩⟩
              rintro mode ⟨⟩
              exact unmoved
          | false => cases did
      | _ =>
          cases did
          refine ⟨?_, .inl unmoved⟩
          intro mode read
          dsimp only at read
          split at read
          · cases read
            exact unmoved
          · cases read
  | restores =>
      cases restores rfl
      cases did
      refine ⟨saved, .inl ?_⟩
      dsimp only
      cases read : before.saved with
      | some mode => exact saved mode read
      | none =>
          rcases mode with unmoved | ⟨known, _⟩
          · exact unmoved
          · rw [read] at known
            cases known

theorem Move.alive (move : Move config terminate watched point outcome next) (signal : Signal) :
    next ≠ .killed signal := by
  rintro rfl
  generalize target : Point.killed signal = killed at move
  cases move with
  | within same inside neutral =>
      rw [← same, ← target] at inside
      cases inside
  | forked =>
      rw [Point.started] at target
      split at target <;> cases target
  | waited => cases watched <;> cases target
  | waitCut => cases watched <;> cases target
  | rmUnforked site => cases site <;> cases target
  | rmWaited site => cases site <;> cases target
  | rmWaitCut site => cases site <;> cases target
  | _ => cases target

theorem Restorable.step (restorable : Restorable first state) (restores : RestoresMode state act)
    (step : terminalStep config raw state act = some after) : Restorable first after := by
  rcases terminalStep_cases step with ⟨outcome, got, point, rfl, went, did, equal⟩ |
    ⟨signal, told, rfl, alive, rfl⟩ | ⟨event, holds, rfl, rfl⟩ | ⟨size, rfl, rfl⟩
  · have there : after.1.point = point := congrArg Proc.point equal
    rcases restorable.call restores (Point.next_tty went) did with ⟨saved, mode⟩
    exact
      { saved := saved
        mode := by
          rw [there]
          exact mode
        killed := by
          intro signal killed
          exact ((Point.next_move went).alive signal (there.symm.trans killed)).elim }
  · have mode : (state.2.deliver state.1 told signal).mode = state.2.mode ∧
        (state.2.deliver state.1 told signal).saved = state.2.saved := by
      rw [Tty.deliver]
      split
      · split
        · rw [Tty.winch]
          split <;> exact ⟨rfl, rfl⟩
        · exact ⟨rfl, rfl⟩
      · exact ⟨rfl, rfl⟩
    refine ⟨?_, ?_, ?_⟩
    · rw [mode.2]
      exact restorable.saved
    · rw [mode.1, mode.2]
      rcases state.1.deliver_cases signal with same | ⟨_, killed⟩
      · rw [same]
        exact restorable.mode
      · rw [killed]
        exact restorable.mode.imp_right fun known => ⟨known.1, .inr rfl⟩
    · intro sent ended
      rcases state.1.deliver_cases signal with same | ⟨unhandled, killed⟩
      · rw [same] at ended
        rw [Proc.Ended, ended] at alive
        exact (alive trivial).elim
      · rw [killed] at ended ⊢
        cases ended
        cases signal <;> exact unhandled
  · exact ⟨restorable.saved, restorable.mode, restorable.killed⟩
  · exact ⟨restorable.saved, restorable.mode, restorable.killed⟩

/-- Where the mode that was read can be put back, the terminal is in its first mode whenever the
loop is not running, when `caalsh` waits for the container and when it has returned. Only a signal
without a handler can leave it raw. -/
theorem mode_restored {state : Proc × Tty Mode Size}
    (reachable : ((terminal config raw first).restrict RestoresMode).Reachable state) :
    state.2.mode = first ∨ state.2.saved = some first ∧
      (state.1.point.episode = .looping ∨
        ∃ signal, state.1.point = .killed signal ∧ state.1.handles signal = false) := by
  have restorable : Restorable first state := by
    apply reachable.invariant
    · rintro ⟨proc, tty⟩ ⟨start, mode, saved⟩
      dsimp only at start mode saved
      constructor
      · intro other read
        rw [saved] at read
        cases read
      · exact .inl mode
      · intro signal killed
        rw [start, Proc.start] at killed
        dsimp only at killed
        split at killed <;> cases killed
    · rintro before act after restorable ⟨restores, step⟩
      exact restorable.step restores step
  rcases restorable.mode with same | ⟨known, looping | killed⟩
  · exact .inl same
  · exact .inr ⟨known, .inl looping⟩
  · right
    refine ⟨known, .inr ?_⟩
    cases point : state.1.point with
    | killed signal => exact ⟨signal, rfl, restorable.killed signal point⟩
    | _ =>
        rw [point] at killed
        cases killed

/-! ## The window size -/

/-- The size has been read, and the handler for its changes is not there. -/
def Point.deafToSize : Point → Bool
  | .pushSize => true
  | .sigWinch => true
  | _ => false

/-- The calls that hand the size on succeed, and no change of the window is reported between the
moment at which the size is read and the handler. -/
def TellsSize (state : Proc × Tty Mode Size) : TtyAct Size → Prop
  | .call outcome _ =>
      state.1.point = .askSize ∨ state.1.point.deafToSize = true → outcome = .ok
  | .signal signal told => signal = .winch → state.1.point.deafToSize = false ∧ told = true
  | _ => True

instance (state : Proc × Tty Mode Size) : (act : TtyAct Size) → Decidable (TellsSize state act)
  | .call outcome _ => inferInstanceAs
      (Decidable (state.1.point = .askSize ∨ state.1.point.deafToSize = true → outcome = .ok))
  | .signal signal told => inferInstanceAs
      (Decidable (signal = .winch → state.1.point.deafToSize = false ∧ told = true))
  | .child _ => isTrue trivial
  | .resize _ => isTrue trivial

/-- The size that was handed on is that of the window, or the connection is lost, or a change is
still to be reported. -/
def Tty.Told (tty : Tty Mode Size) (masterOpen : Bool) (handed : Size) : Prop :=
  tty.owed = true ∨ masterOpen = false ∨ handed = tty.size

/-- What holds once the size has been read. -/
structure Sized (state : Proc × Tty Mode Size) : Prop where
  asked : state.1.point.episode = .asked → state.2.Told state.1.masterOpen state.2.asked
  pushed : state.1.point.episode = .pushed → state.2.Told state.1.masterOpen state.2.inner
  armed : state.1.point.episode = .armed ∨ state.1.point.episode = .looping →
    state.1.onWinch = true ∧ state.2.Told state.1.masterOpen state.2.inner

/-- The calls from the first push to the end of the loop keep the master. -/
theorem Proc.effect_masterOpen {proc : Proc}
    (inside : point.episode = .asked ∨ point.episode = .pushed ∨
      point.episode = .armed ∨ point.episode = .looping) :
    (proc.effect point outcome).masterOpen = proc.masterOpen := by
  cases point <;>
    first
    | (rcases inside with h | h | h | h <;> cases h; done)
    | (cases outcome <;> rfl)

/-- Those behind `sigaction` keep the handler. -/
theorem Proc.effect_onWinch {proc : Proc}
    (inside : point.episode = .armed ∨ point.episode = .looping) :
    (proc.effect point outcome).onWinch = proc.onWinch := by
  cases point <;>
    first
    | (rcases inside with h | h <;> cases h; done)
    | (cases outcome <;> rfl)

/-- Behind the loop nothing is said of the size. -/
theorem Sized.of_episode (out : state.1.point.episode = .after ∨ state.1.point.episode = .killed ∨
    state.1.point.episode = .before) : Sized state := by
  constructor
  · intro asked
    rw [asked] at out
    rcases out with out | out | out <;> cases out
  · intro pushed
    rw [pushed] at out
    rcases out with out | out | out <;> cases out
  · rintro (armed | armed) <;> rw [armed] at out <;> rcases out with out | out | out <;> cases out

theorem Sized.call (sized : Sized state) {got : Bool} {tty : Tty Mode Size}
    (tells : state.1.point = .askSize ∨ state.1.point.deafToSize = true → outcome = .ok)
    (move : TtyMove state.1.point outcome point)
    (did : state.2.call raw got state.1.point outcome = some tty) :
    Sized ((state.1.effect state.1.point outcome).arrive point, tty) := by
  rcases state with ⟨proc, before⟩
  have asked := sized.asked
  have pushed := sized.pushed
  have armed := sized.armed
  dsimp only at tells move did asked pushed armed ⊢
  generalize proc.point = here at tells move did asked pushed armed ⊢
  cases move with
  | quiet episode idle =>
      rw [Tty.call_idle idle did]
      constructor
      · intro behind
        have there := episode.symm.trans behind
        have told := asked there
        rwa [← @Proc.effect_masterOpen here outcome proc (.inl there)] at told
      · intro behind
        have there := episode.symm.trans behind
        have told := pushed there
        rwa [← @Proc.effect_masterOpen here outcome proc (.inr (.inl there))] at told
      · intro behind
        have there : here.episode = .armed ∨ here.episode = .looping := by
          rw [← episode]
          exact behind
        rcases armed there with ⟨handled, told⟩
        rw [← @Proc.effect_masterOpen here outcome proc (.inr (.inr there))] at told
        exact ⟨(Proc.effect_onWinch there).trans handled, told⟩
  | leaves starts after idle => exact .of_episode (.inl after)
  | asks =>
      cases did
      constructor
      · exact fun _ => .inr (.inr rfl)
      · intro behind
        cases behind
      · rintro (behind | behind) <;> cases behind
  | asksInVain => cases tells (.inl rfl)
  | pushes =>
      cases tells (.inr rfl)
      cases did
      constructor
      · intro behind
        cases behind
      · exact fun _ => asked rfl
      · rintro (behind | behind) <;> cases behind
  | arms =>
      cases tells (.inr rfl)
      cases did
      constructor
      · intro behind
        cases behind
      · intro behind
        cases behind
      · exact fun _ => ⟨rfl, pushed rfl⟩
  | raw =>
      rcases armed (.inl rfl) with ⟨handled, told⟩
      have sizes : tty.size = before.size ∧ tty.inner = before.inner ∧ tty.owed = before.owed := by
        rw [Tty.call.eq_def] at did
        cases outcome with
        | ok =>
            cases got with
            | true =>
                cases did
                exact ⟨rfl, rfl, rfl⟩
            | false => cases did
        | _ =>
            cases did
            exact ⟨rfl, rfl, rfl⟩
      constructor
      · intro behind
        cases behind
      · intro behind
        cases behind
      · intro _
        refine ⟨(@Proc.effect_onWinch .rawMode outcome proc (.inl rfl)).trans handled, ?_⟩
        change tty.Told (proc.effect .rawMode outcome).masterOpen tty.inner
        rw [Proc.effect_masterOpen (.inr (.inr (.inl rfl))),
          Tty.Told, sizes.1, sizes.2.1, sizes.2.2]
        exact told
  | restores => exact .of_episode (.inl rfl)

/-- The size is neither read nor pushed where its changes are heard. -/
theorem Point.episode_of_hears (hears : point.deafToSize = false) :
    point.episode ≠ .asked ∧ point.episode ≠ .pushed := by
  cases point <;> first | (cases hears; done) | exact ⟨nofun, nofun⟩

theorem Sized.deliver (sized : Sized state) {signal : Signal} {told : Bool}
    (tells : signal = .winch → state.1.point.deafToSize = false ∧ told = true) :
    Sized (state.1.deliver signal, state.2.deliver state.1 told signal) := by
  by_cases winch : signal = .winch
  · subst winch
    rcases tells rfl with ⟨hears, rfl⟩
    rcases Point.episode_of_hears hears with ⟨unasked, unpushed⟩
    rw [Proc.deliver, Tty.deliver, if_pos rfl]
    cases handled : state.1.handles .winch with
    | false =>
        constructor
        · exact fun asked => (unasked asked).elim
        · exact fun pushed => (unpushed pushed).elim
        · intro armed
          cases handled.symm.trans (sized.armed armed).1
    | true =>
        constructor
        · exact fun asked => (unasked asked).elim
        · exact fun pushed => (unpushed pushed).elim
        · intro _
          refine ⟨handled, ?_⟩
          cases opened : state.1.masterOpen with
          | false => exact .inr (.inl opened)
          | true =>
              have copied : state.2.winch true true = { state.2 with inner := state.2.size } := rfl
              rw [if_pos rfl, copied]
              exact .inr (.inr rfl)
  · have same : state.2.deliver state.1 told signal = state.2 := if_neg winch
    rw [same, Proc.deliver]
    cases handled : state.1.handles signal with
    | false =>
        rw [if_neg Bool.false_ne_true, if_neg winch]
        exact .of_episode (.inr (.inl rfl))
    | true =>
        rw [if_pos rfl]
        have closed : (state.1.handler signal).masterOpen = false := by
          cases signal with
          | winch => exact (winch rfl).elim
          | _ => rfl
        constructor
        · exact fun _ => .inr (.inl closed)
        · exact fun _ => .inr (.inl closed)
        · intro armed
          rw [Proc.point_handler] at armed
          refine ⟨?_, .inr (.inl closed)⟩
          have kept := (sized.armed armed).1
          cases signal <;> exact kept

end Terminal

/-! ## A login at a terminal -/

/-- The calls of a stretch, where `tcgetattr` succeeds. -/
def atTerminal : Act → TtyAct Nat
  | .call outcome => .call outcome true
  | .signal signal => .signal signal true
  | .child event => .child event

def cooked : Proc × Tty Bool Nat :=
  (Proc.start plainConfig, ⟨false, none, 80, 0, 0, false⟩)

/-- A login from its start to its end. -/
theorem mode_restored_login : ∃ state : Proc × Tty Bool Nat, state.1.point = .exited 0 ∧
    (state.2.mode = false ∨ state.2.saved = some false ∧
      (state.1.point.episode = .looping ∨
        ∃ signal, state.1.point = .killed signal ∧ state.1.handles signal = false)) := by
  have finished : ((LTS.execute
      (guarded RestoresMode (terminalStep plainConfig fun _ => true)) cooked
      ((startUp ++ enterRelay [] ++ endRelay ++ leave).map atTerminal)).map fun state =>
        state.1.point) = some (.exited 0) := by decide +kernel
  rcases Option.map_eq_some_iff.mp finished with ⟨state, ran, there⟩
  have reachable : ((terminal plainConfig (fun _ => true) false).restrict RestoresMode).Reachable
      state :=
    ⟨cooked, _, ⟨rfl, rfl, rfl⟩, @Run.of_execute_guarded _ _
      (terminal plainConfig (fun _ => true) false) (terminalStep plainConfig fun _ => true)
      RestoresMode _ id _ _ _ ran⟩
  exact ⟨state, there, mode_restored reachable⟩

/-- `SIGPIPE` at a write to stdout leaves the terminal raw. -/
def pipeBroken : List Act :=
  startUp ++ enterRelay [] ++ [.call (.ready true false), .call .ok, .signal .pipe]

example : (LTS.execute (terminalStep plainConfig fun _ => true) cooked
    (pipeBroken.map atTerminal)).map (fun state => (state.1.point, state.2.mode)) =
      some (.killed .pipe, true) := by decide +kernel

/-- A change that is reported between the reading of the size and the handler is lost. -/
def resizedEarly : List (TtyAct Nat) :=
  (startUp ++ (enterRelay []).take 6).map atTerminal ++ [.resize 100, .signal .winch true] ++
    ((enterRelay []).drop 6).map atTerminal

example : (LTS.execute (terminalStep plainConfig fun _ => true) cooked resizedEarly).map
    (fun state => (state.1.point, state.1.masterOpen, state.2)) =
      some (.select, true, ⟨true, some false, 100, 80, 80, false⟩) := by decide +kernel

end Caal

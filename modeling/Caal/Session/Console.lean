import Caal.Session.Waiting

/-!
# Waiting for the console

The login shell together with what its crun child does at the console socket: it connects,
and sends the PTY master. `accept` returns a connection once there is one, and `recvmsg` the
master once it has been sent; nothing tells the shell that crun has exited.
-/

namespace Caal

open LTS

/-! ## crun at the console socket -/

/-- What crun has done at the console socket. -/
inductive Console where
  | unconnected
  | connected
  | sent
  deriving DecidableEq

/-- The child process is there. -/
def Child.Alive : Child → Prop
  | .forked => True
  | .running _ => True
  | .ended => True
  | .absent => False
  | .exited => False

instance : (child : Child) → Decidable child.Alive
  | .forked => isTrue trivial
  | .running _ => isTrue trivial
  | .ended => isTrue trivial
  | .absent => isFalse id
  | .exited => isFalse id

/-- A step of the login shell or of its children, or of crun at the socket. -/
inductive ConsoleAct where
  | shell (act : Act)
  | connect
  | send
  deriving DecidableEq

/-- `accept` returns a connection once there is one, and `recvmsg` the master once it has
been sent. -/
def Console.Answers (console : Console) : Point → Act → Prop
  | .acceptConsole, .call .ok => console ≠ .unconnected
  | .recvConsole, .call .ok => console = .sent
  | _, _ => True

instance (console : Console) (point : Point) (act : Act) :
    Decidable (console.Answers point act) := by
  unfold Console.Answers
  split <;> infer_instance

def consoleStep (config : Config) (state : Proc × Console) :
    ConsoleAct → Option (Proc × Console)
  | .shell act =>
      if state.2.Answers state.1.point act then
        (state.1.step config act).map fun next => (next, state.2)
      else none
  | .connect =>
      if state.1.holds.child.Alive ∧ state.2 = .unconnected then some (state.1, .connected)
      else none
  | .send =>
      if state.1.holds.child.Alive ∧ state.2 = .connected then some (state.1, .sent)
      else none

/-- Either the shell or one of its children takes a step, or crun is there and does what
comes next at the socket. -/
theorem consoleStep_cases {config : Config} {state next : Proc × Console} {act : ConsoleAct}
    (step : consoleStep config state act = some next) :
    (∃ shell, act = .shell shell ∧ state.2.Answers state.1.point shell ∧
      state.1.step config shell = some next.1 ∧ next.2 = state.2) ∨
    state.1.holds.child.Alive ∧ next.1 = state.1 ∧
      (act = .connect ∧ next.2 = .connected ∨ act = .send ∧ next.2 = .sent) := by
  cases act with
  | shell act =>
      rw [consoleStep] at step
      split at step
      case isTrue answers =>
        rcases Option.map_eq_some_iff.mp step with ⟨proc, moved, rfl⟩
        exact .inl ⟨act, rfl, answers, moved, rfl⟩
      case isFalse => cases step
  | connect =>
      rw [consoleStep] at step
      split at step
      case isTrue both =>
        cases step
        exact .inr ⟨both.1, rfl, .inl ⟨rfl, rfl⟩⟩
      case isFalse => cases step
  | send =>
      rw [consoleStep] at step
      split at step
      case isTrue both =>
        cases step
        exact .inr ⟨both.1, rfl, .inr ⟨rfl, rfl⟩⟩
      case isFalse => cases step

/-- One login shell with its crun child at the console socket. -/
def consoleSession (config : Config) : LTS (Proc × Console) ConsoleAct where
  init state := state = (Proc.start config, .unconnected)
  step state act next := consoleStep config state act = some next

/-- What crun does at the socket does not show in the session. -/
def ConsoleAct.shown : ConsoleAct → Option Act
  | .shell act => some act
  | .connect => none
  | .send => none

theorem consoleSession_run {config : Config} {start finish : Proc × Console}
    {acts : List ConsoleAct} (run : (consoleSession config).Run start acts finish) :
    (session config).Run start.1 (acts.filterMap ConsoleAct.shown) finish.1 := by
  apply run.project
  intro state act next step
  rcases consoleStep_cases step with ⟨shell, rfl, _, moved, _⟩ |
    ⟨_, same, ⟨rfl, _⟩ | ⟨rfl, _⟩⟩
  · exact .single moved
  · rw [same]
    exact .nil _
  · rw [same]
    exact .nil _

theorem consoleSession_reachable {config : Config} {state : Proc × Console}
    (reachable : (consoleSession config).Reachable state) : (session config).Reachable state.1 := by
  rcases reachable with ⟨start, acts, rfl, run⟩
  exact ⟨_, _, rfl, consoleSession_run run⟩

/-! ## Between the fork and the console -/

/-- crun has been forked, and its console is still to come. -/
def Phase.awaitsConsole : Phase → Bool
  | .registering => true
  | .console => true
  | _ => false

/-- Control comes between the fork and the console by the fork. -/
theorem Move.awaitsConsole {config : Config} {terminate watched : Bool} {point next : Point}
    {outcome : Outcome} (move : Move config terminate watched point outcome next)
    (awaits : next.phase.awaitsConsole = true) :
    point = .forkCrun ∧ outcome = .ok ∨
      point.phase.awaitsConsole = true ∧
        ∀ proc : Proc, (proc.effect point outcome).holds.child = proc.holds.child := by
  cases move with
  | within same inside neutral =>
      rw [same] at awaits
      exact .inr ⟨awaits, neutral.child⟩
  | forked => exact .inl ⟨rfl, rfl⟩
  | timerForked => exact .inr ⟨rfl, fun proc => by cases outcome <;> rfl⟩
  | connectFailed => exact .inr ⟨rfl, fun _ => rfl⟩
  | registerAnswered ok => exact .inr ⟨rfl, fun _ => rfl⟩
  | registerLost ok => exact .inr ⟨rfl, fun _ => rfl⟩
  | registerFailed => exact .inr ⟨rfl, fun _ => rfl⟩
  | waited => cases watched <;> cases awaits
  | waitCut => cases watched <;> cases awaits
  | rmUnforked site => cases site <;> cases awaits
  | rmWaited site => cases site <;> cases awaits
  | rmWaitCut site => cases site <;> cases awaits
  | _ => cases awaits

/-- While its console is still to come, crun is there or has connected. -/
def ConsoleComes (state : Proc × Console) : Prop :=
  state.1.point.phase.awaitsConsole = true →
    state.1.holds.child.Alive ∨ state.2 ≠ .unconnected

/-- crun does not exit without having connected while its console is still to come. -/
def ConnectsFirst (state : Proc × Console) : ConsoleAct → Prop
  | .shell (.child .crunExited) =>
      state.1.point.phase.awaitsConsole = true → state.2 ≠ .unconnected
  | _ => True

instance (state : Proc × Console) : (act : ConsoleAct) → Decidable (ConnectsFirst state act)
  | .shell (.child .crunExited) => inferInstanceAs (Decidable
      (state.1.point.phase.awaitsConsole = true → state.2 ≠ .unconnected))
  | .shell (.child (.crunStarted _)) => isTrue trivial
  | .shell (.child .containerExited) => isTrue trivial
  | .shell (.child .rmDone) => isTrue trivial
  | .shell (.child .deleteDone) => isTrue trivial
  | .shell (.call _) => isTrue trivial
  | .shell (.signal _) => isTrue trivial
  | .connect => isTrue trivial
  | .send => isTrue trivial

/-- What a child does, other than crun exiting, leaves crun there. -/
theorem Holdings.alive_of_progress {holds after : Holdings} {event : ChildEvent}
    (alive : holds.child.Alive) (stays : event ≠ .crunExited)
    (progressed : holds.progress event = some after) : after.child.Alive := by
  rcases child_of_progress progressed with same | ⟨_, _, _, runs⟩ | ⟨_, _, ends⟩ | ⟨exits, _⟩
  · rw [same]
    exact alive
  · rw [runs]
    trivial
  · rw [ends]
    trivial
  · exact (stays exits).elim

theorem ConsoleComes.step {config : Config} {state next : Proc × Console} {act : ConsoleAct}
    (comes : ConsoleComes state) (connects : ConnectsFirst state act)
    (step : consoleStep config state act = some next) :
    ConsoleComes next := by
  intro awaits
  rcases consoleStep_cases step with ⟨shell, rfl, _, moved, console⟩ | ⟨_, _, crun⟩
  · rw [console]
    rcases Proc.step_cases moved with ⟨outcome, rfl, called⟩ | ⟨signal, _, _, after⟩ |
      ⟨event, holds, rfl, progressed, after⟩
    · rcases Proc.call_move called with ⟨point, move, _, after⟩
      rw [after] at awaits ⊢
      rcases move.awaitsConsole awaits with ⟨forks, rfl⟩ | ⟨before, child⟩
      · left
        rw [forks]
        trivial
      · rw [Proc.arrive, child]
        exact comes before
    · rw [after] at awaits ⊢
      exact @Proc.kept_of_deliver state.1 signal Phase.awaitsConsole
        (·.child.Alive ∨ state.2 ≠ .unconnected) rfl comes awaits
    · rw [after] at awaits ⊢
      by_cases exits : event = .crunExited
      · subst exits
        exact .inr (connects awaits)
      · rcases comes awaits with alive | connected
        · exact .inl (Holdings.alive_of_progress alive exits progressed)
        · exact .inr connected
  · right
    intro unconnected
    rcases crun with ⟨_, connected⟩ | ⟨_, sent⟩
    · cases connected.symm.trans unconnected
    · cases sent.symm.trans unconnected

/-- If crun does not exit unconnected while its console is still to come, the login shell
never waits for a console that cannot come. -/
theorem console_comes {config : Config} {state : Proc × Console}
    (reachable : ((consoleSession config).restrict ConnectsFirst).Reachable state)
    (waiting : state.1.point = .acceptConsole ∨ state.1.point = .recvConsole) :
    state.1.holds.child.Alive ∨ state.2 ≠ .unconnected := by
  have comes : ConsoleComes state := by
    apply reachable.invariant
    · rintro start rfl awaits
      rw [Proc.start] at awaits
      split at awaits
      · cases awaits
      · cases awaits
    · intro state act next comes step
      exact comes.step step.1 step.2
  apply comes
  rcases waiting with accept | receive
  · rw [accept]
    rfl
  · rw [receive]
    rfl

/-- A login shell that waits for the console of crun. -/
def acceptingProc (child : Child) : Proc :=
  { Proc.start plainConfig with
    point := .acceptConsole
    accepted := true
    holds := ⟨child, .held, .held, .held, .held, .held, .absent, .absent⟩ }

theorem console_comes_connected :
    ((consoleSession plainConfig).restrict ConnectsFirst).Reachable
        (acceptingProc .exited, .connected) ∧
      ((acceptingProc .exited).holds.child.Alive ∨ Console.connected ≠ .unconnected) := by
  have reachable : ((consoleSession plainConfig).restrict ConnectsFirst).Reachable
      (acceptingProc .exited, .connected) :=
    ⟨_, _, rfl, @Run.of_execute_guarded _ _ (consoleSession plainConfig)
      (consoleStep plainConfig) ConnectsFirst _ id (Proc.start plainConfig, .unconnected)
      (acceptingProc .exited, .connected)
      (startUp.map .shell ++
        [.shell (.call .ok), .connect, .shell (.child .crunExited),
          .shell (.call (.answered true))]) (by decide)⟩
  exact ⟨reachable, console_comes reachable (.inl rfl)⟩

/-- crun exits before it connects: its bundle is invalid, or it cannot be executed. -/
theorem console_waits_on_exited :
    ¬ ∀ (config : Config) (state : Proc × Console), (consoleSession config).Reachable state →
      (state.1.point = .acceptConsole ∨ state.1.point = .recvConsole) →
      state.1.holds.child.Alive ∨ state.2 ≠ .unconnected := by
  intro always
  have reachable : (consoleSession plainConfig).Reachable
      (acceptingProc .exited, .unconnected) :=
    ⟨_, _, rfl, @Run.of_execute _ _ (consoleSession plainConfig)
      (consoleStep plainConfig) id (Proc.start plainConfig, .unconnected)
      (acceptingProc .exited, .unconnected)
      (startUp.map .shell ++
        [.shell (.child .crunExited), .shell (.call .ok),
          .shell (.call (.answered true))]) (by decide)⟩
  rcases always plainConfig _ reachable (.inl rfl) with alive | connected
  · exact alive
  · exact connected rfl

/-! ## A console that does not come -/

/-- crun has exited, and has not connected. -/
structure Unconnectable (state : Proc × Console) : Prop where
  exited : state.1.holds.child = .exited
  unconnected : state.2 = .unconnected

theorem Unconnectable.not_comes {state : Proc × Console} (dead : Unconnectable state) :
    ¬ (state.1.holds.child.Alive ∨ state.2 ≠ .unconnected) := by
  rw [dead.exited, dead.unconnected]
  rintro (alive | connected)
  · exact alive
  · exact connected rfl

/-- A call of the shell that does not need crun leaves it as it was. -/
theorem Unconnectable.call {config : Config} {state : Proc × Console} {outcome : Outcome}
    {proc : Proc} (dead : Unconnectable state)
    (answers : state.2.Answers state.1.point (.call outcome))
    (called : state.1.call config outcome = some proc)
    (kept : proc.holds.child = state.1.holds.child) :
    (consoleSession config).Run state [.shell (.call outcome)] (proc, state.2) ∧
      Unconnectable (proc, state.2) := by
  refine ⟨.single ?_, kept.trans dead.exited, dead.unconnected⟩
  change consoleStep config state (.shell (.call outcome)) = _
  rw [consoleStep, if_pos answers]
  change (state.1.call config outcome).map _ = _
  rw [called]
  rfl

/-- Once crun has exited unconnected, the shell can come to wait for its console. -/
theorem Unconnectable.waits {config : Config} {state : Proc × Console}
    (dead : Unconnectable state) (awaits : state.1.point.phase.awaitsConsole = true) :
    ∃ acts after, (consoleSession config).Run state acts after ∧ Unconnectable after ∧
      (after.1.point = .acceptConsole ∨ after.1.point = .recvConsole) := by
  have connecting : ∀ state : Proc × Console, Unconnectable state →
      state.1.point = .connectRegister →
      ∃ acts after, (consoleSession config).Run state acts after ∧ Unconnectable after ∧
        (after.1.point = .acceptConsole ∨ after.1.point = .recvConsole) := by
    rintro ⟨proc, console⟩ dead point
    have called : proc.call config .fail = some (proc.arrive .acceptConsole) := by
      rw [Proc.call_eq_some, point]
      exact ⟨trivial, .acceptConsole, rfl, rfl⟩
    rcases dead.call (by rw [point]; trivial) called rfl with ⟨run, after⟩
    exact ⟨_, _, run, after, .inl rfl⟩
  rcases state with ⟨proc, console⟩
  cases point : proc.point with
  | forkTimer =>
      have called : proc.call config .fail = some (proc.arrive .connectRegister) := by
        rw [Proc.call_eq_some, point]
        exact ⟨trivial, .connectRegister, rfl, rfl⟩
      rcases dead.call (by rw [point]; trivial) called rfl with ⟨first, after⟩
      rcases connecting _ after rfl with ⟨acts, last, run, waits⟩
      exact ⟨_, _, first.append run, waits⟩
  | connectRegister => exact connecting _ dead point
  | register =>
      have called : proc.call config .fail = some (proc.arrive .acceptConsole) := by
        rw [Proc.call_eq_some, point]
        exact ⟨trivial, .acceptConsole, rfl, rfl⟩
      rcases dead.call (by rw [point]; trivial) called rfl with ⟨run, after⟩
      exact ⟨_, _, run, after, .inl rfl⟩
  | acceptConsole => exact ⟨[], _, .nil _, dead, .inl point⟩
  | recvConsole => exact ⟨[], _, .nil _, dead, .inr point⟩
  | _ =>
      rw [point] at awaits
      cases awaits

theorem Holdings.exited_of_crunExited {holds after : Holdings}
    (progressed : holds.progress .crunExited = some after) : after.child = .exited := by
  cases childStep_of_progress progressed with
  | exited past => rfl

/-- A crun that exits early can leave the shell waiting for a console that cannot come. -/
theorem waits_of_not_connectsFirst {config : Config} {state next : Proc × Console}
    {act : ConsoleAct} (step : consoleStep config state act = some next)
    (early : ¬ ConnectsFirst state act) :
    ∃ acts after, (consoleSession config).Run next acts after ∧
      (after.1.point = .acceptConsole ∨ after.1.point = .recvConsole) ∧
      ¬ (after.1.holds.child.Alive ∨ after.2 ≠ .unconnected) := by
  have exits : act = .shell (.child .crunExited) := by
    unfold ConnectsFirst at early
    split at early
    · rfl
    · exact (early trivial).elim
  subst exits
  rw [ConnectsFirst, Classical.not_imp, not_not] at early
  rcases consoleStep_cases step with ⟨shell, same, _, moved, console⟩ | ⟨_, _, crun⟩
  · cases same
    rcases Option.map_eq_some_iff.mp moved with ⟨holds, progressed, after⟩
    have dead : Unconnectable next := by
      constructor
      · rw [← after]
        exact Holdings.exited_of_crunExited progressed
      · rw [console]
        exact early.2
    have awaits : next.1.point.phase.awaitsConsole = true := by
      rw [← after]
      exact early.1
    rcases dead.waits awaits with ⟨acts, last, run, still, waiting⟩
    exact ⟨acts, last, run, waiting, still.not_comes⟩
  · rcases crun with ⟨crun, _⟩ | ⟨crun, _⟩ <;> cases crun

/-- Nothing but a signal or an error of `accept` ends the wait for a console that cannot
come. -/
theorem Unconnectable.waits_on {config : Config} {state after : Proc × Console}
    {acts : List ConsoleAct} (dead : Unconnectable state) (waits : state.1.point = .acceptConsole)
    (run : (consoleSession config).Run state acts after)
    (unsignalled : ∀ signal, .shell (.signal signal) ∉ acts)
    (unfailed : .shell (.call .fail) ∉ acts) :
    Unconnectable after ∧ after.1.point = .acceptConsole := by
  have kept := @Run.preserves _ _ _
    (fun state => Unconnectable state ∧ state.1.point = .acceptConsole) _ _ _ run ⟨dead, waits⟩
  apply kept
  rintro state act next ⟨dead, waits⟩ member step
  rcases consoleStep_cases step with ⟨shell, rfl, answers, moved, console⟩ | ⟨alive, _⟩
  · rcases Proc.step_cases moved with ⟨outcome, rfl, called⟩ | ⟨signal, rfl, _⟩ |
      ⟨event, holds, _, progressed, after⟩
    · rcases Proc.call_eq_some.mp called with ⟨_, point, next, _⟩
      rw [waits] at next answers
      rcases Outcome.checked_eq_some.mp next with ⟨rfl, _⟩ | ⟨rfl, _⟩
      · exact (answers dead.unconnected).elim
      · exact (unfailed member).elim
    · exact (unsignalled signal member).elim
    · have exited : next.1.holds.child = .exited := by
        rw [after]
        exact Holdings.exited_of_progress progressed dead.exited
      refine ⟨⟨exited, console.trans dead.unconnected⟩, ?_⟩
      rw [after]
      exact waits
  · rw [dead.exited] at alive
    exact alive.elim

end Caal

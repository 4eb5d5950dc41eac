import Caal.Lib.Pipe
import Caal.Session.Signals

/-!
# The PTY bridge

`pty_bridge_run` with the bytes it relays. Its control flow is that of the session; the
relay adds the two streams, the buffer that they share, and how many bytes each call moves.
The user, the container and window-resize signals come in at any moment.
-/

namespace Caal

open CMemory LTS

/-! ## The relay -/

/-- What `pty_bridge_run` relays: `input` from stdin to the container, `output` from the
container to stdout. -/
structure Relay where
  input : Pipe UInt8
  output : Pipe UInt8
  /-- What the last `read` put into `buf`. -/
  buf : Bytes
  /-- The container has closed its terminal. -/
  closed : Bool
  deriving DecidableEq

namespace Relay

def readMaster (relay : Relay) (moved : Nat) : Relay :=
  { relay with output := relay.output.take moved, buf := relay.output.waiting.take moved }

def readStdin (relay : Relay) (moved : Nat) : Relay :=
  { relay with input := relay.input.take moved, buf := relay.input.waiting.take moved }

/-- What a `write` of the buffer moves. -/
def moves (relay : Relay) (moved : Nat) : Outcome → Bytes
  | .ok => relay.buf.take moved
  | _ => []

def writeStdout (relay : Relay) (outcome : Outcome) (moved : Nat) : Relay :=
  { relay with output := relay.output.pass (relay.moves moved outcome) }

def writeMaster (relay : Relay) (outcome : Outcome) (moved : Nat) : Relay :=
  { relay with input := relay.input.pass (relay.moves moved outcome) }

/-- What a call does to the relay when it returns. `moved` is what a `read` or a `write`
returns; a `read` that returns nothing or an error has failed. -/
def call (relay : Relay) (moved : Nat) : Point → Outcome → Option Relay
  | .readMaster _, .ok =>
      if 0 < moved ∧ moved ≤ 4096 ∧ moved ≤ relay.output.waiting.length then
        some (relay.readMaster moved)
      else none
  | .writeStdout _, outcome =>
      if moved ≤ relay.buf.length then some (relay.writeStdout outcome moved) else none
  | .readStdin, .ok =>
      if 0 < moved ∧ moved ≤ 4096 ∧ moved ≤ relay.input.waiting.length then
        some (relay.readStdin moved)
      else none
  | .writeMaster, outcome =>
      if moved ≤ relay.buf.length then some (relay.writeMaster outcome moved) else none
  | _, _ => some relay

end Relay

/-- A step of the login shell or of its children, a signal to it, or the user or the
container at their ends of the relay. -/
inductive BridgeAct where
  | call (outcome : Outcome) (moved : Nat)
  | signal (signal : Signal)
  | child (event : ChildEvent)
  | types (byte : UInt8)
  | prints (byte : UInt8)
  | closes
  deriving DecidableEq

/-- In `pty_bridge_run`. -/
def Phase.bridging : Phase → Bool
  | .relay => true
  | .restoring => true
  | .waiting => true
  | _ => false

/-- The steps of one call of `pty_bridge_run` to which neither `SIGTERM` nor `SIGHUP` is
delivered. -/
def bridgeStep (config : Config) (state : Proc × Relay) : BridgeAct → Option (Proc × Relay)
  | .call outcome moved =>
      if state.1.point.phase.bridging then
        (state.1.call config outcome).bind fun proc =>
          (state.2.call moved state.1.point outcome).map fun relay => (proc, relay)
      else none
  | .signal signal =>
      if signal = .term ∨ signal = .hup then none
      else (state.1.step config (.signal signal)).map fun proc => (proc, state.2)
  | .child event => (state.1.step config (.child event)).map fun proc => (proc, state.2)
  | .types byte => some (state.1, { state.2 with input := state.2.input.put byte })
  | .prints byte =>
      if state.2.closed then none
      else some (state.1, { state.2 with output := state.2.output.put byte })
  | .closes => some (state.1, { state.2 with closed := true })

/-- `main` calls `pty_bridge_run`: crun has been forked, and nothing has been relayed. -/
structure Entered (state : Proc × Relay) : Prop where
  point : state.1.point = .askSize
  forked : state.1.holds.child ≠ .absent
  input : state.2.input.taken = [] ∧ state.2.input.passed = []
  output : state.2.output.taken = [] ∧ state.2.output.passed = []

/-- One call of `pty_bridge_run`. -/
def bridge (config : Config) : LTS (Proc × Relay) BridgeAct where
  init := Entered
  step state act next := bridgeStep config state act = some next

/-- `main` calls `pty_bridge_run` with crun forked. -/
theorem Entered.of_session {config : Config} {proc : Proc} {input output : Bytes} {buf : Bytes}
    {closed : Bool} (reachable : (session config).Reachable proc)
    (point : proc.point = .askSize) :
    Entered (proc, ⟨⟨input, [], []⟩, ⟨output, [], []⟩, buf, closed⟩) := by
  have built : proc.Built := by
    apply reachable.invariant
    · intro start initial
      cases initial
      exact .start config
    · intro state act next built step
      exact built.step step
  have started := built.setUp
  rw [point] at started
  exact ⟨point, started, ⟨rfl, rfl⟩, ⟨rfl, rfl⟩⟩

/-- The streams do not show in the session. -/
def BridgeAct.shown : BridgeAct → Option Act
  | .call outcome _ => some (.call outcome)
  | .signal sent => some (.signal sent)
  | .child event => some (.child event)
  | _ => none

/-- The bridge is a faithful byte channel. -/
structure Faithful (state : Proc × Relay) : Prop where
  /-- What the container got is the front of what was read from the user. -/
  input : state.2.input.passed <+: state.2.input.taken
  /-- What came out on stdout is the front of what the container wrote. -/
  output : state.2.output.passed <+: state.2.output.written
  /-- When `pty_bridge_run` has returned, a container that is done has been heard out. -/
  drained : state.1.point.phase = .closing → state.2.closed = true →
    state.2.output.passed = state.2.output.written

/-! ## Calls of the bridge -/

/-- The loop of `pty_bridge_run` has been left. -/
def Phase.left : Phase → Bool
  | .restoring => true
  | .waiting => true
  | .closing => true
  | _ => false

/-- The point at which the bytes of one direction are in the buffer. -/
def Point.carriesInput : Point → Bool
  | .writeMaster => true
  | _ => false

def Point.carriesOutput : Point → Bool
  | .writeStdout _ => true
  | _ => false

/-- What a call of `pty_bridge_run` does: it reads, or it writes what was read before, or
there is nothing in the buffer before and behind it. -/
inductive Ferry (terminate : Bool) (relay : Relay) (moved : Nat) :
    Point → Outcome → Point → Relay → Prop where
  | idle {point next : Point} {outcome : Outcome}
      (input : point.carriesInput = false ∧ next.carriesInput = false)
      (output : point.carriesOutput = false ∧ next.carriesOutput = false)
      (onward : next.phase.left = true →
        LeavesRelay terminate point outcome ∨ point.phase.left = true) :
      Ferry terminate relay moved point outcome next relay
  | readMaster {stdin : Bool} (positive : 0 < moved) (there : moved ≤ relay.output.waiting.length) :
      Ferry terminate relay moved (.readMaster stdin) .ok (.writeStdout stdin)
        (relay.readMaster moved)
  | writeStdout {stdin : Bool} {outcome : Outcome} (fits : moved ≤ relay.buf.length) :
      Ferry terminate relay moved (.writeStdout stdin) outcome
        (if stdin then .readStdin else .select) (relay.writeStdout outcome moved)
  | readStdin (positive : 0 < moved) (there : moved ≤ relay.input.waiting.length) :
      Ferry terminate relay moved .readStdin .ok .writeMaster (relay.readStdin moved)
  | writeMaster {outcome : Outcome} (fits : moved ≤ relay.buf.length) :
      Ferry terminate relay moved .writeMaster outcome .select (relay.writeMaster outcome moved)

variable {config : Config} {terminate watched : Bool} {point next : Point} {outcome : Outcome}
  {relay after : Relay} {moved : Nat}

theorem Ferry.unchecked {target : Point} (went : outcome.unchecked target = some next)
    (input : point.carriesInput = false ∧ target.carriesInput = false)
    (output : point.carriesOutput = false ∧ target.carriesOutput = false)
    (onward : target.phase.left = true → point.phase.left = true) :
    Ferry terminate relay moved point outcome next relay := by
  rcases Outcome.unchecked_eq_some.mp went with ⟨_, rfl⟩
  exact .idle input output fun left => .inr (onward left)

/-- The bridge does nothing else. -/
theorem ferry_of_call (bridging : point.phase.bridging = true)
    (went : point.next config terminate watched outcome = some next)
    (called : relay.call moved point outcome = some after) :
    Ferry terminate relay moved point outcome next after := by
  cases point with
  | askSize =>
      cases called
      rcases Outcome.checked_eq_some.mp went with ⟨rfl, rfl⟩ | ⟨rfl, rfl⟩ <;>
        exact .idle ⟨rfl, rfl⟩ ⟨rfl, rfl⟩ nofun
  | pushSize => cases called; exact .unchecked went ⟨rfl, rfl⟩ ⟨rfl, rfl⟩ nofun
  | sigWinch => cases called; exact .unchecked went ⟨rfl, rfl⟩ ⟨rfl, rfl⟩ nofun
  | sigTerm => cases called; exact .unchecked went ⟨rfl, rfl⟩ ⟨rfl, rfl⟩ nofun
  | sigHup => cases called; exact .unchecked went ⟨rfl, rfl⟩ ⟨rfl, rfl⟩ nofun
  | rawMode => cases called; exact .unchecked went ⟨rfl, rfl⟩ ⟨rfl, rfl⟩ nofun
  | select =>
      cases called
      cases outcome with
      | ready master stdin =>
          cases went
          cases master <;> cases stdin <;> exact .idle ⟨rfl, rfl⟩ ⟨rfl, rfl⟩ nofun
      | intr =>
          cases went
          cases terminate with
          | false => exact .idle ⟨rfl, rfl⟩ ⟨rfl, rfl⟩ nofun
          | true => exact .idle ⟨rfl, rfl⟩ ⟨rfl, rfl⟩ fun _ => .inl rfl
      | fail =>
          cases went
          exact .idle ⟨rfl, rfl⟩ ⟨rfl, rfl⟩ fun _ => .inl trivial
      | _ => cases went
  | readMaster stdin =>
      rcases Outcome.checked_eq_some.mp went with ⟨rfl, rfl⟩ | ⟨rfl, rfl⟩
      · rw [Relay.call] at called
        split at called
        case isTrue fits =>
          cases called
          exact .readMaster fits.1 fits.2.2
        case isFalse => cases called
      · cases called
        exact .idle ⟨rfl, rfl⟩ ⟨rfl, rfl⟩ fun _ => .inl trivial
  | writeStdout stdin =>
      rcases Outcome.unchecked_eq_some.mp went with ⟨_, rfl⟩
      rw [Relay.call] at called
      split at called
      case isTrue fits =>
        cases called
        exact .writeStdout fits
      case isFalse => cases called
  | readStdin =>
      rcases Outcome.checked_eq_some.mp went with ⟨rfl, rfl⟩ | ⟨rfl, rfl⟩
      · rw [Relay.call] at called
        split at called
        case isTrue fits =>
          cases called
          exact .readStdin fits.1 fits.2.2
        case isFalse => cases called
      · cases called
        exact .idle ⟨rfl, rfl⟩ ⟨rfl, rfl⟩ fun _ => .inl trivial
  | writeMaster =>
      rcases Outcome.unchecked_eq_some.mp went with ⟨_, rfl⟩
      rw [Relay.call] at called
      split at called
      case isTrue fits =>
        cases called
        exact .writeMaster fits
      case isFalse => cases called
  | restoreMode => cases called; exact .unchecked went ⟨rfl, rfl⟩ ⟨rfl, rfl⟩ fun _ => rfl
  | waitChild =>
      cases called
      cases outcome with
      | ok =>
          cases went
          cases watched <;> exact .idle ⟨rfl, rfl⟩ ⟨rfl, rfl⟩ fun _ => .inr rfl
      | intr =>
          cases went
          cases watched <;> exact .idle ⟨rfl, rfl⟩ ⟨rfl, rfl⟩ fun _ => .inr rfl
      | _ => cases went
  | _ => cases bridging

/-- What can happen in one step. -/
theorem bridgeStep_cases {state after : Proc × Relay} {act : BridgeAct}
    (step : bridgeStep config state act = some after) :
    (∃ outcome moved point, act = .call outcome moved ∧ state.1.point.phase.bridging = true ∧
      state.1.point.next config state.1.terminate (state.1.timer == .running) outcome =
        some point ∧
      Ferry state.1.terminate state.2 moved state.1.point outcome point after.2 ∧
      after.1 = (state.1.effect state.1.point outcome).arrive point) ∨
    (∃ signal, act = .signal signal ∧ after = (state.1.deliver signal, state.2)) ∨
    (∃ event holds, act = .child event ∧ state.1.holds.progress event = some holds ∧
      after = ({ state.1 with holds }, state.2)) ∨
    (∃ byte, act = .types byte ∧
      after = (state.1, { state.2 with input := state.2.input.put byte })) ∨
    (∃ byte, act = .prints byte ∧ state.2.closed = false ∧
      after = (state.1, { state.2 with output := state.2.output.put byte })) ∨
    act = .closes ∧ after = (state.1, { state.2 with closed := true }) := by
  cases act with
  | call outcome moved =>
      rw [bridgeStep] at step
      split at step
      case isTrue bridging =>
        rcases Option.bind_eq_some_iff.mp step with ⟨proc, called, rest⟩
        rcases Option.map_eq_some_iff.mp rest with ⟨relay, relayed, rfl⟩
        rcases Proc.call_eq_some.mp called with ⟨_, point, went, equal⟩
        exact .inl ⟨outcome, moved, point, rfl, bridging, went,
          ferry_of_call bridging went relayed, equal⟩
      case isFalse => cases step
  | signal signal =>
      rw [bridgeStep] at step
      split at step
      case isTrue => cases step
      case isFalse =>
        rcases Option.map_eq_some_iff.mp step with ⟨proc, delivered, rfl⟩
        rcases Proc.step_cases delivered with ⟨_, other, _⟩ | ⟨_, same, _, equal⟩ |
          ⟨_, _, other, _⟩
        · cases other
        · cases same
          exact .inr (.inl ⟨signal, rfl, by rw [equal]⟩)
        · cases other
  | child event =>
      rcases Option.map_eq_some_iff.mp step with ⟨proc, progressed, rfl⟩
      rcases Option.map_eq_some_iff.mp progressed with ⟨holds, made, rfl⟩
      exact .inr (.inr (.inl ⟨event, holds, rfl, made, rfl⟩))
  | types byte =>
      cases step
      exact .inr (.inr (.inr (.inl ⟨byte, rfl, rfl⟩)))
  | prints byte =>
      rw [bridgeStep] at step
      split at step
      case isTrue => cases step
      case isFalse opened =>
        cases step
        exact .inr (.inr (.inr (.inr (.inl ⟨byte, rfl, eq_false_of_ne_true opened, rfl⟩))))
  | closes =>
      cases step
      exact .inr (.inr (.inr (.inr (.inr ⟨rfl, rfl⟩))))

/-- A run of the bridge is a run of its session. -/
theorem bridge_run {start finish : Proc × Relay} {acts : List BridgeAct}
    (run : (bridge config).Run start acts finish) :
    (session config).Run start.1 (acts.filterMap BridgeAct.shown) finish.1 := by
  apply run.project
  intro state act after step
  cases act with
  | call outcome moved =>
      change bridgeStep config state (.call outcome moved) = some after at step
      rw [bridgeStep] at step
      split at step
      case isTrue =>
        rcases Option.bind_eq_some_iff.mp step with ⟨proc, called, rest⟩
        rcases Option.map_eq_some_iff.mp rest with ⟨relay, _, rfl⟩
        exact .single called
      case isFalse => cases step
  | signal signal =>
      change bridgeStep config state (.signal signal) = some after at step
      rw [bridgeStep] at step
      split at step
      case isTrue => cases step
      case isFalse =>
        rcases Option.map_eq_some_iff.mp step with ⟨proc, delivered, rfl⟩
        exact .single delivered
  | child event =>
      rcases Option.map_eq_some_iff.mp step with ⟨proc, progressed, rfl⟩
      exact .single progressed
  | types byte =>
      cases step
      exact .nil _
  | prints byte =>
      change bridgeStep config state (.prints byte) = some after at step
      rw [bridgeStep] at step
      split at step
      case isTrue => cases step
      case isFalse =>
        cases step
        exact .nil _
  | closes =>
      cases step
      exact .nil _

/-! ## Writes that move everything -/

/-- What is in the buffer for one direction. -/
def Relay.inHand (relay : Relay) (carries : Bool) : Bytes :=
  bif carries then relay.buf else []

/-- Each write moves all of the buffer, the loop is left only when nothing that the
container wrote is unread, and the container writes nothing from then on. -/
def RelaysAll (state : Proc × Relay) : BridgeAct → Prop
  | .call outcome moved =>
      (state.1.point.carriesInput = true ∨ state.1.point.carriesOutput = true →
        state.2.moves moved outcome = state.2.buf) ∧
      (LeavesRelay state.1.terminate state.1.point outcome → state.2.output.waiting = [])
  | .prints _ => state.1.point.phase.left = false
  | _ => True

instance (state : Proc × Relay) : (act : BridgeAct) → Decidable (RelaysAll state act)
  | .call outcome moved => inferInstanceAs (Decidable
      ((state.1.point.carriesInput = true ∨ state.1.point.carriesOutput = true →
        state.2.moves moved outcome = state.2.buf) ∧
      (LeavesRelay state.1.terminate state.1.point outcome → state.2.output.waiting = [])))
  | .prints _ => inferInstanceAs (Decidable (state.1.point.phase.left = false))
  | .signal _ => isTrue trivial
  | .child _ => isTrue trivial
  | .types _ => isTrue trivial
  | .closes => isTrue trivial

/-- What holds of a stream and of what is in hand of it, and is kept by reading from the
stream and by writing the buffer, each call keeps for both streams. -/
theorem Ferry.preserves {kept : Pipe UInt8 → Bytes → Prop}
    (ferry : Ferry terminate relay moved point outcome next after)
    (reads : ∀ pipe, kept pipe [] → kept (pipe.take moved) (pipe.waiting.take moved))
    (writes : point.carriesInput = true ∨ point.carriesOutput = true →
      ∀ pipe, kept pipe relay.buf → kept (pipe.pass (relay.moves moved outcome)) [])
    (input : kept relay.input (relay.inHand point.carriesInput))
    (output : kept relay.output (relay.inHand point.carriesOutput)) :
    kept after.input (after.inHand next.carriesInput) ∧
      kept after.output (after.inHand next.carriesOutput) := by
  cases ferry with
  | idle carriesInput carriesOutput onward =>
      rw [carriesInput.1] at input
      rw [carriesOutput.1] at output
      rw [carriesInput.2, carriesOutput.2]
      exact ⟨input, output⟩
  | readMaster positive there => exact ⟨input, reads relay.output output⟩
  | @writeStdout stdin _ fits =>
      have written := writes (.inr rfl) relay.output output
      cases stdin with
      | true => exact ⟨input, written⟩
      | false => exact ⟨input, written⟩
  | readStdin positive there => exact ⟨reads relay.input input, output⟩
  | writeMaster fits => exact ⟨writes (.inl rfl) relay.input input, output⟩

/-- Both streams are intact at a control point. -/
structure Relay.Intact (relay : Relay) (point : Point) : Prop where
  input : relay.input.Intact (relay.inHand point.carriesInput)
  output : relay.output.Intact (relay.inHand point.carriesOutput)
  drained : point.phase.left = true → relay.output.waiting = []

theorem Relay.Intact.ferry (intact : relay.Intact point)
    (ferry : Ferry terminate relay moved point outcome next after)
    (writes : point.carriesInput = true ∨ point.carriesOutput = true →
      relay.moves moved outcome = relay.buf)
    (leaves : LeavesRelay terminate point outcome → relay.output.waiting = []) :
    after.Intact next := by
  have streams := @Ferry.preserves _ _ _ _ _ _ _ Pipe.Intact ferry
    (fun _ intact => intact.take moved)
    (fun carries pipe intact => by
      rw [writes carries]
      exact intact.pass) intact.input intact.output
  refine ⟨streams.1, streams.2, ?_⟩
  intro left
  cases ferry with
  | idle input output onward =>
      rcases onward left with leaving | gone
      · exact leaves leaving
      · exact intact.drained gone
  | writeStdout fits =>
      revert left
      split <;> exact nofun
  | readMaster positive there => cases left
  | readStdin positive there => cases left
  | writeMaster fits => cases left

/-- What holds in every state when each write moves everything. The buffer of a process
that was killed is gone. -/
structure Relayed (state : Proc × Relay) : Prop where
  input : state.2.input.passed <+: state.2.input.taken
  output : state.2.output.passed <+: state.2.output.taken
  intact : state.1.point.phase ≠ .over → state.2.Intact state.1.point

theorem Relayed.of_intact {state : Proc × Relay} (intact : state.2.Intact state.1.point) :
    Relayed state :=
  ⟨intact.input.passed_prefix, intact.output.passed_prefix, fun _ => intact⟩

theorem Relayed.step {state after : Proc × Relay} {act : BridgeAct} (relayed : Relayed state)
    (all : RelaysAll state act) (step : bridgeStep config state act = some after) :
    Relayed after := by
  rcases relayed with ⟨input, output, intact⟩
  rcases bridgeStep_cases step with ⟨outcome, moved, point, rfl, bridging, _, ferry, went⟩ |
    ⟨signal, rfl, rfl⟩ | ⟨event, holds, rfl, _, rfl⟩ | ⟨byte, rfl, rfl⟩ | ⟨byte, rfl, _, rfl⟩ |
    ⟨rfl, rfl⟩
  · have running : state.1.point.phase ≠ .over := by
      intro ended
      rw [ended] at bridging
      cases bridging
    apply Relayed.of_intact
    rw [went]
    exact (intact running).ferry ferry all.1 all.2
  · refine ⟨input, output, ?_⟩
    rcases Proc.point_deliver state.1 signal with same | killed
    · rw [same]
      exact intact
    · rw [killed]
      exact fun running => (running rfl).elim
  · exact ⟨input, output, intact⟩
  · refine ⟨input, output, ?_⟩
    intro running
    rcases intact running with ⟨input, output, drained⟩
    exact ⟨input.put byte, output, drained⟩
  · refine ⟨input, output, ?_⟩
    intro running
    rcases intact running with ⟨input, output, drained⟩
    refine ⟨input, output.put byte, ?_⟩
    intro left
    have inside : state.1.point.phase.left = false := all
    rw [left] at inside
    cases inside
  · refine ⟨input, output, ?_⟩
    intro running
    rcases intact running with ⟨input, output, drained⟩
    exact ⟨input, output, drained⟩

theorem Relayed.entered {state : Proc × Relay} (entered : Entered state) : Relayed state := by
  apply Relayed.of_intact
  rw [entered.point]
  constructor
  · exact entered.input.1.trans (by rw [entered.input.2]; rfl)
  · exact entered.output.1.trans (by rw [entered.output.2]; rfl)
  · exact nofun

/-- When each write moves everything and the loop is left only once the container has been
heard out, the bridge is a faithful channel. -/
theorem bridge_faithful {config : Config} {state : Proc × Relay}
    (reachable : ((bridge config).restrict RelaysAll).Reachable state) : Faithful state := by
  have relayed : Relayed state := by
    apply reachable.invariant
    · intro start entered
      exact .entered entered
    · intro state act after relayed step
      exact relayed.step step.1 step.2
  constructor
  · exact relayed.input
  · exact relayed.output.trans (Pipe.taken_prefix_written _)
  · intro returned _
    have intact := relayed.intact (by rw [returned]; nofun)
    have empty : state.2.output.waiting = [] := intact.drained (by rw [returned]; rfl)
    have hands : state.1.point.carriesOutput = false := by
      cases point : state.1.point <;> first | rfl | (rw [point] at returned; cases returned)
    have output := intact.output
    rw [hands] at output
    exact output.drained empty

/-- The login shell in `pty_bridge_run`, before its loop and behind its return. -/
def relayingProc (point : Point) (child : Child) : Proc where
  point
  onWinch := decide (child = .exited)
  onTerm := decide (child = .exited)
  onHup := decide (child = .exited)
  terminate := false
  masterOpen := decide (child ≠ .exited)
  interrupted := false
  timer := .absent
  accepted := true
  unreachable := false
  received := true
  waitCut := false
  holds := ⟨child, .held, .held, .held, .held, .held, .absent, .absent⟩

/-- `pty_bridge_run` up to its loop. -/
def enterLoop : List BridgeAct := List.replicate 6 (.call .ok 0)

theorem entered_running :
    Entered (relayingProc .askSize (.running []), ⟨⟨[], [], []⟩, ⟨[], [], []⟩, [], false⟩) :=
  ⟨rfl, nofun, ⟨rfl, rfl⟩, ⟨rfl, rfl⟩⟩

/-- Two bytes go each way before the container ends. -/
theorem bridge_faithful_both_ways :
    ((bridge plainConfig).restrict RelaysAll).Reachable
        (relayingProc .connectUnregister .exited,
          ⟨⟨[], [108, 115], [108, 115]⟩, ⟨[], [111, 107], [111, 107]⟩, [111, 107], true⟩) ∧
      Faithful (relayingProc .connectUnregister .exited,
        ⟨⟨[], [108, 115], [108, 115]⟩, ⟨[], [111, 107], [111, 107]⟩, [111, 107], true⟩) := by
  have reachable : ((bridge plainConfig).restrict RelaysAll).Reachable
      (relayingProc .connectUnregister .exited,
        ⟨⟨[], [108, 115], [108, 115]⟩, ⟨[], [111, 107], [111, 107]⟩, [111, 107], true⟩) :=
    ⟨_, _, entered_running, @Run.of_execute_guarded _ _ (bridge plainConfig)
      (bridgeStep plainConfig) RelaysAll _ id _ _
      (enterLoop ++
        [.types 108, .types 115, .call (.ready false true) 0, .call .ok 2, .call .ok 2,
          .prints 111, .prints 107, .call (.ready true false) 0, .call .ok 2, .call .ok 2,
          .closes, .child .containerExited, .call (.ready true false) 0, .call .fail 0,
          .call .ok 0, .child .crunExited, .call .ok 0]) (by decide)⟩
  exact ⟨reachable, bridge_faithful reachable⟩

/-- stdin is at its end before the container answers. -/
theorem bridge_loses_output :
    ¬ ∀ (config : Config) (state : Proc × Relay), (bridge config).Reachable state →
      Faithful state := by
  intro always
  have reachable : (bridge plainConfig).Reachable
      (relayingProc .connectUnregister .exited,
        ⟨⟨[], [], []⟩, ⟨[111, 107], [], []⟩, [], true⟩) :=
    ⟨_, _, entered_running, @Run.of_execute _ _ (bridge plainConfig)
      (bridgeStep plainConfig) id _ _
      (enterLoop ++
        [.call (.ready false true) 0, .call .fail 0, .call .ok 0, .prints 111, .prints 107,
          .closes, .child .containerExited, .child .crunExited, .call .ok 0]) (by decide)⟩
  have drained := (always plainConfig _ reachable).drained rfl rfl
  cases drained

/-! ## Writes that fall short -/

theorem Relay.moves_length_le (relay : Relay) (moved : Nat) (outcome : Outcome) :
    (relay.moves moved outcome).length ≤ relay.buf.length := by
  cases outcome with
  | ok =>
      rw [Relay.moves, List.length_take]
      exact Nat.min_le_right _ _
  | _ => exact Nat.zero_le _

/-- A write that does not move the buffer falls short of it. -/
theorem Relay.moves_length_lt (different : relay.moves moved outcome ≠ relay.buf) :
    (relay.moves moved outcome).length < relay.buf.length := by
  apply Nat.lt_of_le_of_ne (relay.moves_length_le moved outcome)
  intro same
  apply different
  have front : relay.moves moved outcome <+: relay.buf := by
    cases outcome with
    | ok => exact List.take_prefix _ _
    | _ => exact List.nil_prefix
  exact front.eq_of_length same

/-- No more is written than was read, in either direction. -/
structure Relay.Bounded (relay : Relay) (point : Point) : Prop where
  input : relay.input.Bounded (relay.inHand point.carriesInput)
  output : relay.output.Bounded (relay.inHand point.carriesOutput)

theorem Relay.Bounded.ferry (bounded : relay.Bounded point)
    (ferry : Ferry terminate relay moved point outcome next after) : after.Bounded next := by
  have streams := @Ferry.preserves _ _ _ _ _ _ _ Pipe.Bounded ferry
    (fun _ bounded => bounded.take moved)
    (fun _ _ bounded => bounded.pass (relay.moves_length_le moved outcome))
    bounded.input bounded.output
  exact ⟨streams.1, streams.2⟩

/-- What holds in every state of a call of `pty_bridge_run`, whatever its writes move. -/
structure Running (state : Proc × Relay) : Prop where
  forked : state.1.holds.child ≠ .absent
  bounded : state.2.Bounded state.1.point

theorem Running.entered {state : Proc × Relay} (entered : Entered state) : Running state := by
  refine ⟨entered.forked, ?_⟩
  rw [entered.point]
  constructor
  · rw [Pipe.Bounded, entered.input.1, entered.input.2]
    exact Nat.le_refl _
  · rw [Pipe.Bounded, entered.output.1, entered.output.2]
    exact Nat.le_refl _

theorem Running.step {state after : Proc × Relay} {act : BridgeAct} (running : Running state)
    (step : bridgeStep config state act = some after) : Running after := by
  rcases running with ⟨forked, bounded⟩
  rcases bridgeStep_cases step with ⟨outcome, moved, point, rfl, bridging, _, ferry, went⟩ |
    ⟨signal, rfl, rfl⟩ | ⟨event, holds, rfl, progressed, rfl⟩ | ⟨byte, rfl, rfl⟩ |
    ⟨byte, rfl, _, rfl⟩ | ⟨rfl, rfl⟩
  · constructor
    · rw [went]
      rcases Proc.effect_child state.1 state.1.point outcome with same | ⟨forks, _⟩
      · rw [Proc.arrive, same]
        exact forked
      · rw [forks] at bridging
        cases bridging
    · rw [went]
      exact bounded.ferry ferry
  · constructor
    · rw [Proc.holds_deliver]
      exact forked
    · rcases Proc.point_deliver state.1 signal with same | killed
      · rw [same]
        exact bounded
      · rw [killed]
        exact ⟨bounded.input.drop, bounded.output.drop⟩
  · exact ⟨(Holdings.progress_spec progressed).started forked, bounded⟩
  · exact ⟨forked, bounded.input, bounded.output⟩
  · exact ⟨forked, bounded.input, bounded.output⟩
  · exact ⟨forked, bounded.input, bounded.output⟩

theorem running_of_reachable {state : Proc × Relay} (reachable : (bridge config).Reachable state) :
    Running state := by
  apply reachable.invariant
  · intro start entered
    exact .entered entered
  · intro state act after running step
    exact running.step step

/-! ## What follows a write that falls short -/

theorem bridge_call {state : Proc × Relay} (bridging : state.1.point.phase.bridging = true)
    (returns : state.1.Returns state.1.point outcome)
    (went : state.1.point.next config state.1.terminate (state.1.timer == .running) outcome =
      some next)
    (relayed : state.2.call moved state.1.point outcome = some after) :
    (bridge config).Run state [.call outcome moved]
      ((state.1.effect state.1.point outcome).arrive next, after) := by
  have called : state.1.call config outcome =
      some ((state.1.effect state.1.point outcome).arrive next) :=
    Proc.call_eq_some.mpr ⟨returns, next, went, rfl⟩
  apply Run.single
  change bridgeStep config state (.call outcome moved) = _
  rw [bridgeStep, if_pos bridging, called, relayed]
  rfl

/-- The container closes its terminal, and `pty_bridge_run` has returned, with nothing more
written to stdout. -/
structure Returned (state : Proc × Relay) (output : Pipe UInt8) : Prop where
  point : state.1.point.phase = .closing
  closed : state.2.closed = true
  output : state.2.output = output

theorem Returned.unfaithful {state : Proc × Relay} {output : Pipe UInt8}
    (returned : Returned state output) (short : output.passed.length < output.written.length) :
    ¬ Faithful state := by
  intro faithful
  have drained := faithful.drained returned.point returned.closed
  rw [returned.output] at drained
  rw [drained] at short
  exact Nat.lt_irrefl _ short

theorem bridge_closes (state : Proc × Relay) :
    (bridge config).Run state [.closes] (state.1, { state.2 with closed := true }) :=
  .single rfl

/-- Once crun has exited, the `waitpid` returns. -/
theorem returns_of_exited {state : Proc × Relay} (point : state.1.point = .waitChild)
    (exited : state.1.holds.child = .exited) :
    ∃ acts after, (bridge config).Run state acts after ∧ Returned after state.2.output := by
  have waited : (bridge config).Run (state.1, { state.2 with closed := true }) [.call .ok 0]
      ((state.1.effect state.1.point .ok).arrive (.afterWait (state.1.timer == .running)),
        { state.2 with closed := true }) := by
    apply bridge_call
    · rw [point]
      rfl
    · rw [point]
      exact exited
    · rw [point]
      rfl
    · rw [point]
      rfl
  exact ⟨_, _, (bridge_closes state).append waited, Point.phase_afterWait _, rfl, rfl⟩

/-- From its `waitpid` on, `pty_bridge_run` can return. -/
theorem returns_of_waiting {state : Proc × Relay} (point : state.1.point = .waitChild)
    (forked : state.1.holds.child ≠ .absent) :
    ∃ acts after, (bridge config).Run state acts after ∧ Returned after state.2.output := by
  have child_runs : ∀ (state : Proc × Relay) (event : ChildEvent) (holds : Holdings),
      state.1.holds.progress event = some holds →
      (bridge config).Run state [.child event] ({ state.1 with holds }, state.2) := by
    intro state event holds progressed
    apply Run.single
    change ((state.1.holds.progress event).map _).map _ = _
    rw [progressed]
    rfl
  rcases state with ⟨proc, relay⟩
  cases child : proc.holds.child with
  | absent => exact (forked child).elim
  | exited => exact returns_of_exited point child
  | forked =>
      have exits := child_runs (proc, relay) .crunExited { proc.holds with child := .exited }
        (by rw [Holdings.progress, child])
      rcases @returns_of_exited config ({ proc with holds.child := .exited }, relay) point rfl with
        ⟨acts, after, run, returned⟩
      exact ⟨_, after, exits.append run, returned⟩
  | ended =>
      have exits := child_runs (proc, relay) .crunExited { proc.holds with child := .exited }
        (by rw [Holdings.progress, child])
      rcases @returns_of_exited config ({ proc with holds.child := .exited }, relay) point rfl with
        ⟨acts, after, run, returned⟩
      exact ⟨_, after, exits.append run, returned⟩
  | running root =>
      have ends := child_runs (proc, relay) .containerExited { proc.holds with child := .ended }
        (by rw [Holdings.progress, child])
      have exits := child_runs ({ proc with holds.child := .ended }, relay) .crunExited
        { proc.holds with child := .exited } rfl
      rcases @returns_of_exited config ({ proc with holds.child := .exited }, relay) point rfl with
        ⟨acts, after, run, returned⟩
      exact ⟨_, after, (ends.append exits).append run, returned⟩

/-- Once its loop has been left, `pty_bridge_run` can return. -/
theorem returns_of_left {state : Proc × Relay} (left : state.1.point.phase.left = true)
    (forked : state.1.holds.child ≠ .absent) :
    ∃ acts after, (bridge config).Run state acts after ∧ Returned after state.2.output := by
  cases phase : state.1.point.phase with
  | restoring =>
      have point : state.1.point = .restoreMode := by
        cases point : state.1.point <;> first | rfl | (rw [point] at phase; cases phase)
      have restored : (bridge config).Run state [.call .ok 0]
          ((state.1.effect state.1.point .ok).arrive .waitChild, state.2) := by
        apply bridge_call
        · rw [phase]
          rfl
        · rw [point]
          trivial
        · rw [point]
          rfl
        · rw [point]
          rfl
      have kept : (state.1.effect state.1.point .ok).holds.child ≠ .absent := by
        rw [point]
        exact forked
      rcases @returns_of_waiting config ((state.1.effect state.1.point .ok).arrive .waitChild,
        state.2) rfl kept with ⟨acts, after, run, returned⟩
      exact ⟨_, after, restored.append run, returned⟩
  | waiting =>
      apply returns_of_waiting _ forked
      cases point : state.1.point <;> first | rfl | (rw [point] at phase; cases phase)
  | closing => exact ⟨_, _, bridge_closes state, phase, rfl, rfl⟩
  | _ =>
      rw [phase] at left
      cases left

/-- At the head of the loop and before it reads from stdin, the loop can be left. -/
theorem returns_of_relay {state : Proc × Relay}
    (point : state.1.point = .select ∨ state.1.point = .readStdin)
    (forked : state.1.holds.child ≠ .absent) :
    ∃ acts after, (bridge config).Run state acts after ∧ Returned after state.2.output := by
  have leaves : (bridge config).Run state [.call .fail 0]
      ((state.1.effect state.1.point .fail).arrive .restoreMode, state.2) := by
    apply bridge_call
    · rcases point with point | point <;> rw [point] <;> rfl
    · rcases point with point | point <;> rw [point] <;> trivial
    · rcases point with point | point <;> rw [point] <;> rfl
    · rcases point with point | point <;> rw [point] <;> rfl
  have kept : (state.1.effect state.1.point .fail).holds.child ≠ .absent := by
    rcases point with point | point <;> rw [point] <;> exact forked
  rcases @returns_of_left config ((state.1.effect state.1.point .fail).arrive .restoreMode,
    state.2) rfl kept with ⟨acts, after, run, returned⟩
  exact ⟨_, after, leaves.append run, returned⟩

/-- The loop takes the next byte of the user, and may lose it. -/
theorem relays_byte {state : Proc × Relay} {byte : UInt8} {rest : Bytes}
    (point : state.1.point = .select) (waiting : state.2.input.waiting = byte :: rest)
    (written : outcome = .ok ∨ outcome = .fail) :
    (bridge config).Run state [.call (.ready false true) 0, .call .ok 1, .call outcome 1]
      (state.1.arrive .select, (state.2.readStdin 1).writeMaster outcome 1) := by
  have selected : (bridge config).Run state [.call (.ready false true) 0]
      (state.1.arrive .readStdin, state.2) := by
    have run := @bridge_call config .readStdin (.ready false true) state.2 0 state
    rw [point] at run
    exact run rfl trivial rfl rfl
  have read : (bridge config).Run (state.1.arrive .readStdin, state.2) [.call .ok 1]
      (state.1.arrive .writeMaster, state.2.readStdin 1) := by
    apply @bridge_call config .writeMaster .ok (state.2.readStdin 1) 1
      (state.1.arrive .readStdin, state.2) rfl trivial rfl
    apply if_pos
    refine ⟨Nat.one_pos, by decide, ?_⟩
    change 1 ≤ state.2.input.waiting.length
    rw [waiting, List.length_cons]
    exact Nat.le_add_left 1 _
  have writes : (bridge config).Run (state.1.arrive .writeMaster, state.2.readStdin 1)
      [.call outcome 1]
      (state.1.arrive .select, (state.2.readStdin 1).writeMaster outcome 1) := by
    have fits : 1 ≤ (state.2.readStdin 1).buf.length := by
      rw [Relay.readStdin, waiting]
      exact Nat.le_refl 1
    rcases written with rfl | rfl
    · exact @bridge_call config .select .ok ((state.2.readStdin 1).writeMaster .ok 1) 1
        (state.1.arrive .writeMaster, state.2.readStdin 1) rfl trivial rfl (if_pos fits)
    · exact @bridge_call config .select .fail ((state.2.readStdin 1).writeMaster .fail 1) 1
        (state.1.arrive .writeMaster, state.2.readStdin 1) rfl trivial rfl (if_pos fits)
  exact (selected.append read).append writes

/-- Behind a gap in its input the container can get bytes out of order: what the user had
typed is lost as well, and another byte is then typed than the one that is missing. -/
theorem unfaithful_of_gap {state : Proc × Relay} {missing : UInt8} {lost : Bytes}
    (point : state.1.point = .select)
    (gap : state.2.input.taken = state.2.input.passed ++ missing :: lost) :
    ∃ acts after, (bridge config).Run state acts after ∧ ¬ Faithful after := by
  generalize waits : state.2.input.waiting = waiting
  induction waiting generalizing state lost with
  | nil =>
      have typed : (bridge config).Run state [.types (missing + 1)]
          (state.1, { state.2 with input := state.2.input.put (missing + 1) }) := .single rfl
      have waiting : (state.2.input.put (missing + 1)).waiting = [missing + 1] := by
        rw [Pipe.put, waits]
        rfl
      have relayed := @relays_byte config .ok
        (state.1, { state.2 with input := state.2.input.put (missing + 1) }) _ _ point waiting
        (.inl rfl)
      refine ⟨_, _, typed.append relayed, ?_⟩
      intro faithful
      have taken : ((state.2.input.put (missing + 1)).take 1).taken =
          ((state.2.input.put (missing + 1)).take 1).passed ++
            missing :: (lost ++ [missing + 1]) := by
        rw [Pipe.take, waiting]
        change state.2.input.taken ++ [missing + 1] = _
        rw [gap, List.append_assoc]
        rfl
      have differs : missing + 1 ≠ missing := by
        intro same
        have one : (1 : UInt8) = 0 :=
          calc
            1 = 1 + missing - missing := (UInt8.add_sub_cancel 1 missing).symm
            _ = missing - missing := by rw [UInt8.add_comm, same]
            _ = 0 := UInt8.sub_self missing
        revert one
        decide
      apply Pipe.not_prefix_of_gap taken differs
      have front := faithful.input
      rw [Relay.writeMaster, Relay.moves, Relay.readStdin] at front
      rw [waiting] at front
      exact front
  | cons byte rest ih =>
      have relayed := @relays_byte config .fail state byte rest point waits (.inr rfl)
      have taken : ((state.2.readStdin 1).writeMaster .fail 1).input.taken =
          ((state.2.readStdin 1).writeMaster .fail 1).input.passed ++
            missing :: (lost ++ [byte]) := by
        change state.2.input.taken ++ state.2.input.waiting.take 1 =
          state.2.input.passed ++ [] ++ _
        rw [gap, waits, List.append_nil, List.append_assoc]
        rfl
      have left : ((state.2.readStdin 1).writeMaster .fail 1).input.waiting = rest := by
        change state.2.input.waiting.drop 1 = rest
        rw [waits]
        rfl
      rcases @ih (state.1.arrive .select, (state.2.readStdin 1).writeMaster .fail 1) _ rfl taken
        left with ⟨acts, after, run, unfaithful⟩
      exact ⟨_, after, relayed.append run, unfaithful⟩

/-- A call that leaves something behind can make the channel unfaithful. -/
theorem unfaithful_of_call {state after : Proc × Relay} (running : Running state)
    (faithful : Faithful after) (forked : after.1.holds.child ≠ .absent)
    (ferry : Ferry state.1.terminate state.2 moved state.1.point outcome after.1.point after.2)
    (restores : LeavesRelay state.1.terminate state.1.point outcome →
      after.1.point = .restoreMode)
    (loses : ¬ RelaysAll state (.call outcome moved)) :
    ∃ acts last, (bridge config).Run after acts last ∧ ¬ Faithful last := by
  have unheard : ∀ last, Returned last after.2.output →
      after.2.output.passed.length < after.2.output.written.length → ¬ Faithful last :=
    fun last returned => returned.unfaithful
  rw [RelaysAll, Classical.not_and_iff_not_or_not] at loses
  rcases loses with short | early
  · rw [Classical.not_imp] at short
    rcases short with ⟨carries, different⟩
    have less := Relay.moves_length_lt different
    have bounded := running.bounded
    generalize state.1.point = point at ferry carries bounded
    generalize target : after.1.point = next at ferry
    generalize relays : after.2 = relay at ferry
    cases ferry with
    | idle input output onward =>
        rw [input.1, output.1] at carries
        rcases carries with carries | carries <;> cases carries
    | readMaster positive there => rcases carries with carries | carries <;> cases carries
    | readStdin positive there => rcases carries with carries | carries <;> cases carries
    | @writeStdout stdin _ fits =>
        have near : after.1.point = .select ∨ after.1.point = .readStdin := by
          rw [target]
          cases stdin with
          | true => exact .inr rfl
          | false => exact .inl rfl
        rcases @returns_of_relay config after near forked with ⟨acts, last, run, returned⟩
        refine ⟨acts, last, run, unheard last returned ?_⟩
        rw [relays]
        exact Nat.lt_of_lt_of_le (bounded.output.short_of_pass less)
          (Pipe.length_taken_le_written _)
    | writeMaster fits =>
        have front := faithful.input
        rw [relays] at front
        rcases Pipe.exists_missing front (bounded.input.short_of_pass less) with
          ⟨missing, lost, gap⟩
        rw [← relays] at gap
        exact unfaithful_of_gap target gap
  · rw [Classical.not_imp] at early
    rcases early with ⟨leaves, unread⟩
    have restoring := restores leaves
    have left : after.1.point.phase.left = true := by
      rw [restoring]
      rfl
    rcases @returns_of_left config after left forked with ⟨acts, last, run, returned⟩
    refine ⟨acts, last, run, unheard last returned ?_⟩
    have same : after.2 = state.2 := by
      generalize state.1.point = point at ferry leaves
      generalize after.1.point = next at ferry
      generalize after.2 = relay at ferry ⊢
      cases ferry with
      | idle input output onward => rfl
      | readMaster positive there => cases leaves
      | readStdin positive there => cases leaves
      | writeStdout fits => cases leaves
      | writeMaster fits => cases leaves
    rw [same, Pipe.written, List.length_append]
    exact Nat.lt_of_le_of_lt running.bounded.output.le
      (Nat.lt_add_of_pos_right (List.length_pos_iff.mpr unread))

theorem next_of_leavesRelay {terminate watched : Bool} {point : Point} {outcome : Outcome}
    (leaves : LeavesRelay terminate point outcome) :
    point.next config terminate watched outcome = some .restoreMode := by
  unfold LeavesRelay at leaves
  split at leaves
  · rw [leaves]
    rfl
  · rfl
  · rfl
  · rfl
  · exact leaves.elim

/-- Wherever a step leaves something behind, the bridge can come to be unfaithful. -/
theorem unfaithful_of_not_relaysAll {state after : Proc × Relay} {act : BridgeAct}
    (reachable : (bridge config).Reachable state)
    (step : bridgeStep config state act = some after) (loses : ¬ RelaysAll state act) :
    ∃ acts last, (bridge config).Run after acts last ∧ ¬ Faithful last := by
  by_cases faithful : Faithful after
  case neg => exact ⟨[], after, .nil _, faithful⟩
  have running := running_of_reachable reachable
  have forked := (running.step step).forked
  rcases bridgeStep_cases step with ⟨outcome, moved, point, rfl, bridging, next, ferry, went⟩ |
    ⟨signal, rfl, rfl⟩ | ⟨event, holds, rfl, _, rfl⟩ | ⟨byte, rfl, rfl⟩ | ⟨byte, rfl, _, rfl⟩ |
    ⟨rfl, rfl⟩
  · have target : after.1.point = point := by
      rw [went]
      rfl
    rw [← target] at ferry next
    apply unfaithful_of_call running faithful forked ferry _ loses
    intro leaves
    rw [next_of_leavesRelay leaves] at next
    exact (Option.some.inj next).symm
  · exact (loses trivial).elim
  · exact (loses trivial).elim
  · exact (loses trivial).elim
  · have left : state.1.point.phase.left = true := Bool.eq_true_of_not_eq_false loses
    rcases @returns_of_left config (state.1, { state.2 with output := state.2.output.put byte })
      left forked with ⟨acts, last, run, returned⟩
    refine ⟨acts, last, run, returned.unfaithful ?_⟩
    rw [Pipe.written_put, List.length_append]
    exact Nat.lt_add_one_of_le
      (Nat.le_trans running.bounded.output.le (Pipe.length_taken_le_written _))
  · exact (loses trivial).elim

end Caal

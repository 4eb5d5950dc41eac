import Caal.Session.Program

/-!
# The phases of a session

The control points in groups. `Move` says once where the control flow can go: it
stays within a phase, or crosses into another one at one of a few named points. All
invariants of a session are proved by cases on the moves.
-/

namespace Caal

/-- A stretch of `main`. -/
inductive Phase where
  /-- Asking how many sessions there are. -/
  | query
  /-- Up to the overlay mount. -/
  | setup
  /-- The overlay is mounted, crun is not forked. -/
  | starting
  /-- crun is forked, up to the end of the REGISTER exchange. -/
  | registering
  /-- Waiting for the console. -/
  | console
  /-- In `pty_bridge_run`, up to the end of its loop. -/
  | relay
  /-- Behind the loop, and then in the `waitpid` for crun. -/
  | restoring
  | waiting
  /-- Up to `container_stop`. -/
  | closing
  | teardown
  | over
  deriving DecidableEq

def Point.phase : Point → Phase
  | .count => .query
  | .limit _ => .query
  | .lookups => .setup
  | .mkdirSession => .setup
  | .openImage => .setup
  | .fallocate => .setup
  | .mkfs => .setup
  | .mountImage => .setup
  | .mkdirUpper => .setup
  | .mkdirWork => .setup
  | .mountOverlay => .setup
  | .socket => .starting
  | .unlinkStale => .starting
  | .bind => .starting
  | .listen => .starting
  | .forkCrun => .starting
  | .forkTimer => .registering
  | .connectRegister => .registering
  | .register => .registering
  | .acceptConsole => .console
  | .recvConsole => .console
  | .askSize => .relay
  | .pushSize => .relay
  | .sigWinch => .relay
  | .sigTerm => .relay
  | .sigHup => .relay
  | .rawMode => .relay
  | .select => .relay
  | .readMaster _ => .relay
  | .writeStdout _ => .relay
  | .readStdin => .relay
  | .writeMaster => .relay
  | .restoreMode => .restoring
  | .waitChild => .waiting
  | .killTimer => .closing
  | .connectUnregister => .closing
  | .unregister => .closing
  | .printCleaned => .closing
  | .unlinkSock _ => .teardown
  | .umountOverlay _ => .teardown
  | .umountDisk _ => .teardown
  | .unlinkImage _ => .teardown
  | .forkRm _ => .teardown
  | .waitRm _ => .teardown
  | .forkDelete _ => .teardown
  | .waitDelete _ => .teardown
  | .exited _ => .over
  | .killed _ => .over

@[simp] theorem Point.phase_afterWait (watched : Bool) :
    (Point.afterWait watched).phase = .closing := by
  cases watched <;> rfl

/-- Phases of which the calls are alike. -/
def Phase.plain : Phase → Bool
  | .closing => false
  | .teardown => false
  | .over => false
  | _ => true

/-- Phases in which the process runs and is not tearing down. -/
def Phase.inner : Phase → Bool
  | .teardown => false
  | .over => false
  | _ => true

theorem Phase.inner_of_plain {phase : Phase} (plain : phase.plain = true) :
    phase.inner = true := by
  cases phase <;> first | rfl | cases plain

/-- The call leaves what crosses phases as it was. -/
structure Neutral (point : Point) (outcome : Outcome) : Prop where
  child : ∀ proc : Proc, (proc.effect point outcome).holds.child = proc.holds.child
  overlay : ∀ proc : Proc, (proc.effect point outcome).holds.overlay = proc.holds.overlay
  accepted : ∀ proc : Proc, (proc.effect point outcome).accepted = proc.accepted
  received : ∀ proc : Proc, (proc.effect point outcome).received = proc.received
  waitCut : ∀ proc : Proc, (proc.effect point outcome).waitCut = proc.waitCut
  timer : ∀ proc : Proc, (proc.effect point outcome).timer = proc.timer
  unreachable : ∀ proc : Proc, (proc.effect point outcome).unreachable = proc.unreachable
  delete : ∀ proc : Proc, (proc.effect point outcome).holds.delete = proc.holds.delete

/-- The ways out of the loop of `pty_bridge_run`. -/
def LeavesRelay (terminate : Bool) : Point → Outcome → Prop
  | .select, .intr => terminate = true
  | .select, .fail => True
  | .readMaster _, .fail => True
  | .readStdin, .fail => True
  | _, _ => False

instance (terminate : Bool) (point : Point) (outcome : Outcome) :
    Decidable (LeavesRelay terminate point outcome) := by
  unfold LeavesRelay
  split <;> infer_instance

/-- Where the control flow goes when a call returns. -/
inductive Move (config : Config) (terminate watched : Bool) :
    Point → Outcome → Point → Prop where
  | within {point next : Point} {outcome : Outcome} (same : next.phase = point.phase)
      (inside : point.phase.plain = true) (neutral : Neutral point outcome) :
      Move config terminate watched point outcome next
  | passed {sessions : Int} (below : sessions < config.maxSessions) :
      Move config terminate watched (.limit sessions) .ok .lookups
  | full {sessions : Int} (reached : config.maxSessions ≤ sessions) :
      Move config terminate watched (.limit sessions) .ok (.exited 1)
  | setupFailed {point : Point} (setup : point.phase = .setup) (neutral : Neutral point .fail) :
      Move config terminate watched point .fail (.exited 1)
  | mounted : Move config terminate watched .mountOverlay .ok .socket
  | mountFailed : Move config terminate watched .mountOverlay .fail (.umountDisk .startFailed)
  | socketFailed {point : Point} (starting : point.phase = .starting)
      (neutral : Neutral point .fail) :
      Move config terminate watched point .fail (.umountOverlay .startFailed)
  | forkFailed : Move config terminate watched .forkCrun .fail (.unlinkSock .startFailed)
  | forked : Move config terminate watched .forkCrun .ok (Point.started config)
  | timerForked {outcome : Outcome} :
      Move config terminate watched .forkTimer outcome .connectRegister
  | connectFailed : Move config terminate watched .connectRegister .fail .acceptConsole
  | registerAnswered (ok : Bool) :
      Move config terminate watched .register (.answered ok) .acceptConsole
  | registerLost (ok : Bool) : Move config terminate watched .register (.lost ok) .acceptConsole
  | registerFailed : Move config terminate watched .register .fail .acceptConsole
  | consoleFailed {point : Point} (console : point.phase = .console)
      (neutral : Neutral point .fail) :
      Move config terminate watched point .fail (.unlinkSock (.stop 1))
  | consoleReceived : Move config terminate watched .recvConsole .ok .askSize
  | relayLeft {point : Point} {outcome : Outcome} (leaves : LeavesRelay terminate point outcome)
      (relay : point.phase = .relay) (neutral : Neutral point outcome) :
      Move config terminate watched point outcome .restoreMode
  | relayEnded {outcome : Outcome} (neutral : Neutral .restoreMode outcome) :
      Move config terminate watched .restoreMode outcome .waitChild
  | waited : Move config terminate watched .waitChild .ok (.afterWait watched)
  | waitCut : Move config terminate watched .waitChild .intr (.afterWait watched)
  | timerKilled {outcome : Outcome} :
      Move config terminate watched .killTimer outcome .connectUnregister
  | unregisterConnected : Move config terminate watched .connectUnregister .ok .unregister
  | unregisterUnconnected :
      Move config terminate watched .connectUnregister .fail .printCleaned
  | unregisterAnswered (ok : Bool) :
      Move config terminate watched .unregister (.answered ok) .printCleaned
  | unregisterLost (ok : Bool) :
      Move config terminate watched .unregister (.lost ok) .printCleaned
  | unregisterFailed : Move config terminate watched .unregister .fail .printCleaned
  | cleaned {outcome : Outcome} (neutral : Neutral .printCleaned outcome) :
      Move config terminate watched .printCleaned outcome (.unlinkSock (.stop 0))
  | sockUnlinked {outcome : Outcome} (site : Site) :
      Move config terminate watched (.unlinkSock site) outcome (.umountOverlay site)
  | overlayUnmounted {outcome : Outcome} (site : Site) :
      Move config terminate watched (.umountOverlay site) outcome (.umountDisk site)
  | diskUnmounted {outcome : Outcome} (site : Site) :
      Move config terminate watched (.umountDisk site) outcome (.unlinkImage site)
  | imageUnlinked {outcome : Outcome} (site : Site) :
      Move config terminate watched (.unlinkImage site) outcome (.forkRm site)
  | rmForked (site : Site) : Move config terminate watched (.forkRm site) .ok (.waitRm site)
  | rmUnforked (site : Site) : Move config terminate watched (.forkRm site) .fail site.after
  | rmWaited (site : Site) : Move config terminate watched (.waitRm site) .ok site.after
  | rmWaitCut (site : Site) : Move config terminate watched (.waitRm site) .intr site.after
  | deleteForked (code : Nat) :
      Move config terminate watched (.forkDelete code) .ok (.waitDelete code)
  | deleteUnforked (code : Nat) :
      Move config terminate watched (.forkDelete code) .fail (.exited code)
  | deleteWaited (code : Nat) : Move config terminate watched (.waitDelete code) .ok (.exited code)
  | deleteWaitCut (code : Nat) :
      Move config terminate watched (.waitDelete code) .intr (.exited code)

theorem Outcome.checked_eq_some {outcome : Outcome} {success failure next : Point} :
    outcome.checked success failure = some next ↔
      outcome = .ok ∧ success = next ∨ outcome = .fail ∧ failure = next := by
  cases outcome <;> simp [checked]

theorem Outcome.unchecked_eq_some {outcome : Outcome} {point next : Point} :
    outcome.unchecked point = some next ↔
      (outcome = .ok ∨ outcome = .fail) ∧ point = next := by
  cases outcome <;> simp [unchecked, checked]

/-- The points at which a call changes what crosses phases. -/
def Point.crossing : Point → Bool
  | .mountOverlay => true
  | .forkCrun => true
  | .forkTimer => true
  | .register => true
  | .recvConsole => true
  | .waitChild => true
  | .killTimer => true
  | .connectUnregister => true
  | .unregister => true
  | .umountOverlay _ => true
  | .forkDelete _ => true
  | _ => false

theorem neutral_of_not_crossing {point : Point} (inside : point.crossing = false)
    (outcome : Outcome) : Neutral point outcome := by
  constructor <;> intro proc <;> cases point <;>
    first
    | rfl
    | (cases inside; done)
    | (cases outcome <;> rfl)

/-- A failing call of the way up changes nothing. -/
theorem neutral_fail {point : Point}
    (failing : point.phase = .setup ∨ point.phase = .starting ∨ point.phase = .console) :
    Neutral point .fail := by
  have unchanged : ∀ proc : Proc, proc.effect point .fail = proc := by
    intro proc
    cases point <;> first | rfl | (rcases failing with h | h | h <;> cases h)
  constructor <;> intro proc <;> rw [unchanged]

variable {config : Config} {terminate watched : Bool} {point next : Point} {outcome : Outcome}

/-- A checked call that stays in its phase on success and leaves `main` on failure. -/
private theorem Move.checkedSetup {success : Point}
    (moved : outcome.checked success (.exited 1) = some next) (setup : point.phase = .setup)
    (same : success.phase = .setup) (inside : point.crossing = false) :
    Move config terminate watched point outcome next := by
  rcases Outcome.checked_eq_some.mp moved with ⟨rfl, rfl⟩ | ⟨rfl, rfl⟩
  · exact .within (by rw [same, setup]) (by rw [setup]; rfl) (neutral_of_not_crossing inside _)
  · exact .setupFailed setup (neutral_fail (.inl setup))

/-- A checked call on the way to the fork of crun. -/
private theorem Move.checkedStarting {success : Point}
    (moved : outcome.checked success (.umountOverlay .startFailed) = some next)
    (starting : point.phase = .starting) (same : success.phase = .starting)
    (inside : point.crossing = false) : Move config terminate watched point outcome next := by
  rcases Outcome.checked_eq_some.mp moved with ⟨rfl, rfl⟩ | ⟨rfl, rfl⟩
  · exact .within (by rw [same, starting]) (by rw [starting]; rfl)
      (neutral_of_not_crossing inside _)
  · exact .socketFailed starting (neutral_fail (.inr (.inl starting)))

/-- A call, whatever it returns, that stays in its phase. -/
private theorem Move.stays (same : next.phase = point.phase) (inside : point.phase.plain = true)
    (neutral : point.crossing = false) : Move config terminate watched point outcome next :=
  .within same inside (neutral_of_not_crossing neutral outcome)

private theorem Move.uncheckedStays {after : Point} (moved : outcome.unchecked after = some next)
    (same : after.phase = point.phase) (inside : point.phase.plain = true)
    (neutral : point.crossing = false) : Move config terminate watched point outcome next := by
  rcases Outcome.unchecked_eq_some.mp moved with ⟨_, rfl⟩
  exact .stays same inside neutral

/-- The control flow makes no other moves. -/
theorem Point.next_move
    (moved : point.next config terminate watched outcome = some next) :
    Move config terminate watched point outcome next := by
  cases point with
  | count =>
      cases outcome with
      | counted sessions => cases moved; exact .stays rfl rfl rfl
      | fallback sessions => cases moved; exact .stays rfl rfl rfl
      | _ => cases moved
  | limit sessions =>
      cases outcome with
      | ok =>
          cases moved
          split
          case isTrue reached => exact .full reached
          case isFalse below => exact .passed (Int.not_le.mp below)
      | _ => cases moved
  | lookups => exact .checkedSetup moved rfl rfl rfl
  | mkdirSession => exact .checkedSetup moved rfl rfl rfl
  | openImage => exact .checkedSetup moved rfl rfl rfl
  | fallocate => exact .checkedSetup moved rfl rfl rfl
  | mkfs => exact .checkedSetup moved rfl rfl rfl
  | mountImage => exact .checkedSetup moved rfl rfl rfl
  | mkdirUpper => exact .checkedSetup moved rfl rfl rfl
  | mkdirWork => exact .checkedSetup moved rfl rfl rfl
  | mountOverlay =>
      rcases Outcome.checked_eq_some.mp moved with ⟨rfl, rfl⟩ | ⟨rfl, rfl⟩
      · exact .mounted
      · exact .mountFailed
  | socket => exact .checkedStarting moved rfl rfl rfl
  | unlinkStale => exact .uncheckedStays moved rfl rfl rfl
  | bind => exact .checkedStarting moved rfl rfl rfl
  | listen => exact .checkedStarting moved rfl rfl rfl
  | forkCrun =>
      rcases Outcome.checked_eq_some.mp moved with ⟨rfl, rfl⟩ | ⟨rfl, rfl⟩
      · exact .forked
      · exact .forkFailed
  | forkTimer =>
      rcases Outcome.unchecked_eq_some.mp moved with ⟨_, rfl⟩
      exact .timerForked
  | connectRegister =>
      rcases Outcome.checked_eq_some.mp moved with ⟨rfl, rfl⟩ | ⟨rfl, rfl⟩
      · exact .stays rfl rfl rfl
      · exact .connectFailed
  | register =>
      cases outcome with
      | answered ok => cases moved; exact .registerAnswered ok
      | lost ok => cases moved; exact .registerLost ok
      | fail => cases moved; exact .registerFailed
      | _ => cases moved
  | acceptConsole =>
      rcases Outcome.checked_eq_some.mp moved with ⟨rfl, rfl⟩ | ⟨rfl, rfl⟩
      · exact .stays rfl rfl rfl
      · exact .consoleFailed rfl (neutral_fail (.inr (.inr rfl)))
  | recvConsole =>
      rcases Outcome.checked_eq_some.mp moved with ⟨rfl, rfl⟩ | ⟨rfl, rfl⟩
      · exact .consoleReceived
      · exact .consoleFailed rfl (neutral_fail (.inr (.inr rfl)))
  | askSize =>
      rcases Outcome.checked_eq_some.mp moved with ⟨rfl, rfl⟩ | ⟨rfl, rfl⟩ <;>
        exact .stays rfl rfl rfl
  | pushSize => exact .uncheckedStays moved rfl rfl rfl
  | sigWinch => exact .uncheckedStays moved rfl rfl rfl
  | sigTerm => exact .uncheckedStays moved rfl rfl rfl
  | sigHup => exact .uncheckedStays moved rfl rfl rfl
  | rawMode => exact .uncheckedStays moved rfl rfl rfl
  | select =>
      cases outcome with
      | ready master stdin =>
          cases moved
          cases master <;> cases stdin <;> exact .stays rfl rfl rfl
      | intr =>
          cases moved
          cases terminate with
          | false => exact .stays rfl rfl rfl
          | true => exact .relayLeft rfl rfl (neutral_of_not_crossing rfl _)
      | fail =>
          cases moved
          exact .relayLeft trivial rfl (neutral_of_not_crossing rfl _)
      | _ => cases moved
  | readMaster stdin =>
      rcases Outcome.checked_eq_some.mp moved with ⟨rfl, rfl⟩ | ⟨rfl, rfl⟩
      · exact .stays rfl rfl rfl
      · exact .relayLeft trivial rfl (neutral_of_not_crossing rfl _)
  | writeStdout stdin =>
      cases stdin <;> exact .uncheckedStays moved rfl rfl rfl
  | readStdin =>
      rcases Outcome.checked_eq_some.mp moved with ⟨rfl, rfl⟩ | ⟨rfl, rfl⟩
      · exact .stays rfl rfl rfl
      · exact .relayLeft trivial rfl (neutral_of_not_crossing rfl _)
  | writeMaster => exact .uncheckedStays moved rfl rfl rfl
  | restoreMode =>
      rcases Outcome.unchecked_eq_some.mp moved with ⟨_, rfl⟩
      exact .relayEnded (neutral_of_not_crossing rfl _)
  | waitChild =>
      cases outcome with
      | ok => cases moved; exact .waited
      | intr => cases moved; exact .waitCut
      | _ => cases moved
  | killTimer =>
      rcases Outcome.unchecked_eq_some.mp moved with ⟨_, rfl⟩
      exact .timerKilled
  | connectUnregister =>
      rcases Outcome.checked_eq_some.mp moved with ⟨rfl, rfl⟩ | ⟨rfl, rfl⟩
      · exact .unregisterConnected
      · exact .unregisterUnconnected
  | unregister =>
      cases outcome with
      | answered ok => cases moved; exact .unregisterAnswered ok
      | lost ok => cases moved; exact .unregisterLost ok
      | fail => cases moved; exact .unregisterFailed
      | _ => cases moved
  | printCleaned =>
      rcases Outcome.unchecked_eq_some.mp moved with ⟨_, rfl⟩
      exact .cleaned (neutral_of_not_crossing rfl _)
  | unlinkSock site =>
      rcases Outcome.unchecked_eq_some.mp moved with ⟨_, rfl⟩
      exact .sockUnlinked site
  | umountOverlay site =>
      rcases Outcome.unchecked_eq_some.mp moved with ⟨_, rfl⟩
      exact .overlayUnmounted site
  | umountDisk site =>
      rcases Outcome.unchecked_eq_some.mp moved with ⟨_, rfl⟩
      exact .diskUnmounted site
  | unlinkImage site =>
      rcases Outcome.unchecked_eq_some.mp moved with ⟨_, rfl⟩
      exact .imageUnlinked site
  | forkRm site =>
      rcases Outcome.checked_eq_some.mp moved with ⟨rfl, rfl⟩ | ⟨rfl, rfl⟩
      · exact .rmForked site
      · exact .rmUnforked site
  | waitRm site =>
      cases outcome with
      | ok => cases moved; exact .rmWaited site
      | intr => cases moved; exact .rmWaitCut site
      | _ => cases moved
  | forkDelete code =>
      rcases Outcome.checked_eq_some.mp moved with ⟨rfl, rfl⟩ | ⟨rfl, rfl⟩
      · exact .deleteForked code
      · exact .deleteUnforked code
  | waitDelete code =>
      cases outcome with
      | ok => cases moved; exact .deleteWaited code
      | intr => cases moved; exact .deleteWaitCut code
      | _ => cases moved
  | exited code => cases moved
  | killed signal => cases moved

/-- What a returning call makes of the process, with the move it makes. -/
theorem Proc.call_move {proc after : Proc} (called : proc.call config outcome = some after) :
    ∃ next, Move config proc.terminate (proc.timer == .running) proc.point outcome next ∧
      proc.Returns proc.point outcome ∧
      after = (proc.effect proc.point outcome).arrive next := by
  rcases Proc.call_eq_some.mp called with ⟨returns, next, moved, equal⟩
  exact ⟨next, Point.next_move moved, returns, equal⟩

end Caal

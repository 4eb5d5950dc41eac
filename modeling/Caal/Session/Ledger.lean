import Caal.Session.Teardown

/-!
# What a session knows of itself

The watchdog, the registration and the wait for crun, as the process keeps track of
them: what the phases say about them.
-/

namespace Caal

namespace Proc

@[simp] theorem waitCut_deliver (proc : Proc) (signal : Signal) :
    (proc.deliver signal).waitCut = proc.waitCut := by
  rw [Proc.deliver]
  split
  · cases signal <;> rfl
  · split <;> rfl

/-! ## The wait for crun -/

/-- The `waitpid` for crun would return, or was cut short. -/
def Waited (proc : Proc) : Prop :=
  proc.holds.child = .exited ∨ proc.waitCut = true

private theorem effect_waitCut {proc : Proc} (cut : proc.waitCut = true) (point : Point)
    (outcome : Outcome) : (proc.effect point outcome).waitCut = true := by
  cases point <;> cases outcome <;> first | exact cut | rfl

theorem Waited.step {config : Config} {proc next : Proc} {act : Act} (waited : proc.Waited)
    (built : proc.Built) (step : proc.step config act = some next) : next.Waited := by
  rcases step_cases step with ⟨outcome, _, called⟩ | ⟨signal, _, _, rfl⟩ |
    ⟨event, holds, _, progressed, rfl⟩
  · rcases call_eq_some.mp called with ⟨_, point, _, rfl⟩
    rcases waited with exited | cut
    · refine .inl ?_
      rcases effect_child proc proc.point outcome with same | ⟨here, _⟩
      · exact same.trans exited
      · have setUp := built.setUp
        rw [here] at setUp
        cases setUp.1.symm.trans exited
    · exact .inr (effect_waitCut cut _ _)
  · rw [Waited, holds_deliver, waitCut_deliver]
    exact waited
  · rcases waited with exited | cut
    · exact .inl (Holdings.exited_of_progress progressed exited)
    · exact .inr cut

end Proc

/-- `main` goes on behind the relay only from the `waitpid`. -/
theorem Move.closing {config : Config} {terminate watched : Bool} {point next : Point}
    {outcome : Outcome} (move : Move config terminate watched point outcome next)
    (closing : next.phase = .closing) :
    point.phase = .closing ∨
      point = .waitChild ∧ (outcome = .ok ∨ outcome = .intr) := by
  cases move with
  | within same inside neutral => exact .inl (same.symm.trans closing)
  | waited => exact .inr ⟨rfl, .inl rfl⟩
  | waitCut => exact .inr ⟨rfl, .inr rfl⟩
  | forked =>
      rw [Point.started] at closing
      split at closing <;> cases closing
  | rmUnforked site => cases site <;> cases closing
  | rmWaited site => cases site <;> cases closing
  | rmWaitCut site => cases site <;> cases closing
  | _ => first | (cases closing; done) | exact .inl rfl

namespace Proc

/-- Behind the relay, crun has been waited for. -/
theorem waited_of_reachable {config : Config} {proc : Proc}
    (reachable : (session config).Reachable proc) :
    proc.Built ∧ (proc.point.phase = .closing → proc.Waited) := by
  apply reachable.invariant
  · intro start initial
    cases initial
    refine ⟨.start config, ?_⟩
    intro closing
    rw [Proc.start] at closing
    split at closing <;> cases closing
  · intro proc act next held step
    refine ⟨held.1.step step, ?_⟩
    intro closing
    rcases step_cases step with ⟨outcome, rfl, called⟩ | ⟨signal, _, _, rfl⟩ |
      ⟨event, holds, _, _, rfl⟩
    · rcases call_move called with ⟨point, move, returns, rfl⟩
      rcases move.closing closing with before | ⟨here, rfl | rfl⟩
      · exact (held.2 before).step held.1 step
      · rw [here] at returns
        have waited : proc.Waited := .inl returns
        exact waited.step held.1 step
      · refine .inr ?_
        rw [here]
        rfl
    · rcases point_deliver proc signal with same | killed
      · rw [same] at closing
        exact (held.2 closing).step held.1 step
      · rw [killed] at closing
        cases closing
    · exact (held.2 closing).step held.1 step

end Proc

/-! ## The watchdog and the registration -/

/-- What the process knows of the watchdog, the daemon and the console. -/
structure Books where
  timer : Timer
  accepted : Bool
  unreachable : Bool
  received : Bool

namespace Books

/-- The console was not received, and nothing behind the relay was done. -/
structure Unserved (books : Books) : Prop where
  received : books.received = false
  timer : books.timer ≠ .killed
  trusted : books.unreachable = false

/-- The REGISTER exchange is not over. -/
structure Unregistered (books : Books) : Prop extends Unserved books where
  accepted : books.accepted = false

/-- The console was received. -/
structure Served (books : Books) : Prop where
  received : books.received = true
  trusted : books.unreachable = false

/-- The watchdog does not run any more. -/
structure Stopped (books : Books) : Prop extends Served books where
  timer : books.timer ≠ .running

/-- The UNREGISTER exchange is over. -/
structure SignedOff (books : Books) : Prop where
  received : books.received = true
  timer : books.timer ≠ .running

/-- How the books stand in each phase of `main`. -/
def InPhase (books : Books) : Phase → Prop
  | .query => books.Unregistered
  | .setup => books.Unregistered
  | .starting => books.Unregistered
  | .registering => books.Unregistered
  | .console => books.Unserved
  | .relay => books.Served
  | .restoring => books.Served
  | .waiting => books.Served
  | .closing => True
  | .teardown => books.Unserved ∨ books.SignedOff
  | .over => books.Unserved ∨ books.SignedOff

/-- How the books stand at each point. -/
def At (books : Books) : Point → Prop
  | .killTimer => books.Served
  | .connectUnregister => books.Stopped
  | .unregister => books.Stopped
  | .printCleaned => books.SignedOff
  | .killed _ => True
  | point => books.InPhase point.phase

theorem at_of_plain {books : Books} {point : Point} (plain : point.phase.plain = true) :
    books.At point ↔ books.InPhase point.phase := by
  cases point <;> first | exact Iff.rfl | cases plain

/-- The teardown is entered without the console. -/
theorem Unregistered.over {books : Books} (unregistered : books.Unregistered) {phase : Phase}
    (ended : phase = .teardown ∨ phase = .over) : books.InPhase phase := by
  rcases ended with rfl | rfl
  · exact .inl unregistered.toUnserved
  · exact .inl unregistered.toUnserved

end Books

namespace Proc

def books (proc : Proc) : Books :=
  ⟨proc.timer, proc.accepted, proc.unreachable, proc.received⟩

/-- The books are kept. -/
def Ledger (proc : Proc) : Prop :=
  proc.books.At proc.point

theorem Ledger.start (config : Config) : (start config).Ledger := by
  have opened : (Proc.start config).books.Unregistered :=
    ⟨⟨rfl, (nomatch ·), rfl⟩, rfl⟩
  rw [Ledger]
  generalize (Proc.start config).books = books at opened ⊢
  rw [Proc.start]
  split
  · exact opened
  · exact opened

private theorem books_eq {point : Point} {outcome : Outcome} (neutral : Neutral point outcome)
    (proc : Proc) : (proc.effect point outcome).books = proc.books := by
  rw [books, neutral.timer, neutral.accepted, neutral.unreachable, neutral.received]
  rfl

private theorem afterWait_books {books : Books} {timed : Bool}
    (watched : (books.timer == .running) = timed) (served : books.Served) :
    books.At (.afterWait timed) := by
  cases timed with
  | true => exact served
  | false =>
      refine ⟨served, ?_⟩
      intro running
      rw [running] at watched
      cases watched

/-- A returning call keeps the books. -/
theorem Ledger.call {config : Config} {proc after : Proc} {outcome : Outcome}
    (ledger : proc.Ledger) (called : proc.call config outcome = some after) :
    after.Ledger := by
  rcases call_move called with ⟨next, move, _, rfl⟩
  clear called
  rw [Ledger] at ledger
  generalize watched : (proc.timer == .running) = timed at move
  generalize proc.point = point at move ledger ⊢
  change (proc.effect point outcome).books.At next
  cases move with
  | within same inside neutral =>
      rw [books_eq neutral, Books.at_of_plain (by rw [same]; exact inside), same,
        ← Books.at_of_plain inside]
      exact ledger
  | passed below => exact ledger
  | full reached => exact .inl ledger.toUnserved
  | setupFailed setup neutral =>
      rw [Books.at_of_plain (by rw [setup]; rfl), setup] at ledger
      rw [books_eq neutral]
      exact .inl ledger.toUnserved
  | mounted => exact ledger
  | mountFailed => exact .inl ledger.toUnserved
  | socketFailed starting neutral =>
      rw [Books.at_of_plain (by rw [starting]; rfl), starting] at ledger
      rw [books_eq neutral]
      exact .inl ledger.toUnserved
  | forkFailed => exact .inl ledger.toUnserved
  | forked =>
      rw [Point.started]
      split
      · exact ledger
      · exact ledger
  | timerForked =>
      cases outcome with
      | ok =>
          refine ⟨⟨ledger.received, ?_, ledger.trusted⟩, ledger.accepted⟩
          intro killed
          cases killed
      | _ => exact ledger
  | connectFailed => exact ledger.toUnserved
  | registerAnswered ok => exact ⟨ledger.received, ledger.timer, ledger.trusted⟩
  | registerLost ok => exact ⟨ledger.received, ledger.timer, ledger.trusted⟩
  | registerFailed => exact ledger.toUnserved
  | consoleFailed console neutral =>
      rw [Books.at_of_plain (by rw [console]; rfl), console] at ledger
      rw [books_eq neutral]
      exact .inl ledger
  | consoleReceived => exact ⟨rfl, ledger.trusted⟩
  | relayLeft leaves relay neutral =>
      rw [Books.at_of_plain (by rw [relay]; rfl), relay] at ledger
      rw [books_eq neutral]
      exact ledger
  | relayEnded neutral =>
      rw [books_eq neutral]
      exact ledger
  | waited => exact afterWait_books watched ledger
  | waitCut => exact afterWait_books watched ledger
  | timerKilled =>
      refine ⟨⟨ledger.received, ledger.trusted⟩, ?_⟩
      intro running
      cases running
  | unregisterConnected => exact ledger
  | unregisterUnconnected => exact ⟨ledger.received, ledger.timer⟩
  | unregisterAnswered ok => exact ⟨ledger.received, ledger.timer⟩
  | unregisterLost ok => exact ⟨ledger.received, ledger.timer⟩
  | unregisterFailed => exact ⟨ledger.received, ledger.timer⟩
  | cleaned neutral =>
      rw [books_eq neutral]
      exact .inr ledger
  | sockUnlinked site => exact ledger
  | overlayUnmounted site => exact ledger
  | diskUnmounted site => exact ledger
  | imageUnlinked site => exact ledger
  | rmForked site => exact ledger
  | rmUnforked site => cases site <;> exact ledger
  | rmWaited site => cases site <;> exact ledger
  | rmWaitCut site => cases site <;> exact ledger
  | deleteForked code => exact ledger
  | deleteUnforked code => exact ledger
  | deleteWaited code => exact ledger
  | deleteWaitCut code => exact ledger

theorem Ledger.deliver {proc : Proc} {signal : Signal} (ledger : proc.Ledger) :
    (proc.deliver signal).Ledger := by
  rw [Proc.deliver]
  split
  · cases signal <;> exact ledger
  · split
    · exact ledger
    · trivial

theorem ledger_of_reachable {config : Config} {proc : Proc}
    (reachable : (session config).Reachable proc) : proc.Ledger := by
  apply reachable.invariant
  · intro start initial
    cases initial
    exact .start config
  · intro proc act next ledger step
    rcases step_cases step with ⟨outcome, _, called⟩ | ⟨signal, _, _, rfl⟩ |
      ⟨event, holds, _, _, rfl⟩
    · exact ledger.call called
    · exact ledger.deliver
    · exact ledger

end Proc

/-! ## On the daemon's record -/

/-- Behind the UNREGISTER exchange, or in a teardown. -/
def Point.signed : Point → Bool
  | .printCleaned => true
  | point => point.phase == .teardown || point.phase == .over

/-- The process was accepted by the daemon, and has not signed off with it. -/
def Books.OnRecord (books : Books) (point : Point) : Prop :=
  books.accepted = true ∧
    (books.received = true → point.signed = true → books.unreachable = true)

def Proc.OnRecord (proc : Proc) : Prop :=
  proc.books.OnRecord proc.point

namespace Books

variable {books : Books} {point : Point}

theorem onRecord_of_unsigned (unsigned : point.signed = false) :
    books.OnRecord point ↔ books.accepted = true := by
  simp [OnRecord, unsigned]

theorem Unserved.onRecord (unserved : books.Unserved) :
    books.OnRecord point ↔ books.accepted = true := by
  simp [OnRecord, unserved.received]

theorem onRecord_of_unreachable (unreachable : books.unreachable = true) :
    books.OnRecord point ↔ books.accepted = true := by
  simp [OnRecord, unreachable]

end Books

theorem Point.unsigned_of_plain {point : Point} (plain : point.phase.plain = true) :
    point.signed = false := by
  cases point <;> first | rfl | cases plain

@[simp] theorem Point.unsigned_afterWait (watched : Bool) :
    (Point.afterWait watched).signed = false := by
  cases watched <;> rfl

namespace Proc

/-- Between two points before the end of the UNREGISTER exchange. -/
private theorem onRecord_unsigned {before after : Books} {point next : Point}
    (here : point.signed = false) (there : next.signed = false)
    (accepted : after.accepted = before.accepted) :
    after.OnRecord next ↔ before.OnRecord point := by
  rw [Books.onRecord_of_unsigned here, Books.onRecord_of_unsigned there, accepted]

/-- Only the two exchanges change whether the process is on the record. -/
theorem onRecord_call {config : Config} {proc after : Proc} {outcome : Outcome}
    (ledger : proc.Ledger)
    (unserved : proc.point = .register ∨ proc.point = .unregister →
      ∀ ok, outcome ≠ .answered ok ∧ outcome ≠ .lost ok)
    (called : proc.call config outcome = some after) : after.OnRecord ↔ proc.OnRecord := by
  rcases call_move called with ⟨next, move, _, rfl⟩
  clear called
  rw [Ledger] at ledger
  rw [OnRecord, OnRecord]
  generalize watched : (proc.timer == .running) = timed at move
  generalize proc.point = point at move ledger unserved ⊢
  change (proc.effect point outcome).books.OnRecord next ↔ proc.books.OnRecord point
  cases move with
  | within same inside neutral =>
      rw [books_eq neutral]
      exact onRecord_unsigned (Point.unsigned_of_plain inside)
        (Point.unsigned_of_plain (by rw [same]; exact inside)) rfl
  | full reached => exact ledger.onRecord.trans ledger.onRecord.symm
  | setupFailed setup neutral =>
      rw [Books.at_of_plain (by rw [setup]; rfl), setup] at ledger
      rw [books_eq neutral]
      exact ledger.onRecord.trans ledger.onRecord.symm
  | mountFailed => exact ledger.onRecord.trans ledger.onRecord.symm
  | socketFailed starting neutral =>
      rw [Books.at_of_plain (by rw [starting]; rfl), starting] at ledger
      rw [books_eq neutral]
      exact ledger.onRecord.trans ledger.onRecord.symm
  | forkFailed => exact ledger.onRecord.trans ledger.onRecord.symm
  | forked => exact onRecord_unsigned rfl (by rw [Point.started]; split <;> rfl) rfl
  | timerForked => exact onRecord_unsigned rfl rfl (by cases outcome <;> rfl)
  | registerAnswered ok => exact ((unserved (.inl rfl) ok).1 rfl).elim
  | registerLost ok => exact ((unserved (.inl rfl) ok).2 rfl).elim
  | consoleFailed console neutral =>
      rw [Books.at_of_plain (by rw [console]; rfl), console] at ledger
      rw [books_eq neutral]
      exact ledger.onRecord.trans ledger.onRecord.symm
  | relayLeft leaves relay neutral =>
      rw [books_eq neutral]
      exact onRecord_unsigned (Point.unsigned_of_plain (by rw [relay]; rfl)) rfl rfl
  | relayEnded neutral =>
      rw [books_eq neutral]
      exact onRecord_unsigned rfl rfl rfl
  | waited => exact onRecord_unsigned rfl (Point.unsigned_afterWait timed) rfl
  | waitCut => exact onRecord_unsigned rfl (Point.unsigned_afterWait timed) rfl
  | unregisterUnconnected =>
      rw [Books.onRecord_of_unreachable rfl, Books.onRecord_of_unsigned rfl]
      rfl
  | unregisterAnswered ok => exact ((unserved (.inr rfl) ok).1 rfl).elim
  | unregisterLost ok => exact ((unserved (.inr rfl) ok).2 rfl).elim
  | unregisterFailed =>
      rw [Books.onRecord_of_unreachable rfl, Books.onRecord_of_unsigned rfl]
      rfl
  | cleaned neutral =>
      rw [books_eq neutral]
      exact Iff.rfl
  | rmUnforked site => cases site <;> exact Iff.rfl
  | rmWaited site => cases site <;> exact Iff.rfl
  | rmWaitCut site => cases site <;> exact Iff.rfl
  | _ => first | exact Iff.rfl | exact onRecord_unsigned rfl rfl rfl

/-- A REGISTER that is answered puts the process on the record if it is accepted. -/
theorem onRecord_register {config : Config} {proc after : Proc} {outcome : Outcome} {ok : Bool}
    (ledger : proc.Ledger) (here : proc.point = .register)
    (told : outcome = .answered ok ∨ outcome = .lost ok)
    (called : proc.call config outcome = some after) :
    ¬ proc.OnRecord ∧ (after.OnRecord ↔ ok = true) := by
  rcases call_eq_some.mp called with ⟨_, next, moved, rfl⟩
  rw [Ledger, here] at ledger
  rw [here] at moved ⊢
  constructor
  · intro recorded
    cases ledger.accepted.symm.trans recorded.1
  · rw [OnRecord]
    rcases told with rfl | rfl
    · cases moved
      exact Books.onRecord_of_unsigned rfl
    · cases moved
      exact Books.onRecord_of_unsigned rfl

/-- An UNREGISTER that is answered takes it off. -/
theorem onRecord_unregister {config : Config} {proc after : Proc} {outcome : Outcome} {ok : Bool}
    (ledger : proc.Ledger) (here : proc.point = .unregister)
    (told : outcome = .answered ok ∨ outcome = .lost ok)
    (called : proc.call config outcome = some after) : ¬ after.OnRecord := by
  rcases call_eq_some.mp called with ⟨_, next, moved, rfl⟩
  rw [Ledger, here] at ledger
  rw [here] at moved ⊢
  intro recorded
  rcases told with rfl | rfl
  · cases moved
    cases ledger.trusted.symm.trans (recorded.2 ledger.received rfl)
  · cases moved
    cases ledger.trusted.symm.trans (recorded.2 ledger.received rfl)

end Proc

end Caal

import Mathlib.Logic.Basic

/-!
# Scripts that can stop anywhere

A script is a sequence of commands with branches on the state. With `set -e` it ends at the
first command that fails, and it can be killed between two of them; a run is either finished
or stopped behind some number of commands. `Triple` says what a finished run leaves, and what
holds wherever a run is stopped.
-/

namespace Scripts

inductive Script (State : Type) where
  | done
  | command (effect : State → State) (rest : Script State)
  | choose (test : State → Bool) (first second : Script State)

variable {State : Type}

namespace Script

/-- One script behind the other. -/
def andThen : Script State → Script State → Script State
  | done, next => next
  | command effect rest, next => command effect (rest.andThen next)
  | choose test first second, next => choose test (first.andThen next) (second.andThen next)

def single (effect : State → State) : Script State :=
  command effect done

/-- A part that is only run where a test succeeds. -/
def when (test : State → Bool) (part : Script State) : Script State :=
  choose test part done

/-- All commands are run. -/
def finish : Script State → State → State
  | done, state => state
  | command effect rest, state => rest.finish (effect state)
  | choose test first second, state =>
      if test state then first.finish state else second.finish state

/-- The script ends behind `count` commands, if it has as many. -/
def stop : Script State → Nat → State → State
  | done, _, state => state
  | command _ _, 0, state => state
  | command effect rest, count + 1, state => rest.stop count (effect state)
  | choose test first second, count, state =>
      if test state then first.stop count state else second.stop count state

/-- A run, finished or stopped. -/
def run (script : Script State) : Option Nat → State → State
  | none => script.finish
  | some count => script.stop count

/-- Every command has a property, in whichever branch. -/
def Each (property : (State → State) → Prop) : Script State → Prop
  | done => True
  | command effect rest => property effect ∧ rest.Each property
  | choose _ first second => first.Each property ∧ second.Each property

theorem Each.andThen {property : (State → State) → Prop} {first second : Script State}
    (earlier : first.Each property) (later : second.Each property) :
    (first.andThen second).Each property := by
  induction first with
  | done => exact later
  | command effect rest ih => exact ⟨earlier.1, ih earlier.2⟩
  | choose test yes no ihYes ihNo => exact ⟨ihYes earlier.1, ihNo earlier.2⟩

theorem finish_andThen (first second : Script State) (state : State) :
    (first.andThen second).finish state = second.finish (first.finish state) := by
  induction first generalizing state with
  | done => rfl
  | command effect rest ih => exact ih (effect state)
  | choose test yes no ihYes ihNo =>
      rw [andThen, finish, finish]
      split
      · exact ihYes state
      · exact ihNo state

/-- A run of two scripts is stopped in the first, or finishes the first and is stopped in the
second. -/
theorem stop_andThen (first second : Script State) (count : Nat) (state : State) :
    (first.andThen second).stop count state = first.stop count state ∨
      ∃ left, (first.andThen second).stop count state = second.stop left (first.finish state) := by
  induction first generalizing count state with
  | done => exact .inr ⟨count, rfl⟩
  | command effect rest ih =>
      cases count with
      | zero => exact .inl rfl
      | succ count => exact ih count (effect state)
  | choose test yes no ihYes ihNo =>
      rw [andThen, stop, stop, finish]
      split
      · exact ihYes count state
      · exact ihNo count state

end Script

/-- From a state as required, a finished run leaves what is ensured, and `crash` holds wherever
a run is stopped. -/
structure Triple (requires : State → Prop) (script : Script State) (ensures crash : State → Prop) :
    Prop where
  finish : ∀ state, requires state → ensures (script.finish state)
  stop : ∀ state count, requires state → crash (script.stop count state)

namespace Triple

/-- Finished or not, a run leaves what holds wherever it is stopped. -/
theorem run {requires invariant : State → Prop} {script : Script State}
    (triple : Triple requires script invariant invariant) (stopped : Option Nat) {state : State}
    (holds : requires state) : invariant (script.run stopped state) := by
  cases stopped with
  | none => exact triple.finish state holds
  | some count => exact triple.stop state count holds

variable {requires ensures crash : State → Prop} {effect : State → State}
  {test : State → Bool} {first second rest : Script State}

theorem done (safe : ∀ state, requires state → crash state) :
    Triple requires .done requires crash where
  finish _ holds := holds
  stop state _ holds := safe state holds

theorem command (middle : State → Prop) (safe : ∀ state, requires state → crash state)
    (makes : ∀ state, requires state → middle (effect state))
    (later : Triple middle rest ensures crash) :
    Triple requires (.command effect rest) ensures crash where
  finish state holds := later.finish _ (makes state holds)
  stop state count holds := by
    cases count with
    | zero => exact safe state holds
    | succ count => exact later.stop _ count (makes state holds)

theorem single (safe : ∀ state, requires state → crash state)
    (makes : ∀ state, requires state → ensures (effect state))
    (left : ∀ state, ensures state → crash state) :
    Triple requires (.single effect) ensures crash :=
  command ensures safe makes (done left)

theorem choose
    (yes : Triple (fun state => requires state ∧ test state = true) first ensures crash)
    (no : Triple (fun state => requires state ∧ test state = false) second ensures crash) :
    Triple requires (.choose test first second) ensures crash where
  finish state holds := by
    rw [Script.finish]
    cases tested : test state with
    | true => exact yes.finish state ⟨holds, tested⟩
    | false => exact no.finish state ⟨holds, tested⟩
  stop state count holds := by
    rw [Script.stop]
    cases tested : test state with
    | true => exact yes.stop state count ⟨holds, tested⟩
    | false => exact no.stop state count ⟨holds, tested⟩

/-- A part that is left out must have nothing to do. -/
theorem when (part : Triple (fun state => requires state ∧ test state = true) first ensures crash)
    (skipped : ∀ state, requires state → test state = false → ensures state)
    (safe : ∀ state, requires state → crash state) :
    Triple requires (.when test first) ensures crash := by
  apply choose part
  exact
    { finish := fun state holds => skipped state holds.1 holds.2
      stop := fun state _ holds => safe state holds.1 }

theorem andThen (middle : State → Prop) (earlier : Triple requires first middle crash)
    (later : Triple middle second ensures crash) :
    Triple requires (first.andThen second) ensures crash where
  finish state holds := by
    rw [Script.finish_andThen]
    exact later.finish _ (earlier.finish state holds)
  stop state count holds := by
    rcases Script.stop_andThen first second count state with inFirst | ⟨left, inSecond⟩
    · rw [inFirst]
      exact earlier.stop state count holds
    · rw [inSecond]
      exact later.stop _ left (earlier.finish state holds)

/-- What every command keeps is kept wherever a run ends. -/
theorem of_each {invariant : State → Prop} {script : Script State}
    (each : script.Each fun effect => ∀ state, invariant state → invariant (effect state)) :
    Triple invariant script invariant invariant := by
  induction script with
  | done => exact done fun _ holds => holds
  | command effect rest ih => exact command invariant (fun _ holds => holds) each.1 (ih each.2)
  | choose test yes no ihYes ihNo =>
      have kept {part : Script State} {answer : Bool}
          (triple : Triple invariant part invariant invariant) :
          Triple (fun state => invariant state ∧ test state = answer) part invariant invariant :=
        { finish := fun state both => triple.finish state both.1
          stop := fun state count both => triple.stop state count both.1 }
      exact choose (kept (ihYes each.1)) (kept (ihNo each.2))

end Triple

end Scripts

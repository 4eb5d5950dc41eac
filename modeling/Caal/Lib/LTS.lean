import Mathlib.Data.Set.Finite.Basic
import Mathlib.Logic.Function.Basic

/-!
# Labelled transition systems

Finite runs, guarded runs, invariants and refinement mappings of labelled transition
systems, and the interleaving of a family of processes over one shared state.
Nothing here depends on a particular program: a model instantiates `LTS` or
`Processes` and uses the induction rules below by name.
-/

universe u v w x

/-- A labelled transition system: initial states and a step relation. -/
structure LTS (State : Type u) (Label : Type v) where
  init : State → Prop
  step : State → Label → State → Prop

namespace LTS

variable {State : Type u} {Label : Type v} {system : LTS State Label}

/-- Finite runs. The last step is exposed, as invariants are proved by looking
at the step taken last. -/
inductive Run (system : LTS State Label) : State → List Label → State → Prop where
  | nil (state : State) : Run system state [] state
  | snoc {start middle finish : State} {labels : List Label} {label : Label} :
      Run system start labels middle → system.step middle label finish →
      Run system start (labels ++ [label]) finish

theorem Run.single {start finish : State} {label : Label}
    (step : system.step start label finish) :
    system.Run start [label] finish :=
  .snoc (.nil start) step

theorem Run.append {start middle finish : State} {first second : List Label}
    (left : system.Run start first middle) (right : system.Run middle second finish) :
    system.Run start (first ++ second) finish := by
  induction right with
  | nil => simpa using left
  | snoc _ step ih =>
      rw [← List.append_assoc]
      exact .snoc ih step

theorem Run.cons {start middle finish : State} {label : Label} {labels : List Label}
    (step : system.step start label middle) (rest : system.Run middle labels finish) :
    system.Run start (label :: labels) finish :=
  (Run.single step).append rest

/-- Each label of a run is taken somewhere along it. -/
theorem Run.step_of_mem {start finish : State} {labels : List Label} {label : Label}
    (run : system.Run start labels finish) (member : label ∈ labels) :
    ∃ earlier before after, system.Run start earlier before ∧
      system.step before label after := by
  induction run with
  | nil => cases member
  | snoc first last ih =>
      rcases List.mem_append.mp member with inFirst | inLast
      · exact ih inFirst
      · cases List.mem_singleton.mp inLast
        exact ⟨_, _, _, first, last⟩

/-- States reached from an initial state. -/
def Reachable (system : LTS State Label) (state : State) : Prop :=
  ∃ start labels, system.init start ∧ system.Run start labels state

theorem Reachable.of_init {state : State} (start : system.init state) :
    system.Reachable state :=
  ⟨state, [], start, .nil state⟩

theorem Reachable.step {state next : State} {label : Label}
    (reachable : system.Reachable state) (step : system.step state label next) :
    system.Reachable next := by
  obtain ⟨start, labels, initial, run⟩ := reachable
  exact ⟨start, labels ++ [label], initial, .snoc run step⟩

theorem Reachable.run {state next : State} {labels : List Label}
    (reachable : system.Reachable state) (run : system.Run state labels next) :
    system.Reachable next := by
  obtain ⟨start, before, initial, first⟩ := reachable
  exact ⟨start, before ++ labels, initial, first.append run⟩

/-- The same system with only the steps that meet `guard`, a condition on the
state before the step and on its label. -/
def restrict (system : LTS State Label) (guard : State → Label → Prop) :
    LTS State Label where
  init := system.init
  step state label next := guard state label ∧ system.step state label next

theorem Run.of_restrict {guard : State → Label → Prop} {start finish : State}
    {labels : List Label} (run : (system.restrict guard).Run start labels finish) :
    system.Run start labels finish := by
  induction run with
  | nil => exact .nil _
  | snoc _ step ih => exact .snoc ih step.2

theorem Reachable.of_restrict {guard : State → Label → Prop} {state : State}
    (reachable : (system.restrict guard).Reachable state) :
    system.Reachable state := by
  obtain ⟨start, labels, initial, run⟩ := reachable
  exact ⟨start, labels, initial, run.of_restrict⟩

theorem Reachable.restrict_of_forall {guard : State → Label → Prop} {state : State}
    (reachable : system.Reachable state) (met : ∀ state label, guard state label) :
    (system.restrict guard).Reachable state := by
  obtain ⟨start, labels, initial, run⟩ := reachable
  refine ⟨start, labels, initial, ?_⟩
  induction run with
  | nil => exact .nil _
  | snoc _ step ih => exact .snoc ih ⟨met _ _, step⟩

theorem Run.restrict_mono {guard weaker : State → Label → Prop} {start finish : State}
    {labels : List Label} (run : (system.restrict guard).Run start labels finish)
    (implied : ∀ state label, guard state label → weaker state label) :
    (system.restrict weaker).Run start labels finish := by
  induction run with
  | nil => exact .nil _
  | snoc _ step ih => exact .snoc ih ⟨implied _ _ step.1, step.2⟩

theorem Reachable.restrict_mono {guard weaker : State → Label → Prop} {state : State}
    (reachable : (system.restrict guard).Reachable state)
    (implied : ∀ state label, guard state label → weaker state label) :
    (system.restrict weaker).Reachable state := by
  obtain ⟨start, labels, initial, run⟩ := reachable
  exact ⟨start, labels, initial, run.restrict_mono implied⟩

/-- A predicate preserved by every step is preserved by every run. -/
theorem Run.preserves {property : State → Prop} {start finish : State}
    {labels : List Label} (run : system.Run start labels finish)
    (holds : property start)
    (preserved : ∀ {state label next}, property state → label ∈ labels →
      system.step state label next → property next) :
    property finish := by
  induction run with
  | nil => exact holds
  | @snoc middle finish labels label _ step ih =>
      have before : property middle := ih fun held member =>
        preserved held (List.mem_append_left _ member)
      exact preserved before (by simp) step

/-- The invariant rule: what holds initially and is preserved by each step holds
in every reachable state. -/
theorem Reachable.invariant {property : State → Prop} {state : State}
    (reachable : system.Reachable state)
    (initially : ∀ {start}, system.init start → property start)
    (preserved : ∀ {state label next}, property state →
      system.step state label next → property next) :
    property state := by
  obtain ⟨start, labels, initial, run⟩ := reachable
  exact run.preserves (initially initial) fun held _ step => preserved held step

/-- The invariant rule with what is already known of reachable states. -/
theorem Reachable.invariant_within {property : State → Prop} {state : State}
    (reachable : system.Reachable state)
    (initially : ∀ {start}, system.init start → property start)
    (preserved : ∀ {state label next}, system.Reachable state → property state →
      system.step state label next → property next) :
    property state := by
  have both : system.Reachable state ∧ property state := by
    apply reachable.invariant
    · intro start initial
      exact ⟨.of_init initial, initially initial⟩
    · intro state label next held step
      exact ⟨held.1.step step, preserved held.1 held.2 step⟩
  exact both.2

section Recording

variable {Record : Type w} {first : Record} {note : State → Label → Record → Record}

/-- The same system with a record that is kept along its runs and that no step looks at. -/
def recording (system : LTS State Label) (first : Record)
    (note : State → Label → Record → Record) : LTS (State × Record) Label where
  init both := system.init both.1 ∧ both.2 = first
  step both label after := system.step both.1 label after.1 ∧ after.2 = note both.1 label both.2

theorem Reachable.of_recording {both : State × Record}
    (reachable : (system.recording first note).Reachable both) : system.Reachable both.1 := by
  apply reachable.invariant
  · intro start initial
    exact .of_init initial.1
  · intro state label after reached step
    exact reached.step step.1

end Recording

section Execution

variable {next : State → Label → Option State}

/-- The state a deterministic step function comes to, if no label is refused. -/
def execute (next : State → Label → Option State) : State → List Label → Option State
  | state, [] => some state
  | state, label :: labels => (next state label).bind fun middle => execute next middle labels

theorem Run.of_execute
    (agrees : ∀ {state label after}, next state label = some after →
      system.step state label after) {start finish : State} {labels : List Label}
    (executed : execute next start labels = some finish) :
    system.Run start labels finish := by
  induction labels generalizing start with
  | nil =>
      cases executed
      exact .nil _
  | cons label labels ih =>
      rcases Option.bind_eq_some_iff.mp executed with ⟨middle, step, rest⟩
      exact .cons (agrees step) (ih rest)

theorem execute_append (start : State) (first second : List Label) :
    execute next start (first ++ second) =
      (execute next start first).bind fun middle => execute next middle second := by
  induction first generalizing start with
  | nil => rfl
  | cons label labels ih =>
      rw [List.cons_append, execute, execute, Option.bind_assoc]
      exact Option.bind_congr fun middle _ => ih middle

/-- A step function with only the steps that meet a decidable guard. -/
def guarded (guard : State → Label → Prop) [∀ state label, Decidable (guard state label)]
    (next : State → Label → Option State) (state : State) (label : Label) : Option State :=
  if guard state label then next state label else none

theorem Run.of_execute_guarded {guard : State → Label → Prop}
    [∀ state label, Decidable (guard state label)]
    (agrees : ∀ {state label after}, next state label = some after →
      system.step state label after) {start finish : State} {labels : List Label}
    (executed : execute (guarded guard next) start labels = some finish) :
    (system.restrict guard).Run start labels finish := by
  apply Run.of_execute _ executed
  intro state label after step
  rw [guarded] at step
  split at step
  case isTrue met => exact ⟨met, agrees step⟩
  case isFalse => cases step

theorem execute_of_guarded {guard : State → Label → Prop}
    [∀ state label, Decidable (guard state label)] {start finish : State} {labels : List Label}
    (executed : execute (guarded guard next) start labels = some finish) :
    execute next start labels = some finish := by
  induction labels generalizing start with
  | nil => exact executed
  | cons label labels ih =>
      rcases Option.bind_eq_some_iff.mp executed with ⟨middle, step, rest⟩
      rw [guarded] at step
      split at step
      case isTrue met =>
        rw [execute, step]
        exact ih rest
      case isFalse => cases step

end Execution

section Refinement

variable {Abstract : Type w} {Move : Type x} {spec : LTS Abstract Move}

/-- A refinement mapping: under an invariant, each concrete step is the abstract
step with the corresponding label between the corresponding states. -/
structure Refinement (system : LTS State Label) (spec : LTS Abstract Move)
    (invariant : State → Prop) (view : State → Abstract) (move : Label → Move) : Prop where
  initial : ∀ {state}, system.init state → invariant state ∧ spec.init (view state)
  forward : ∀ {state label next}, invariant state → system.step state label next →
    invariant next ∧ spec.step (view state) (move label) (view next)

/-- Every concrete run is, seen through the mapping, an abstract run. -/
theorem Refinement.run {invariant : State → Prop} {view : State → Abstract}
    {move : Label → Move} (refinement : Refinement system spec invariant view move)
    {start finish : State} {labels : List Label}
    (run : system.Run start labels finish) (holds : invariant start) :
    invariant finish ∧ spec.Run (view start) (labels.map move) (view finish) := by
  induction run with
  | nil => exact ⟨holds, .nil _⟩
  | snoc _ step ih =>
      have after := refinement.forward ih.1 step
      refine ⟨after.1, ?_⟩
      rw [List.map_append]
      exact .snoc ih.2 after.2

/-- A projection: steps that do not show in the abstract system are left out of its run. -/
theorem Run.project {view : State → Abstract} {move : Label → Option Move}
    {start finish : State} {labels : List Label} (run : system.Run start labels finish)
    (forward : ∀ {state label next}, system.step state label next →
      spec.Run (view state) (move label).toList (view next)) :
    spec.Run (view start) (labels.filterMap move) (view finish) := by
  induction run with
  | nil => exact .nil _
  | @snoc _ _ _ label _ step ih =>
      have last : [label].filterMap move = (move label).toList := by
        cases made : move label with
        | none => simp [made]
        | some shown => simp [made]
      rw [List.filterMap_append, last]
      exact ih.append (forward step)

end Refinement

end LTS

/-! ## Interleaved processes -/

/-- A family of processes over one shared state. An action of a process changes its
own state and the shared one; the environment sees all processes and changes the
shared state. -/
structure Processes (Id : Type u) (Local : Type v) (Shared : Type w)
    (Act : Type x) (Env : Type x) where
  start : Id → Local
  shared : Shared → Prop
  act : Id → Local → Shared → Act → Option (Local × Shared)
  env : (Id → Local) → Shared → Env → Option Shared

namespace Processes

variable {Id : Type u} {Local : Type v} {Shared : Type w} {Act Env : Type x}

/-- A global state of a family of processes. -/
structure State (Id : Type u) (Local : Type v) (Shared : Type w) where
  procs : Id → Local
  shared : Shared

/-- A global step: an action of one process, or one of the environment. -/
inductive Label (Id : Type u) (Act : Type x) (Env : Type x) where
  | act (id : Id) (action : Act)
  | env (event : Env)

/-- The process that takes a step. -/
def Label.actor : Label Id Act Env → Option Id
  | .act id _ => some id
  | .env _ => none

variable [DecidableEq Id]

/-- The steps of the interleaving. -/
def next (family : Processes Id Local Shared Act Env) (state : State Id Local Shared) :
    Label Id Act Env → Option (State Id Local Shared)
  | .act id action =>
      (family.act id (state.procs id) state.shared action).map fun moved =>
        ⟨Function.update state.procs id moved.1, moved.2⟩
  | .env event =>
      (family.env state.procs state.shared event).map fun shared => ⟨state.procs, shared⟩

/-- The interleaving as a transition system. -/
def toLTS (family : Processes Id Local Shared Act Env) :
    LTS (State Id Local Shared) (Label Id Act Env) where
  init state := state.procs = family.start ∧ family.shared state.shared
  step state label after := family.next state label = some after

/-- What an action can do: one process moves, all the others stay. -/
theorem step_act {family : Processes Id Local Shared Act Env}
    {state after : State Id Local Shared} {id : Id} {action : Act}
    (step : family.toLTS.step state (.act id action) after) :
    family.act id (state.procs id) state.shared action = some (after.procs id, after.shared) ∧
      ∀ other, other ≠ id → after.procs other = state.procs other := by
  rcases Option.map_eq_some_iff.mp step with ⟨moved, acted, rfl⟩
  refine ⟨?_, ?_⟩
  · change _ = some (Function.update state.procs id moved.1 id, moved.2)
    rw [acted, Function.update_self]
  · intro other different
    exact Function.update_of_ne different _ _

theorem step_env {family : Processes Id Local Shared Act Env}
    {state after : State Id Local Shared} {event : Env}
    (step : family.toLTS.step state (.env event) after) :
    family.env state.procs state.shared event = some after.shared ∧
      after.procs = state.procs := by
  rcases Option.map_eq_some_iff.mp step with ⟨shared, moved, rfl⟩
  exact ⟨moved, rfl⟩

/-- One process can go on alone as far as its own actions take it. -/
theorem run_alone {family : Processes Id Local Shared Act Env}
    {guard : State Id Local Shared → Label Id Act Env → Prop} {id : Id}
    {state : State Id Local Shared} {actions : List Act} {moved : Local × Shared}
    (allowed : ∀ action ∈ actions, ∀ state, guard state (.act id action))
    (executed : LTS.execute (fun own action => family.act id own.1 own.2 action)
      (state.procs id, state.shared) actions = some moved) :
    (family.toLTS.restrict guard).Run state (actions.map (.act id))
      ⟨Function.update state.procs id moved.1, moved.2⟩ := by
  induction actions generalizing state with
  | nil =>
      cases executed
      rw [Function.update_eq_self]
      exact .nil state
  | cons action actions ih =>
      rcases Option.bind_eq_some_iff.mp executed with ⟨next, acted, executed⟩
      have step : family.toLTS.step state (.act id action)
          ⟨Function.update state.procs id next.1, next.2⟩ := by
        change (family.act id (state.procs id) state.shared action).map _ = _
        dsimp only at acted
        rw [acted]
        rfl
      have rest := @ih ⟨Function.update state.procs id next.1, next.2⟩
        (fun action member => allowed action (List.mem_cons_of_mem _ member)) (by
          dsimp only
          rw [Function.update_self]
          exact executed)
      rw [Function.update_idem] at rest
      exact .cons ⟨allowed action List.mem_cons_self state, step⟩ rest

/-- What one process goes through in the interleaving is a run of the process. -/
theorem reachable_proc {family : Processes Id Local Shared Act Env}
    {guard : State Id Local Shared → Label Id Act Env → Prop} {single : LTS Local Act} {id : Id}
    {state : State Id Local Shared} (reachable : (family.toLTS.restrict guard).Reachable state)
    (initial : single.init (family.start id))
    (simulates : ∀ {state : State Id Local Shared} {action : Act} {moved : Local × Shared},
      guard state (.act id action) →
      family.act id (state.procs id) state.shared action = some moved →
      single.step (state.procs id) action moved.1) :
    single.Reachable (state.procs id) := by
  apply reachable.invariant
  · intro start starts
    rw [starts.1]
    exact .of_init initial
  · intro state label after reached step
    cases label with
    | act other action =>
        have acted := step_act step.2
        by_cases same : id = other
        · subst same
          exact reached.step (simulates step.1 acted.1)
        · rw [acted.2 id same]
          exact reached
    | env event =>
        rw [(step_env step.2).2]
        exact reached

/-- A process that no step of a run is one of is where it was. -/
theorem procs_of_run {family : Processes Id Local Shared Act Env} {id : Id}
    {start finish : State Id Local Shared} {labels : List (Label Id Act Env)}
    (run : family.toLTS.Run start labels finish)
    (idle : ∀ action, .act id action ∉ labels) : finish.procs id = start.procs id := by
  refine @LTS.Run.preserves _ _ _ (fun state => state.procs id = start.procs id) _ _ _ run rfl ?_
  intro state label next before member step
  cases label with
  | act other action =>
      have different : id ≠ other := by
        rintro rfl
        exact idle action member
      exact ((step_act step).2 id different).trans before
  | env event =>
      rw [(step_env step).2]
      exact before

/-- In a reachable state only finitely many processes have left their start. -/
theorem finite_moved {family : Processes Id Local Shared Act Env}
    {guard : State Id Local Shared → Label Id Act Env → Prop} {state : State Id Local Shared}
    (reachable : (family.toLTS.restrict guard).Reachable state) :
    {id | state.procs id ≠ family.start id}.Finite := by
  rcases reachable with ⟨start, labels, init, run⟩
  apply (labels.filterMap Label.actor).finite_toSet.subset
  intro id moved
  by_contra absent
  apply moved
  rw [← init.1]
  apply procs_of_run run.of_restrict
  intro action member
  exact absent (List.mem_filterMap.mpr ⟨_, member, rfl⟩)

end Processes

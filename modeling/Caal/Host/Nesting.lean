import Caal.Host.Mounts

/-!
# Whose overlay a teardown detaches

`umount2` detaches the overlay on top of the bundle's rootfs. That is the session's own as
long as sessions of one bundle end in the opposite order of their mounts.
-/

namespace Caal

open CMemory LTS Overlay

namespace Proc

/-- Unless it was killed, a session holds an overlay exactly between its mount and its own
`umount2`. -/
theorem mounting_or_killed {config : Config} {proc : Proc}
    (reachable : (session config).Reachable proc) :
    proc.Mounting ∨ ∃ signal, proc.point = .killed signal := by
  apply reachable.invariant
  · intro start initial
    cases initial
    exact .inl (.start config)
  · intro proc act next held step
    rcases step_cases step with ⟨outcome, rfl, called⟩ | ⟨signal, rfl, alive, rfl⟩ |
      ⟨event, holds, rfl, progressed, rfl⟩
    · rcases held with mounting | ⟨signal, killed⟩
      · exact .inl (mounting.call called)
      · rcases call_eq_some.mp called with ⟨_, point, moved, _⟩
        rw [killed] at moved
        cases moved
    · rcases held with mounting | ⟨signal', killed⟩
      · rcases point_deliver proc signal with same | killed
        · refine .inl ?_
          rw [Mounting, holds_deliver, same]
          exact mounting
        · exact .inr ⟨signal, killed⟩
      · exact (alive (by rw [Ended, killed]; trivial)).elim
    · refine held.imp_left fun mounting => ?_
      change holds.overlay = .held ↔ _
      rw [(Holdings.progress_spec progressed).overlay]
      exact mounting

end Proc

variable {Place Name Content : Type} [DecidableEq Place] {host : Host Place Name Content}

namespace Host

/-- The sessions between their overlay mount and their own `umount2`, for each directory,
the one that mounted last in front. -/
abbrev Openings (Place : Type) : Type :=
  Place → List SessionKey

/-- How a step changes them. -/
def notes (host : Host Place Name Content) (state : Global Place Name Content) :
    HostLabel Name Content → Openings Place → Openings Place
  | .act key (.call outcome), openings =>
      if (state.procs key).point = .mountOverlay ∧ outcome = .ok then
        Function.update openings (host.target key) (key :: openings (host.target key))
      else if (state.procs key).point.unmounts = true then
        Function.update openings (host.target key) ((openings (host.target key)).erase key)
      else openings
  | _, openings => openings

/-- `umount2` fails only where nothing is mounted. -/
def Detachable (host : Host Place Name Content) (state : Global Place Name Content) :
    HostLabel Name Content → Prop
  | .act key (.call .fail) => (state.procs key).point.unmounts = true →
      state.shared.disk.stack (host.target key) = []
  | _ => True

/-- A session that detaches an overlay is the last that mounted one on its bundle, of those
that have not detached one yet. -/
def LatestFirst (host : Host Place Name Content)
    (both : Global Place Name Content × Openings Place) : HostLabel Name Content → Prop
  | .act key (.call .ok) => (both.1.procs key).point.unmounts = true →
      (both.2 (host.target key)).head? = some key
  | _ => True

/-- Whose upper directory belongs to the overlay on top. -/
def onTop (host : Host Place Name Content) (state : Global Place Name Content)
    (key : SessionKey) : Option SessionKey :=
  ((state.shared.disk.stack (host.target key)).map List.head?).head?.join

/-- A session detaches the overlay of its own upper and work directories. -/
def DetachesOwn (host : Host Place Name Content) (state : Global Place Name Content) :
    HostLabel Name Content → Prop
  | .act key (.call .ok) => (state.procs key).point.unmounts = true →
      host.onTop state key = some key
  | _ => True

/-- The session's own overlay is on the bundle. -/
def StaysMounted (host : Host Place Name Content) (state : Global Place Name Content)
    (key : SessionKey) : Prop :=
  some key ∈ (state.shared.disk.stack (host.target key)).map List.head?

/-- The invariant: the overlays are those of the sessions that have not detached one yet, in
the order of their mounts. -/
structure Nested (host : Host Place Name Content) (state : Global Place Name Content)
    (openings : Openings Place) : Prop where
  owners : ∀ place,
    (state.shared.disk.stack place).map List.head? = (openings place).map some
  members : ∀ place key, key ∈ openings place ↔
    (state.procs key).holds.overlay = .held ∧ host.target key = place
  nodup : ∀ place, (openings place).Nodup

variable {state : Global Place Name Content} {openings : Openings Place}

theorem Nested.staysMounted {key : SessionKey} (nested : host.Nested state openings)
    (held : (state.procs key).holds.overlay = .held) : host.StaysMounted state key := by
  rw [StaysMounted, nested.owners]
  exact List.mem_map_of_mem ((nested.members _ key).mpr ⟨held, rfl⟩)

theorem Nested.onTop_eq (nested : host.Nested state openings) (key : SessionKey) :
    host.onTop state key = (openings (host.target key)).head? := by
  rw [onTop, nested.owners]
  cases openings (host.target key) <;> rfl

section Steps

variable {after : Global Place Name Content} {key : SessionKey} {action : Act}

/-- A step that changes neither the openings nor the mounts. -/
theorem Nested.of_same (nested : host.Nested state openings)
    (overlays : ∀ other, (after.procs other).holds.overlay = (state.procs other).holds.overlay)
    (mounts : after.shared.disk.mounts = state.shared.disk.mounts) :
    host.Nested after openings := by
  constructor
  · intro place
    rw [Disk.stack_congr mounts]
    exact nested.owners place
  · intro place other
    rw [overlays]
    exact nested.members place other
  · exact nested.nodup

/-- A session mounts its overlay. -/
theorem Nested.mount {later : Openings Place} (nested : host.Nested state openings)
    (others : ∀ other, other ≠ key → after.procs other = state.procs other)
    (unheld : (state.procs key).holds.overlay ≠ .held)
    (held : (after.procs key).holds.overlay = .held)
    (disk : after.shared.disk = state.shared.disk.mount Disk.flat (host.target key) key)
    (noted : later =
      Function.update openings (host.target key) (key :: openings (host.target key))) :
    host.Nested after later := by
  subst noted
  constructor
  · intro place
    rw [disk, Disk.stack_mount]
    by_cases mine : place = host.target key
    · subst mine
      rw [Function.update_self, Function.update_self, List.map_cons, nested.owners]
      rfl
    · rw [Function.update_of_ne mine, Function.update_of_ne mine, nested.owners]
  · intro place other
    by_cases mine : place = host.target key
    · subst mine
      rw [Function.update_self, List.mem_cons]
      by_cases same : other = key
      · subst same
        exact ⟨fun _ => ⟨held, rfl⟩, fun _ => .inl rfl⟩
      · rw [others other same]
        exact (or_iff_right same).trans (nested.members _ other)
    · rw [Function.update_of_ne mine]
      by_cases same : other = key
      · subst same
        exact ⟨fun inside => (unheld ((nested.members place other).mp inside).1).elim,
          fun inside => (mine inside.2.symm).elim⟩
      · rw [others other same]
        exact nested.members place other
  · intro place
    by_cases mine : place = host.target key
    · subst mine
      rw [Function.update_self]
      exact List.nodup_cons.mpr
        ⟨fun inside => unheld ((nested.members _ key).mp inside).1, nested.nodup _⟩
    · rw [Function.update_of_ne mine]
      exact nested.nodup place

/-- The session that mounted last detaches an overlay. -/
theorem Nested.umount {later : Openings Place} (nested : host.Nested state openings)
    (others : ∀ other, other ≠ key → after.procs other = state.procs other)
    (released : (after.procs key).holds.overlay = .released)
    (disk : after.shared.disk = state.shared.disk.umount Disk.flat (host.target key))
    (latest : (openings (host.target key)).head? = some key)
    (noted : later =
      Function.update openings (host.target key) ((openings (host.target key)).erase key)) :
    host.Nested after later := by
  subst noted
  rcases List.head?_eq_some_iff.mp latest with ⟨earlier, opened⟩
  have distinct := nested.nodup (host.target key)
  have owners := nested.owners (host.target key)
  rw [opened] at distinct owners
  rw [opened, List.erase_cons_head]
  constructor
  · intro place
    rw [disk, Disk.stack_umount fun _ _ => rfl]
    by_cases mine : place = host.target key
    · subst mine
      rw [Function.update_self, Function.update_self, List.map_tail, owners]
      rfl
    · rw [Function.update_of_ne mine, Function.update_of_ne mine, nested.owners]
  · intro place other
    by_cases mine : place = host.target key
    · subst mine
      rw [Function.update_self]
      by_cases same : other = key
      · subst same
        apply iff_of_false (List.nodup_cons.mp distinct).1
        intro inside
        cases released.symm.trans inside.1
      · rw [others other same, ← nested.members, opened, List.mem_cons]
        exact (or_iff_right same).symm
    · rw [Function.update_of_ne mine]
      by_cases same : other = key
      · subst same
        exact ⟨fun inside => (mine ((nested.members place other).mp inside).2.symm).elim,
          fun inside => (mine inside.2.symm).elim⟩
      · rw [others other same]
        exact nested.members place other
  · intro place
    by_cases mine : place = host.target key
    · subst mine
      rw [Function.update_self]
      exact (List.nodup_cons.mp distinct).2
    · rw [Function.update_of_ne mine]
      exact nested.nodup place

/-- A step of a session. -/
theorem Nested.act (nested : host.Nested state openings) (built : (state.procs key).Built)
    (mounting : (state.procs key).Mounting ∨ ∃ signal, (state.procs key).point = .killed signal)
    (detachable : host.Detachable state (.act key action))
    (latest : host.LatestFirst (state, openings) (.act key action))
    (others : ∀ other, other ≠ key → after.procs other = state.procs other)
    (overlaid : host.Overlaid Disk.flat key (state.procs key) state.shared.disk action
      (after.procs key).holds.overlay after.shared.disk) :
    host.Nested after (host.notes state (.act key action) openings) := by
  have held : ∀ site, (state.procs key).point = .umountOverlay site →
      (state.procs key).holds.overlay = .held := by
    intro site here
    rcases mounting with mounting | ⟨signal, killed⟩
    · exact mounting.mpr (by rw [here]; rfl)
    · cases here.symm.trans killed
  generalize now : (after.procs key).holds.overlay = overlay at overlaid
  generalize disk : after.shared.disk = layers at overlaid
  cases overlaid with
  | kept same unmounted undetached =>
      have silent : host.notes state (.act key action) openings = openings := by
        cases action with
        | call outcome =>
            rw [notes, if_neg fun mounts => unmounted mounts.1 (congrArg Act.call mounts.2),
              if_neg fun unmounts => undetached unmounts outcome rfl]
        | _ => rfl
      rw [silent]
      refine nested.of_same (forall_procs (fun other proc =>
        proc.holds.overlay = (state.procs other).holds.overlay) others now fun _ => rfl) ?_
      rw [disk]
      exact same
  | mounted here called =>
      have unheld : (state.procs key).holds.overlay ≠ .held := by
        have setUp := built.setUp
        rw [here] at setUp
        rw [setUp.2]
        nofun
      refine nested.mount others unheld now disk ?_
      rw [called, notes, if_pos ⟨here, rfl⟩]
  | detached site here called covered =>
      rw [called] at latest
      refine nested.umount others now disk (latest (by rw [here]; rfl)) ?_
      rw [called, notes, here]
      rfl
  | undetached site here called =>
      rw [called] at detachable
      have bare := detachable (by rw [here]; rfl)
      have owners := nested.owners (host.target key)
      have mine := (nested.members (host.target key) key).mpr ⟨held site here, rfl⟩
      rw [bare] at owners
      rw [List.map_eq_nil_iff.mp owners.symm] at mine
      cases mine

variable [DecidableEq Name]

/-- A step of the host. -/
theorem Nested.step {label : HostLabel Name Content} (nested : host.Nested state openings)
    (reachable : host.system.Reachable state) (detachable : host.Detachable state label)
    (latest : host.LatestFirst (state, openings) label)
    (step : host.system.step state label after) :
    host.Nested after (host.notes state label openings) := by
  cases label with
  | act key action =>
      rcases step_act step with ⟨moved, performed, others⟩
      have everywhere := reachable.restrict_of_forall fun _ _ => trivial
      have run : ((session (host.config key)).restrict fun _ _ => True).Reachable
          (state.procs key) := reachable_session everywhere fun _ => trivial
      exact nested.act (built everywhere key) (Proc.mounting_or_killed run.of_restrict)
        detachable latest others (overlaid_of_step moved performed)
  | env event =>
      rcases step_env step with ⟨moved, procs⟩
      exact nested.of_same (fun _ => by rw [procs]) (mounts_of_environ moved)

end Steps

section Runs

variable [DecidableEq Name]

/-- The host with the openings of its runs. -/
def recorded (host : Host Place Name Content) :
    LTS (Global Place Name Content × Openings Place) (HostLabel Name Content) :=
  host.system.recording (fun _ => []) host.notes

/-- While sessions of one bundle detach overlays in the opposite order of their mounts, every
overlay stays mounted until its session detaches it; and a session detaches its own exactly
if it is the last that mounted one. -/
theorem detachesOwn_of_latestFirst {both : Global Place Name Content × Openings Place}
    (reachable : (host.recorded.restrict fun both label =>
      host.Detachable both.1 label ∧ host.LatestFirst both label).Reachable both) :
    (∀ key, (both.1.procs key).holds.overlay = .held → host.StaysMounted both.1 key) ∧
      ∀ label, host.DetachesOwn both.1 label ↔ host.LatestFirst both label := by
  have nested : host.Nested both.1 both.2 := by
    apply reachable.invariant_within
    · intro start init
      rcases init with ⟨init, empty⟩
      rw [empty, eq_start_of_init init]
      exact ⟨fun _ => rfl, fun _ _ => ⟨nofun, nofun⟩, fun _ => List.nodup_nil⟩
    · intro both label after reached nested step
      rcases step with ⟨⟨detachable, latest⟩, step, noted⟩
      rw [noted]
      exact nested.step reached.of_restrict.of_recording detachable latest step
  refine ⟨fun key held => nested.staysMounted held, ?_⟩
  intro label
  rw [DetachesOwn.eq_def, LatestFirst.eq_def]
  split
  · rw [nested.onTop_eq]
  · rfl

/-- A step together with the openings. -/
def recordedNext (host : Host Place Name Content)
    (both : Global Place Name Content × Openings Place) (label : HostLabel Name Content) :
    Option (Global Place Name Content × Openings Place) :=
  (host.processes.next both.1 label).map fun after => (after, host.notes both.1 label both.2)

theorem recorded_step {both after : Global Place Name Content × Openings Place}
    {label : HostLabel Name Content} (next : host.recordedNext both label = some after) :
    host.recorded.step both label after := by
  rcases Option.map_eq_some_iff.mp next with ⟨state, moved, rfl⟩
  exact ⟨moved, rfl⟩

end Runs

end Host

instance (state : Global Bytes Unit Bool) :
    (label : HostLabel Unit Bool) → Decidable (sampleHost.Detachable state label)
  | .act _ (.call .fail) => inferInstanceAs (Decidable (_ → _))
  | .act _ (.call .ok) => isTrue trivial
  | .act _ (.call .intr) => isTrue trivial
  | .act _ (.call (.counted _)) => isTrue trivial
  | .act _ (.call (.fallback _)) => isTrue trivial
  | .act _ (.call (.ready _ _)) => isTrue trivial
  | .act _ (.call (.answered _)) => isTrue trivial
  | .act _ (.call (.lost _)) => isTrue trivial
  | .act _ (.signal _) => isTrue trivial
  | .act _ (.child _) => isTrue trivial
  | .env _ => isTrue trivial

instance (both : Global Bytes Unit Bool × Host.Openings Bytes) :
    (label : HostLabel Unit Bool) → Decidable (sampleHost.LatestFirst both label)
  | .act _ (.call .ok) => inferInstanceAs (Decidable (_ → _))
  | .act _ (.call .fail) => isTrue trivial
  | .act _ (.call .intr) => isTrue trivial
  | .act _ (.call (.counted _)) => isTrue trivial
  | .act _ (.call (.fallback _)) => isTrue trivial
  | .act _ (.call (.ready _ _)) => isTrue trivial
  | .act _ (.call (.answered _)) => isTrue trivial
  | .act _ (.call (.lost _)) => isTrue trivial
  | .act _ (.signal _) => isTrue trivial
  | .act _ (.child _) => isTrue trivial
  | .env _ => isTrue trivial

/-- Two sessions of one bundle; the one that mounted last ends first. -/
def nestedRun : List (HostLabel Unit Bool) :=
  actsOf firstLogin (startUp ++ enterRelay [firstLogin]) ++
    actsOf secondLogin (startUp ++ enterRelay [secondLogin, firstLogin]) ++
    actsOf secondLogin (endRelay ++ leave)

/-- The state with its openings behind that run. -/
def nestedEnd : Global Bytes Unit Bool × Host.Openings Bytes :=
  (execute sampleHost.recordedNext (sampleHost.start, fun _ => []) nestedRun).getD
    (sampleHost.start, fun _ => [])

theorem detachesOwn_of_latestFirst_nested : sampleHost.StaysMounted nestedEnd.1 firstLogin := by
  have guarded : (execute (guarded (fun both label => sampleHost.Detachable both.1 label ∧
      sampleHost.LatestFirst both label) sampleHost.recordedNext)
      (sampleHost.start, fun _ => []) nestedRun).isSome = true := by decide
  rcases Option.isSome_iff_exists.mp guarded with ⟨both, executed⟩
  have finish : nestedEnd = both := by
    rw [nestedEnd, execute_of_guarded executed]
    rfl
  have held : (nestedEnd.1.procs firstLogin).holds.overlay = .held := by decide
  rw [finish] at held ⊢
  have reachable : (sampleHost.recorded.restrict fun both label =>
      sampleHost.Detachable both.1 label ∧ sampleHost.LatestFirst both label).Reachable both :=
    ⟨_, nestedRun, ⟨Host.init_start, rfl⟩, Run.of_execute_guarded Host.recorded_step executed⟩
  exact (Host.detachesOwn_of_latestFirst reachable).1 firstLogin held

/-- The session that mounted first ends first, and takes the other's overlay away. -/
theorem overlay_of_other_detached :
    ¬ ∀ (host : Host Bytes Unit Bool) (state : Global Bytes Unit Bool) (key : SessionKey),
      (host.system.restrict host.Detachable).Reachable state →
      (state.procs key).holds.overlay = .held → host.StaysMounted state key := by
  intro always
  have reachable : (sampleHost.system.restrict sampleHost.Detachable).Reachable
      (sampleHost.after crossedRun) := Host.reachable_after_guarded (by decide)
  have mounted := always sampleHost _ secondLogin reachable (by decide)
  have left : ((sampleHost.after crossedRun).shared.disk.stack
      (sampleHost.target secondLogin)).map List.head? = [some firstLogin] := by decide
  rw [Host.StaysMounted, left] at mounted
  exact absurd mounted (by decide)

end Caal

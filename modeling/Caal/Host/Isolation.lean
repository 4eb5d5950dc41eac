import Caal.Host.Model

/-!
# What a container finds in its root filesystem

The overlay of a session is mounted on the bundle's rootfs and has the same path as its
lower directory, so a container sees the bundle through all overlays that lie on it when
crun starts. It sees the pristine bundle as long as the topmost of these is its own, nothing
has been written through the others and none of them was given other lower directories.
-/

namespace Caal

open CMemory LTS Overlay

variable {Place Name Content : Type} [DecidableEq Place] [DecidableEq Name]
  {host : Host Place Name Content} {beneath : Place → Place → Bool}

/-- Every container that was started found the bundle as it was installed. -/
def Host.FoundPristine (host : Host Place Name Content) (shared : Shared Place Name Content) :
    Prop :=
  ∀ key tree, shared.seen key = some tree →
    tree = host.pristine.restrict (host.inside (host.root key))

/-- When crun starts the container of a session, the overlay on top is the session's own,
nothing has been written through any overlay below it, and the paths these overlays were
mounted on mean nothing in an option string. -/
def Host.StartsOnOwn (host : Host Place Name Content) (state : Global Place Name Content) :
    HostLabel Name Content → Prop
  | .act key (.child (.crunStarted root)) =>
      ∃ lower, root = key :: lower ∧
        (∀ owner ∈ lower, state.shared.disk.upper owner = .untouched) ∧
        ∀ owner ∈ root, Plain (host.config owner).mountPoint
  | _ => True

omit [DecidableEq Place] [DecidableEq Name] in
/-- A start that found the bundle pristine is recorded. -/
theorem Host.FoundPristine.update {shared : Shared Place Name Content} {key : SessionKey}
    {tree : Tree Name Content} (found : host.FoundPristine shared)
    (pristine : tree = host.pristine.restrict (host.inside (host.root key))) :
    host.FoundPristine { shared with seen := Function.update shared.seen key (some tree) } := by
  intro other seen recorded
  change Function.update shared.seen key (some tree) other = some seen at recorded
  by_cases same : other = key
  · subst same
    rw [Function.update_self] at recorded
    cases recorded
    exact pristine
  · rw [Function.update_of_ne same] at recorded
    exact found other seen recorded

/-- The invariant: bundles are not written to, and a container writes only to the upper
directory of its own session. -/
structure Host.Isolated (host : Host Place Name Content) (state : Global Place Name Content) :
    Prop where
  base : state.shared.disk.base = host.pristine
  astray : state.shared.disk.astray = host.astray
  own : ∀ key root, (state.procs key).holds.child = .running root →
    ∃ lower, root = key :: lower
  untouched : ∀ key, (state.procs key).holds.child = .absent ∨
    (state.procs key).holds.child = .forked → state.shared.disk.upper key = .untouched
  found : host.FoundPristine state.shared

namespace Host

omit [DecidableEq Place] [DecidableEq Name] in
theorem isolated_start : host.Isolated host.start where
  base := rfl
  astray := rfl
  own key root running := by cases running
  untouched _ _ := rfl
  found key tree seen := by cases seen

omit [DecidableEq Place] [DecidableEq Name] in
/-- A container that starts on the session's own overlay sees the bundle as it was
installed. -/
theorem Isolated.view_eq {state : Global Place Name Content} {key : SessionKey}
    {root : List SessionKey} (isolated : host.Isolated state)
    (forked : (state.procs key).holds.child = .forked)
    (onOwn : host.StartsOnOwn state (.act key (.child (.crunStarted root)))) :
    host.shown key state.shared.disk root =
      host.pristine.restrict (host.inside (host.root key)) := by
  rcases onOwn with ⟨lower, rfl, untouched, plain⟩
  rw [← isolated.base, shown, Disk.view_of_untouched]
  · intro owner member
    rcases List.mem_cons.mp member with rfl | below
    · exact isolated.untouched owner (.inr forked)
    · exact untouched owner below
  · intro owner member
    rw [isolated.astray]
    exact (host.astray_eq_none_iff owner).mpr (plain owner member)

theorem Isolated.act {state after : Global Place Name Content} {key : SessionKey} {action : Act}
    (isolated : host.Isolated state) (built : (state.procs key).Built)
    (onOwn : host.StartsOnOwn state (.act key action))
    (step : (host.systemIn beneath).step state (.act key action) after) : host.Isolated after := by
  rcases step_act step with ⟨moved, performed, others⟩
  have change := Proc.step_child built moved
  have performed := performed_of_perform performed
  have disk := performed.disk_eq
  constructor
  · exact disk.1.trans isolated.base
  · exact disk.2.2.trans isolated.astray
  · apply forall_procs (fun other proc =>
      ∀ root, proc.holds.child = .running root → ∃ lower, root = other :: lower)
      others _ isolated.own
    intro root running
    rw [running] at change
    generalize child : Child.running root = now at change
    cases change with
    | same => exact isolated.own key root child.symm
    | forked => cases child
    | started event forked =>
        cases child
        rw [event] at onOwn
        rcases onOwn with ⟨lower, own, _, _⟩
        exact ⟨lower, own⟩
    | ended => cases child
    | exited => cases child
  · rw [disk.2.1]
    apply forall_procs (fun other proc => proc.holds.child = .absent ∨
      proc.holds.child = .forked → state.shared.disk.upper other = .untouched)
      others _ isolated.untouched
    intro idle
    apply isolated.untouched key
    generalize (after.procs key).holds.child = now at change idle
    cases change with
    | same => exact idle
    | forked here called absent => exact .inl absent
    | started event forked => exact .inr forked
    | ended running =>
        rcases idle with absent | forked
        · cases absent
        · cases forked
    | exited event alive =>
        rcases idle with absent | forked
        · cases absent
        · cases forked
  · generalize after.shared = shared at performed ⊢
    generalize (state.procs key).point = point at performed
    cases performed with
    | started resolved =>
        have forked := Proc.forked_of_crunStarted moved
        exact isolated.found.update (isolated.view_eq forked onOwn)
    | _ => exact isolated.found

omit [DecidableEq Place] in
/-- A container writes to the upper directory of its own session only. -/
theorem Isolated.written {state : Global Place Name Content} {key : SessionKey}
    {root : List SessionKey} (isolated : host.Isolated state)
    (running : (state.procs key).holds.child = .running root) (name : Name)
    (content : Option Content) :
    host.Isolated ⟨state.procs, { state.shared with
      disk := state.shared.disk.write root name content }⟩ := by
  rcases isolated.own key root running with ⟨lower, rfl⟩
  constructor
  · exact isolated.base
  · exact isolated.astray
  · exact isolated.own
  · intro other idle
    have different : other ≠ key := by
      intro same
      rw [same, running] at idle
      rcases idle with absent | forked
      · cases absent
      · cases forked
    have kept := state.shared.disk.upper_write_of_ne key name content lower different
    exact kept.trans (isolated.untouched other idle)
  · exact isolated.found

theorem Isolated.env {state after : Global Place Name Content} {event : HostEvent Name Content}
    (isolated : host.Isolated state)
    (step : (host.systemIn beneath).step state (.env event) after) :
    host.Isolated after := by
  rcases step_env step with ⟨moved, procs⟩
  rcases after with ⟨others, shared⟩
  cases procs
  cases event with
  | tick now =>
      cases moved
      exact ⟨isolated.base, isolated.astray, isolated.own, isolated.untouched, isolated.found⟩
  | requested ctl =>
      cases moved
      exact ⟨isolated.base, isolated.astray, isolated.own, isolated.untouched, isolated.found⟩
  | reloaded file allocated =>
      cases moved
      exact ⟨isolated.base, isolated.astray, isolated.own, isolated.untouched, isolated.found⟩
  | written key name content =>
      rw [environ] at moved
      split at moved
      case h_1 root running =>
        split at moved
        · cases moved
          exact isolated.written running name content
        · cases moved
      case h_2 => cases moved

/-- While every container is started on the overlay of its own session, with nothing written
through the overlays below and no path among them that means something in an option string,
every container finds the pristine bundle, however the directories lie in one another. -/
theorem foundPristine_of_startsOnOwn {state : Global Place Name Content}
    (reachable : ((host.systemIn beneath).restrict host.StartsOnOwn).Reachable state) :
    host.FoundPristine state.shared := by
  have isolated : host.Isolated state := by
    apply reachable.invariant_within
    · intro start init
      cases eq_start_of_init init
      exact isolated_start
    · intro state label after reached isolated step
      cases label with
      | act key action => exact isolated.act (built reached key) step.1 step.2
      | env event => exact isolated.env step.2
  exact isolated.found

omit [DecidableEq Place] host in
/-- What is written through the overlays below is seen by a session that has written
nothing itself. -/
theorem sees_written {disk : Disk Place SessionKey Name Content} {key owner : SessionKey}
    {lower : List SessionKey} (untouched : disk.upper key = .untouched)
    (straight : disk.astray key = none) (different : key ≠ owner) (name : Name)
    (content : Option Content) :
    (disk.write (owner :: lower) name content).view (key :: owner :: lower) name = content := by
  have kept := (disk.upper_write_of_ne owner name content lower different).trans untouched
  rw [Disk.view, kept, Layer.over_untouched, Disk.astray_write, straight, Option.getD_none]
  exact disk.view_write name content (owner :: lower)

omit [DecidableEq Place] [DecidableEq Name] in
/-- A container whose overlay was given other lower directories sees these. -/
theorem sees_elsewhere {state : Global Place Name Content} {key : SessionKey}
    {lower : List SessionKey} (isolated : host.Isolated state)
    (untouched : state.shared.disk.upper key = .untouched)
    (meaning : ¬ Plain (host.config key).mountPoint) :
    host.shown key state.shared.disk (key :: lower) =
      (host.elsewhere key).restrict (host.inside (host.root key)) := by
  have misread : ¬ host.ReadAsMeant key := fun meant => meaning (plain_of_layersOf meant)
  rw [shown, Disk.view, untouched, Layer.over_untouched, isolated.astray, astray, if_neg misread,
    Option.getD_some]

end Host

/-- When crun starts a container, no other session has an overlay on its bundle. -/
def StartsAlone (_ : Global Bytes Unit Bool) : HostLabel Unit Bool → Prop
  | .act key (.child (.crunStarted root)) => root = [key]
  | _ => True

instance (state : Global Bytes Unit Bool) :
    (label : HostLabel Unit Bool) → Decidable (StartsAlone state label)
  | .act key (.child (.crunStarted root)) => inferInstanceAs (Decidable (root = [key]))
  | .act _ (.child .containerExited) => isTrue trivial
  | .act _ (.child .crunExited) => isTrue trivial
  | .act _ (.child .rmDone) => isTrue trivial
  | .act _ (.child .deleteDone) => isTrue trivial
  | .act _ (.call _) => isTrue trivial
  | .act _ (.signal _) => isTrue trivial
  | .env _ => isTrue trivial

theorem StartsAlone.startsOnOwn {state : Global Bytes Unit Bool} {label : HostLabel Unit Bool}
    (alone : StartsAlone state label) : sampleHost.StartsOnOwn state label := by
  have plain : Plain plainConfig.mountPoint := by decide
  rw [Host.StartsOnOwn.eq_def]
  split
  · refine ⟨[], alone, ?_, fun _ _ => plain⟩
    intro owner member
    cases member
  · trivial

/-- One session after the other on the same bundle; the first changes a file. -/
def consecutiveRun : List (HostLabel Unit Bool) :=
  actsOf firstLogin (startUp ++ enterRelay [firstLogin]) ++
    [.env (.written firstLogin () (some true))] ++
    actsOf firstLogin (endRelay ++ leave) ++
    actsOf secondLogin (startUp ++ enterRelay [secondLogin])

theorem foundPristine_of_startsOnOwn_consecutive :
    (sampleHost.system.restrict sampleHost.StartsOnOwn).Reachable
        (sampleHost.after consecutiveRun) ∧
      sampleHost.FoundPristine (sampleHost.after consecutiveRun).shared := by
  have alone :
      (sampleHost.system.restrict StartsAlone).Reachable (sampleHost.after consecutiveRun) :=
    Host.reachable_after_guarded (by decide)
  have reachable := alone.restrict_mono fun _ _ => StartsAlone.startsOnOwn
  exact ⟨reachable, Host.foundPristine_of_startsOnOwn reachable⟩

/-- Two sessions at the same time; the first changes a file before crun starts the
container of the second. -/
def overlappingRun : List (HostLabel Unit Bool) :=
  actsOf firstLogin (startUp ++ enterRelay [firstLogin]) ++
    [.env (.written firstLogin () (some true))] ++
    actsOf secondLogin (startUp ++ enterRelay [secondLogin, firstLogin])

theorem container_found_writes :
    ¬ ∀ (host : Host Bytes Unit Bool) (state : Global Bytes Unit Bool),
      host.system.Reachable state → host.FoundPristine state.shared := by
  intro always
  have reachable : sampleHost.system.Reachable (sampleHost.after overlappingRun) :=
    Host.reachable_after (by decide)
  have recorded : ((sampleHost.after overlappingRun).shared.seen secondLogin).map (· ()) =
      some (some true) := by decide
  rcases Option.map_eq_some_iff.mp recorded with ⟨tree, seen, content⟩
  have pristine := always sampleHost _ reachable secondLogin tree seen
  rw [pristine] at content
  cases content

end Caal

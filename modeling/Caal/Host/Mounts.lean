import Caal.Host.Model
import Mathlib.Data.Set.Card

/-!
# Overlays on a shared mount point

Sessions of one bundle mount their overlays on the same directory, and each of them detaches
the topmost mount there. As many overlays lie on the directory as there are sessions between
their mount and their own `umount2`.
-/

namespace Caal

open CMemory LTS Overlay

/-- The container was started on the root; it may have ended since. -/
def Child.RanOn (root : List SessionKey) : Child → Prop
  | .running on => on = root
  | .ended => True
  | .exited => True
  | _ => False

/-! ## The overlay of one session -/

/-- The points between the overlay mount and the `umount2` of the session. -/
def Point.mounted : Point → Bool
  | .unlinkSock _ => true
  | .umountOverlay _ => true
  | point => point.phase.inner && point.phase != .query && point.phase != .setup

theorem Point.mounted_of_phase {point : Point} {phase : Phase} (here : point.phase = phase)
    (plain : phase.plain = true) : point.mounted = (phase != .query && phase != .setup) := by
  subst here
  cases point <;> first | rfl | cases plain

/-- The `umount2` of the overlay. -/
def Point.unmounts : Point → Bool
  | .umountOverlay _ => true
  | _ => false

namespace Proc

/-- The session holds an overlay exactly between its mount and its own `umount2`. -/
def Mounting (proc : Proc) : Prop :=
  proc.holds.overlay = .held ↔ proc.point.mounted = true

theorem Mounting.start (config : Config) : (start config).Mounting := by
  rw [Mounting, Proc.start]
  have absent : Hold.absent ≠ Hold.held := by decide
  split
  · exact iff_of_false absent Bool.false_ne_true
  · exact iff_of_false absent Bool.false_ne_true

/-- The overlay is left alone away from the two calls that concern it. -/
theorem effect_overlay_eq {point : Point} (outcome : Outcome) (proc : Proc)
    (away : point ≠ .mountOverlay ∧ ∀ site, point ≠ .umountOverlay site) :
    (proc.effect point outcome).holds.overlay = proc.holds.overlay := by
  cases point with
  | mountOverlay => exact (away.1 rfl).elim
  | umountOverlay site => exact (away.2 site rfl).elim
  | _ => cases outcome <;> rfl

private theorem mounting_of_eq {proc : Proc} {point next : Point} {outcome : Outcome}
    (mounting : proc.holds.overlay = .held ↔ point.mounted = true)
    (kept : (proc.effect point outcome).holds.overlay = proc.holds.overlay)
    (same : next.mounted = point.mounted) :
    (proc.effect point outcome).holds.overlay = .held ↔ next.mounted = true := by
  rw [kept, same]
  exact mounting

theorem Mounting.call {config : Config} {proc after : Proc} {outcome : Outcome}
    (mounting : proc.Mounting) (called : proc.call config outcome = some after) :
    after.Mounting := by
  rcases call_move called with ⟨next, move, _, rfl⟩
  clear called
  rw [Mounting] at mounting ⊢
  generalize proc.point = point at move mounting ⊢
  change (proc.effect point outcome).holds.overlay = .held ↔ next.mounted = true
  cases move with
  | within same inside neutral =>
      refine mounting_of_eq mounting (neutral.overlay proc) ?_
      rw [Point.mounted_of_phase rfl inside, Point.mounted_of_phase same inside]
  | setupFailed setup neutral =>
      exact mounting_of_eq mounting (neutral.overlay proc)
        (Point.mounted_of_phase setup rfl).symm
  | mounted => exact ⟨fun _ => rfl, fun _ => rfl⟩
  | socketFailed starting neutral =>
      exact mounting_of_eq mounting (neutral.overlay proc)
        (Point.mounted_of_phase starting rfl).symm
  | forked =>
      refine mounting_of_eq mounting rfl ?_
      rw [Point.started]
      split <;> rfl
  | timerForked => cases outcome <;> exact mounting
  | consoleFailed console neutral =>
      exact mounting_of_eq mounting (neutral.overlay proc)
        (Point.mounted_of_phase console rfl).symm
  | relayLeft leaves relay neutral =>
      exact mounting_of_eq mounting (neutral.overlay proc)
        (Point.mounted_of_phase relay rfl).symm
  | relayEnded neutral => exact mounting_of_eq mounting (neutral.overlay proc) rfl
  | waited => exact mounting_of_eq mounting rfl (by cases (proc.timer == .running) <;> rfl)
  | waitCut => exact mounting_of_eq mounting rfl (by cases (proc.timer == .running) <;> rfl)
  | cleaned neutral => exact mounting_of_eq mounting (neutral.overlay proc) rfl
  | overlayUnmounted site =>
      constructor
      · intro held
        cases held
      · intro mounted
        cases mounted
  | rmUnforked site => exact mounting_of_eq mounting rfl (by cases site <;> rfl)
  | rmWaited site => exact mounting_of_eq mounting rfl (by cases site <;> rfl)
  | rmWaitCut site => exact mounting_of_eq mounting rfl (by cases site <;> rfl)
  | _ => exact mounting_of_eq mounting rfl rfl

theorem unmounted_of_ended {proc : Proc} (ended : proc.Ended) :
    ¬ proc.point.mounted = true := by
  rw [Ended] at ended
  cases point : proc.point with
  | exited code => nofun
  | killed signal => nofun
  | _ => simp only [point] at ended

/-- A step that does not kill the session. -/
theorem Mounting.step {config : Config} {proc next : Proc} {act : Act} (mounting : proc.Mounting)
    (survives : ∀ signal, act = .signal signal → signal = .winch ∨ proc.handles signal = true)
    (step : proc.step config act = some next) : next.Mounting := by
  rcases step_cases step with ⟨outcome, _, called⟩ | ⟨signal, signalled, _, rfl⟩ |
    ⟨event, holds, _, progressed, rfl⟩
  · exact mounting.call called
  · rw [Mounting, holds_deliver, point_deliver_of_handled (survives signal signalled)]
    exact mounting
  · change holds.overlay = .held ↔ _
    rw [(Holdings.progress_spec progressed).overlay]
    exact mounting

end Proc

variable {Place Name Content : Type} [DecidableEq Place] {host : Host Place Name Content}
  {beneath : Place → Place → Bool}

namespace Host

/-! ## The overlays of a host -/

/-- What a step of a session does to its overlay and to the mounts. -/
inductive Overlaid (host : Host Place Name Content) (beneath : Place → Place → Bool)
    (key : SessionKey) (proc : Proc) (disk : Disk Place SessionKey Name Content) (act : Act) :
    Hold → Disk Place SessionKey Name Content → Prop where
  | kept {after : Disk Place SessionKey Name Content} (same : after.mounts = disk.mounts)
      (unmounted : proc.point = .mountOverlay → act ≠ .call .ok)
      (undetached : proc.point.unmounts = true → ∀ outcome, act ≠ .call outcome) :
      Overlaid host beneath key proc disk act proc.holds.overlay after
  | mounted (here : proc.point = .mountOverlay) (called : act = .call .ok) :
      Overlaid host beneath key proc disk act .held (disk.mount beneath (host.target key) key)
  | detached (site : Site) (here : proc.point = .umountOverlay site) (called : act = .call .ok)
      (covered : disk.covers beneath (host.target key) = true) :
      Overlaid host beneath key proc disk act .released (disk.umount beneath (host.target key))
  | undetached (site : Site) (here : proc.point = .umountOverlay site)
      (called : act = .call .fail) :
      Overlaid host beneath key proc disk act .released disk

private theorem overlaid_of_call {key : SessionKey} {proc next : Proc} {outcome : Outcome}
    {shared after : Shared Place Name Content}
    (called : proc.call (host.config key) outcome = some next)
    (performed : host.Performed beneath key shared proc.point (.call outcome) after) :
    host.Overlaid beneath key proc shared.disk (.call outcome) next.holds.overlay after.disk := by
  rcases Proc.call_eq_some.mp called with ⟨_, point', moved, rfl⟩
  change host.Overlaid beneath key proc shared.disk (.call outcome)
    (proc.effect proc.point outcome).holds.overlay after.disk
  generalize here : proc.point = point at performed moved ⊢
  have kept {after : Disk Place SessionKey Name Content} (same : after.mounts = shared.disk.mounts)
      (overlay : (proc.effect point outcome).holds.overlay = proc.holds.overlay)
      (unmounted : point = .mountOverlay → outcome ≠ .ok) (undetached : point.unmounts = false) :
      host.Overlaid beneath key proc shared.disk (.call outcome)
        (proc.effect point outcome).holds.overlay after := by
    rw [overlay]
    refine .kept same ?_ ?_
    · intro mounts called
      cases called
      exact unmounted (here.symm.trans mounts) rfl
    · intro unmounts
      rw [here, undetached] at unmounts
      cases unmounts
  cases performed with
  | silent quiet =>
      cases point with
      | mountOverlay =>
          rcases Outcome.checked_eq_some.mp moved with ⟨rfl, _⟩ | ⟨rfl, _⟩
          · cases quiet
          · exact kept rfl rfl nofun rfl
      | umountOverlay site =>
          rcases Outcome.unchecked_eq_some.mp moved with ⟨rfl | rfl, _⟩
          · cases quiet
          · exact .undetached site here rfl
      | _ => exact kept rfl (Proc.effect_overlay_eq outcome proc ⟨nofun, nofun⟩) nofun rfl
  | counted told => exact kept rfl rfl nofun rfl
  | registered told served =>
      rcases told with rfl | rfl
      · exact kept rfl rfl nofun rfl
      · exact kept rfl rfl nofun rfl
  | unregistered told served =>
      rcases told with rfl | rfl
      · exact kept rfl rfl nofun rfl
      · exact kept rfl rfl nofun rfl
  | mounted => exact .mounted here rfl
  | unmounted site covered => exact .detached site here rfl covered

/-- A step of a session mounts its overlay, detaches the topmost one, or leaves all mounts
as they are. -/
theorem overlaid_of_step {key : SessionKey} {proc next : Proc} {action : Act}
    {shared after : Shared Place Name Content}
    (step : proc.step (host.config key) action = some next)
    (performed : host.perform beneath key proc shared action = some after) :
    host.Overlaid beneath key proc shared.disk action next.holds.overlay after.disk := by
  rcases Proc.step_cases step with ⟨outcome, rfl, called⟩ | ⟨signal, rfl, _, rfl⟩ |
    ⟨event, holds, rfl, progressed, rfl⟩
  · exact overlaid_of_call called (performed_of_perform performed)
  · cases performed
    rw [Proc.holds_deliver]
    exact .kept rfl (fun _ => nofun) fun _ _ => nofun
  · change host.Overlaid beneath key proc shared.disk _ holds.overlay after.disk
    rw [(Holdings.progress_spec progressed).overlay]
    refine .kept ?_ (fun _ => nofun) fun _ _ => nofun
    have performed := performed_of_perform performed
    generalize proc.point = point at performed
    cases performed with
    | silent quiet => rfl
    | started resolved => rfl

omit [DecidableEq Place] in
/-- The path of the bundle's rootfs fits the buffer of `container_t`, so the overlay is
mounted where crun looks for it. -/
theorem target_eq_root {key : SessionKey} (fits : (host.config key).rootfs.length ≤ 127) :
    host.target key = host.root key := by
  rw [target, Config.mountPoint, List.take_of_length_le fits]
  rfl

/-- The sessions of a bundle between their overlay mount and their own `umount2`. -/
def holders (host : Host Place Name Content) (state : Global Place Name Content)
    (place : Place) : Set SessionKey :=
  {key | (state.procs key).holds.overlay = .held ∧ host.root key = place}

/-- On each directory lie as many overlays as sessions hold there. -/
def Counted (host : Host Place Name Content) (state : Global Place Name Content) : Prop :=
  ∀ place, (host.holders state place).encard = (state.shared.disk.stack place).length

theorem counted_start : host.Counted host.start := by
  intro place
  have nobody : host.holders host.start place = ∅ := by
    ext key
    exact ⟨fun held => (nomatch held.1), False.elim⟩
  rw [nobody, Set.encard_empty]
  rfl

section Counting

variable {state after : Global Place Name Content} {key : SessionKey}

omit [DecidableEq Place] in
theorem holders_of_same {place : Place}
    (others : ∀ other, other ≠ key → after.procs other = state.procs other)
    (same : host.root key = place →
      ((after.procs key).holds.overlay = .held ↔ (state.procs key).holds.overlay = .held)) :
    host.holders after place = host.holders state place := by
  ext other
  by_cases mine : other = key
  · subst mine
    exact ⟨fun held => ⟨(same held.2).mp held.1, held.2⟩,
      fun held => ⟨(same held.2).mpr held.1, held.2⟩⟩
  · change (after.procs other).holds.overlay = .held ∧ _ ↔ _
    rw [others other mine]
    exact Iff.rfl

omit [DecidableEq Place] in
theorem holders_of_mount (others : ∀ other, other ≠ key → after.procs other = state.procs other)
    (held : (after.procs key).holds.overlay = .held) :
    host.holders after (host.root key) = insert key (host.holders state (host.root key)) := by
  ext other
  rw [Set.mem_insert_iff]
  by_cases mine : other = key
  · subst mine
    exact ⟨fun _ => .inl rfl, fun _ => ⟨held, rfl⟩⟩
  · change (after.procs other).holds.overlay = .held ∧ _ ↔ _
    rw [others other mine]
    exact ⟨.inr, fun inside => inside.resolve_left mine⟩

omit [DecidableEq Place] in
theorem holders_of_umount
    (others : ∀ other, other ≠ key → after.procs other = state.procs other)
    (held : (state.procs key).holds.overlay = .held)
    (released : (after.procs key).holds.overlay = .released) :
    host.holders state (host.root key) = insert key (host.holders after (host.root key)) ∧
      key ∉ host.holders after (host.root key) := by
  have gone : key ∉ host.holders after (host.root key) :=
    fun inside => nomatch released.symm.trans inside.1
  exact ⟨holders_of_mount (fun other mine => (others other mine).symm) held, gone⟩

end Counting

/-- caalsh is not killed by a signal, and `umount2` succeeds where something is mounted. -/
def Unkilled (host : Host Place Name Content) (state : Global Place Name Content) :
    HostLabel Name Content → Prop
  | .act key (.signal signal) => signal = .winch ∨ (state.procs key).handles signal = true
  | .act key (.call .fail) => (state.procs key).point.unmounts = true →
      state.shared.disk.stack (host.target key) = []
  | _ => True

/-- Every mount is an overlay of some session, on the mount point of some session. -/
def Sited (host : Host Place Name Content) (disk : Disk Place SessionKey Name Content) : Prop :=
  ∀ mount ∈ disk.mounts, mount.chain ≠ [] ∧ ∃ key, mount.place = host.target key

/-- No bundle lies beneath the rootfs of another. -/
def Apart (host : Host Place Name Content) (beneath : Place → Place → Bool) : Prop :=
  ∀ key other, beneath (host.target key) (host.target other) = false

omit [DecidableEq Place] in
theorem Sited.apart {disk : Disk Place SessionKey Name Content} (sited : host.Sited disk)
    (apart : host.Apart beneath) (key : SessionKey) :
    (∀ mount ∈ disk.mounts, beneath mount.place (host.target key) = false) ∧
      ∀ mount ∈ disk.mounts, beneath (host.target key) mount.place = false := by
  constructor
  · intro mount member
    rcases (sited mount member).2 with ⟨other, here⟩
    rw [here]
    exact apart other key
  · intro mount member
    rcases (sited mount member).2 with ⟨other, here⟩
    rw [here]
    exact apart key other

theorem Sited.act {key : SessionKey} {proc : Proc} {action : Act} {overlay : Hold}
    {disk after : Disk Place SessionKey Name Content} (sited : host.Sited disk)
    (overlaid : host.Overlaid beneath key proc disk action overlay after) :
    host.Sited after := by
  cases overlaid with
  | kept same unmounted undetached =>
      rw [Sited, same]
      exact sited
  | mounted here called =>
      exact List.forall_mem_cons.mpr ⟨⟨List.cons_ne_nil _ _, key, rfl⟩, sited⟩
  | detached site here called covered =>
      exact fun mount member => sited mount ((Disk.detach_sublist _).subset member)
  | undetached site here called => exact sited

/-- A step of a session keeps the count. -/
theorem Counted.act {state after : Global Place Name Content} {key : SessionKey} {action : Act}
    (counted : host.Counted state) (fits : (host.config key).rootfs.length ≤ 127)
    (apart : ∀ mount ∈ state.shared.disk.mounts, beneath mount.place (host.target key) = false)
    (built : (state.procs key).Built) (mounting : (state.procs key).Mounting)
    (unkilled : host.Unkilled state (.act key action))
    (others : ∀ other, other ≠ key → after.procs other = state.procs other)
    (overlaid : host.Overlaid beneath key (state.procs key) state.shared.disk action
      (after.procs key).holds.overlay after.shared.disk) : host.Counted after := by
  have aimed := target_eq_root fits
  intro place
  generalize now : (after.procs key).holds.overlay = overlay at overlaid
  generalize disk : after.shared.disk = layers at overlaid
  cases overlaid with
  | kept same unmounted undetached =>
      have holders : host.holders after place = host.holders state place :=
        holders_of_same others fun _ => by rw [now]
      rw [holders, Disk.stack_congr same]
      exact counted place
  | mounted here called =>
      rw [Disk.stack_mount]
      by_cases mine : host.root key = place
      · subst mine
        have unheld : key ∉ host.holders state (host.root key) := by
          intro held
          have setUp := built.setUp
          rw [here] at setUp
          cases setUp.2.symm.trans held.1
        rw [holders_of_mount others now, Set.encard_insert_of_notMem unheld, counted, aimed,
          Function.update_self]
        exact Nat.cast_succ _
      · rw [holders_of_same others fun same => (mine same).elim, counted, aimed,
          Function.update_of_ne (Ne.symm mine)]
  | detached site here called covered =>
      have held : (state.procs key).holds.overlay = .held := mounting.mpr (by rw [here]; rfl)
      rw [Disk.stack_umount apart]
      by_cases mine : host.root key = place
      · subst mine
        rcases holders_of_umount others held now with ⟨before, gone⟩
        have count := counted (host.root key)
        have covered := Disk.stack_ne_nil_of_covers covered
        rw [aimed] at covered
        rw [before, Set.encard_insert_of_notMem gone] at count
        rcases List.exists_cons_of_ne_nil covered with ⟨top, below, stack⟩
        rw [stack, List.length_cons, Nat.cast_succ] at count
        rw [aimed, Function.update_self, stack, List.tail_cons]
        exact ENat.add_left_injective_of_ne_top ENat.one_ne_top count
      · rw [holders_of_same others fun same => (mine same).elim, counted, aimed,
          Function.update_of_ne (Ne.symm mine)]
  | undetached site here called =>
      have held : (state.procs key).holds.overlay = .held := mounting.mpr (by rw [here]; rfl)
      rw [called] at unkilled
      have bare := unkilled (by rw [here]; rfl)
      have nobody := counted (host.root key)
      rw [← aimed, bare, aimed] at nobody
      have empty := Set.encard_eq_zero.mp nobody
      have mine : key ∈ host.holders state (host.root key) := ⟨held, rfl⟩
      rw [empty] at mine
      exact mine.elim

variable [DecidableEq Name]

omit [DecidableEq Place] in
theorem mounts_of_environ {procs : SessionKey → Proc} {shared after : Shared Place Name Content}
    {event : HostEvent Name Content} (moved : host.environ procs shared event = some after) :
    after.disk.mounts = shared.disk.mounts := by
  cases event with
  | written key name content =>
      rw [environ] at moved
      split at moved
      case h_1 root running =>
        split at moved
        · cases moved
          exact shared.disk.mounts_write name content root
        · cases moved
      case h_2 => cases moved
  | _ =>
      cases moved
      rfl

theorem mounting_of_unkilled {state : Global Place Name Content}
    (reachable : ((host.systemIn beneath).restrict host.Unkilled).Reachable state)
    (key : SessionKey) :
    (state.procs key).Mounting := by
  have run : ((session (host.config key)).restrict fun proc act =>
      ∀ signal, act = .signal signal → signal = .winch ∨ proc.handles signal = true).Reachable
      (state.procs key) := by
    apply reachable_session reachable
    intro state action unkilled signal signalled
    rw [signalled] at unkilled
    exact unkilled
  apply run.invariant
  · intro start initial
    cases initial
    exact .start _
  · intro proc act next mounting step
    exact mounting.step step.1 step.2

/-- The invariant: as many overlays as holders. -/
theorem counted_of_unkilled {state : Global Place Name Content}
    (fits : ∀ key, (host.config key).rootfs.length ≤ 127) (apart : host.Apart beneath)
    (reachable : ((host.systemIn beneath).restrict host.Unkilled).Reachable state) :
    host.Counted state ∧ host.Sited state.shared.disk := by
  apply reachable.invariant_within
  · intro start init
    cases eq_start_of_init init
    exact ⟨counted_start, fun mount member => nomatch member⟩
  · intro state label after reached held step
    cases label with
    | act key action =>
        rcases step_act step.2 with ⟨moved, performed, others⟩
        have overlaid := overlaid_of_step moved performed
        exact ⟨held.1.act (fits key) (held.2.apart apart key).1 (built reached key)
          (mounting_of_unkilled reached key) step.1 others overlaid, held.2.act overlaid⟩
    | env event =>
        rcases step_env step.2 with ⟨moved, procs⟩
        have mounts := mounts_of_environ moved
        rw [Counted, Sited, mounts]
        refine ⟨?_, held.2⟩
        intro place
        rw [Disk.stack_congr mounts, holders, procs]
        exact held.1 place

/-- A container keeps the root filesystem it was started on. -/
theorem ranOn_of_run {state finish : Global Place Name Content} {key : SessionKey}
    {root : List SessionKey} {labels : List (HostLabel Name Content)}
    (reachable : (host.systemIn beneath).Reachable state)
    (run : (host.systemIn beneath).Run state labels finish)
    (running : (state.procs key).holds.child = .running root) :
    (finish.procs key).holds.child.RanOn root := by
  have kept : (host.systemIn beneath).Reachable finish ∧
      (finish.procs key).holds.child.RanOn root := by
    apply run.preserves
    · refine ⟨reachable, ?_⟩
      rw [running]
      rfl
    · intro state label next held _ step
      refine ⟨held.1.step step, ?_⟩
      cases label with
      | act other action =>
          rcases step_act step with ⟨moved, _, others⟩
          by_cases same : key = other
          · subst same
            have everywhere := held.1.restrict_of_forall fun _ _ => trivial
            have change := Proc.step_child (built everywhere key) moved
            generalize (next.procs key).holds.child = now at change ⊢
            cases change with
            | same => exact held.2
            | forked here called absent =>
                rw [absent] at held
                exact held.2.elim
            | started event forked =>
                rw [forked] at held
                exact held.2.elim
            | ended running => trivial
            | exited event alive => trivial
          · rw [others key same]
            exact held.2
      | env event =>
          rw [(step_env step).2]
          exact held.2
  exact kept.2

/-- What a container whose root filesystem is covered writes does not reach the bundle. -/
theorem base_of_written {state after : Global Place Name Content} {key : SessionKey}
    {root : List SessionKey} {name : Name} {content : Option Content}
    (ran : (state.procs key).holds.child.RanOn root) (covered : root ≠ [])
    (step : (host.systemIn beneath).step state (.env (.written key name content)) after) :
    after.shared.disk.base = state.shared.disk.base := by
  have moved := (step_env step).1
  rw [environ] at moved
  cases child : (state.procs key).holds.child with
  | running on =>
      rw [child] at ran moved
      cases ran
      rcases List.exists_cons_of_ne_nil covered with ⟨owner, lower, rfl⟩
      dsimp only at moved
      split at moved
      · rw [← Option.some.inj moved]
        rfl
      · cases moved
  | _ =>
      rw [child] at moved
      cases moved

omit [DecidableEq Name] in
/-- A path is resolved when crun starts. -/
theorem resolved_of_crunStarted {key : SessionKey} {proc : Proc} {root : List SessionKey}
    {shared after : Shared Place Name Content}
    (performed : host.perform beneath key proc shared (.child (.crunStarted root)) = some after) :
    root = shared.disk.top beneath (host.root key) := by
  rw [perform] at performed
  split at performed
  case isTrue resolved => exact resolved
  case isFalse => cases performed

omit [DecidableEq Name] in
/-- Where a session holds an overlay, the path resolves to an overlay. -/
theorem top_ne_nil {state : Global Place Name Content} {key : SessionKey}
    (counted : host.Counted state) (sited : host.Sited state.shared.disk)
    (apart : ∀ mount ∈ state.shared.disk.mounts, beneath (host.root key) mount.place = false)
    (held : (state.procs key).holds.overlay = .held) :
    state.shared.disk.top beneath (host.root key) ≠ [] := by
  have mine : key ∈ host.holders state (host.root key) := ⟨held, rfl⟩
  have count := counted (host.root key)
  rw [Disk.top_eq apart]
  cases stack : state.shared.disk.stack (host.root key) with
  | nil =>
      rw [stack] at count
      rw [Set.encard_eq_zero.mp count] at mine
      exact mine.elim
  | cons top below =>
      have member : top ∈ state.shared.disk.stack (host.root key) := by
        rw [stack]
        exact List.mem_cons_self
      rcases Disk.mem_stack member with ⟨mount, inside, _, rfl⟩
      exact (sited mount inside).1

/-- The base images are never the writable layer: as many overlays lie on a directory as there
are sessions between their overlay mount and their own `umount2`; crun finds an overlay there as
long as its session has not detached one, and then its container never writes to the files
below; and when all sessions have ended nothing is mounted. -/
structure Covering (host : Host Place Name Content) (beneath : Place → Place → Bool)
    (state : Global Place Name Content) : Prop where
  counted : host.Counted state
  covers : ∀ key root after, (state.procs key).holds.overlay = .held →
    (host.systemIn beneath).step state (.act key (.child (.crunStarted root))) after →
    root ≠ [] ∧ ∀ labels finish name content last, (host.systemIn beneath).Run after labels finish →
      (host.systemIn beneath).step finish (.env (.written key name content)) last →
      last.shared.disk.base = finish.shared.disk.base
  bare : (∀ key, (state.procs key).holds.overlay ≠ .absent → (state.procs key).Ended) →
    ∀ place, state.shared.disk.stack place = []

/-- While no bundle lies beneath the rootfs of another, an overlay covers each rootfs that a
session is using. -/
theorem overlays_cover (fits : ∀ key, (host.config key).rootfs.length ≤ 127)
    (apart : host.Apart beneath) {state : Global Place Name Content}
    (reachable : ((host.systemIn beneath).restrict host.Unkilled).Reachable state) :
    host.Covering beneath state := by
  rcases counted_of_unkilled fits apart reachable with ⟨counted, sited⟩
  constructor
  case counted => exact counted
  case covers =>
    intro key root after held step
    rcases step_act step with ⟨moved, performed, _⟩
    have clear := (sited.apart apart key).2
    rw [target_eq_root (fits key)] at clear
    have covered : root ≠ [] := by
      rw [resolved_of_crunStarted performed]
      exact top_ne_nil counted sited clear held
    refine ⟨covered, ?_⟩
    intro labels finish name content last run written
    have running := Proc.running_of_crunStarted moved
    have ran := ranOn_of_run (reachable.of_restrict.step step) run running
    exact base_of_written ran covered written
  case bare =>
    intro ended place
    have nobody : host.holders state place = ∅ := by
      apply Set.eq_empty_of_forall_notMem
      intro key held
      have mounted := (mounting_of_unkilled reachable key).mp held.1
      have gone := ended key (by rw [held.1]; nofun)
      exact Proc.unmounted_of_ended gone mounted
    have none := counted place
    rw [nobody, Set.encard_empty] at none
    exact List.eq_nil_of_length_eq_zero (Nat.cast_eq_zero.mp none.symm)

end Host

instance (host : Host Bytes Unit Bool) (state : Global Bytes Unit Bool) :
    (label : HostLabel Unit Bool) → Decidable (host.Unkilled state label)
  | .act _ (.signal _) => inferInstanceAs (Decidable (_ ∨ _))
  | .act _ (.call .fail) => inferInstanceAs (Decidable (_ → _))
  | .act _ (.call .ok) => isTrue trivial
  | .act _ (.call .intr) => isTrue trivial
  | .act _ (.call (.counted _)) => isTrue trivial
  | .act _ (.call (.fallback _)) => isTrue trivial
  | .act _ (.call (.ready _ _)) => isTrue trivial
  | .act _ (.call (.answered _)) => isTrue trivial
  | .act _ (.call (.lost _)) => isTrue trivial
  | .act _ (.child _) => isTrue trivial
  | .env _ => isTrue trivial

/-- A path lies beneath a directory. -/
def pathBeneath (path directory : Bytes) : Bool :=
  (directory ++ [47]).isPrefixOf path

/-- Two sessions of one bundle; the one that mounted first ends first. -/
def crossedRun : List (HostLabel Unit Bool) :=
  actsOf firstLogin (startUp ++ enterRelay [firstLogin]) ++
    actsOf secondLogin (startUp ++ enterRelay [secondLogin, firstLogin]) ++
    actsOf firstLogin (endRelay ++ leave)

theorem overlays_cover_crossed :
    (sampleHost.holders (sampleHost.afterIn pathBeneath crossedRun)
      (sampleHost.root secondLogin)).encard = 1 := by
  have reachable : ((sampleHost.systemIn pathBeneath).restrict sampleHost.Unkilled).Reachable
      (sampleHost.afterIn pathBeneath crossedRun) := Host.reachable_after_guarded (by decide)
  have one : ((sampleHost.afterIn pathBeneath crossedRun).shared.disk.stack
      (sampleHost.root secondLogin)).length = 1 := by decide
  have fits : plainConfig.rootfs.length ≤ 127 := by decide
  have apart : sampleHost.Apart pathBeneath := by
    intro key other
    change pathBeneath plainConfig.mountPoint plainConfig.mountPoint = false
    decide
  have counted := (Host.overlays_cover (fun _ => fits) apart reachable).counted
  rw [counted, one]
  rfl

/-- A host where the bundle of every session but the first lies in the rootfs of the first
one's. -/
def nestedHost : Host Bytes Unit Bool :=
  { sampleHost with
    config := fun key =>
      if key = firstLogin then plainConfig
      else { plainConfig with bundle := ascii "/b/rootfs/c" } }

/-- The second session mounts its overlay inside the first one's, which takes it along when the
first session ends. -/
def takenAlong : List (HostLabel Unit Bool) :=
  actsOf firstLogin (startUp ++ enterRelay [firstLogin]) ++ actsOf secondLogin startUp ++
    actsOf firstLogin (endRelay ++ leave)

/-- Then crun starts the second container on the bundle itself. -/
theorem nested_overlay_taken :
    ¬ ∀ (host : Host Bytes Unit Bool) (state : Global Bytes Unit Bool),
      (∀ key, (host.config key).rootfs.length ≤ 127) →
      ((host.systemIn pathBeneath).restrict host.Unkilled).Reachable state →
      host.Covering pathBeneath state := by
  intro always
  have fits : ∀ key, (nestedHost.config key).rootfs.length ≤ 127 := by
    intro key
    change (if key = firstLogin then plainConfig
      else { plainConfig with bundle := ascii "/b/rootfs/c" }).rootfs.length ≤ 127
    split <;> decide
  have reachable : ((nestedHost.systemIn pathBeneath).restrict nestedHost.Unkilled).Reachable
      (nestedHost.afterIn pathBeneath takenAlong) := Host.reachable_after_guarded (by decide)
  have starts : (nestedHost.systemIn pathBeneath).step (nestedHost.afterIn pathBeneath takenAlong)
      (.act secondLogin (.child (.crunStarted []))) _ := Host.step_after (by decide)
  have covering := always nestedHost _ fits reachable
  exact (covering.covers secondLogin [] _ (by decide) starts).1 rfl

end Caal

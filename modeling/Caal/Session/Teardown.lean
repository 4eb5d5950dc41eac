import Caal.Session.Phases

/-!
# The teardown of a session

`container_stop` and the error exits of `container_start` release what was set up.
As long as no signal ends the process or cuts a `waitpid` of the teardown short, it
is all released when the process ends.
-/

namespace Caal

/-- The helper process has been waited for, if it could be forked. -/
def Helper.Settled (helper : Helper) : Prop :=
  helper = .done ∨ helper = .unforked

instance (helper : Helper) : Decidable helper.Settled :=
  inferInstanceAs (Decidable (_ ∨ _))

/-- The `waitpid` for the helper process will not return before it has ended. -/
def Helper.Attended (helper : Helper) (interrupted : Bool) : Prop :=
  helper.Settled ∨ helper = .running ∧ interrupted = false

theorem Helper.Attended.settled {helper : Helper} {interrupted : Bool}
    (attended : helper.Attended interrupted) (cut : interrupted = true) : helper.Settled := by
  rcases attended with settled | ⟨_, uncut⟩
  · exact settled
  · rw [uncut] at cut
    cases cut

theorem Helper.Attended.of_not_running {helper : Helper} {before after : Bool}
    (attended : helper.Attended before) (ended : helper ≠ .running) : helper.Attended after := by
  rcases attended with settled | ⟨running, _⟩
  · exact .inl settled
  · exact (ended running).elim

namespace Holdings

/-- All that `container_start` set up has been taken down: each call of the teardown
has returned, and its helper processes have ended. -/
structure Released (holds : Holdings) : Prop where
  overlay : holds.overlay = .released
  disk : holds.disk = .released
  image : holds.image = .released
  rm : holds.rm.Settled
  started : holds.child ≠ .absent → holds.sock = .released ∧ holds.delete.Settled

instance (holds : Holdings) : Decidable holds.Released :=
  decidable_of_iff
    (holds.overlay = .released ∧ holds.disk = .released ∧ holds.image = .released ∧
      holds.rm.Settled ∧
      (holds.child ≠ .absent → holds.sock = .released ∧ holds.delete.Settled))
    ⟨fun ⟨overlay, disk, image, rm, started⟩ => ⟨overlay, disk, image, rm, started⟩,
      fun ⟨overlay, disk, image, rm, started⟩ => ⟨overlay, disk, image, rm, started⟩⟩

/-- The teardown is entered without a crun child only from an error of
`container_start`. -/
def EnteredFrom (holds : Holdings) : Site → Prop
  | .startFailed => holds.child = .absent
  | .stop _ => holds.child ≠ .absent

/-- The console socket of a started container is gone, and so is the overlay if it
was mounted. -/
structure Detached (holds : Holdings) : Prop where
  sock : holds.child ≠ .absent → holds.sock = .released
  overlay : holds.overlay ≠ .held

/-- The session disk is gone as well. -/
structure Discarded (holds : Holdings) : Prop extends Detached holds where
  disk : holds.disk = .released
  image : holds.image = .released

/-- What has been released at each point of an undisturbed teardown. -/
def TornDown (holds : Holdings) (interrupted : Bool) : Point → Prop
  | .unlinkSock site => holds.EnteredFrom site
  | .umountOverlay site =>
      holds.EnteredFrom site ∧ (holds.child ≠ .absent → holds.sock = .released)
  | .umountDisk site => holds.EnteredFrom site ∧ holds.Detached
  | .unlinkImage site => holds.EnteredFrom site ∧ holds.Detached ∧ holds.disk = .released
  | .forkRm site => holds.EnteredFrom site ∧ holds.Discarded
  | .waitRm site =>
      holds.EnteredFrom site ∧ holds.Discarded ∧ holds.rm.Attended interrupted
  | .forkDelete _ => holds.child ≠ .absent ∧ holds.Discarded ∧ holds.rm.Settled
  | .waitDelete _ =>
      holds.child ≠ .absent ∧ holds.Discarded ∧ holds.rm.Settled ∧
        holds.delete.Attended interrupted
  | .exited _ => holds.overlay ≠ .absent → holds.Released
  | .killed _ => holds.overlay ≠ .absent → holds.Released
  | _ => True

/-- Which of crun and the overlay are there in each phase of the way up. -/
def SetUp (holds : Holdings) : Phase → Prop
  | .query => holds.child = .absent ∧ holds.overlay = .absent
  | .setup => holds.child = .absent ∧ holds.overlay = .absent
  | .starting => holds.child = .absent ∧ holds.overlay ≠ .absent
  | .teardown => True
  | .over => True
  | _ => holds.child ≠ .absent

variable {holds after : Holdings}

theorem Discarded.of_eq (discarded : holds.Discarded) (child : after.child = holds.child)
    (sock : after.sock = holds.sock) (overlay : after.overlay = holds.overlay)
    (disk : after.disk = holds.disk) (image : after.image = holds.image) :
    after.Discarded where
  sock := by
    rw [child, sock]
    exact discarded.sock
  overlay := by
    rw [overlay]
    exact discarded.overlay
  disk := disk.trans discarded.disk
  image := image.trans discarded.image

theorem Discarded.released (discarded : holds.Discarded) (mounted : holds.overlay ≠ .absent)
    (rm : holds.rm.Settled) (delete : holds.child ≠ .absent → holds.delete.Settled) :
    holds.Released where
  overlay := by
    cases overlay : holds.overlay with
    | absent => exact (mounted overlay).elim
    | held => exact (discarded.overlay overlay).elim
    | released => rfl
  disk := discarded.disk
  image := discarded.image
  rm := rm
  started started := ⟨discarded.sock started, delete started⟩

theorem SetUp.of_eq {phase : Phase} (setUp : holds.SetUp phase)
    (child : after.child = holds.child) (overlay : after.overlay = holds.overlay) :
    after.SetUp phase := by
  cases phase <;> simp only [SetUp, child, overlay] at setUp ⊢ <;> exact setUp

theorem tornDown_of_inner {interrupted : Bool} {point : Point}
    (inner : point.phase.inner = true) : holds.TornDown interrupted point := by
  cases point <;> trivial

/-- The ways in which a child of a process goes on. -/
inductive ChildStep (holds : Holdings) : ChildEvent → Holdings → Prop where
  | started (root : List SessionKey) (forked : holds.child = .forked) :
      ChildStep holds (.crunStarted root) { holds with child := .running root }
  | ended {root : List SessionKey} (running : holds.child = .running root) :
      ChildStep holds .containerExited { holds with child := .ended }
  | exited (past : holds.child = .forked ∨ holds.child = .ended) :
      ChildStep holds .crunExited { holds with child := .exited }
  | removed (running : holds.rm = .running) :
      ChildStep holds .rmDone { holds with rm := .done, dir := .released }
  | forced {root : List SessionKey} (deleting : holds.delete = .running)
      (running : holds.child = .running root) :
      ChildStep holds .deleteDone { holds with delete := .done, child := .ended }
  | deleted (deleting : holds.delete = .running) :
      ChildStep holds .deleteDone { holds with delete := .done }

theorem childStep_of_progress {event : ChildEvent}
    (progressed : holds.progress event = some after) : holds.ChildStep event after := by
  cases event with
  | crunStarted root =>
      rw [progress] at progressed
      split at progressed
      case h_1 forked =>
        cases progressed
        exact .started root forked
      case h_2 => cases progressed
  | containerExited =>
      rw [progress] at progressed
      split at progressed
      case h_1 root running =>
        cases progressed
        exact .ended running
      case h_2 => cases progressed
  | crunExited =>
      rw [progress] at progressed
      split at progressed
      case h_1 forked =>
        cases progressed
        exact .exited (.inl forked)
      case h_2 ended =>
        cases progressed
        exact .exited (.inr ended)
      case h_3 => cases progressed
  | rmDone =>
      rw [progress] at progressed
      split at progressed
      case h_1 running =>
        cases progressed
        exact .removed running
      case h_2 => cases progressed
  | deleteDone =>
      rw [progress] at progressed
      split at progressed
      case h_1 root deleting running =>
        cases progressed
        exact .forced deleting running
      case h_2 deleting _ =>
        cases progressed
        exact .deleted deleting
      case h_3 => cases progressed

/-- What the children of a process can change of its holdings. -/
structure Progress (holds after : Holdings) : Prop where
  child : after.child = .absent ↔ holds.child = .absent
  sock : after.sock = holds.sock
  overlay : after.overlay = holds.overlay
  disk : after.disk = holds.disk
  image : after.image = holds.image
  rm : after.rm = holds.rm ∨ holds.rm = .running ∧ after.rm = .done
  delete : after.delete = holds.delete ∨ holds.delete = .running ∧ after.delete = .done

theorem progress_spec {event : ChildEvent} (progressed : holds.progress event = some after) :
    holds.Progress after := by
  cases childStep_of_progress progressed with
  | started root forked => exact ⟨by simp [forked], rfl, rfl, rfl, rfl, .inl rfl, .inl rfl⟩
  | ended running => exact ⟨by simp [running], rfl, rfl, rfl, rfl, .inl rfl, .inl rfl⟩
  | exited past =>
      have there : holds.child ≠ .absent := by
        rcases past with forked | ended
        · simp [forked]
        · simp [ended]
      exact ⟨by simp [there], rfl, rfl, rfl, rfl, .inl rfl, .inl rfl⟩
  | removed running => exact ⟨Iff.rfl, rfl, rfl, rfl, rfl, .inr ⟨running, rfl⟩, .inl rfl⟩
  | forced deleting running =>
      exact ⟨by simp [running], rfl, rfl, rfl, rfl, .inl rfl, .inr ⟨deleting, rfl⟩⟩
  | deleted deleting => exact ⟨Iff.rfl, rfl, rfl, rfl, rfl, .inl rfl, .inr ⟨deleting, rfl⟩⟩

/-- What the children of a process make of crun and its container. -/
theorem child_of_progress {holds after : Holdings} {event : ChildEvent}
    (progressed : holds.progress event = some after) :
    after.child = holds.child ∨
      (∃ root, event = .crunStarted root ∧ holds.child = .forked ∧ after.child = .running root) ∨
      (∃ root, holds.child = .running root ∧ after.child = .ended) ∨
      event = .crunExited ∧ (holds.child = .forked ∨ holds.child = .ended) ∧
        after.child = .exited := by
  cases childStep_of_progress progressed with
  | started root forked => exact .inr (.inl ⟨root, rfl, forked, rfl⟩)
  | @ended root running => exact .inr (.inr (.inl ⟨root, running, rfl⟩))
  | exited past => exact .inr (.inr (.inr ⟨rfl, past, rfl⟩))
  | removed running => exact .inl rfl
  | @forced root deleting running => exact .inr (.inr (.inl ⟨root, running, rfl⟩))
  | deleted deleting => exact .inl rfl

theorem exited_of_progress {holds after : Holdings} {event : ChildEvent}
    (progressed : holds.progress event = some after) (exited : holds.child = .exited) :
    after.child = .exited := by
  rcases child_of_progress progressed with same | ⟨_, _, forked, _⟩ | ⟨_, running, _⟩ |
    ⟨_, _, exits⟩
  · exact same.trans exited
  · cases exited.symm.trans forked
  · cases exited.symm.trans running
  · exact exits

theorem settled_of_progress {before after : Helper}
    (progress : after = before ∨ before = .running ∧ after = .done)
    (settled : before.Settled) : after.Settled := by
  rcases progress with same | ⟨_, done⟩
  · rw [same]
    exact settled
  · exact .inl done

theorem attended_of_progress {before after : Helper} {interrupted : Bool}
    (progress : after = before ∨ before = .running ∧ after = .done)
    (attended : before.Attended interrupted) :
    after.Attended interrupted := by
  rcases progress with same | ⟨_, done⟩
  · rw [same]
    exact attended
  · exact .inl (.inl done)

namespace Progress

variable (progress : holds.Progress after)

include progress

theorem enteredFrom {site : Site} (entered : holds.EnteredFrom site) :
    after.EnteredFrom site := by
  cases site with
  | startFailed => exact progress.child.mpr entered
  | stop code => exact fun absent => entered (progress.child.mp absent)

theorem detached (detached : holds.Detached) : after.Detached where
  sock started := by
    rw [progress.sock]
    exact detached.sock fun absent => started (progress.child.mpr absent)
  overlay := by
    rw [progress.overlay]
    exact detached.overlay

theorem discarded (discarded : holds.Discarded) : after.Discarded where
  toDetached := progress.detached discarded.toDetached
  disk := progress.disk.trans discarded.disk
  image := progress.image.trans discarded.image

theorem released (released : holds.Released) : after.Released where
  overlay := progress.overlay.trans released.overlay
  disk := progress.disk.trans released.disk
  image := progress.image.trans released.image
  rm := settled_of_progress progress.rm released.rm
  started started := by
    have settled := released.started fun absent => started (progress.child.mpr absent)
    exact ⟨progress.sock.trans settled.1, settled_of_progress progress.delete settled.2⟩

theorem started (started : holds.child ≠ .absent) : after.child ≠ .absent :=
  fun absent => started (progress.child.mp absent)

theorem setUp {phase : Phase} (setUp : holds.SetUp phase) : after.SetUp phase := by
  cases phase with
  | query => exact ⟨progress.child.mpr setUp.1, progress.overlay.trans setUp.2⟩
  | setup => exact ⟨progress.child.mpr setUp.1, progress.overlay.trans setUp.2⟩
  | starting => exact ⟨progress.child.mpr setUp.1, progress.overlay ▸ setUp.2⟩
  | teardown => trivial
  | «over» => trivial
  | _ => exact progress.started setUp

theorem tornDown {interrupted : Bool} {point : Point}
    (tornDown : holds.TornDown interrupted point) : after.TornDown interrupted point := by
  cases point with
  | unlinkSock site => exact progress.enteredFrom tornDown
  | umountOverlay site =>
      refine ⟨progress.enteredFrom tornDown.1, fun started => ?_⟩
      rw [progress.sock]
      exact tornDown.2 fun absent => started (progress.child.mpr absent)
  | umountDisk site => exact ⟨progress.enteredFrom tornDown.1, progress.detached tornDown.2⟩
  | unlinkImage site =>
      exact ⟨progress.enteredFrom tornDown.1, progress.detached tornDown.2.1,
        progress.disk.trans tornDown.2.2⟩
  | forkRm site => exact ⟨progress.enteredFrom tornDown.1, progress.discarded tornDown.2⟩
  | waitRm site =>
      exact ⟨progress.enteredFrom tornDown.1, progress.discarded tornDown.2.1,
        attended_of_progress progress.rm tornDown.2.2⟩
  | forkDelete code =>
      exact ⟨progress.started tornDown.1, progress.discarded tornDown.2.1,
        settled_of_progress progress.rm tornDown.2.2⟩
  | waitDelete code =>
      exact ⟨progress.started tornDown.1, progress.discarded tornDown.2.1,
        settled_of_progress progress.rm tornDown.2.2.1,
        attended_of_progress progress.delete tornDown.2.2.2⟩
  | exited code =>
      intro mounted
      rw [progress.overlay] at mounted
      exact progress.released (tornDown mounted)
  | killed signal =>
      intro mounted
      rw [progress.overlay] at mounted
      exact progress.released (tornDown mounted)
  | _ => trivial

end Progress

end Holdings

/-- The points at which the teardown waits for a helper process. -/
def Point.awaitsRm : Point → Bool
  | .waitRm _ => true
  | _ => false

def Point.awaitsDelete : Point → Bool
  | .waitDelete _ => true
  | _ => false

namespace Proc

@[simp] theorem holds_handler (proc : Proc) (signal : Signal) :
    (proc.handler signal).holds = proc.holds := by
  cases signal <;> rfl

@[simp] theorem point_handler (proc : Proc) (signal : Signal) :
    (proc.handler signal).point = proc.point := by
  cases signal <;> rfl

@[simp] theorem interrupted_handler (proc : Proc) (signal : Signal) :
    (proc.handler signal).interrupted = true := by
  cases signal <;> rfl

/-- What is there on the way up, in any run. -/
structure Built (proc : Proc) : Prop where
  setUp : proc.holds.SetUp proc.point.phase
  covered : proc.holds.child ≠ .absent → proc.holds.overlay ≠ .absent

theorem Built.start (config : Config) : (start config).Built := by
  refine ⟨?_, fun started => (started rfl).elim⟩
  rw [Proc.start]
  cases Int.decLt 0 config.maxSessions with
  | isTrue limited =>
      rw [if_pos limited]
      exact ⟨rfl, rfl⟩
  | isFalse unlimited =>
      rw [if_neg unlimited]
      exact ⟨rfl, rfl⟩

private theorem setUp_call {config : Config} {proc after : Proc} {outcome : Outcome}
    (built : proc.holds.SetUp proc.point.phase)
    (called : proc.call config outcome = some after) :
    after.holds.SetUp after.point.phase := by
  rcases call_move called with ⟨next, move, _, rfl⟩
  clear called
  generalize proc.point = point at move built ⊢
  change (proc.effect point outcome).holds.SetUp next.phase
  cases move with
  | within same inside neutral =>
      rw [← same] at built
      exact built.of_eq (neutral.child proc) (neutral.overlay proc)
  | mounted =>
      refine ⟨built.1, ?_⟩
      intro absent
      cases absent
  | forked =>
      have started : (proc.effect .forkCrun .ok).holds.child ≠ .absent := by
        intro absent
        cases absent
      rw [Point.started]
      split
      · exact started
      · exact started
  | relayLeft leaves relay neutral =>
      rw [relay] at built
      intro absent
      exact built ((neutral.child proc).symm.trans absent)
  | relayEnded neutral =>
      intro absent
      exact built ((neutral.child proc).symm.trans absent)
  | timerForked => cases outcome <;> exact built
  | waited =>
      rw [Point.phase_afterWait]
      exact built
  | waitCut =>
      rw [Point.phase_afterWait]
      exact built
  | rmUnforked site => cases site <;> trivial
  | rmWaited site => cases site <;> trivial
  | rmWaitCut site => cases site <;> trivial
  | _ => first | exact built | trivial

@[simp] theorem holds_deliver (proc : Proc) (signal : Signal) :
    (proc.deliver signal).holds = proc.holds := by
  rw [Proc.deliver]
  split
  · exact holds_handler proc signal
  · split <;> rfl

theorem point_deliver (proc : Proc) (signal : Signal) :
    (proc.deliver signal).point = proc.point ∨ (proc.deliver signal).point = .killed signal := by
  rw [Proc.deliver]
  split
  · exact .inl (point_handler proc signal)
  · split
    · exact .inl rfl
    · exact .inr rfl

/-- What holds of the holdings in phases of a running process, a signal leaves as it was. -/
theorem kept_of_deliver {proc : Proc} {signal : Signal} {within : Phase → Bool}
    {kept : Holdings → Prop} (running : within .over = false)
    (before : within proc.point.phase = true → kept proc.holds)
    (inside : within (proc.deliver signal).point.phase = true) :
    kept (proc.deliver signal).holds := by
  rw [holds_deliver]
  rcases point_deliver proc signal with same | killed
  · rw [same] at inside
    exact before inside
  · rw [killed] at inside
    cases running.symm.trans inside

/-- Only a signal that is neither ignored nor handled moves the process. -/
theorem point_deliver_of_handled {proc : Proc} {signal : Signal}
    (handled : signal = .winch ∨ proc.handles signal = true) :
    (proc.deliver signal).point = proc.point := by
  rw [Proc.deliver]
  split
  case isTrue => exact point_handler proc signal
  case isFalse unhandled =>
    rcases handled with rfl | handled
    · rfl
    · exact (unhandled handled).elim

theorem effect_child (proc : Proc) (point : Point) (outcome : Outcome) :
    (proc.effect point outcome).holds.child = proc.holds.child ∨
      point = .forkCrun ∧ outcome = .ok := by
  cases point with
  | forkCrun =>
      cases outcome with
      | ok => exact .inr ⟨rfl, rfl⟩
      | _ => exact .inl rfl
  | _ => exact .inl (by cases outcome <;> rfl)

private theorem effect_overlay {proc : Proc} {point : Point} {outcome : Outcome}
    (mounted : proc.holds.overlay ≠ .absent) :
    (proc.effect point outcome).holds.overlay ≠ .absent := by
  have cases : (proc.effect point outcome).holds.overlay = proc.holds.overlay ∨
      (proc.effect point outcome).holds.overlay = .held ∨
      (proc.effect point outcome).holds.overlay = .released := by
    cases point <;> cases outcome <;> simp [effect]
  rcases cases with same | held | released
  · rw [same]
    exact mounted
  · simp [held]
  · simp [released]

theorem Built.step {config : Config} {proc next : Proc} {act : Act} (built : proc.Built)
    (step : proc.step config act = some next) : next.Built := by
  rcases step_cases step with ⟨outcome, _, called⟩ | ⟨signal, _, _, rfl⟩ |
    ⟨event, holds, _, progressed, rfl⟩
  · refine ⟨setUp_call built.setUp called, ?_⟩
    rcases call_eq_some.mp called with ⟨_, point, _, rfl⟩
    intro started
    rcases effect_child proc proc.point outcome with same | ⟨here, _⟩
    · have before : proc.holds.child ≠ .absent := by
        rw [← same]
        exact started
      exact effect_overlay (built.covered before)
    · have setUp := built.setUp
      rw [here] at setUp
      exact effect_overlay setUp.2
  · refine ⟨?_, ?_⟩
    · rw [holds_deliver]
      rcases point_deliver proc signal with same | killed
      · rw [same]
        exact built.setUp
      · rw [killed]
        trivial
    · rw [holds_deliver]
      exact built.covered
  · have progress := Holdings.progress_spec progressed
    refine ⟨progress.setUp built.setUp, ?_⟩
    intro started
    change holds.overlay ≠ .absent
    rw [progress.overlay]
    exact built.covered fun absent => started (progress.child.mpr absent)

/-- What becomes of the crun child in a step. -/
inductive ChildChange (proc : Proc) (act : Act) : Child → Prop where
  | same : ChildChange proc act proc.holds.child
  | forked (here : proc.point = .forkCrun) (called : act = .call .ok)
      (absent : proc.holds.child = .absent) : ChildChange proc act .forked
  | started {root : List SessionKey} (event : act = .child (.crunStarted root))
      (forked : proc.holds.child = .forked) : ChildChange proc act (.running root)
  | ended {root : List SessionKey} (running : proc.holds.child = .running root) :
      ChildChange proc act .ended
  | exited (event : act = .child .crunExited)
      (alive : proc.holds.child = .forked ∨ proc.holds.child = .ended) :
      ChildChange proc act .exited

theorem step_child {config : Config} {proc next : Proc} {act : Act} (built : proc.Built)
    (step : proc.step config act = some next) : proc.ChildChange act next.holds.child := by
  rcases step_cases step with ⟨outcome, rfl, called⟩ | ⟨signal, _, _, rfl⟩ |
    ⟨event, holds, rfl, progressed, rfl⟩
  · rcases call_eq_some.mp called with ⟨_, point, _, rfl⟩
    rcases effect_child proc proc.point outcome with same | ⟨here, rfl⟩
    · change proc.ChildChange _ (proc.effect proc.point outcome).holds.child
      rw [same]
      exact .same
    · have setUp := built.setUp
      rw [here] at setUp ⊢
      exact .forked here rfl setUp.1
  · rw [holds_deliver]
    exact .same
  · change proc.ChildChange _ holds.child
    rcases Holdings.child_of_progress progressed with same | ⟨root, rfl, forked, runs⟩ |
      ⟨root, running, ends⟩ | ⟨rfl, alive, exits⟩
    · rw [same]
      exact .same
    · rw [runs]
      exact .started rfl forked
    · rw [ends]
      exact .ended running
    · rw [exits]
      exact .exited rfl alive

/-- crun starts the container only once. -/
theorem forked_of_crunStarted {config : Config} {proc next : Proc} {root : List SessionKey}
    (step : proc.step config (.child (.crunStarted root)) = some next) :
    proc.holds.child = .forked := by
  rcases Option.map_eq_some_iff.mp step with ⟨holds, progressed, _⟩
  cases Holdings.childStep_of_progress progressed with
  | started root forked => exact forked

theorem running_of_crunStarted {config : Config} {proc next : Proc} {root : List SessionKey}
    (step : proc.step config (.child (.crunStarted root)) = some next) :
    next.holds.child = .running root := by
  rcases Option.map_eq_some_iff.mp step with ⟨holds, progressed, rfl⟩
  cases Holdings.childStep_of_progress progressed with
  | started root forked => rfl

/-- The invariant of a session that no signal disturbs. -/
structure Orderly (proc : Proc) : Prop where
  built : proc.Built
  tornDown : proc.holds.TornDown proc.interrupted proc.point

theorem Orderly.start (config : Config) : (start config).Orderly := by
  refine ⟨.start config, ?_⟩
  rw [Proc.start]
  cases Int.decLt 0 config.maxSessions with
  | isTrue limited =>
      rw [if_pos limited]
      trivial
  | isFalse unlimited =>
      rw [if_neg unlimited]
      trivial

/-- Behind `session_disk_cleanup`, once its `rm` is settled. -/
private theorem tornDown_after {proc : Proc} {site : Site}
    (entered : proc.holds.EnteredFrom site) (discarded : proc.holds.Discarded)
    (rm : proc.holds.rm.Settled) :
    (proc.arrive site.after).holds.TornDown false site.after := by
  cases site with
  | startFailed =>
      intro mounted
      exact discarded.released mounted rm fun started => (started entered).elim
  | stop code => exact ⟨entered, discarded, rm⟩

private theorem tornDown_call {config : Config} {proc after : Proc} {outcome : Outcome}
    (orderly : proc.Orderly) (called : proc.call config outcome = some after) :
    after.holds.TornDown after.interrupted after.point := by
  rcases call_move called with ⟨next, move, returns, rfl⟩
  clear called
  rcases orderly with ⟨⟨built, _⟩, tornDown⟩
  generalize proc.point = point at move returns built tornDown ⊢
  change (proc.effect point outcome).holds.TornDown false next
  cases move with
  | within same inside neutral =>
      rw [← same] at inside
      exact Holdings.tornDown_of_inner (Phase.inner_of_plain inside)
  | full reached => exact fun mounted => (mounted built.2).elim
  | setupFailed setup neutral =>
      rw [setup] at built
      intro mounted
      exact (mounted ((neutral.overlay proc).trans built.2)).elim
  | mountFailed =>
      refine ⟨built.1, fun started => (started built.1).elim, ?_⟩
      intro held
      cases built.2.symm.trans held
  | socketFailed starting neutral =>
      rw [starting] at built
      have child : (proc.effect point .fail).holds.child = .absent :=
        (neutral.child proc).trans built.1
      exact ⟨child, fun started => (started child).elim⟩
  | forkFailed => exact built.1
  | forked =>
      rw [Point.started]
      split <;> trivial
  | consoleFailed console neutral =>
      rw [console] at built
      intro absent
      exact built ((neutral.child proc).symm.trans absent)
  | waited =>
      apply Holdings.tornDown_of_inner
      rw [Point.phase_afterWait]
      rfl
  | waitCut =>
      apply Holdings.tornDown_of_inner
      rw [Point.phase_afterWait]
      rfl
  | cleaned neutral =>
      intro absent
      exact built ((neutral.child proc).symm.trans absent)
  | sockUnlinked site =>
      refine ⟨?_, fun _ => rfl⟩
      cases site <;> exact tornDown
  | overlayUnmounted site =>
      refine ⟨?_, tornDown.2, ?_⟩
      · cases site <;> exact tornDown.1
      · intro held
        cases held
  | diskUnmounted site =>
      refine ⟨?_, ⟨tornDown.2.sock, tornDown.2.overlay⟩, rfl⟩
      cases site <;> exact tornDown.1
  | imageUnlinked site =>
      refine ⟨?_, ⟨tornDown.2.1.sock, tornDown.2.1.overlay⟩, tornDown.2.2, rfl⟩
      cases site <;> exact tornDown.1
  | rmForked site =>
      refine ⟨?_, tornDown.2.of_eq rfl rfl rfl rfl rfl, .inr ⟨rfl, rfl⟩⟩
      cases site <;> exact tornDown.1
  | rmUnforked site =>
      have entered : (proc.effect (.forkRm site) .fail).holds.EnteredFrom site := by
        cases site <;> exact tornDown.1
      exact tornDown_after entered (tornDown.2.of_eq rfl rfl rfl rfl rfl) (.inr rfl)
  | rmWaited site => exact tornDown_after tornDown.1 tornDown.2.1 (.inl returns)
  | rmWaitCut site =>
      exact tornDown_after tornDown.1 tornDown.2.1 (tornDown.2.2.settled returns)
  | deleteForked code =>
      exact ⟨tornDown.1, tornDown.2.1.of_eq rfl rfl rfl rfl rfl, tornDown.2.2,
        .inr ⟨rfl, rfl⟩⟩
  | deleteUnforked code =>
      intro mounted
      have discarded : (proc.effect (.forkDelete code) .fail).holds.Discarded :=
        tornDown.2.1.of_eq rfl rfl rfl rfl rfl
      exact discarded.released mounted tornDown.2.2 fun _ => .inr rfl
  | deleteWaited code =>
      intro mounted
      exact tornDown.2.1.released mounted tornDown.2.2.1 fun _ => .inl returns
  | deleteWaitCut code =>
      intro mounted
      exact tornDown.2.1.released mounted tornDown.2.2.1 fun _ =>
        tornDown.2.2.2.settled returns
  | _ => trivial

/-- Waiting for a helper process of the teardown that has not ended. -/
def AwaitsHelper (proc : Proc) : Prop :=
  match proc.point with
  | .waitRm _ => proc.holds.rm = .running
  | .waitDelete _ => proc.holds.delete = .running
  | _ => False

theorem awaitsHelper_iff (proc : Proc) :
    proc.AwaitsHelper ↔
      proc.point.awaitsRm = true ∧ proc.holds.rm = .running ∨
        proc.point.awaitsDelete = true ∧ proc.holds.delete = .running := by
  rw [AwaitsHelper]
  cases proc.point <;> simp [Point.awaitsRm, Point.awaitsDelete]

instance (proc : Proc) : Decidable proc.AwaitsHelper :=
  decidable_of_iff _ proc.awaitsHelper_iff.symm

/-- The signal does not end a process that still has something to take down, and no
handler runs while a helper process of the teardown is waited for. -/
structure Tolerates (proc : Proc) (signal : Signal) : Prop where
  handled : proc.holds.overlay = .absent ∨ proc.holds.Released ∨ signal = .winch ∨
    proc.handles signal = true
  undisturbed : proc.handles signal = true → ¬ proc.AwaitsHelper

instance (proc : Proc) (signal : Signal) : Decidable (proc.Tolerates signal) :=
  decidable_of_iff
    ((proc.holds.overlay = .absent ∨ proc.holds.Released ∨ signal = .winch ∨
      proc.handles signal = true) ∧ (proc.handles signal = true → ¬ proc.AwaitsHelper))
    ⟨fun ⟨handled, undisturbed⟩ => ⟨handled, undisturbed⟩,
      fun ⟨handled, undisturbed⟩ => ⟨handled, undisturbed⟩⟩

/-- A handler that runs away from the two waits disturbs nothing. -/
private theorem tornDown_interrupted {proc : Proc} {after : Bool} (away : ¬ proc.AwaitsHelper)
    (tornDown : proc.holds.TornDown proc.interrupted proc.point) :
    proc.holds.TornDown after proc.point := by
  rw [AwaitsHelper] at away
  generalize proc.point = point at away tornDown ⊢
  cases point with
  | waitRm site => exact ⟨tornDown.1, tornDown.2.1, tornDown.2.2.of_not_running away⟩
  | waitDelete code =>
      exact ⟨tornDown.1, tornDown.2.1, tornDown.2.2.1, tornDown.2.2.2.of_not_running away⟩
  | _ => exact tornDown

/-- A tolerated signal keeps the invariant. -/
private theorem tornDown_deliver {proc : Proc} {signal : Signal} (orderly : proc.Orderly)
    (tolerates : proc.Tolerates signal) :
    (proc.deliver signal).holds.TornDown (proc.deliver signal).interrupted
      (proc.deliver signal).point := by
  rw [Proc.deliver]
  split
  case isTrue handled =>
    rw [holds_handler, point_handler]
    exact tornDown_interrupted (tolerates.undisturbed handled) orderly.tornDown
  case isFalse unhandled =>
    split
    case isTrue => exact orderly.tornDown
    case isFalse fatal =>
      intro mounted
      rcases tolerates.handled with unmounted | released | winch | handled
      · exact (mounted unmounted).elim
      · exact released
      · exact (fatal winch).elim
      · exact (unhandled handled).elim

/-- An undisturbed step keeps the invariant. -/
theorem Orderly.step {config : Config} {proc next : Proc} {act : Act} (orderly : proc.Orderly)
    (undisturbed : ∀ signal, act = .signal signal → proc.Tolerates signal)
    (step : proc.step config act = some next) : next.Orderly := by
  refine ⟨orderly.built.step step, ?_⟩
  rcases step_cases step with ⟨outcome, _, called⟩ | ⟨signal, signalled, _, rfl⟩ |
    ⟨event, holds, _, progressed, rfl⟩
  · exact tornDown_call orderly called
  · exact tornDown_deliver orderly (undisturbed signal signalled)
  · exact (Holdings.progress_spec progressed).tornDown orderly.tornDown

end Proc

end Caal

import Caal.Session.Ledger

/-!
# The session directory

`session_disk_setup` makes the directory of a session before anything that can still go
wrong, and only `session_disk_cleanup` removes it again. The directory follows the control
flow of a login as its entry in the daemon's table does; the two part at the exits of
`main` that clean up only one of them.
-/

namespace Caal

/-- Where a login stands with its session directory. -/
inductive Stage where
  | unfiled
  | filed
  | removing
  | removed
  deriving DecidableEq

def Point.stage : Point → Stage
  | .count => .unfiled
  | .limit _ => .unfiled
  | .lookups => .unfiled
  | .mkdirSession => .unfiled
  | .waitRm _ => .removing
  | .forkDelete _ => .removed
  | .waitDelete _ => .removed
  | .exited _ => .removed
  | .killed _ => .removed
  | _ => .filed

/-- In `session_disk_setup`, behind its first `mkdir`. -/
def Point.inDiskSetup : Point → Bool
  | .openImage => true
  | .fallocate => true
  | .mkfs => true
  | .mountImage => true
  | .mkdirUpper => true
  | .mkdirWork => true
  | _ => false

/-- The fork of the `rm` that removes the directory. -/
def Point.forksRm : Point → Bool
  | .forkRm _ => true
  | _ => false

/-- The calls that make the directory or start to remove it. -/
def Point.files : Point → Outcome → Bool
  | .mkdirSession, .ok => true
  | .forkRm _, _ => true
  | _, _ => false

/-- How the control flow moves between the stages. -/
inductive Filing : Point → Outcome → Point → Prop where
  | stays {point next : Point} {outcome : Outcome} (same : next.stage = point.stage)
      (idle : point.files outcome = false) : Filing point outcome next
  | created : Filing .mkdirSession .ok .openImage
  | turnedAway {point next : Point} {outcome : Outcome} (unfiled : point.stage = .unfiled)
      (removed : next.stage = .removed) (idle : point.files outcome = false) :
      Filing point outcome next
  | leftBehind {point next : Point} (inside : point.inDiskSetup = true) :
      Filing point .fail next
  | rmForked (site : Site) : Filing (.forkRm site) .ok (.waitRm site)
  | rmUnforked (site : Site) : Filing (.forkRm site) .fail site.after
  | rmWaited {outcome : Outcome} (site : Site) (ended : outcome = .ok ∨ outcome = .intr) :
      Filing (.waitRm site) outcome site.after

@[simp] theorem Site.stage_after (site : Site) : site.after.stage = .removed := by
  cases site <;> rfl

@[simp] theorem Point.stage_started (config : Config) :
    (Point.started config).stage = .filed := by
  rw [Point.started]
  split <;> rfl

@[simp] theorem Point.stage_afterWait (watched : Bool) :
    (Point.afterWait watched).stage = .filed := by
  cases watched <;> rfl

@[simp] theorem Point.stage_dispatch (master stdin : Bool) :
    (Point.dispatch master stdin).stage = .filed := by
  cases master <;> cases stdin <;> rfl

section Moves

variable {config : Config} {terminate watched : Bool} {point next : Point} {outcome : Outcome}

private theorem Filing.checked {success failure : Point}
    (moved : outcome.checked success failure = some next)
    (same : success.stage = point.stage) (failureSame : failure.stage = point.stage)
    (idle : point.files outcome = false) : Filing point outcome next := by
  rcases Outcome.checked_eq_some.mp moved with ⟨_, rfl⟩ | ⟨_, rfl⟩
  · exact .stays same idle
  · exact .stays failureSame idle

/-- A step of `session_disk_setup` behind its `mkdir`. -/
private theorem Filing.setUp {success failure : Point}
    (moved : outcome.checked success failure = some next)
    (same : success.stage = point.stage) (inside : point.inDiskSetup = true)
    (idle : point.files outcome = false) : Filing point outcome next := by
  rcases Outcome.checked_eq_some.mp moved with ⟨_, rfl⟩ | ⟨rfl, rfl⟩
  · exact .stays same idle
  · exact .leftBehind inside

/-- The control flow makes no other moves between the stages. -/
theorem Point.next_filing
    (moved : point.next config terminate watched outcome = some next) :
    Filing point outcome next := by
  cases point with
  | count => cases outcome <;> cases moved <;> exact .stays rfl rfl
  | limit sessions =>
      cases outcome with
      | ok =>
          cases moved
          split
          · exact .turnedAway rfl rfl rfl
          · exact .stays rfl rfl
      | _ => cases moved
  | lookups =>
      rcases Outcome.checked_eq_some.mp moved with ⟨rfl, rfl⟩ | ⟨rfl, rfl⟩
      · exact .stays rfl rfl
      · exact .turnedAway rfl rfl rfl
  | mkdirSession =>
      rcases Outcome.checked_eq_some.mp moved with ⟨rfl, rfl⟩ | ⟨rfl, rfl⟩
      · exact .created
      · exact .turnedAway rfl rfl rfl
  | openImage => exact .setUp moved rfl rfl rfl
  | fallocate => exact .setUp moved rfl rfl rfl
  | mkfs => exact .setUp moved rfl rfl rfl
  | mountImage => exact .setUp moved rfl rfl rfl
  | mkdirUpper => exact .setUp moved rfl rfl rfl
  | mkdirWork => exact .setUp moved rfl rfl rfl
  | forkCrun => exact .checked moved (Point.stage_started config) rfl rfl
  | register => cases outcome <;> cases moved <;> exact .stays rfl rfl
  | select =>
      cases outcome with
      | ready master stdin =>
          cases moved
          exact .stays (Point.stage_dispatch master stdin) rfl
      | intr =>
          cases moved
          cases terminate <;> exact .stays rfl rfl
      | fail =>
          cases moved
          exact .stays rfl rfl
      | _ => cases moved
  | writeStdout stdin => cases stdin <;> exact .checked moved rfl rfl rfl
  | waitChild =>
      cases outcome <;> cases moved <;> exact .stays (Point.stage_afterWait watched) rfl
  | unregister => cases outcome <;> cases moved <;> exact .stays rfl rfl
  | forkRm site =>
      rcases Outcome.checked_eq_some.mp moved with ⟨rfl, rfl⟩ | ⟨rfl, rfl⟩
      · exact .rmForked site
      · exact .rmUnforked site
  | waitRm site =>
      cases outcome with
      | ok => cases moved; exact .rmWaited site (.inl rfl)
      | intr => cases moved; exact .rmWaited site (.inr rfl)
      | _ => cases moved
  | waitDelete code => cases outcome <;> cases moved <;> exact .stays rfl rfl
  | exited code => cases moved
  | killed signal => cases moved
  | _ => exact .checked moved rfl rfl rfl

end Moves

/-! ## The directory along a login -/

/-- How the directory, and the `rm` that removes it, stand at each stage. -/
def Holdings.Filed (holds : Holdings) : Stage → Prop
  | .unfiled => holds.dir = .absent ∧ holds.rm = .absent
  | .filed => holds.dir = .held ∧ holds.rm = .absent
  | .removing =>
      holds.dir = .held ∧ holds.rm = .running ∨ holds.dir = .released ∧ holds.rm = .done
  | .removed => holds.dir ≠ .held

/-- The children keep the directory in its stage. -/
theorem Holdings.Filed.progress {holds after : Holdings} {stage : Stage} {event : ChildEvent}
    (filed : holds.Filed stage) (progressed : holds.progress event = some after) :
    after.Filed stage := by
  have moved : after.dir = holds.dir ∧ after.rm = holds.rm ∨
      holds.rm = .running ∧ after.dir = .released ∧ after.rm = .done := by
    cases childStep_of_progress progressed with
    | removed running => exact .inr ⟨running, rfl, rfl⟩
    | _ => exact .inl ⟨rfl, rfl⟩
  rcases moved with ⟨dir, rm⟩ | ⟨running, dir, rm⟩
  · cases stage <;> simp only [Filed, dir, rm] at filed ⊢ <;> exact filed
  · cases stage with
    | unfiled => cases filed.2.symm.trans running
    | filed => cases filed.2.symm.trans running
    | removing => exact .inr ⟨dir, rm⟩
    | removed =>
        intro held
        cases dir.symm.trans held

namespace Proc

private theorem effect_filed {proc : Proc} {point : Point} {outcome : Outcome} {stage : Stage}
    (idle : point.files outcome = false) (filed : proc.holds.Filed stage) :
    (proc.effect point outcome).holds.Filed stage := by
  have same : (proc.effect point outcome).holds.dir = proc.holds.dir ∧
      (proc.effect point outcome).holds.rm = proc.holds.rm := by
    cases point with
    | mkdirSession =>
        cases outcome with
        | ok => cases idle
        | _ => exact ⟨rfl, rfl⟩
    | forkRm site => cases idle
    | _ => cases outcome <;> exact ⟨rfl, rfl⟩
  cases stage <;> simp only [Holdings.Filed, same.1, same.2] at filed ⊢ <;> exact filed

/-- Neither a signal nor a failing call of the teardown interferes with the login. -/
def Unhindered (proc : Proc) : Act → Prop
  | .signal _ => False
  | .call .fail =>
      proc.point ≠ .connectUnregister ∧ proc.point ≠ .unregister ∧ proc.point.forksRm = false
  | _ => True

instance (proc : Proc) : (act : Act) → Decidable (proc.Unhindered act)
  | .signal _ => isFalse fun unhindered => unhindered
  | .call .fail => inferInstanceAs (Decidable (_ ∧ _))
  | .call .ok => isTrue trivial
  | .call .intr => isTrue trivial
  | .call (.counted _) => isTrue trivial
  | .call (.fallback _) => isTrue trivial
  | .call (.ready _ _) => isTrue trivial
  | .call (.answered _) => isTrue trivial
  | .call (.lost _) => isTrue trivial
  | .child _ => isTrue trivial

/-- `session_disk_setup` does not fail behind its `mkdir`, and `pty_bridge_recv` not when
the daemon has accepted the session. -/
def Undamaged (proc : Proc) : Act → Prop
  | .call .fail =>
      proc.point.inDiskSetup = false ∧ (proc.point.phase = .console → proc.accepted = false)
  | _ => True

instance (proc : Proc) : (act : Act) → Decidable (proc.Undamaged act)
  | .call .fail => inferInstanceAs (Decidable (_ ∧ (_ → _)))
  | .call .ok => isTrue trivial
  | .call .intr => isTrue trivial
  | .call (.counted _) => isTrue trivial
  | .call (.fallback _) => isTrue trivial
  | .call (.ready _ _) => isTrue trivial
  | .call (.answered _) => isTrue trivial
  | .call (.lost _) => isTrue trivial
  | .signal _ => isTrue trivial
  | .child _ => isTrue trivial

/-- The directory is there from its `mkdir` until its `rm`, and the entry in the daemon's
table is gone when the process comes to its teardown. -/
structure Kept (proc : Proc) : Prop where
  calm : proc.interrupted = false
  filed : proc.holds.Filed proc.point.stage
  signedOff : proc.point.signed = true → ¬ proc.OnRecord

theorem point_start (config : Config) :
    (Proc.start config).point = .count ∨ (Proc.start config).point = .lookups := by
  rw [Proc.start]
  split
  · exact .inl rfl
  · exact .inr rfl

theorem Kept.start (config : Config) : (Proc.start config).Kept := by
  refine ⟨rfl, ?_, ?_⟩
  · rcases point_start config with here | here <;> rw [here] <;> exact ⟨rfl, rfl⟩
  · intro _ recorded
    cases recorded.1

private theorem filed_call {config : Config} {proc after : Proc} {outcome : Outcome}
    (kept : proc.Kept) (unhindered : proc.Unhindered (.call outcome))
    (undamaged : proc.Undamaged (.call outcome))
    (called : proc.call config outcome = some after) :
    after.holds.Filed after.point.stage := by
  rcases call_eq_some.mp called with ⟨returns, next, moved, rfl⟩
  have filing := Point.next_filing moved
  have filed := kept.filed
  have calm := kept.calm
  rw [Unhindered.eq_def] at unhindered
  rw [Undamaged.eq_def] at undamaged
  clear called moved
  generalize proc.point = point at *
  change (proc.effect point outcome).holds.Filed next.stage
  cases filing with
  | created => exact ⟨rfl, filed.2⟩
  | leftBehind inside => cases undamaged.1.symm.trans inside
  | rmForked site => exact .inl ⟨filed.1, rfl⟩
  | rmUnforked site => cases unhindered.2.2
  | rmWaited site ended =>
      rw [Site.stage_after]
      rcases ended with rfl | rfl
      · have done : proc.holds.rm = .done := returns
        rcases filed with ⟨_, running⟩ | ⟨released, _⟩
        · cases done.symm.trans running
        · intro held
          cases released.symm.trans held
      · cases calm.symm.trans returns
  | turnedAway unfiled removed idle =>
      rw [unfiled] at filed
      have absent : (proc.effect point outcome).holds.Filed .unfiled := effect_filed idle filed
      rw [removed]
      intro held
      cases absent.1.symm.trans held
  | stays same idle =>
      rw [same]
      exact effect_filed idle filed

/-- A call that is no exchange with the daemon leaves the part of `main` before the
teardown only when the session is not on the record. -/
private theorem unrecorded_of_move {config : Config} {terminate watched : Bool}
    {point next : Point} {outcome : Outcome} {books : Books}
    (move : Move config terminate watched point outcome next) (ledger : books.At point)
    (here : point.signed = false) (there : next.signed = true)
    (unserved : point = .register ∨ point = .unregister →
      ∀ ok, outcome ≠ .answered ok ∧ outcome ≠ .lost ok)
    (reached : outcome = .fail → point ≠ .connectUnregister ∧ point ≠ .unregister)
    (undamaged : outcome = .fail → point.phase = .console → books.accepted = false) :
    ¬ books.OnRecord point := by
  intro recorded
  cases move with
  | within same inside neutral =>
      rw [Point.unsigned_of_plain (by rw [same]; exact inside)] at there
      cases there
  | full above => cases ledger.accepted.symm.trans recorded.1
  | setupFailed setup neutral =>
      rw [Books.at_of_plain (by rw [setup]; rfl), setup] at ledger
      cases ledger.accepted.symm.trans recorded.1
  | mountFailed => cases ledger.accepted.symm.trans recorded.1
  | socketFailed starting neutral =>
      rw [Books.at_of_plain (by rw [starting]; rfl), starting] at ledger
      cases ledger.accepted.symm.trans recorded.1
  | forkFailed => cases ledger.accepted.symm.trans recorded.1
  | forked =>
      rw [Point.started] at there
      split at there <;> cases there
  | consoleFailed console neutral => cases (undamaged rfl console).symm.trans recorded.1
  | waited => cases (Point.unsigned_afterWait watched).symm.trans there
  | waitCut => cases (Point.unsigned_afterWait watched).symm.trans there
  | unregisterUnconnected => exact (reached rfl).1 rfl
  | unregisterAnswered ok => exact (unserved (.inr rfl) ok).1 rfl
  | unregisterLost ok => exact (unserved (.inr rfl) ok).2 rfl
  | unregisterFailed => exact (reached rfl).2 rfl
  | _ => first | (cases here; done) | cases there

private theorem signedOff_call {config : Config} {proc after : Proc} {outcome : Outcome}
    (kept : proc.Kept) (ledger : proc.Ledger) (unhindered : proc.Unhindered (.call outcome))
    (undamaged : proc.Undamaged (.call outcome))
    (called : proc.call config outcome = some after) (signed : after.point.signed = true) :
    ¬ after.OnRecord := by
  by_cases served : proc.point = .register ∨ proc.point = .unregister →
      ∀ ok, outcome ≠ .answered ok ∧ outcome ≠ .lost ok
  · rw [onRecord_call ledger served called]
    cases here : proc.point.signed with
    | true => exact kept.signedOff here
    | false =>
        rcases call_move called with ⟨next, move, _, rfl⟩
        refine unrecorded_of_move move ledger here signed served ?_ ?_
        · rintro rfl
          exact ⟨unhindered.1, unhindered.2.1⟩
        · rintro rfl
          exact undamaged.2
  · simp only [not_forall] at served
    rcases served with ⟨here, ok, told⟩
    have answered : outcome = .answered ok ∨ outcome = .lost ok := by
      by_contra neither
      rw [not_or] at neither
      exact told neither
    rcases here with here | here
    · rcases call_eq_some.mp called with ⟨_, next, moved, rfl⟩
      rw [here] at moved
      rcases answered with rfl | rfl <;> cases moved <;> cases signed
    · exact onRecord_unregister ledger here answered called

/-- A step without interference and without one of the failures that are not cleaned up
after keeps the directory and the entry in line. -/
theorem Kept.step {config : Config} {proc next : Proc} {act : Act} (kept : proc.Kept)
    (ledger : proc.Ledger) (unhindered : proc.Unhindered act) (undamaged : proc.Undamaged act)
    (step : proc.step config act = some next) : next.Kept := by
  rcases step_cases step with ⟨outcome, rfl, called⟩ | ⟨signal, rfl, _, _⟩ |
    ⟨event, holds, rfl, progressed, rfl⟩
  · refine ⟨?_, filed_call kept unhindered undamaged called,
      signedOff_call kept ledger unhindered undamaged called⟩
    rcases call_eq_some.mp called with ⟨_, point, _, rfl⟩
    rfl
  · exact unhindered.elim
  · exact ⟨kept.calm, kept.filed.progress progressed, kept.signedOff⟩

theorem kept_of_reachable {config : Config} {proc : Proc}
    (reachable : ((session config).restrict fun proc act =>
      proc.Unhindered act ∧ proc.Undamaged act).Reachable proc) : proc.Kept := by
  apply reachable.invariant_within
  · intro start initial
    cases initial
    exact .start config
  · intro proc act next reached kept step
    exact kept.step (ledger_of_reachable reached.of_restrict) step.1.1 step.1.2 step.2

end Proc

/-! ## Between container_start and the teardown -/

/-- The login has registered and is not tearing down: its session is being relayed. -/
def Point.relayed (point : Point) : Bool :=
  match point.phase with
  | .console => true
  | .relay => true
  | .restoring => true
  | .waiting => true
  | _ => false

/-- Neither between entering `container_start` and the end of the REGISTER exchange nor in
the teardown. -/
def Point.Settled (point : Point) : Prop :=
  point.phase = .query ∨ point = .lookups ∨ point.relayed = true ∨ point.phase = .over

namespace Proc

theorem settled_start (config : Config) : (Proc.start config).point.Settled := by
  rcases point_start config with here | here
  · rw [here]
    exact .inl rfl
  · rw [here]
    exact .inr (.inl rfl)

theorem unrelayed_start (config : Config) : (Proc.start config).point.relayed = false := by
  rcases point_start config with here | here <;> rw [here] <;> rfl

/-- A settled login has its directory exactly while its session is relayed. -/
theorem Kept.held_iff {proc : Proc} (kept : proc.Kept) (settled : proc.point.Settled) :
    proc.holds.dir = .held ↔ proc.point.relayed = true := by
  have filed := kept.filed
  generalize proc.point = point at filed settled ⊢
  rcases settled with phase | rfl | relayed | phase
  · have absent : proc.holds.dir = .absent := by
      cases point <;> first | (cases phase; done) | exact filed.1
    rw [absent, Point.relayed, phase]
    exact iff_of_false (nomatch ·) (nomatch ·)
  · have absent : proc.holds.dir = .absent := filed.1
    rw [absent]
    exact iff_of_false (nomatch ·) (nomatch ·)
  · have held : proc.holds.dir = .held := by
      cases point <;> first | (cases relayed; done) | exact filed.1
    exact iff_of_true held relayed
  · have released : proc.holds.dir ≠ .held := by
      cases point <;> first | (cases phase; done) | exact filed
    rw [Point.relayed, phase]
    exact iff_of_false released (nomatch ·)

/-- A settled login is on the record exactly while its session is relayed and was accepted
by the daemon. -/
theorem Kept.onRecord_iff {proc : Proc} (kept : proc.Kept) (ledger : proc.Ledger)
    (settled : proc.point.Settled) :
    proc.OnRecord ↔ proc.point.relayed = true ∧ proc.accepted = true := by
  have signedOff := kept.signedOff
  rw [Ledger] at ledger
  rw [OnRecord] at signedOff ⊢
  generalize proc.point = point at signedOff ledger settled ⊢
  rcases settled with phase | rfl | relayed | phase
  · rw [Books.at_of_plain (by rw [phase]; rfl), phase] at ledger
    rw [Point.relayed, phase]
    apply iff_of_false
    · intro recorded
      cases ledger.accepted.symm.trans recorded.1
    · intro relayed
      cases relayed.1
  · apply iff_of_false
    · intro recorded
      cases ledger.accepted.symm.trans recorded.1
    · intro relayed
      cases relayed.1
  · have unsigned : point.signed = false := by
      cases point <;> first | rfl | cases relayed
    rw [Books.onRecord_of_unsigned unsigned]
    exact ⟨fun accepted => ⟨relayed, accepted⟩, fun both => both.2⟩
  · have signed : point.signed = true := by
      cases point <;> first | rfl | cases phase
    rw [Point.relayed, phase]
    apply iff_of_false (signedOff signed)
    intro relayed
    cases relayed.1

end Proc

end Caal

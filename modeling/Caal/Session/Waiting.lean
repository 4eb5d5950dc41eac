import Caal.Session.Signals

/-!
# Waiting for the container

Behind its relay loop a login shell waits for crun. What ends the loop decides whether
the container still runs then.
-/

namespace Caal

open LTS

/-- The container has exited, or crun has without one. -/
def Child.Over : Child → Prop
  | .ended => True
  | .exited => True
  | _ => False

instance : (child : Child) → Decidable child.Over
  | .ended => isTrue trivial
  | .exited => isTrue trivial
  | .absent => isFalse id
  | .forked => isFalse id
  | .running _ => isFalse id

theorem Holdings.over_of_progress {holds after : Holdings} {event : ChildEvent}
    (progressed : holds.progress event = some after) (past : holds.child.Over) :
    after.child.Over := by
  rcases child_of_progress progressed with same | ⟨_, _, forked, _⟩ | ⟨_, _, ends⟩ |
    ⟨_, _, exits⟩
  · rw [same]
    exact past
  · rw [forked] at past
    exact past.elim
  · rw [ends]
    trivial
  · rw [exits]
    trivial

/-- While crun is waited for, either its container has exited, or it is being deleted by
force. -/
def Proc.WaitReturns (proc : Proc) : Prop :=
  proc.point = .waitChild → proc.holds.child.Over ∨ proc.holds.delete ≠ .absent

/-- A failure of this call ends the relay loop: an error of `select`, or the end of one of
the two inputs. -/
def Point.endsLoop : Point → Bool
  | .select => true
  | .readMaster _ => true
  | .readStdin => true
  | _ => false

/-- What ends the relay loop comes only once the container has exited: a `SIGTERM` or
`SIGHUP` with its handler, an error of `select`, the end of the master or of stdin. -/
def OutlastsContainer (proc : Proc) : Act → Prop
  | .signal signal =>
      proc.point.phase = .relay → signal ≠ .winch → proc.handles signal = true →
        proc.holds.child.Over
  | .call .fail => proc.point.endsLoop = true → proc.holds.child.Over
  | _ => True

instance (proc : Proc) : (act : Act) → Decidable (OutlastsContainer proc act)
  | .signal _ => inferInstanceAs (Decidable (_ → _ → _ → _))
  | .call .fail => inferInstanceAs (Decidable (_ → _))
  | .call .ok => isTrue trivial
  | .call .intr => isTrue trivial
  | .call (.counted _) => isTrue trivial
  | .call (.fallback _) => isTrue trivial
  | .call (.ready _ _) => isTrue trivial
  | .call (.answered _) => isTrue trivial
  | .call (.lost _) => isTrue trivial
  | .child _ => isTrue trivial

/-! ## Before the relay loop -/

/-- The phases before `pty_bridge_run`. -/
def Phase.beforeRelay : Phase → Bool
  | .query => true
  | .setup => true
  | .starting => true
  | .registering => true
  | .console => true
  | _ => false

/-- Control does not come back before `pty_bridge_run`. -/
theorem Move.beforeRelay {config : Config} {terminate watched : Bool} {point next : Point}
    {outcome : Outcome} (move : Move config terminate watched point outcome next)
    (before : next.phase.beforeRelay = true) : point.phase.beforeRelay = true := by
  cases move with
  | within same inside neutral =>
      rw [← same]
      exact before
  | waited => cases watched <;> cases before
  | waitCut => cases watched <;> cases before
  | rmUnforked site => cases site <;> cases before
  | rmWaited site => cases site <;> cases before
  | rmWaitCut site => cases site <;> cases before
  | _ => first | rfl | cases before

/-- Control comes into the loop of `pty_bridge_run` from before it. -/
theorem Move.relay {config : Config} {terminate watched : Bool} {point next : Point}
    {outcome : Outcome} (move : Move config terminate watched point outcome next)
    (relay : next.phase = .relay) :
    point.phase.beforeRelay = true ∨ point.phase = .relay ∧ Neutral point outcome := by
  cases move with
  | within same inside neutral => exact .inr ⟨same.symm.trans relay, neutral⟩
  | consoleReceived => exact .inl rfl
  | forked =>
      rw [Point.started] at relay
      split at relay <;> cases relay
  | waited => cases watched <;> cases relay
  | waitCut => cases watched <;> cases relay
  | rmUnforked site => cases site <;> cases relay
  | rmWaited site => cases site <;> cases relay
  | rmWaitCut site => cases site <;> cases relay
  | _ => cases relay

/-- No handler of `pty_bridge_run` is there, so none has run. -/
structure Proc.Unarmed (proc : Proc) : Prop where
  onTerm : proc.onTerm = false
  onHup : proc.onHup = false
  terminate : proc.terminate = false

theorem Proc.Unarmed.effect {proc : Proc} {point : Point} (unarmed : proc.Unarmed)
    (before : point.phase.beforeRelay = true) (outcome : Outcome) :
    (proc.effect point outcome).Unarmed := by
  have kept : (proc.effect point outcome).onTerm = proc.onTerm ∧
      (proc.effect point outcome).onHup = proc.onHup ∧
      (proc.effect point outcome).terminate = proc.terminate := by
    cases point <;> first | (cases before; done) | (cases outcome <;> exact ⟨rfl, rfl, rfl⟩)
  exact ⟨kept.1.trans unarmed.onTerm, kept.2.1.trans unarmed.onHup,
    kept.2.2.trans unarmed.terminate⟩

@[simp] theorem Proc.terminate_effect (proc : Proc) (point : Point) (outcome : Outcome) :
    (proc.effect point outcome).terminate = proc.terminate := by
  cases point <;> cases outcome <;> rfl

/-- A signal whose handler is not there sets nothing. -/
theorem Proc.Unarmed.deliver {proc : Proc} (unarmed : proc.Unarmed) (signal : Signal) :
    (proc.deliver signal).Unarmed := by
  rcases unarmed with ⟨onTerm, onHup, terminate⟩
  cases signal with
  | winch =>
      rw [Proc.deliver]
      split
      · exact ⟨onTerm, onHup, terminate⟩
      · exact ⟨onTerm, onHup, terminate⟩
  | term =>
      rw [Proc.deliver, if_neg (by simp [handles, onTerm])]
      exact ⟨onTerm, onHup, terminate⟩
  | hup =>
      rw [Proc.deliver, if_neg (by simp [handles, onHup])]
      exact ⟨onTerm, onHup, terminate⟩
  | pipe => exact ⟨onTerm, onHup, terminate⟩
  | other => exact ⟨onTerm, onHup, terminate⟩

/-- The handlers are armed in `pty_bridge_run`. -/
theorem unarmed_of_reachable {config : Config} {proc : Proc}
    (reachable : (session config).Reachable proc) :
    proc.point.phase.beforeRelay = true → proc.Unarmed := by
  apply reachable.invariant
  · intro start initial _
    cases initial
    exact ⟨rfl, rfl, rfl⟩
  · intro state act next unarmed step before
    rcases Proc.step_cases step with ⟨outcome, rfl, called⟩ | ⟨signal, _, _, rfl⟩ |
      ⟨event, holds, _, _, rfl⟩
    · rcases Proc.call_move called with ⟨point, move, _, rfl⟩
      have early := move.beforeRelay before
      have kept := (unarmed early).effect early outcome
      exact ⟨kept.onTerm, kept.onHup, kept.terminate⟩
    · rcases Proc.point_deliver state signal with same | killed
      · rw [same] at before
        exact (unarmed before).deliver signal
      · rw [killed] at before
        cases before
    · have kept := unarmed before
      exact ⟨kept.onTerm, kept.onHup, kept.terminate⟩

/-! ## The container outlasted -/

/-- Behind the relay loop, up to the return of the `waitpid`. -/
def Phase.behindRelay : Phase → Bool
  | .restoring => true
  | .waiting => true
  | _ => false

/-- Control comes behind the relay loop only by leaving it. -/
theorem Move.behindRelay {config : Config} {terminate watched : Bool} {point next : Point}
    {outcome : Outcome} (move : Move config terminate watched point outcome next)
    (behind : next.phase.behindRelay = true) :
    Neutral point outcome ∧
      (LeavesRelay terminate point outcome ∨ point.phase.behindRelay = true) := by
  cases move with
  | within same inside neutral =>
      rw [same] at behind
      exact ⟨neutral, .inr behind⟩
  | relayLeft leaves relay neutral => exact ⟨neutral, .inl leaves⟩
  | relayEnded neutral => exact ⟨neutral, .inr rfl⟩
  | forked =>
      rw [Point.started] at behind
      split at behind <;> cases behind
  | waited => cases watched <;> cases behind
  | waitCut => cases watched <;> cases behind
  | rmUnforked site => cases site <;> cases behind
  | rmWaited site => cases site <;> cases behind
  | rmWaitCut site => cases site <;> cases behind
  | _ => cases behind

/-- The loop is left by a call that fails, or by an interrupted `select` once `g_terminate`
is set. -/
theorem endsLoop_of_leavesRelay {terminate : Bool} {point : Point} {outcome : Outcome}
    (leaves : LeavesRelay terminate point outcome) :
    point.phase = .relay ∧
      (outcome = .fail ∧ point.endsLoop = true ∨ terminate = true) := by
  unfold LeavesRelay at leaves
  split at leaves
  · exact ⟨rfl, .inr leaves⟩
  · exact ⟨rfl, .inl ⟨rfl, rfl⟩⟩
  · exact ⟨rfl, .inl ⟨rfl, rfl⟩⟩
  · exact ⟨rfl, .inl ⟨rfl, rfl⟩⟩
  · exact leaves.elim

/-- The invariant: once `on_term` has run in the loop, and behind the loop, the container
has exited. -/
structure Proc.Outlasting (proc : Proc) : Prop where
  terminated : proc.point.phase = .relay → proc.terminate = true → proc.holds.child.Over
  left : proc.point.phase.behindRelay = true → proc.holds.child.Over

theorem Proc.Outlasting.call {config : Config} {proc next : Proc} {outcome : Outcome}
    (outlasting : proc.Outlasting) (unarmed : proc.point.phase.beforeRelay = true → proc.Unarmed)
    (outlasts : OutlastsContainer proc (.call outcome))
    (called : proc.call config outcome = some next) : next.Outlasting := by
  rcases call_move called with ⟨point, move, _, rfl⟩
  constructor
  case terminated =>
    intro relay terminated
    change (proc.effect proc.point outcome).terminate = true at terminated
    rw [terminate_effect] at terminated
    rcases move.relay relay with before | ⟨inside, neutral⟩
    · cases (unarmed before).terminate.symm.trans terminated
    · change (proc.effect proc.point outcome).holds.child.Over
      rw [neutral.child]
      exact outlasting.terminated inside terminated
  case left =>
    intro behind
    change (proc.effect proc.point outcome).holds.child.Over
    rcases move.behindRelay behind with ⟨neutral, leaves | waiting⟩
    · rw [neutral.child]
      rcases endsLoop_of_leavesRelay leaves with ⟨relay, ⟨rfl, ends⟩ | terminated⟩
      · exact outlasts ends
      · exact outlasting.terminated relay terminated
    · rw [neutral.child]
      exact outlasting.left waiting

/-- `on_term` is the handler of both signals that set `g_terminate`. -/
theorem Proc.terminate_deliver {proc : Proc} {signal : Signal}
    (terminated : (proc.deliver signal).terminate = true) :
    proc.terminate = true ∨ signal ≠ .winch ∧ proc.handles signal = true := by
  rw [Proc.deliver] at terminated
  split at terminated
  case isTrue handled =>
    cases signal with
    | winch => exact .inl terminated
    | _ =>
        refine .inr ⟨?_, handled⟩
        intro same
        cases same
  case isFalse =>
    split at terminated <;> exact .inl terminated

theorem Proc.Outlasting.deliver {proc : Proc} {signal : Signal} (outlasting : proc.Outlasting)
    (outlasts : OutlastsContainer proc (.signal signal)) : (proc.deliver signal).Outlasting := by
  constructor
  case terminated =>
    intro relay terminated
    rw [holds_deliver]
    rcases point_deliver proc signal with same | killed
    · rw [same] at relay
      rcases terminate_deliver terminated with before | ⟨ends, handled⟩
      · exact outlasting.terminated relay before
      · exact outlasts relay ends handled
    · rw [killed] at relay
      cases relay
  case left =>
    exact @kept_of_deliver proc signal Phase.behindRelay (·.child.Over) rfl outlasting.left

theorem Proc.Outlasting.step {config : Config} {proc next : Proc} {act : Act}
    (outlasting : proc.Outlasting) (unarmed : proc.point.phase.beforeRelay = true → proc.Unarmed)
    (outlasts : OutlastsContainer proc act) (step : proc.step config act = some next) :
    next.Outlasting := by
  rcases step_cases step with ⟨outcome, rfl, called⟩ | ⟨signal, rfl, _, rfl⟩ |
    ⟨event, holds, _, progressed, rfl⟩
  · exact outlasting.call unarmed outlasts called
  · exact outlasting.deliver outlasts
  · constructor
    · intro relay terminated
      exact Holdings.over_of_progress progressed (outlasting.terminated relay terminated)
    · intro behind
      exact Holdings.over_of_progress progressed (outlasting.left behind)

/-- When nothing ends the relay loop before the container has exited, the `waitpid` behind it
does not wait for the container. -/
theorem waitReturns_of_outlasts {config : Config} {proc : Proc}
    (reachable : ((session config).restrict OutlastsContainer).Reachable proc) :
    proc.WaitReturns := by
  have outlasting : proc.Outlasting := by
    apply reachable.invariant_within
    · intro start initial
      cases initial
      constructor
      · intro _ terminated
        cases terminated
      · intro behind
        rw [Proc.start] at behind
        split at behind <;> cases behind
    · intro state act next reached outlasting step
      exact outlasting.step (unarmed_of_reachable reached.of_restrict) step.1 step.2
  intro waiting
  refine .inl (outlasting.left ?_)
  rw [waiting]
  rfl

/-- A session in the `waitpid` for its crun child. -/
def waitingProc (child : Child) : Proc where
  point := .waitChild
  onWinch := true
  onTerm := true
  onHup := true
  terminate := true
  masterOpen := false
  interrupted := false
  timer := .absent
  accepted := true
  unreachable := false
  received := true
  waitCut := false
  holds := ⟨child, .held, .held, .held, .held, .held, .absent, .absent⟩

/-- `SIGTERM` in the relay loop, once the container has exited. -/
theorem waitReturns_of_outlasts_late :
    ((session plainConfig).restrict OutlastsContainer).Reachable (waitingProc .ended) ∧
      ((waitingProc .ended).holds.child.Over ∨ (waitingProc .ended).holds.delete ≠ .absent) := by
  have reachable :
      ((session plainConfig).restrict OutlastsContainer).Reachable (waitingProc .ended) :=
    @execute_guarded_session plainConfig OutlastsContainer _ (waitingProc .ended)
      (startUp ++ enterRelay [] ++
        [.child .containerExited, .signal .term, .call .intr, .call .ok]) (by decide)
  exact ⟨reachable, waitReturns_of_outlasts reachable rfl⟩

/-! ## The loop left early -/

/-- Before its teardown a session deletes nothing by force. -/
def Proc.Unforced (proc : Proc) : Prop :=
  proc.point.phase.inner = true → proc.holds.delete = .absent

theorem Move.delete_eq {config : Config} {terminate watched : Bool} {point next : Point}
    {outcome : Outcome} (move : Move config terminate watched point outcome next)
    (inner : next.phase.inner = true) (proc : Proc) :
    point.phase.inner = true ∧
      (proc.effect point outcome).holds.delete = proc.holds.delete := by
  cases move with
  | within same inside neutral => exact ⟨Phase.inner_of_plain inside, neutral.delete proc⟩
  | relayLeft leaves relay neutral =>
      rw [relay]
      exact ⟨rfl, neutral.delete proc⟩
  | relayEnded neutral => exact ⟨rfl, neutral.delete proc⟩
  | timerForked => exact ⟨rfl, by cases outcome <;> rfl⟩
  | rmUnforked site => cases site <;> cases inner
  | rmWaited site => cases site <;> cases inner
  | rmWaitCut site => cases site <;> cases inner
  | _ => first | (cases inner; done) | exact ⟨rfl, rfl⟩

theorem Proc.Unforced.step {config : Config} {proc next : Proc} {act : Act}
    (unforced : proc.Unforced) (step : proc.step config act = some next) : next.Unforced := by
  intro inner
  rcases step_cases step with ⟨outcome, rfl, called⟩ | ⟨signal, _, _, rfl⟩ |
    ⟨event, holds, _, progressed, rfl⟩
  · rcases call_move called with ⟨point, move, _, rfl⟩
    rcases move.delete_eq inner proc with ⟨before, kept⟩
    exact kept.trans (unforced before)
  · exact @kept_of_deliver proc signal Phase.inner (·.delete = .absent) rfl unforced inner
  · have absent := unforced inner
    rcases (Holdings.progress_spec progressed).delete with same | ⟨running, _⟩
    · exact same.trans absent
    · cases absent.symm.trans running

theorem unforced_of_reachable {config : Config} {proc : Proc}
    (reachable : (session config).Reachable proc) : proc.Unforced := by
  apply reachable.invariant
  · intro start initial _
    cases initial
    rfl
  · intro state act next unforced step
    exact unforced.step step

/-- A call that ends the loop by its failure changes nothing. -/
theorem restores_of_endsLoop {config : Config} {terminate watched : Bool} {point : Point}
    (ends : point.endsLoop = true) :
    point.next config terminate watched .fail = some .restoreMode ∧
      ∀ proc : Proc, proc.effect point .fail = proc := by
  cases point with
  | select => exact ⟨rfl, fun _ => rfl⟩
  | readMaster stdin => exact ⟨rfl, fun _ => rfl⟩
  | readStdin => exact ⟨rfl, fun _ => rfl⟩
  | _ => cases ends

theorem waits_of_failing {config : Config} {proc : Proc} (calls : Nat)
    (executed : execute (Proc.step config) proc (List.replicate calls (.call .fail)) =
      some (proc.arrive .waitChild)) :
    ∃ acts, (session config).Run proc acts (proc.arrive .waitChild) :=
  ⟨_, @Run.of_execute _ _ (session config) _ id _ _ _ executed⟩

/-- From the relay loop a session can come to wait for crun, with nothing else changed. -/
theorem waits_of_relay {config : Config} {proc : Proc}
    (relay : proc.point.phase = .relay ∨ proc.point = .restoreMode) :
    ∃ acts, (session config).Run proc acts (proc.arrive .waitChild) := by
  rcases proc with ⟨point⟩
  cases point with
  | askSize => exact waits_of_failing 7 rfl
  | pushSize => exact waits_of_failing 7 rfl
  | sigWinch => exact waits_of_failing 6 rfl
  | sigTerm => exact waits_of_failing 5 rfl
  | sigHup => exact waits_of_failing 4 rfl
  | rawMode => exact waits_of_failing 3 rfl
  | select => exact waits_of_failing 2 rfl
  | readMaster stdin => exact waits_of_failing 2 rfl
  | writeStdout stdin => cases stdin <;> exact waits_of_failing 3 rfl
  | readStdin => exact waits_of_failing 2 rfl
  | writeMaster => exact waits_of_failing 3 rfl
  | restoreMode => exact waits_of_failing 1 rfl
  | _ => rcases relay with relay | relay <;> cases relay

/-- What ends the loop of a session whose container runs can lead to a wait that nothing but
the container ends. -/
theorem waits_of_not_outlasts {config : Config} {proc next : Proc} {act : Act}
    (reachable : (session config).Reachable proc) (early : ¬ OutlastsContainer proc act)
    (step : proc.step config act = some next) :
    ∃ acts after, (session config).Run next acts after ∧ ¬ after.WaitReturns := by
  have unforced := unforced_of_reachable (reachable.step step)
  have waits : (next.point.phase = .relay ∨ next.point = .restoreMode) →
      ¬ next.holds.child.Over →
      ∃ acts after, (session config).Run next acts after ∧ ¬ after.WaitReturns := by
    intro relay runs
    have inner : next.point.phase.inner = true := by
      rcases relay with relay | restores
      · rw [relay]
        rfl
      · rw [restores]
        rfl
    rcases @waits_of_relay config next relay with ⟨acts, run⟩
    refine ⟨acts, _, run, ?_⟩
    intro returns
    rcases returns rfl with past | forced
    · exact runs past
    · exact forced (unforced inner)
  rcases Proc.step_cases step with ⟨outcome, rfl, called⟩ | ⟨signal, rfl, _, rfl⟩ |
    ⟨event, holds, rfl, _, _⟩
  · have fails : outcome = .fail ∧ proc.point.endsLoop = true ∧ ¬ proc.holds.child.Over := by
      cases outcome with
      | fail => exact ⟨rfl, Classical.not_imp.mp early⟩
      | _ => exact (early trivial).elim
    rcases fails with ⟨rfl, ends, runs⟩
    rcases Proc.call_eq_some.mp called with ⟨_, point, moved, rfl⟩
    rcases @restores_of_endsLoop config proc.terminate (proc.timer == .running) _ ends with
      ⟨restores, unchanged⟩
    cases restores.symm.trans moved
    rw [unchanged] at waits ⊢
    exact waits (.inr rfl) runs
  · rw [OutlastsContainer, Classical.not_imp, Classical.not_imp, Classical.not_imp] at early
    rcases early with ⟨relay, ends, handled, runs⟩
    rw [← Proc.point_deliver_of_handled (.inr handled)] at relay
    rw [← Proc.holds_deliver proc signal] at runs
    exact waits (.inl relay) runs
  · exact (early trivial).elim

/-- `SIGTERM` in the relay loop, and a container that ignores the hangup. -/
theorem session_waits_on_container :
    ¬ ∀ (config : Config) (proc : Proc), (session config).Reachable proc →
      proc.WaitReturns := by
  intro always
  have reachable : (session plainConfig).Reachable (waitingProc (.running [])) :=
    @execute_session plainConfig (waitingProc (.running []))
      (startUp ++ enterRelay [] ++ [.signal .term, .call .intr, .call .ok]) (by decide)
  rcases always plainConfig _ reachable rfl with past | forced
  · exact past
  · exact forced rfl

end Caal

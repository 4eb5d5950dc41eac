import Caal.Session.Teardown

/-!
# Signals to a session

What a login shell leaves behind when a signal ends it.
-/

namespace Caal

open LTS

theorem execute_session {config : Config} {proc : Proc} {acts : List Act}
    (executed : execute (Proc.step config) (Proc.start config) acts = some proc) :
    (session config).Reachable proc :=
  ⟨Proc.start config, acts, rfl, Run.of_execute id executed⟩

theorem execute_guarded_session {config : Config} {guard : Proc → Act → Prop}
    [∀ proc act, Decidable (guard proc act)] {proc : Proc} {acts : List Act}
    (executed : execute (guarded guard (Proc.step config)) (Proc.start config) acts =
      some proc) :
    ((session config).restrict guard).Reachable proc :=
  ⟨Proc.start config, acts, rfl,
    @Run.of_execute_guarded Proc Act (session config) (Proc.step config) guard _ id
      (Proc.start config) proc acts executed⟩

/-! ## Cleaning up -/

/-- Once its overlay is mounted, the process does not end before everything has been
taken down again. -/
def Proc.CleansUp (proc : Proc) : Prop :=
  proc.holds.overlay ≠ .absent → proc.Ended → proc.holds.Released

/-- A signal that is delivered is tolerated. -/
def Undisturbed (proc : Proc) : Act → Prop
  | .signal signal => proc.Tolerates signal
  | _ => True

instance (proc : Proc) : (act : Act) → Decidable (Undisturbed proc act)
  | .signal signal => inferInstanceAs (Decidable (proc.Tolerates signal))
  | .call _ => isTrue trivial
  | .child _ => isTrue trivial

theorem orderly_of_undisturbed {config : Config} {proc : Proc}
    (reachable : ((session config).restrict Undisturbed).Reachable proc) : proc.Orderly := by
  apply reachable.invariant
  · intro start initial
    cases initial
    exact .start config
  · intro state act next orderly step
    apply orderly.step _ step.2
    intro signal signalled
    cases signalled
    exact step.1

theorem Proc.Orderly.cleansUp {proc : Proc} (orderly : proc.Orderly) : proc.CleansUp := by
  intro mounted ended
  have tornDown := orderly.tornDown
  rw [Proc.Ended] at ended
  cases point : proc.point with
  | exited code =>
      rw [point] at tornDown
      exact tornDown mounted
  | killed signal =>
      rw [point] at tornDown
      exact tornDown mounted
  | _ => simp only [point] at ended

/-- With only tolerated signals the process cleans up before it ends. -/
theorem cleansUp_of_undisturbed {config : Config} {proc : Proc}
    (reachable : ((session config).restrict Undisturbed).Reachable proc) :
    proc.CleansUp :=
  (orderly_of_undisturbed reachable).cleansUp

/-- A session terminated in its relay loop, and closed by `main`. -/
def closedProc : Proc where
  point := .exited 0
  onWinch := true
  onTerm := true
  onHup := true
  terminate := true
  masterOpen := false
  interrupted := false
  timer := .absent
  accepted := true
  unreachable := false
  received := true
  waitCut := false
  holds := ⟨.exited, .released, .released, .released, .released, .released, .done, .done⟩

theorem cleansUp_of_undisturbed_closed :
    ((session plainConfig).restrict Undisturbed).Reachable closedProc ∧
      closedProc.holds.Released := by
  have reachable : ((session plainConfig).restrict Undisturbed).Reachable closedProc :=
    @execute_guarded_session plainConfig Undisturbed _ closedProc
      (startUp ++ enterRelay [] ++
        [.signal .term, .call .intr, .call .ok, .child .containerExited] ++ leave) (by decide)
  exact ⟨reachable, cleansUp_of_undisturbed reachable (by decide) (by decide)⟩

/-- `SIGTERM` while the console is waited for: the handlers are not installed yet. -/
def killedProc : Proc :=
  { Proc.start plainConfig with
    point := .killed .term
    accepted := true
    holds := ⟨.running [], .held, .held, .held, .held, .held, .absent, .absent⟩ }

theorem session_killed_mounted :
    ¬ ∀ (config : Config) (proc : Proc), (session config).Reachable proc → proc.CleansUp := by
  intro always
  have reachable : (session plainConfig).Reachable killedProc :=
    @execute_session plainConfig killedProc
      (startUp ++
        [.call .ok, .call (.answered true), .child (.crunStarted []), .signal .term]) (by decide)
  have released := always plainConfig killedProc reachable (by decide) (by decide)
  cases released.overlay

/-- A process that waits for a helper ends before it once the wait is cut short. -/
theorem leaves_of_cut {config : Config} {proc : Proc}
    (started : ∀ code, proc.point = .waitDelete code → proc.holds.child ≠ .absent)
    (mounted : proc.holds.overlay ≠ .absent) (cut : proc.interrupted = true)
    (awaits : proc.AwaitsHelper) :
    ∃ acts after, (session config).Run proc acts after ∧ ¬ after.CleansUp := by
  rw [Proc.AwaitsHelper] at awaits
  cases point : proc.point with
  | waitRm site =>
      rw [point] at awaits
      have waited : (session config).step proc (.call .intr) (proc.arrive site.after) := by
        change proc.call config .intr = _
        rw [Proc.call_eq_some, point]
        exact ⟨cut, site.after, rfl, rfl⟩
      have unfinished : ¬ proc.holds.rm.Settled := by
        rw [awaits]
        decide
      cases site with
      | startFailed =>
          refine ⟨_, _, .single waited, ?_⟩
          intro cleansUp
          exact unfinished (cleansUp mounted trivial).rm
      | stop code =>
          have closed : (session config).step (proc.arrive (.forkDelete code)) (.call .fail)
              (((proc.arrive (.forkDelete code)).effect (.forkDelete code) .fail).arrive
                (.exited code)) := rfl
          refine ⟨_, _, .snoc (.single waited) closed, ?_⟩
          intro cleansUp
          exact unfinished (cleansUp mounted trivial).rm
  | waitDelete code =>
      rw [point] at awaits
      have waited : (session config).step proc (.call .intr) (proc.arrive (.exited code)) := by
        change proc.call config .intr = _
        rw [Proc.call_eq_some, point]
        exact ⟨cut, .exited code, rfl, rfl⟩
      refine ⟨_, _, .single waited, ?_⟩
      intro cleansUp
      have settled := ((cleansUp mounted trivial).started (started code point)).2
      change proc.holds.delete.Settled at settled
      rw [awaits] at settled
      revert settled
      decide
  | _ => simp only [point] at awaits

/-- A signal that is not tolerated can leave something behind. -/
theorem leaves_of_not_tolerates {config : Config} {proc : Proc} {signal : Signal}
    (orderly : proc.Orderly) (mounted : proc.holds.overlay ≠ .absent) (alive : ¬ proc.Ended)
    (intolerable : ¬ proc.Tolerates signal) :
    ∃ acts after, (session config).Run proc (.signal signal :: acts) after ∧
      ¬ after.CleansUp := by
  have delivered : (session config).step proc (.signal signal) (proc.deliver signal) :=
    if_neg alive
  cases handled : proc.handles signal with
  | true =>
      have deliver : proc.deliver signal = proc.handler signal := if_pos handled
      have awaits : proc.AwaitsHelper := by
        by_contra away
        exact intolerable ⟨.inr (.inr (.inr handled)), fun _ => away⟩
      rw [deliver] at delivered
      have started : ∀ code, (proc.handler signal).point = .waitDelete code →
          (proc.handler signal).holds.child ≠ .absent := by
        intro code point
        have tornDown := orderly.tornDown
        rw [Proc.point_handler] at point
        rw [point] at tornDown
        rw [Proc.holds_handler]
        exact tornDown.1
      have awaits : (proc.handler signal).AwaitsHelper := by
        rw [Proc.AwaitsHelper, Proc.point_handler, Proc.holds_handler]
        exact awaits
      rw [← Proc.holds_handler proc signal] at mounted
      rcases @leaves_of_cut config _ started mounted (Proc.interrupted_handler proc signal)
        awaits with ⟨acts, after, run, left⟩
      exact ⟨acts, after, .cons delivered run, left⟩
  | false =>
      have tolerated : ¬ (proc.holds.Released ∨ signal = .winch) := by
        intro harmless
        refine intolerable ⟨?_, fun runs => by rw [handled] at runs; cases runs⟩
        rcases harmless with released | winch
        · exact .inr (.inl released)
        · exact .inr (.inr (.inl winch))
      have deliver : proc.deliver signal = { proc with point := .killed signal } := by
        rw [Proc.deliver, if_neg (by simp [handled]),
          if_neg fun winch => tolerated (.inr winch)]
      rw [deliver] at delivered
      refine ⟨[], _, .single delivered, ?_⟩
      intro cleansUp
      exact tolerated (.inl (cleansUp mounted trivial))

end Caal

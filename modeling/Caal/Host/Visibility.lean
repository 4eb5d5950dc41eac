import Caal.Host.Registry
import Caal.Session.Ledger

/-!
# Registered sessions are listed

The entry of a session stays in the daemon's table from its REGISTER on until its
container has exited, unless a KILL or KILL_USER takes it off or a signal cuts the wait
for the container short.
-/

namespace Caal

open CMemory LTS

variable {Place Name Content : Type} [DecidableEq Place] [DecidableEq Name]
  {host : Host Place Name Content}
  {beneath : Place → Place → Bool}

namespace Host

/-- The daemon's table has an active entry for the session. -/
def Listed (host : Host Place Name Content) (state : Global Place Name Content)
    (key : SessionKey) : Prop :=
  ∃ entry ∈ state.shared.table.bag,
    entry.containerId = key.id ∧ entry.username = (host.config key).account

omit [DecidableEq Place] [DecidableEq Name] in
theorem listed_iff {state : Global Place Name Content} {key : SessionKey} :
    host.Listed state key ↔
      own (host.config key).account key.id state.shared.table.bag ≠ 0 := by
  constructor
  · rintro ⟨entry, member, mine⟩ empty
    have found : entry ∈ own (host.config key).account key.id state.shared.table.bag :=
      mem_own.mpr ⟨member, mine⟩
    rw [empty] at found
    exact Multiset.notMem_zero entry found
  · intro nonempty
    rcases Multiset.exists_mem_of_ne_zero nonempty with ⟨entry, found⟩
    exact ⟨entry, (mem_own.mp found).1, (mem_own.mp found).2⟩

/-- A run of the host seen by one session. -/
theorem waited_of_reachable {state : Global Place Name Content}
    (reachable : host.system.Reachable state) (key : SessionKey) :
    (state.procs key).Built ∧ ((state.procs key).point.phase = .closing →
      (state.procs key).Waited) := by
  have everywhere := reachable.restrict_of_forall fun _ _ => trivial
  have run : ((session (host.config key)).restrict fun _ _ => True).Reachable
      (state.procs key) := reachable_session everywhere fun _ => trivial
  exact Proc.waited_of_reachable run.of_restrict

omit [DecidableEq Name] in
/-- A session does not take itself off the table before its UNREGISTER. -/
theorem Performed.own_ne_zero {key : SessionKey} {point : Point} {action : Act}
    {shared after : Shared Place Name Content}
    (performed : host.Performed beneath key shared point action after) (wf : shared.table.WF)
    (staying : point ≠ .unregister)
    (listed : own (host.config key).account key.id shared.table.bag ≠ 0) :
    own (host.config key).account key.id after.table.bag ≠ 0 := by
  cases performed with
  | registered told served =>
      have step := registration_step host key wf shared.clock
      change own _ _ (shared.table.handle _ shared.clock).table.view.entries ≠ 0
      rcases step.register_cases with ⟨_, _, stored⟩ | ⟨_, _, unchanged⟩
      · rw [stored, own_entry]
        exact Multiset.cons_ne_zero
      · rw [unchanged]
        exact listed
  | unregistered told served => exact (staying rfl).elim
  | _ => exact listed

/-- The request takes the session off the table. -/
def KilledBy (host : Host Place Name Content) (key : SessionKey) :
    HostLabel Name Content → Prop
  | .env (.requested ctl) => ctl.Names (host.config key).account key.id
  | _ => False

/-- A step that does not kill the session: it stays listed, or has been waited for. -/
theorem listed_or_waited_step {state after : Global Place Name Content} {key : SessionKey}
    {label : HostLabel Name Content} (reachable : host.system.Reachable state)
    (kept : host.Listed state key ∨ (state.procs key).Waited) (spared : ¬ host.KilledBy key label)
    (step : host.system.step state label after) :
    host.Listed after key ∨ (after.procs key).Waited := by
  have everywhere := reachable.restrict_of_forall fun _ _ => trivial
  have wf := table_wf everywhere
  rcases waited_of_reachable reachable key with ⟨built, closing⟩
  rw [listed_iff] at kept ⊢
  cases label with
  | act other action =>
      rcases step_act step with ⟨moved, performed, others⟩
      have performed := performed_of_perform performed
      by_cases same : key = other
      · subst same
        by_cases leaving : (state.procs key).point = .unregister
        · have waited : (state.procs key).Waited := closing (by rw [leaving]; rfl)
          exact .inr (waited.step built moved)
        · exact kept.imp (performed.own_ne_zero wf leaving) (·.step built moved)
      · have foreign : other.id ≠ key.id := fun equal => same (SessionKey.id_injective equal.symm)
        rw [others key same]
        refine kept.imp ?_ id
        intro listed
        change own _ _ after.shared.table.view.entries ≠ 0
        rw [(performed.spares wf fun _ => foreign).own]
        exact listed
  | env event =>
      rcases step_env step with ⟨moved, procs⟩
      rw [procs]
      have spares := spares_of_environ moved wf fun ctl requested named => spared (by
        rw [requested]
        exact named)
      refine kept.imp ?_ id
      intro listed
      change own _ _ after.shared.table.view.entries ≠ 0
      rw [spares.own]
      exact listed

/-- An accepted REGISTER puts the session on the table. -/
theorem listed_of_accepted {state after : Global Place Name Content} {key : SessionKey}
    {outcome : Outcome} (reachable : host.system.Reachable state)
    (registers : (state.procs key).point = .register)
    (accepted : outcome = .answered true ∨ outcome = .lost true)
    (step : host.system.step state (.act key (.call outcome)) after) :
    host.Listed after key := by
  have everywhere := reachable.restrict_of_forall fun _ _ => trivial
  have wf := table_wf everywhere
  have performed := performed_of_perform (step_act step).2.1
  rw [registers] at performed
  rw [Listed]
  generalize after.shared = shared at performed ⊢
  cases performed with
  | silent quiet =>
      rcases accepted with rfl | rfl
      · cases quiet
      · cases quiet
  | @registered outcome ok told served =>
      have granted : ok = true := by
        rcases accepted with rfl | rfl
        · rcases told with equal | equal
          · cases equal
            rfl
          · cases equal
        · rcases told with equal | equal
          · cases equal
          · cases equal
            rfl
      rw [granted] at served
      have stored := registration_step host key wf state.shared.clock
      rcases stored.register_cases with ⟨_, _, added⟩ | ⟨refused, _, _⟩
      · refine ⟨host.entry key state.shared.clock, ?_, rfl, rfl⟩
        change _ ∈ (state.shared.table.handle (host.registration key)
          state.shared.clock).table.view.entries
        rw [added]
        exact Multiset.mem_cons_self _ _
      · cases refused.symm.trans served

/-- From its accepted REGISTER on, a session with a running container is listed, unless
a KILL or KILL_USER of it was served or its wait for crun was cut short. -/
theorem listed_of_registered {before start finish : Global Place Name Content}
    {key : SessionKey} {outcome : Outcome} {labels : List (HostLabel Name Content)}
    (reachable : host.system.Reachable before)
    (registers : (before.procs key).point = .register)
    (accepted : outcome = .answered true ∨ outcome = .lost true)
    (step : host.system.step before (.act key (.call outcome)) start)
    (run : host.system.Run start labels finish)
    (spared : ∀ label ∈ labels, ¬ host.KilledBy key label) {root : List SessionKey}
    (running : (finish.procs key).holds.child = .running root)
    (uncut : (finish.procs key).waitCut = false) :
    host.Listed finish key := by
  have listed := listed_of_accepted reachable registers accepted step
  have kept : host.system.Reachable finish ∧
      (host.Listed finish key ∨ (finish.procs key).Waited) := by
    apply run.preserves
    · exact ⟨reachable.step step, .inl listed⟩
    · intro state label next held member step
      exact ⟨held.1.step step, listed_or_waited_step held.1 held.2 (spared label member) step⟩
  rcases kept.2 with listed | exited | cut
  · exact listed
  · cases running.symm.trans exited
  · cases uncut.symm.trans cut

end Host

instance (key : SessionKey) : (label : HostLabel Unit Bool) →
    Decidable (sampleHost.KilledBy key label)
  | .env (.requested ctl) =>
      inferInstanceAs (Decidable (ctl.Names (sampleHost.config key).account key.id))
  | .env (.tick _) => isFalse id
  | .env (.reloaded _ _) => isFalse id
  | .env (.written _ _ _) => isFalse id
  | .act _ _ => isFalse id

/-- A second session registers beside the first and is killed. -/
def otherKilled : List (HostLabel Unit Bool) :=
  actsOf firstLogin [.child (.crunStarted [firstLogin])] ++
    actsOf secondLogin (startUp ++ [.call .ok, .call (.answered true)]) ++
    [.env (.requested (.kill secondLogin.id)), .act secondLogin (.signal .term)]

/-- The first session is about to register. -/
def registering : List (HostLabel Unit Bool) :=
  actsOf firstLogin (startUp ++ [.call .ok])

theorem listed_of_registered_beside :
    sampleHost.Listed
      (sampleHost.after
        (registering ++ [.act firstLogin (.call (.answered true))] ++ otherKilled))
      firstLogin := by
  have reachable : sampleHost.system.Reachable (sampleHost.after registering) :=
    Host.reachable_after (by decide)
  have registers : ((sampleHost.after registering).procs firstLogin).point = .register := by
    decide
  have running : ((sampleHost.after
      (registering ++ [.act firstLogin (.call (.answered true))] ++ otherKilled)).procs
      firstLogin).holds.child = .running [firstLogin] := by decide
  exact Host.listed_of_registered reachable registers (.inl rfl)
    (Host.step_after (by decide)) (Host.run_after (by decide)) (by decide) running (by decide)

/-- The container of a session that was killed goes on until it ends by itself. -/
def killedRun : List (HostLabel Unit Bool) :=
  registering ++ actsOf firstLogin [.call (.answered true), .child (.crunStarted [firstLogin])] ++
    [.env (.requested (.kill firstLogin.id))]

theorem killed_session_unlisted :
    ¬ ∀ (host : Host Bytes Unit Bool) (state : Global Bytes Unit Bool) (key : SessionKey)
      (root : List SessionKey), host.system.Reachable state →
      (state.procs key).accepted = true → (state.procs key).holds.child = .running root →
      host.Listed state key := by
  intro always
  have reachable : sampleHost.system.Reachable (sampleHost.after killedRun) :=
    Host.reachable_after (by decide)
  have emptied : (sampleHost.after killedRun).shared.table.entries = [] := by decide
  have listed := always sampleHost _ firstLogin [firstLogin] reachable (by decide) (by decide)
  rw [Host.Listed, Table.bag, emptied] at listed
  rcases listed with ⟨entry, member, _⟩
  cases member

end Caal

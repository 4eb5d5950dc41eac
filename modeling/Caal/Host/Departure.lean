import Caal.Host.Registry
import Caal.Session.Ledger
import Caal.Session.Signals

/-!
# What a session leaves behind

`main` returns behind a successful `container_start` on two ways: behind the relay, or
because the console was not received. Only the first stops the watchdog and unregisters.
-/

namespace Caal

open CMemory LTS

/-! ## Without the console -/

/-- The console is received, unless there is neither a watchdog nor an accepted REGISTER. -/
def ReceivesConsole (proc : Proc) : Act → Prop
  | .call .fail =>
      proc.point.phase = .console → proc.timer = .absent ∧ proc.accepted = false
  | _ => True

/-- The teardown of a started container has nothing else to release, or is entered behind
the relay. -/
def Proc.Unburdened (proc : Proc) : Prop :=
  proc.point.phase = .teardown ∨ proc.point.phase = .over → proc.holds.child ≠ .absent →
    proc.received = true ∨ proc.timer = .absent ∧ proc.accepted = false

/-- Entering the teardown, or going on in it. -/
private theorem Proc.Unburdened.call {config : Config} {proc after : Proc} {outcome : Outcome}
    (unburdened : proc.Unburdened) (built : proc.Built) (ledger : proc.Ledger)
    (receives : ReceivesConsole proc (.call outcome))
    (called : proc.call config outcome = some after) : after.Unburdened := by
  rcases call_move called with ⟨next, move, _, rfl⟩
  clear called
  have setUp := built.setUp
  rw [Unburdened] at unburdened ⊢
  rw [Ledger] at ledger
  rw [ReceivesConsole.eq_def] at receives
  generalize proc.point = point at move unburdened setUp ledger receives ⊢
  change next.phase = .teardown ∨ next.phase = .over →
    (proc.effect point outcome).holds.child ≠ .absent →
    (proc.effect point outcome).received = true ∨
      (proc.effect point outcome).timer = .absent ∧ (proc.effect point outcome).accepted = false
  intro leaving started
  cases move with
  | within same inside neutral =>
      rw [same] at leaving
      rcases leaving with phase | phase <;> rw [phase] at inside <;> cases inside
  | full reached => exact (started setUp.1).elim
  | setupFailed setup neutral =>
      rw [setup] at setUp
      exact (started ((neutral.child proc).trans setUp.1)).elim
  | mountFailed => exact (started setUp.1).elim
  | socketFailed starting neutral =>
      rw [starting] at setUp
      exact (started ((neutral.child proc).trans setUp.1)).elim
  | forkFailed => exact (started setUp.1).elim
  | consoleFailed console neutral =>
      rw [neutral.timer, neutral.accepted]
      exact .inr (receives console)
  | cleaned neutral =>
      rw [neutral.received]
      exact .inl ledger.received
  | sockUnlinked site => exact unburdened (.inl rfl) started
  | overlayUnmounted site => exact unburdened (.inl rfl) started
  | diskUnmounted site => exact unburdened (.inl rfl) started
  | imageUnlinked site => exact unburdened (.inl rfl) started
  | rmForked site => exact unburdened (.inl rfl) started
  | rmUnforked site => exact unburdened (.inl rfl) started
  | rmWaited site => exact unburdened (.inl rfl) started
  | rmWaitCut site => exact unburdened (.inl rfl) started
  | deleteForked code => exact unburdened (.inl rfl) started
  | deleteUnforked code => exact unburdened (.inl rfl) started
  | deleteWaited code => exact unburdened (.inl rfl) started
  | deleteWaitCut code => exact unburdened (.inl rfl) started
  | forked =>
      rw [Point.started] at leaving
      split at leaving <;> rcases leaving with phase | phase <;> cases phase
  | waited => rcases leaving with phase | phase <;> simp at phase
  | waitCut => rcases leaving with phase | phase <;> simp at phase
  | _ => rcases leaving with phase | phase <;> cases phase

/-- Without signals, and with the console received or nothing to lose, a session comes to
its teardown unburdened. -/
theorem unburdened_of_receivesConsole {config : Config} {proc : Proc}
    (reachable : ((session config).restrict fun proc act =>
      (∀ signal, act ≠ .signal signal) ∧ ReceivesConsole proc act).Reachable proc) :
    proc.Unburdened := by
  apply reachable.invariant_within
  · intro start initial
    cases initial
    intro _ started
    exact (started rfl).elim
  · intro proc act next reached unburdened step
    have run := reached.of_restrict
    rcases Proc.step_cases step.2 with ⟨outcome, rfl, called⟩ | ⟨signal, rfl, _, _⟩ |
      ⟨event, holds, rfl, progressed, rfl⟩
    · exact unburdened.call (Proc.waited_of_reachable run).1 (Proc.ledger_of_reachable run)
        step.1.2 called
    · exact (step.1.1 signal rfl).elim
    · intro leaving started
      have progress := Holdings.progress_spec progressed
      exact unburdened leaving fun absent => started (progress.child.mpr absent)

variable {Place Name Content : Type} [DecidableEq Place] [DecidableEq Name]
  {host : Host Place Name Content}
  {beneath : Place → Place → Bool}

namespace Host

/-- No signal is delivered to the session, and no request kills it. -/
def LeavesAlone (host : Host Place Name Content) (key : SessionKey)
    (_ : Global Place Name Content) : HostLabel Name Content → Prop
  | .act other (.signal _) => other ≠ key
  | .env (.requested ctl) => ¬ ctl.Names (host.config key).account key.id
  | _ => True

/-- The session has released its watchdog, its entry and its container. -/
structure Releases (state : Global Place Name Content) (key : SessionKey) : Prop where
  watchdog : (state.procs key).timer ≠ .running
  entry : (state.procs key).accepted = true → (state.procs key).unreachable = false →
    ∀ entry ∈ state.shared.table.bag, entry.containerId ≠ key.id
  container : (state.procs key).holds.Released

/-- The daemon's table has one entry for the session while it is on the record, and no
other entry with its id. -/
structure Recorded (host : Host Place Name Content) (state : Global Place Name Content)
    (key : SessionKey) : Prop where
  owned : Owned (host.config key).account key.id state.shared.table.bag
  present : (state.procs key).OnRecord →
    (own (host.config key).account key.id state.shared.table.bag).card = 1
  absent : ¬ (state.procs key).OnRecord →
    (own (host.config key).account key.id state.shared.table.bag).card = 0

omit [DecidableEq Place] [DecidableEq Name] in
theorem recorded_start (key : SessionKey) : host.Recorded host.start key := by
  have empty : host.start.shared.table.bag = 0 :=
    (reload_bag Table.WF.initial host.file true).1
  have unheard : ¬ (host.start.procs key).OnRecord := fun recorded => nomatch recorded.1
  constructor
  · rw [empty]
    exact fun entry member => (Multiset.notMem_zero entry member).elim
  · exact fun recorded => (unheard recorded).elim
  · rw [empty]
    exact fun _ => rfl

omit [DecidableEq Place] [DecidableEq Name] in
/-- What leaves the session's entries and its record alone keeps the invariant. -/
theorem Recorded.of_spares {state after : Global Place Name Content} {key : SessionKey}
    (recorded : host.Recorded state key)
    (spares : BagStep.Spares state.shared.table.view after.shared.table.view
      (host.config key).account key.id)
    (same : (after.procs key).OnRecord ↔ (state.procs key).OnRecord) :
    host.Recorded after key := by
  have kept : own (host.config key).account key.id after.shared.table.bag =
      own (host.config key).account key.id state.shared.table.bag := spares.own
  constructor
  · exact spares.owned recorded.owned
  · rw [same, kept]
    exact recorded.present
  · rw [same, kept]
    exact recorded.absent

omit [DecidableEq Name] in
/-- A returning call of the session keeps the invariant. -/
theorem Recorded.call {state after : Global Place Name Content} {key : SessionKey}
    {outcome : Outcome} (recorded : host.Recorded state key) (wf : state.shared.table.WF)
    (ledger : (state.procs key).Ledger)
    (called : (state.procs key).call (host.config key) outcome = some (after.procs key))
    (performed : host.Performed beneath key state.shared (state.procs key).point (.call outcome)
      after.shared) :
    host.Recorded after key := by
  rcases performed.exchanged with ⟨here, ok, told, served, table⟩ | ⟨here, ok, told, table⟩ |
    ⟨unserved, table⟩
  · rcases Proc.onRecord_register ledger here told called with ⟨before, now⟩
    have step := registration_step host key wf state.shared.clock
    have none := recorded.absent before
    have bag : after.shared.table.bag =
        (state.shared.table.handle (host.registration key) state.shared.clock).table.bag := by
      rw [table]
    rcases step.register_cases with ⟨accepted, _, stored⟩ | ⟨refused, _, unchanged⟩
    · have granted : ok = true := served.symm.trans accepted
      have mine : after.shared.table.bag =
          host.entry key state.shared.clock ::ₘ state.shared.table.bag := bag.trans stored
      constructor
      · rw [mine]
        exact Multiset.forall_mem_cons.mpr ⟨fun _ => rfl, recorded.owned⟩
      · intro _
        rw [mine, own_entry, Multiset.card_cons, none]
      · exact fun unheard => (unheard (now.mpr granted)).elim
    · have denied : ok = false := served.symm.trans refused
      have same : after.shared.table.bag = state.shared.table.bag := bag.trans unchanged
      constructor
      · rw [same]
        exact recorded.owned
      · intro heard
        cases denied.symm.trans (now.mp heard)
      · intro _
        rw [same]
        exact none
  · have off := Proc.onRecord_unregister ledger here told called
    have step := unregister_step key wf state.shared.clock
    rcases step.card_own_of_unregister recorded.owned with ⟨fewer, owned⟩
    have bag : after.shared.table.bag =
        (state.shared.table.handle (.unregister key.id) state.shared.clock).table.bag := by
      rw [table]
    constructor
    · rw [bag]
      exact owned
    · exact fun heard => (off heard).elim
    · intro _
      rw [bag]
      refine fewer.trans ?_
      by_cases heard : (state.procs key).OnRecord
      · exact congrArg (· - 1) (recorded.present heard)
      · exact congrArg (· - 1) (recorded.absent heard)
  · have same := Proc.onRecord_call ledger unserved called
    refine recorded.of_spares ?_ same
    rw [table]
    exact .rfl

/-- A step that leaves the session alone keeps the invariant. -/
theorem Recorded.step {state after : Global Place Name Content} {key : SessionKey}
    {label : HostLabel Name Content} (recorded : host.Recorded state key)
    (wf : state.shared.table.WF) (ledger : (state.procs key).Ledger)
    (alone : host.LeavesAlone key state label) (step : host.system.step state label after) :
    host.Recorded after key := by
  cases label with
  | act other action =>
      rcases step_act step with ⟨moved, performed, others⟩
      have performed := performed_of_perform performed
      by_cases same : key = other
      · subst same
        rcases Proc.step_cases moved with ⟨outcome, rfl, called⟩ | ⟨signal, rfl, _, _⟩ |
          ⟨event, holds, rfl, _, equal⟩
        · exact recorded.call wf ledger called performed
        · exact (alone rfl).elim
        · refine recorded.of_spares ?_ ?_
          · rw [performed.table_of_idle fun _ => nofun]
            exact .rfl
          · rw [equal]
            exact Iff.rfl
      · have foreign : other.id ≠ key.id := fun equal => same (SessionKey.id_injective equal.symm)
        refine recorded.of_spares (performed.spares wf fun _ => foreign) ?_
        rw [others key same]
  | env event =>
      rcases step_env step with ⟨moved, procs⟩
      refine recorded.of_spares (spares_of_environ moved wf ?_) ?_
      · intro ctl requested
        rw [requested] at alone
        exact alone
      · rw [procs]

theorem recorded_of_reachable {state : Global Place Name Content} {key : SessionKey}
    (reachable : (host.system.restrict (host.LeavesAlone key)).Reachable state) :
    host.Recorded state key := by
  apply reachable.invariant_within
  · intro start init
    cases eq_start_of_init init
    exact recorded_start key
  · intro state label after reached recorded step
    have run : ((session (host.config key)).restrict fun _ _ => True).Reachable
        (state.procs key) := reachable_session reached fun _ => trivial
    exact recorded.step (table_wf reached) (Proc.ledger_of_reachable run.of_restrict) step.1 step.2

/-- What `main` leaves behind when it returns after a successful `container_start`: nothing
exactly if the console was received, or there was neither a watchdog nor an accepted
REGISTER. -/
theorem releases_iff {state : Global Place Name Content} {key : SessionKey} {code : Nat}
    (reachable : (host.system.restrict (host.LeavesAlone key)).Reachable state)
    (ended : (state.procs key).point = .exited code)
    (started : (state.procs key).holds.child ≠ .absent) :
    Releases state key ↔ (state.procs key).received = true ∨
      (state.procs key).timer = .absent ∧ (state.procs key).accepted = false := by
  have unsignalled : ((session (host.config key)).restrict fun _ act =>
      ∀ signal, act ≠ .signal signal).Reachable (state.procs key) := by
    apply reachable_session reachable
    intro state action alone signal signalled
    rw [signalled] at alone
    exact alone rfl
  have orderly : (state.procs key).Orderly := by
    apply orderly_of_undisturbed (unsignalled.restrict_mono _)
    intro proc act silent
    cases act with
    | signal signal => exact (silent signal rfl).elim
    | _ => trivial
  have books := Proc.ledger_of_reachable unsignalled.of_restrict
  have recorded := recorded_of_reachable reachable
  rw [Proc.Ledger, ended] at books
  constructor
  · intro releases
    rcases books with unserved | signedOff
    · refine .inr ⟨?_, ?_⟩
      · cases timer : (state.procs key).timer with
        | absent => rfl
        | running => exact (releases.watchdog timer).elim
        | killed => exact (unserved.timer timer).elim
      · cases accepted : (state.procs key).accepted with
        | false => rfl
        | true =>
            have one := recorded.present (unserved.onRecord.mpr accepted)
            rcases Multiset.card_pos_iff_exists_mem.mp (Nat.lt_of_lt_of_eq Nat.one_pos one.symm)
              with ⟨entry, mine⟩
            have found := mem_own.mp mine
            exact (releases.entry accepted unserved.trusted entry found.1 found.2.1).elim
    · exact .inl signedOff.received
  · intro unburdened
    have tornDown := orderly.tornDown
    rw [ended] at tornDown
    refine ⟨?_, ?_, tornDown (orderly.built.covered started)⟩
    · rcases books with unserved | signedOff
      · rcases unburdened with received | ⟨unwatched, _⟩
        · cases unserved.received.symm.trans received
        · intro running
          cases unwatched.symm.trans running
      · exact signedOff.timer
    · intro accepted reached entry member same
      have off : ¬ (state.procs key).OnRecord := by
        intro heard
        rcases unburdened with received | ⟨_, refused⟩
        · rw [Proc.OnRecord, ended] at heard
          cases reached.symm.trans (heard.2 received rfl)
        · cases refused.symm.trans accepted
      have mine : entry ∈ own (host.config key).account key.id state.shared.table.bag :=
        mem_own.mpr ⟨member, same, recorded.owned entry member same⟩
      rw [Multiset.card_eq_zero.mp (recorded.absent off)] at mine
      exact Multiset.notMem_zero entry mine

/-- The session is left alone, and receives its console unless it has nothing to lose. -/
def KeepsConsole (host : Host Place Name Content) (key : SessionKey)
    (state : Global Place Name Content) (label : HostLabel Name Content) : Prop :=
  host.LeavesAlone key state label ∧
    ∀ action, label = .act key action → ReceivesConsole (state.procs key) action

/-- In runs in which the console is received whenever there is a watchdog or an accepted
REGISTER, every exit behind `container_start` releases everything. -/
theorem releases_of_keepsConsole {state : Global Place Name Content} {key : SessionKey}
    {code : Nat} (reachable : (host.system.restrict (host.KeepsConsole key)).Reachable state)
    (ended : (state.procs key).point = .exited code)
    (started : (state.procs key).holds.child ≠ .absent) : Releases state key := by
  have alone := reachable.restrict_mono fun _ _ kept => kept.1
  have run : ((session (host.config key)).restrict fun proc act =>
      (∀ signal, act ≠ .signal signal) ∧ ReceivesConsole proc act).Reachable
      (state.procs key) := by
    apply reachable_session reachable
    intro state action kept
    refine ⟨?_, kept.2 action rfl⟩
    intro signal signalled
    rw [signalled] at kept
    exact kept.1 rfl
  have unburdened := unburdened_of_receivesConsole run
  exact (releases_iff alone ended started).mpr (unburdened (.inr (by rw [ended]; rfl)) started)

end Host

instance (proc : Proc) : (act : Act) → Decidable (ReceivesConsole proc act)
  | .call .fail => inferInstanceAs (Decidable (_ → _))
  | .call .ok => isTrue trivial
  | .call .intr => isTrue trivial
  | .call (.counted _) => isTrue trivial
  | .call (.fallback _) => isTrue trivial
  | .call (.ready _ _) => isTrue trivial
  | .call (.answered _) => isTrue trivial
  | .call (.lost _) => isTrue trivial
  | .signal _ => isTrue trivial
  | .child _ => isTrue trivial

instance (host : Host Bytes Unit Bool) (key : SessionKey) (state : Global Bytes Unit Bool) :
    (label : HostLabel Unit Bool) → Decidable (host.LeavesAlone key state label)
  | .act other (.signal _) => inferInstanceAs (Decidable (other ≠ key))
  | .act _ (.call _) => isTrue trivial
  | .act _ (.child _) => isTrue trivial
  | .env (.requested ctl) =>
      inferInstanceAs (Decidable (¬ ctl.Names (host.config key).account key.id))
  | .env (.tick _) => isTrue trivial
  | .env (.reloaded _ _) => isTrue trivial
  | .env (.written _ _ _) => isTrue trivial

instance (host : Host Bytes Unit Bool) (key : SessionKey) (state : Global Bytes Unit Bool) :
    (label : HostLabel Unit Bool) → Decidable (host.KeepsConsole key state label)
  | .act other action =>
      decidable_of_iff (host.LeavesAlone key state (.act other action) ∧
        (other = key → ReceivesConsole (state.procs key) action))
        (and_congr_right' ⟨fun kept _ equal => by cases equal; exact kept rfl,
          fun kept same => kept action (by rw [same])⟩)
  | .env event =>
      decidable_of_iff (host.LeavesAlone key state (.env event))
        ⟨fun alone => ⟨alone, fun _ equal => nomatch equal⟩, fun kept => kept.1⟩

/-- An account with a timeout. -/
def timedHost : Host Bytes Unit Bool :=
  { sampleHost with config := fun _ => { plainConfig with timeout := 60 } }

/-- One login, from its start to its end. The watchdog is forked behind crun, and killed once
crun has exited. -/
def timedLogin : List (HostLabel Unit Bool) :=
  actsOf firstLogin (startUp ++ [.call .ok] ++ enterRelay [firstLogin] ++ endRelay ++
    leave.take 2 ++ [.call .ok] ++ leave.drop 2)

theorem releases_of_keepsConsole_login :
    ((timedHost.after timedLogin).procs firstLogin).timer = .killed ∧
      Host.Releases (timedHost.after timedLogin) firstLogin := by
  have reachable : (timedHost.system.restrict (timedHost.KeepsConsole firstLogin)).Reachable
      (timedHost.after timedLogin) := Host.reachable_after_guarded (by decide)
  have ended : ((timedHost.after timedLogin).procs firstLogin).point = .exited 0 := by decide
  exact ⟨by decide, Host.releases_of_keepsConsole reachable ended (by decide)⟩

/-- The daemon accepts the REGISTER, and then the console is not received. -/
def unconsoledRun : List (HostLabel Unit Bool) :=
  actsOf firstLogin (startUp ++
    [.call .ok, .call (.answered true), .child .crunExited, .call .fail, .call .ok,
      .call .ok, .call .ok, .call .ok, .call .ok, .child .rmDone, .call .ok, .call .ok,
      .child .deleteDone, .call .ok])

theorem entry_outlives_session :
    ¬ ∀ (host : Host Bytes Unit Bool) (state : Global Bytes Unit Bool) (key : SessionKey)
      (code : Nat), (host.system.restrict (host.LeavesAlone key)).Reachable state →
      (state.procs key).point = .exited code → (state.procs key).holds.child ≠ .absent →
      Host.Releases state key := by
  intro always
  have reachable : (sampleHost.system.restrict (sampleHost.LeavesAlone firstLogin)).Reachable
      (sampleHost.after unconsoledRun) := Host.reachable_after_guarded (by decide)
  have ended : ((sampleHost.after unconsoledRun).procs firstLogin).point = .exited 1 := by decide
  have releases := always sampleHost _ firstLogin 1 reachable ended (by decide)
  rcases (Host.releases_iff reachable ended (by decide)).mp releases with received | unwatched
  · have missed : ((sampleHost.after unconsoledRun).procs firstLogin).received = false := by
      decide
    cases missed.symm.trans received
  · have accepted : ((sampleHost.after unconsoledRun).procs firstLogin).accepted = true := by
      decide
    cases unwatched.2.symm.trans accepted

end Caal

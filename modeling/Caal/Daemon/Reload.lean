import Caal.Daemon.Sighup

/-!
# When a SIGHUP takes effect

The accept loop of `caald.c` with the reading of the config file and its application to the
table as two steps, so that a signal can arrive between them. A record is kept of the
signals: how many have been delivered, and how many of them the config in use has seen.
-/

namespace Caal

open CMemory Transfer

/-! ## The loop in smaller steps -/

/-- Where the accept loop is: at its test of `g_reload_config`, in `reload_config` before the
file is read or with what has been read, or at `accept`. -/
inductive ReloadPoint where
  | check
  | read
  | apply (file : ConfigFile)
  | accept
  deriving DecidableEq

/-- The daemon in its accept loop, with `g_reload_config`. -/
structure ReloadLoop where
  process : Process
  reloadConfig : Bool
  point : ReloadPoint

inductive ReloadEvent where
  /-- A signal that arrives between calls. -/
  | sighup
  | clear
  | read (file : ConfigFile)
  | apply (file : ConfigFile) (allocated : Bool)
  | proceed
  | acceptFailed (signalled : Bool)
  | client (connection : Connection) (now : Int64) (signalled : Bool)

inductive ReloadStep (caald : Int32) : ReloadLoop → ReloadEvent → ReloadLoop → Prop where
  | sighup (table : Table) (pending : Bool) (point : ReloadPoint) :
      ReloadStep caald ⟨.accepting table, pending, point⟩ .sighup ⟨.accepting table, true, point⟩
  | clear (table : Table) :
      ReloadStep caald ⟨.accepting table, true, .check⟩ .clear ⟨.accepting table, false, .read⟩
  | read (table : Table) (pending : Bool) (file : ConfigFile) :
      ReloadStep caald ⟨.accepting table, pending, .read⟩ (.read file)
        ⟨.accepting table, pending, .apply file⟩
  | apply (table : Table) (pending : Bool) (file : ConfigFile) (allocated : Bool) :
      ReloadStep caald ⟨.accepting table, pending, .apply file⟩ (.apply file allocated)
        ⟨.accepting (table.reloadConfig file allocated), pending, .accept⟩
  | proceed (table : Table) :
      ReloadStep caald ⟨.accepting table, false, .check⟩ .proceed ⟨.accepting table, false, .accept⟩
  /-- A signal that finds `accept` blocked makes it return -1. -/
  | acceptFailed (table : Table) (pending signalled : Bool) :
      ReloadStep caald ⟨.accepting table, pending, .accept⟩ (.acceptFailed signalled)
        ⟨.accepting table, pending || signalled, .check⟩
  /-- A signal during the exchange comes after the client has been accepted. -/
  | client (table : Table) (pending signalled : Bool) (connection : Connection) (now : Int64)
      (cause : connection.Patient → ¬ connection.Uninterrupted caald table → signalled = true) :
      ReloadStep caald ⟨.accepting table, pending, .accept⟩ (.client connection now signalled)
        ⟨(handleClient caald table connection now).process, pending || signalled, .check⟩

/-- `main` from its accept loop on, in these steps. -/
def reloadLoop (caald : Int32) : LTS ReloadLoop ReloadEvent where
  init state :=
    (server caald).init state.process ∧ state.reloadConfig = false ∧ state.point = .check
  step := ReloadStep caald

/-! ## Seen in larger steps -/

def ReloadPoint.loopPoint : ReloadPoint → LoopPoint
  | .check => .check
  | .read | .apply _ => .reload
  | .accept => .accept

def ReloadLoop.loop (state : ReloadLoop) : Loop :=
  ⟨state.process, state.reloadConfig, state.point.loopPoint⟩

/-- Reading the file does not show: the reload is its application. -/
def ReloadEvent.loopEvent : ReloadEvent → Option LoopEvent
  | .sighup => some .sighup
  | .clear => some .clear
  | .read _ => none
  | .apply file allocated => some (.reload file allocated)
  | .proceed => some .proceed
  | .acceptFailed signalled => some (.acceptFailed signalled)
  | .client connection now signalled => some (.client connection now signalled)

theorem ReloadStep.loop {caald : Int32} {state next : ReloadLoop} {event : ReloadEvent}
    (step : ReloadStep caald state event next) :
    (acceptLoop caald).Run state.loop event.loopEvent.toList next.loop := by
  cases step with
  | sighup table pending point => exact .single (.sighup table pending point.loopPoint)
  | clear table => exact .single (.clear table)
  | read table pending file => exact .nil _
  | apply table pending file allocated =>
      exact .single (.reload table pending file allocated)
  | proceed table => exact .single (.proceed table)
  | acceptFailed table pending signalled => exact .single (.acceptFailed table pending signalled)
  | client table pending signalled connection now cause =>
      exact .single (.client table pending signalled connection now cause)

/-- The loop in smaller steps does what the accept loop does. -/
theorem reloadLoop_run {caald : Int32} {start finish : ReloadLoop} {events : List ReloadEvent}
    (run : (reloadLoop caald).Run start events finish) :
    (acceptLoop caald).Run start.loop (events.filterMap ReloadEvent.loopEvent) finish.loop := by
  apply run.project
  intro state event next step
  exact ReloadStep.loop step

/-- Between reloads the capacity stays what it is. -/
theorem ReloadStep.maxSessions_eq {caald : Int32} {state next : ReloadLoop} {event : ReloadEvent}
    {table after : Table} (step : ReloadStep caald state event next)
    (before : state.process = .accepting table) (left : next.process = .accepting after)
    (kept : ∀ file allocated, event ≠ .apply file allocated) :
    after.maxSessions = table.maxSessions := by
  cases step with
  | sighup => cases before; cases left; rfl
  | clear => cases before; cases left; rfl
  | read => cases before; cases left; rfl
  | apply _ _ file allocated => exact (kept file allocated rfl).elim
  | proceed => cases before; cases left; rfl
  | acceptFailed => cases before; cases left; rfl
  | client _ _ _ connection now =>
      cases before
      cases received : connection.request with
      | none =>
          rw [handleClient, received] at left
          cases left
          rfl
      | some request =>
          by_cases deadly : connection.Deadly caald table
          · rw [handleClient_deadly received deadly] at left
            cases left
          · rw [handleClient_harmless received deadly] at left
            dsimp only at left
            split at left
            · cases left
            · cases left
              exact table.maxSessions_handle request now

/-! ## Which signals a reload has seen -/

/-- A record of the signals: how many have been delivered, how many of them before the file
being applied was read, how many before the file applied last was read, and whether one has
been delivered in this pass of the loop behind its test of the flag, or, if it reloads, behind
its reading of the file. -/
structure SignalRecord where
  delivered : Nat
  reading : Nat
  covered : Nat
  late : Bool

namespace SignalRecord

/-- No signal so far. -/
def zero : SignalRecord := ⟨0, 0, 0, false⟩

def note (state : ReloadLoop) (event : ReloadEvent) (record : SignalRecord) : SignalRecord :=
  match event with
  | .sighup =>
      { record with
        delivered := record.delivered + 1
        late := record.late || match state.point with
          | .check | .read => false
          | .apply _ | .accept => true }
  | .clear | .proceed => { record with late := false }
  | .read _ => { record with reading := record.delivered, late := false }
  | .apply _ _ => { record with covered := record.reading }
  | .acceptFailed signalled | .client _ _ signalled =>
      { record with delivered := record.delivered + signalled.toNat }

end SignalRecord

/-- The loop with the record of its signals. -/
def recordedLoop (caald : Int32) : LTS (ReloadLoop × SignalRecord) ReloadEvent :=
  (reloadLoop caald).recording SignalRecord.zero SignalRecord.note

theorem ReloadStep.record {caald : Int32} {state next : ReloadLoop} {event : ReloadEvent}
    (step : ReloadStep caald state event next) (record : SignalRecord) :
    (recordedLoop caald).step (state, record) event (next, record.note state event) :=
  ⟨step, rfl⟩

theorem recordedLoop_step {caald : Int32} {state next : ReloadLoop} {record : SignalRecord}
    {event : ReloadEvent} (reachable : (recordedLoop caald).Reachable (state, record))
    (step : ReloadStep caald state event next) :
    (recordedLoop caald).Reachable (next, record.note state event) :=
  reachable.step (step.record record)

/-- The config in use was read after all signals delivered so far. -/
def UpToDate (state : ReloadLoop × SignalRecord) : Prop :=
  state.2.covered = state.2.delivered

/-- A reload that sees all signals delivered so far is under way, or the flag asks for one. -/
def ReloadLoop.Owed (state : ReloadLoop) (record : SignalRecord) : Prop :=
  state.reloadConfig = true ∨ state.point = .read ∨
    ∃ file, state.point = .apply file ∧ record.reading = record.delivered

/-- What the record says at each point of the loop. -/
def ReloadLoop.Recorded (state : ReloadLoop) (record : SignalRecord) : Prop :=
  match state.point with
  | .check => state.reloadConfig = false → record.covered = record.delivered
  | .read => record.late = false
  | .apply _ =>
      if record.late then state.reloadConfig = true ∧ record.reading < record.delivered
      else record.reading = record.delivered
  | .accept =>
      if record.late then state.reloadConfig = true ∧ record.covered < record.delivered
      else record.covered = record.delivered

/-- A signal sets the flag, and is late behind the test or the reading. -/
theorem ReloadLoop.Recorded.sighup {table : Table} {pending : Bool} {point : ReloadPoint}
    {record : SignalRecord}
    (recorded : ReloadLoop.Recorded ⟨.accepting table, pending, point⟩ record) :
    ReloadLoop.Recorded ⟨.accepting table, true, point⟩
      (record.note ⟨.accepting table, pending, point⟩ .sighup) := by
  cases point with
  | check =>
      intro clear
      cases clear
  | read =>
      rw [ReloadLoop.Recorded] at recorded ⊢
      simpa [SignalRecord.note] using recorded
  | apply file =>
      simp only [ReloadLoop.Recorded, SignalRecord.note, Bool.or_true, if_true] at recorded ⊢
      refine ⟨trivial, ?_⟩
      split at recorded
      · exact Nat.lt_succ_of_lt recorded.2
      · rw [recorded]
        exact Nat.lt_succ_self _
  | accept =>
      simp only [ReloadLoop.Recorded, SignalRecord.note, Bool.or_true, if_true] at recorded ⊢
      refine ⟨trivial, ?_⟩
      split at recorded
      · exact Nat.lt_succ_of_lt recorded.2
      · rw [recorded]
        exact Nat.lt_succ_self _

/-- Behind `accept`, a flag that is clear means that no signal was late, and none came in. -/
theorem ReloadLoop.Recorded.passed {process : Process} {table : Table}
    {pending signalled : Bool} {record : SignalRecord}
    (recorded : ReloadLoop.Recorded ⟨.accepting table, pending, .accept⟩ record) :
    ReloadLoop.Recorded ⟨process, pending || signalled, .check⟩
      { record with delivered := record.delivered + signalled.toNat } := by
  intro clear
  rcases Bool.or_eq_false_iff.mp clear with ⟨rfl, rfl⟩
  simp only [ReloadLoop.Recorded] at recorded
  split at recorded
  · cases recorded.1
  · exact recorded

theorem ReloadStep.recorded {caald : Int32} {state next : ReloadLoop} {event : ReloadEvent}
    {record : SignalRecord} (recorded : state.Recorded record)
    (step : ReloadStep caald state event next) : next.Recorded (record.note state event) := by
  cases step with
  | sighup table pending point => exact recorded.sighup
  | clear table => rfl
  | read table pending file =>
      simp only [ReloadLoop.Recorded, SignalRecord.note, Bool.false_eq_true, if_false]
  | apply table pending file allocated => exact recorded
  | proceed table =>
      simp only [ReloadLoop.Recorded, SignalRecord.note, Bool.false_eq_true, if_false]
      exact recorded rfl
  | acceptFailed table pending signalled => exact recorded.passed
  | client table pending signalled connection now cause => exact recorded.passed

theorem recordedLoop_recorded {caald : Int32} {state : ReloadLoop × SignalRecord}
    (reachable : (recordedLoop caald).Reachable state) : state.1.Recorded state.2 := by
  apply reachable.invariant
  · rintro ⟨start, record⟩ ⟨⟨_, _, point⟩, rfl⟩
    dsimp only at point
    rw [ReloadLoop.Recorded, point]
    intro _
    rfl
  · rintro ⟨state, record⟩ event ⟨next, _⟩ recorded ⟨step, rfl⟩
    exact ReloadStep.recorded recorded step

theorem ReloadLoop.Recorded.owed {state : ReloadLoop} {record : SignalRecord}
    (recorded : state.Recorded record) (stale : record.covered ≠ record.delivered) :
    state.Owed record := by
  rcases state with ⟨process, pending, point⟩
  cases point with
  | check =>
      left
      cases pending with
      | false => exact (stale (recorded rfl)).elim
      | true => rfl
  | read => exact .inr (.inl rfl)
  | apply file =>
      simp only [ReloadLoop.Recorded] at recorded
      split at recorded
      · exact .inl recorded.1
      · exact .inr (.inr ⟨file, rfl, recorded⟩)
  | accept =>
      simp only [ReloadLoop.Recorded] at recorded
      split at recorded
      · exact .inl recorded.1
      · exact (stale recorded).elim

/-- No signal is lost, wherever in the loop it arrives: until a reload has seen it, one that
does is under way or asked for. A client is served with the config as reloaded after all
signals delivered before it was accepted exactly if none of them was late, and no step but
the application of a config changes the capacity. -/
theorem sighup_before_client_iff (caald : Int32) (state : ReloadLoop × SignalRecord) :
    ((recordedLoop caald).Reachable state → UpToDate state ∨ state.1.Owed state.2) ∧
    (∀ {next : ReloadLoop × SignalRecord} {connection : Connection} {now : Int64}
      {signalled : Bool}, (recordedLoop caald).Reachable state →
      (recordedLoop caald).step state (.client connection now signalled) next →
      (UpToDate state ↔ state.2.late = false)) ∧
    ∀ {next : ReloadLoop} {event : ReloadEvent} {table after : Table},
      (reloadLoop caald).step state.1 event next → state.1.process = .accepting table →
      next.process = .accepting after → (∀ file allocated, event ≠ .apply file allocated) →
      after.maxSessions = table.maxSessions := by
  refine ⟨?_, ?_, ?_⟩
  · intro reachable
    by_cases stale : state.2.covered = state.2.delivered
    · exact .inl stale
    · exact .inr ((recordedLoop_recorded reachable).owed stale)
  · rcases state with ⟨state, record⟩
    rintro ⟨next, _⟩ connection now signalled reachable ⟨step, _⟩
    have recorded := recordedLoop_recorded reachable
    cases step with
    | client =>
        simp only [ReloadLoop.Recorded] at recorded
        cases late : record.late with
        | false =>
            rw [late, if_neg Bool.false_ne_true] at recorded
            exact iff_of_true recorded rfl
        | true =>
            rw [late, if_pos rfl] at recorded
            exact iff_of_false (Nat.ne_of_lt recorded.2) Bool.true_eq_false.mp
  · intro next event table after step before left kept
    exact step.maxSessions_eq before left kept

/-- The loop at its start, with one slot. -/
def startedLoop : ReloadLoop := ⟨.accepting oneSlot, false, .check⟩

theorem startedLoop_reachable : (recordedLoop 1).Reachable (startedLoop, .zero) :=
  .of_init ⟨⟨oneSlot_init 1, rfl, rfl⟩, rfl⟩

/-- A signal that finds `accept` blocked, the reload it asks for, and a client. -/
theorem sighup_before_client_blocked :
    let interrupted : ReloadLoop × SignalRecord :=
      (⟨.accepting oneSlot, true, .check⟩, ⟨1, 0, 0, false⟩)
    let bigger := oneSlot.reloadConfig (.parsed (.int64 2)) true
    let reloaded : ReloadLoop × SignalRecord :=
      (⟨.accepting bigger, false, .accept⟩, ⟨1, 1, 1, false⟩)
    (UpToDate interrupted ∨ interrupted.1.Owed interrupted.2) ∧ UpToDate reloaded ∧
      ∀ after, (handleClient 1 bigger (registration [] []) 7).process = .accepting after →
        after.maxSessions = 2 := by
  intro interrupted bigger reloaded
  have early : (recordedLoop 1).Reachable interrupted :=
    recordedLoop_step (recordedLoop_step startedLoop_reachable (.proceed oneSlot))
      (.acceptFailed oneSlot false true)
  have late : (recordedLoop 1).Reachable reloaded :=
    recordedLoop_step (recordedLoop_step (recordedLoop_step early
      (.clear oneSlot)) (.read oneSlot false (.parsed (.int64 2))))
      (.apply oneSlot false (.parsed (.int64 2)) true)
  have accepts := @ReloadStep.client 1 bigger false false (registration [] []) 7
    (fun _ struck => (struck (by decide +kernel)).elim)
  refine ⟨(sighup_before_client_iff 1 _).1 early,
    ((sighup_before_client_iff 1 _).2.1 late (accepts.record reloaded.2)).mpr rfl, ?_⟩
  intro after left
  have capacity : bigger.maxSessions = 2 := by decide
  rw [← capacity]
  have step : (reloadLoop 1).step ⟨.accepting bigger, false, .accept⟩
      (.client (registration [] []) 7 false)
      ⟨(handleClient 1 bigger (registration [] []) 7).process, false, .check⟩ := accepts
  generalize handleClient 1 bigger (registration [] []) 7 = service at left step
  exact (sighup_before_client_iff 1 reloaded).2.2 step rfl left nofun

/-- A signal between the test of the flag and `accept`: the client that is accepted next is
served with the old config. -/
theorem sighup_behind_test :
    ¬ ∀ {caald : Int32} {state next : ReloadLoop × SignalRecord} {connection : Connection}
      {now : Int64} {signalled : Bool}, (recordedLoop caald).Reachable state →
      (recordedLoop caald).step state (.client connection now signalled) next → UpToDate state := by
  intro claimed
  have behind := recordedLoop_step (recordedLoop_step startedLoop_reachable (.proceed oneSlot))
    (.sighup oneSlot false .accept)
  have accepts := @ReloadStep.client 1 oneSlot true false (registration [] []) 7
    (fun _ struck => (struck (by decide +kernel)).elim)
  have stale := claimed behind (accepts.record ⟨1, 0, 0, true⟩)
  cases stale

end Caal

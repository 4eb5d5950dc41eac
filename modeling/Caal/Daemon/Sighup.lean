import Caal.Client.Library
import Caal.Daemon.Serve

/-!
# SIGHUP at the accept loop

The accept loop of `caald.c` with the signal that asks for a reload. The handler
only sets `g_reload_config`, and is installed without `SA_RESTART`: a call that the
signal finds blocked, with nothing moved yet, returns -1, and `accept`, `read_all`
and `write_all` see a failed call.
-/

namespace Caal

open CMemory Transfer

/-! ## Clients that keep reading -/

namespace Connection

/-- The client sends a full request and keeps its end open and served, so that a
call on the connection moves something unless a signal interrupts it. -/
structure Patient (connection : Connection) : Prop where
  complete : Request.size ≤ connection.input.length
  reads : Live connection.reads
  writes : Live connection.writes

instance (connection : Connection) : Decidable connection.Patient :=
  decidable_of_iff
    (Request.size ≤ connection.input.length ∧ Live connection.reads ∧ Live connection.writes)
    ⟨fun all => ⟨all.1, all.2.1, all.2.2⟩,
      fun patient => ⟨patient.complete, patient.reads, patient.writes⟩⟩

/-- No signal arrives while the daemon is blocked in a call on the connection that
has moved nothing yet. -/
structure Uninterrupted (caald : Int32) (connection : Connection) (table : Table) : Prop where
  reading : .failed ∉ (progress connection.reads Request.size).calls
  writing : .failed ∉ calls connection.writes (connection.answerSizes caald table)

instance (caald : Int32) (connection : Connection) (table : Table) :
    Decidable (connection.Uninterrupted caald table) :=
  decidable_of_iff
    (.failed ∉ (progress connection.reads Request.size).calls ∧
      .failed ∉ calls connection.writes (connection.answerSizes caald table))
    ⟨fun both => ⟨both.1, both.2⟩, fun through => ⟨through.reading, through.writing⟩⟩

/-- The same client on a connection where no call is cut short. -/
def calm (connection : Connection) : Connection :=
  ⟨connection.input, [], []⟩

/-- What a client that sends a full request is due: its request carried out, once,
and the whole answer. A request that signals caald itself is carried out up to there. -/
def due (caald : Int32) (connection : Connection) (table : Table) (now : Int64) : Service :=
  let handled := table.handle (Request.ofBytes (connection.input.take Request.size)) now
  if connection.Deadly caald table then ⟨[], callsMade caald handled.effects, .terminated⟩
  else ⟨handled.toReply.blocks.flatten, handled.effects, .accepting handled.table⟩

end Connection

/-- The client gets its request carried out and the whole answer. -/
def Served (caald : Int32) (table : Table) (connection : Connection) (now : Int64) : Prop :=
  handleClient caald table connection now = connection.due caald table now

/-- What is due is never nothing. -/
theorem Connection.due_ne {caald : Int32} {connection : Connection} {table : Table} {now : Int64} :
    connection.due caald table now ≠ ⟨[], [], .accepting table⟩ := by
  rw [due]
  split
  case isTrue deadly =>
    intro nothing
    cases congrArg Service.process nothing
  case isFalse harmless =>
    intro nothing
    have lengths := congrArg (fun service => service.sent.length) nothing
    simp only [Reply.blocks, List.flatten_cons, List.length_append, List.length_nil,
      Response.length_bytes] at lengths
    have header : 0 < Response.size := by decide
    omega

namespace Connection.Patient

variable {connection : Connection} (patient : connection.Patient)

include patient

theorem request_isSome :
    connection.request.isSome = true ↔
      .failed ∉ (progress connection.reads Request.size).calls := by
  rw [Connection.request_isSome, Complete, (patient.reads.progress Request.size).1]
  exact and_iff_right patient.complete

/-- A request that arrives is carried out, whatever becomes of the answer. -/
theorem handleClient_received {caald : Int32} {table : Table} {now : Int64}
    (reading : .failed ∉ (progress connection.reads Request.size).calls) :
    handleClient caald table connection now =
      if connection.Deadly caald table then connection.due caald table now
      else
        { connection.due caald table now with
          sent := (writeBlocks connection.writes ((table.handle
            (Request.ofBytes (connection.input.take Request.size))
            now).toReply.blocks)).sent } := by
  cases received : connection.request with
  | none =>
      have arrived := patient.request_isSome.mpr reading
      rw [received] at arrived
      cases arrived
  | some request =>
      by_cases deadly : connection.Deadly caald table
      · rw [handleClient_deadly received deadly now, if_pos deadly, due, if_pos deadly,
          request_some received]
      · rw [handleClient_harmless received deadly now, if_neg deadly, due, if_neg deadly,
          patient.writes.writeBlocks_killed, ← request_some received]
        rfl

/-- A request cut off by a signal is dropped: no answer, and no trace in the table. -/
theorem handleClient_lost {caald : Int32} {table : Table} {now : Int64}
    (interrupted : .failed ∈ (progress connection.reads Request.size).calls) :
    handleClient caald table connection now = ⟨[], [], .accepting table⟩ := by
  cases received : connection.request with
  | none => rw [handleClient, received]
  | some request =>
      have arrived : connection.request.isSome = true := by
        rw [received]
        rfl
      exact (patient.request_isSome.mp arrived interrupted).elim

/-- The client is served exactly when no signal interrupts a call on its connection. -/
theorem served_iff (caald : Int32) (table : Table) (now : Int64) :
    Served caald table connection now ↔ connection.Uninterrupted caald table := by
  by_cases interrupted : .failed ∈ (progress connection.reads Request.size).calls
  · refine iff_of_false ?_ fun through => through.reading interrupted
    rw [Served, patient.handleClient_lost interrupted]
    exact fun served => due_ne served.symm
  · rw [Served, patient.handleClient_received interrupted]
    by_cases deadly : connection.Deadly caald table
    · rw [if_pos deadly]
      refine iff_of_true rfl ⟨interrupted, ?_⟩
      rw [answerSizes, if_pos deadly]
      exact List.not_mem_nil
    · have request : connection.request =
          some (Request.ofBytes (connection.input.take Request.size)) := by
        rcases Option.isSome_iff_exists.mp (patient.request_isSome.mpr interrupted) with
          ⟨request, received⟩
        rw [received, request_some received]
      rw [if_neg deadly, due, if_neg deadly, Service.mk.injEq,
        patient.writes.writeBlocks_sent_iff, Connection.blocks_lengths request deadly]
      constructor
      · intro all
        exact ⟨interrupted, all.1⟩
      · intro through
        exact ⟨through.writing, rfl, rfl⟩

theorem calm : connection.calm.Patient :=
  ⟨patient.complete, .nil, .nil⟩

/-- With no call cut short, the client gets what it is due. -/
theorem handleClient_calm (caald : Int32) (table : Table) (now : Int64) :
    handleClient caald table connection.calm now = connection.due caald table now := by
  apply (patient.calm.served_iff caald table now).mpr
  constructor
  · simp [Connection.calm, progress, Request.size]
  · exact failed_not_mem_calls_nil _

end Connection.Patient

/-! ## The loop -/

/-- Where the accept loop is: at its test of `g_reload_config`, behind the line that
clears it, or at `accept`. -/
inductive LoopPoint where
  | check
  | reload
  | accept
  deriving DecidableEq

/-- The daemon in its accept loop, with `g_reload_config`. -/
structure Loop where
  process : Process
  reloadConfig : Bool
  point : LoopPoint
  deriving DecidableEq

inductive LoopEvent where
  /-- A signal that arrives between calls. -/
  | sighup
  | clear
  | reload (file : ConfigFile) (allocated : Bool)
  /-- Nothing to reload. -/
  | proceed
  /-- `accept` returns -1, for a signal or for another reason. A client that has
  connected stays in the queue. -/
  | acceptFailed (signalled : Bool)
  /-- A client is accepted, served and closed. -/
  | client (connection : Connection) (now : Int64) (signalled : Bool)

inductive LoopStep (caald : Int32) : Loop → LoopEvent → Loop → Prop where
  | sighup (table : Table) (pending : Bool) (point : LoopPoint) :
      LoopStep caald ⟨.accepting table, pending, point⟩ .sighup ⟨.accepting table, true, point⟩
  | clear (table : Table) :
      LoopStep caald ⟨.accepting table, true, .check⟩ .clear ⟨.accepting table, false, .reload⟩
  | reload (table : Table) (pending : Bool) (file : ConfigFile) (allocated : Bool) :
      LoopStep caald ⟨.accepting table, pending, .reload⟩ (.reload file allocated)
        ⟨.accepting (table.reloadConfig file allocated), pending, .accept⟩
  | proceed (table : Table) :
      LoopStep caald ⟨.accepting table, false, .check⟩ .proceed ⟨.accepting table, false, .accept⟩
  | acceptFailed (table : Table) (pending signalled : Bool) :
      LoopStep caald ⟨.accepting table, pending, .accept⟩ (.acceptFailed signalled)
        ⟨.accepting table, pending || signalled, .check⟩
  /-- For a client that keeps reading, only a signal makes a call fail. -/
  | client (table : Table) (pending signalled : Bool) (connection : Connection) (now : Int64)
      (cause : connection.Patient → ¬ connection.Uninterrupted caald table → signalled = true) :
      LoopStep caald ⟨.accepting table, pending, .accept⟩ (.client connection now signalled)
        ⟨(handleClient caald table connection now).process, pending || signalled, .check⟩

/-- `main` from its accept loop on. -/
def acceptLoop (caald : Int32) : LTS Loop LoopEvent where
  init state := (server caald).init state.process ∧ state.reloadConfig = false ∧
    state.point = .check
  step := LoopStep caald

/-- The event without its signals: a client that keeps reading has no call cut short. -/
def LoopEvent.unsignalled : LoopEvent → Option Pass
  | .reload file allocated => some (.reload file allocated)
  | .client connection now _ =>
      some (.client (if connection.Patient then connection.calm else connection) now)
  | .sighup | .clear | .proceed | .acceptFailed _ => none

/-- No signal interrupts a call on the connection of a client that keeps reading. -/
def Spared (caald : Int32) (state : Loop) (event : LoopEvent) : Prop :=
  match state.process, event with
  | .accepting table, .client connection _ _ =>
      connection.Patient → connection.Uninterrupted caald table
  | _, _ => True

theorem LoopStep.unsignalled {caald : Int32} {state next : Loop} {event : LoopEvent}
    (spared : Spared caald state event) (step : LoopStep caald state event next) :
    (server caald).Run state.process event.unsignalled.toList next.process := by
  cases step with
  | sighup table pending point => exact .nil _
  | clear table => exact .nil _
  | reload table pending file allocated => exact .single (.reload table file allocated)
  | proceed table => exact .nil _
  | acceptFailed table pending signalled => exact .nil _
  | client table pending signalled connection now cause =>
      apply LTS.Run.single
      by_cases patient : connection.Patient
      · have served := (patient.served_iff caald table now).mpr (spared patient)
        rw [Served, ← patient.handleClient_calm caald table now] at served
        simp only [if_pos patient, served]
        exact .client table connection.calm now
      · simp only [if_neg patient]
        exact .client table connection now

/-- A run in which no signal interrupts a client's exchange does what the passes do
one after the other, with the reloads between clients. -/
theorem acceptLoop_unsignalled {caald : Int32} {state next : Loop} {events : List LoopEvent}
    (run : ((acceptLoop caald).restrict (Spared caald)).Run state events next) :
    (server caald).Run state.process (events.filterMap LoopEvent.unsignalled) next.process := by
  apply run.project
  intro state event next step
  exact LoopStep.unsignalled step.1 step.2

/-- A client that keeps reading is served, from any table, exactly when no signal interrupts a
call on its connection; a signal at any other point, in `accept` or between calls, changes
nothing. A run in which all such clients are spared is the run of the same clients in the same
order with no signal during an exchange, each getting what it is due, and the reloads between
them. -/
theorem sighup_transparent_iff (caald : Int32) (connection : Connection) :
    (connection.Patient → ∀ table now,
      (Served caald table connection now ↔ connection.Uninterrupted caald table)) ∧
    (∀ {start next : Loop} {events : List LoopEvent}, (acceptLoop caald).init start →
      ((acceptLoop caald).restrict (Spared caald)).Run start events next →
      (server caald).Run start.process (events.filterMap LoopEvent.unsignalled) next.process) ∧
    (connection.Patient → ∀ table now,
      handleClient caald table connection.calm now = connection.due caald table now) := by
  refine ⟨?_, ?_, ?_⟩
  · intro patient table now
    exact patient.served_iff caald table now
  · intro start next events _ run
    exact acceptLoop_unsignalled run
  · intro patient table now
    exact patient.handleClient_calm caald table now

/-- A client that registers a session, with the calls that read its request and write
the answer. -/
def registration (reads writes : Schedule) : Connection where
  input := (Request.register (ascii "alice") (ascii "caal-1") 4242).bytes
  reads := reads
  writes := writes

theorem registration_harmless (caald : Int32) (reads writes : Schedule) (table : Table) :
    ¬ (registration reads writes).Deadly caald table := by
  have whole : (registration reads writes).input.take Request.size =
      (Request.register (ascii "alice") (ascii "caal-1") 4242).bytes :=
    List.take_of_length_le (Nat.le_of_eq (Request.length_bytes _))
  rw [Connection.Deadly, whole, Request.ofBytes_bytes]
  exact Bool.false_ne_true

/-- A daemon at the start of its loop. -/
def started : Loop := ⟨.accepting oneSlot, false, .check⟩

theorem started_init (caald : Int32) : (acceptLoop caald).init started :=
  ⟨oneSlot_init caald, rfl, rfl⟩

theorem started_accepts (caald : Int32) :
    (acceptLoop caald).Reachable ⟨.accepting oneSlot, false, .accept⟩ :=
  LTS.Reachable.step (.of_init (started_init caald)) (.proceed oneSlot)

theorem registration_patient (reads writes : Schedule) (live : Live reads ∧ Live writes) :
    (registration reads writes).Patient :=
  ⟨Nat.le_of_eq (Request.length_bytes _).symm, live.1, live.2⟩

/-- A signal that finds the daemon blocked in its first read loses the REGISTER. -/
theorem register_lost_to_sighup :
    ¬ ∀ {caald : Int32} {table : Table} {pending signalled : Bool} {connection : Connection}
      {now : Int64} {next : Loop},
      (acceptLoop caald).Reachable ⟨.accepting table, pending, .accept⟩ →
      (acceptLoop caald).step ⟨.accepting table, pending, .accept⟩
        (.client connection now signalled) next →
      connection.Patient → Served caald table connection now := by
  intro served
  have patient := registration_patient [.failed] [] (by decide)
  have due := served (started_accepts 1)
    (.client oneSlot false true (registration [.failed] []) 0 fun _ _ => rfl) patient
  have through := (patient.served_iff 1 oneSlot 0).mp due
  exact through.reading (by simp [registration, progress, Request.size])

theorem registration_answerSizes (caald : Int32) (reads writes : Schedule) (table : Table) :
    (registration reads writes).answerSizes caald table = [Response.size] :=
  if_neg (registration_harmless caald reads writes table)

theorem registration_uninterrupted (caald : Int32) :
    (registration [.moved 7] [.moved 40]).Uninterrupted caald oneSlot := by
  constructor
  · simp [registration, progress, Request.size]
  · rw [registration_answerSizes]
    simp [registration, calls, progressAll, progress, Response.size]

/-- The same client, with the signal behind the first bytes of its request. -/
theorem register_served_at_sighup :
    Served 1 oneSlot (registration [.moved 7] [.moved 40]) 0 ∧
      (server 1).Run started.process
        ([.proceed, .client (registration [.moved 7] [.moved 40]) 0 true].filterMap
          LoopEvent.unsignalled)
        (handleClient 1 oneSlot (registration [.moved 7] [.moved 40]) 0).process ∧
      handleClient 1 oneSlot (registration [.moved 7] [.moved 40]).calm 0 =
        (registration [.moved 7] [.moved 40]).due 1 oneSlot 0 := by
  have patient := registration_patient [.moved 7] [.moved 40] (by decide)
  have spared := registration_uninterrupted 1
  have serves : (acceptLoop 1).step ⟨.accepting oneSlot, false, .accept⟩
      (.client (registration [.moved 7] [.moved 40]) 0 true)
      ⟨(handleClient 1 oneSlot (registration [.moved 7] [.moved 40]) 0).process, true, .check⟩ :=
    .client oneSlot false true (registration [.moved 7] [.moved 40]) 0
      fun _ struck => (struck spared).elim
  refine ⟨?_, ?_, (sighup_transparent_iff 1 _).2.2 patient oneSlot 0⟩
  · exact ((sighup_transparent_iff 1 _).1 patient oneSlot 0).mpr spared
  · have run : ((acceptLoop 1).restrict (Spared 1)).Run started
        [.proceed, .client (registration [.moved 7] [.moved 40]) 0 true]
        ⟨(handleClient 1 oneSlot (registration [.moved 7] [.moved 40]) 0).process, true,
          .check⟩ :=
      .cons ⟨trivial, .proceed oneSlot⟩ (.single ⟨fun _ => spared, serves⟩)
    have passes := (sighup_transparent_iff 1 (registration [.moved 7] [.moved 40])).2.1
      (started_init 1) run
    dsimp only at passes
    exact passes

end Caal

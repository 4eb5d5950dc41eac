import Caal.Daemon.Refinement
import Caal.Lib.Transfer

/-!
# Serving connections

`handle_client` and the accept loop of `caald.c`. A client is what it does to the
daemon's calls on the connection: the bytes it sends, how the reads and writes
cut the streams, which of them fail, and which write finds its end closed. The
daemon leaves `SIGPIPE` at its default action, so that write is its last; and it leaves
`SIGTERM` there, so that a `kill` that takes in caald itself is its last call.
-/

namespace Caal

open CMemory Transfer

/-- A client connection, as the daemon's calls on it see it. -/
structure Connection where
  input : Bytes
  reads : Schedule
  writes : Schedule

/-- The daemon process: back at `accept`, or ended by a signal together with the
table in its memory. -/
inductive Process where
  | accepting (table : Table)
  | terminated
  deriving DecidableEq

/-- The targets of `kill` that take in caald, whose pid is `caald`: itself, and its process
group, which it leads since its `setsid`. The target -1 leaves out the caller. -/
def targets (caald pid : Int32) : Bool :=
  pid == 0 || pid == caald || pid == -caald

/-- A call that caald does not return from. -/
def Effect.fatal (caald : Int32) : Effect → Bool
  | .kill pid => targets caald pid
  | .log _ _ _ => false

/-- The calls of a handler, up to one that caald does not return from. -/
def callsMade (caald : Int32) : List Effect → List Effect
  | [] => []
  | effect :: effects =>
      if effect.fatal caald then [effect] else effect :: callsMade caald effects

theorem callsMade_returns {caald : Int32} {effect : Effect} {effects : List Effect}
    (returns : effect.fatal caald = false) :
    callsMade caald (effect :: effects) = effect :: callsMade caald effects :=
  if_neg (Bool.eq_false_iff.mp returns)

theorem callsMade_subset (caald : Int32) (effects : List Effect) :
    callsMade caald effects ⊆ effects := by
  induction effects with
  | nil => exact List.Subset.refl _
  | cons effect effects ih =>
      rw [callsMade]
      split
      · exact List.cons_subset_cons _ (List.nil_subset effects)
      · exact List.cons_subset_cons _ ih

/-- What `handle_client` puts on the wire, which calls it makes and the process
after it. -/
structure Service where
  sent : Bytes
  effects : List Effect
  process : Process

/-- What is passed to `write_all`, call by call: the response, then each record
of a LIST reply. -/
def Reply.blocks (reply : Reply) : List Bytes :=
  reply.response.bytes :: reply.records.map SessionInfo.bytes

/-- The request read by `handle_client`, if it arrives in full. -/
def Connection.request (connection : Connection) : Option Request :=
  (readAll connection.reads Request.size connection.input).got.map Request.ofBytes

/-- `handle_client`. A failed `write_all` is ignored at both places, so the loop of
`handle_list` goes on with the next record. -/
def handleClient (caald : Int32) (table : Table) (connection : Connection) (now : Int64) :
    Service :=
  match connection.request with
  | none => ⟨[], [], .accepting table⟩
  | some request =>
      let handled := table.handle request now
      -- no handler makes a `kill` behind its answer
      if handled.effects.any (·.fatal caald) then
        ⟨[], callsMade caald handled.effects, .terminated⟩
      else
        let delivered := writeBlocks connection.writes handled.toReply.blocks
        { sent := delivered.sent
          effects := handled.effects
          process := if delivered.killed then .terminated else .accepting handled.table }

/-! ## The accept loop -/

/-- A pass of the accept loop: a client served, or a reload. -/
inductive Pass where
  | client (connection : Connection) (now : Int64)
  | reload (file : ConfigFile) (allocated : Bool)

inductive ServerStep (caald : Int32) : Process → Pass → Process → Prop where
  | client (table : Table) (connection : Connection) (now : Int64) :
      ServerStep caald (.accepting table) (.client connection now)
        (handleClient caald table connection now).process
  | reload (table : Table) (file : ConfigFile) (allocated : Bool) :
      ServerStep caald (.accepting table) (.reload file allocated)
        (.accepting (table.reloadConfig file allocated))

/-- `main` from the first reload on, which must leave a table. -/
def server (caald : Int32) : LTS Process Pass where
  init process := ∃ file allocated,
    (Table.initial.reloadConfig file allocated).sessions ≠ [] ∧
      process = .accepting (Table.initial.reloadConfig file allocated)
  step := ServerStep caald

/-! ## Signals to caald itself -/

/-- Whether the request has a session signalled whose pid takes in caald. -/
def Table.signalsSelf (table : Table) (caald : Int32) (request : Request) : Bool :=
  match MsgType.ofByte request.type with
  | some .sessionKill =>
      (table.findSession (request.bytes.drop 65)).any fun index =>
        targets caald (table.slotAt index).pid
  | some .sessionKillUser =>
      table.active.any fun slot =>
        Table.ownedBy (request.bytes.drop 1) slot && targets caald slot.pid
  | _ => false

theorem Table.killUserLoop_fatal (caald : Int32) (username : Bytes) (slots : List Session) :
    (killUserLoop username slots).2.1.any (·.fatal caald) =
      (slots.filter Session.active).any fun slot =>
        ownedBy username slot && targets caald slot.pid := by
  induction slots with
  | nil => rfl
  | cons slot slots ih =>
      rw [killUserLoop]
      cases active : slot.active with
      | false => simp [active, ih]
      | true =>
          cases owned : ownedBy username slot with
          | false => simp [active, owned, ih]
          | true =>
              rw [List.filter_cons_of_pos active, List.any_cons, owned, Bool.true_and, ← ih]
              rfl

/-- The handlers make a call that caald does not return from exactly on such a request. -/
theorem Table.handle_fatal (table : Table) (caald : Int32) (request : Request) (now : Int64) :
    (table.handle request now).effects.any (·.fatal caald) = table.signalsSelf caald request := by
  rw [handle, signalsSelf]
  cases MsgType.ofByte request.type with
  | none => rfl
  | some type =>
      cases type with
      | sessionRegister =>
          dsimp only
          rw [handleRegister]
          cases table.firstInactive with
          | some index => rfl
          | none =>
              dsimp only
              split <;> rfl
      | sessionUnregister =>
          dsimp only
          rw [handleUnregister]
          cases table.findSession (request.bytes.drop 65) <;> rfl
      | sessionCount => rfl
      | sessionList => rfl
      | sessionKill =>
          dsimp only
          rw [handleKill]
          cases table.findSession (request.bytes.drop 65) with
          | none => rfl
          | some index => simp [Effect.fatal]
      | sessionKillUser =>
          exact killUserLoop_fatal caald _ (table.sessions.take table.sessionCount)

/-! ## What a client gets done -/

namespace Connection

/-- The client sends a full request and no read fails before it is complete. -/
def Complete (connection : Connection) : Prop :=
  Request.size ≤ connection.input.length ∧
    (progress connection.reads Request.size).moved = Request.size

/-- The table after one client: its request carried out, if it was complete. -/
def result (connection : Connection) (table : Table) (now : Int64) : Table :=
  match connection.request with
  | none => table
  | some request => (table.handle request now).table

/-- The client asks for a signal that takes in caald. -/
def Deadly (caald : Int32) (connection : Connection) (table : Table) : Prop :=
  table.signalsSelf caald (Request.ofBytes (connection.input.take Request.size)) = true

instance (caald : Int32) (connection : Connection) (table : Table) :
    Decidable (connection.Deadly caald table) :=
  inferInstanceAs (Decidable (_ = true))

/-- The sizes of the answer to a client: a header, and behind it a record for each
entry if a LIST is asked for. A signal to caald leaves no answer. -/
def answerSizes (caald : Int32) (connection : Connection) (table : Table) : List Nat :=
  if connection.Deadly caald table then []
  else
    Response.size ::
      if MsgType.ofByte (connection.input.headD 0) = some .sessionList then
        List.replicate table.entries.length SessionInfo.size
      else []

/-- The client closes its end while the daemon still has to write to it. -/
def Abandoned (caald : Int32) (connection : Connection) (table : Table) : Prop :=
  .broken ∈ calls connection.writes (connection.answerSizes caald table)

theorem request_isSome (connection : Connection) :
    connection.request.isSome = true ↔ connection.Complete := by
  rw [request, Option.isSome_map]
  exact readAll_isSome_iff connection.reads Request.size connection.input

theorem request_some {connection : Connection} {request : Request}
    (received : connection.request = some request) :
    request = Request.ofBytes (connection.input.take Request.size) := by
  rcases Option.map_eq_some_iff.mp received with ⟨bytes, got, rfl⟩
  rw [(readAll_some got).2.1]

theorem request_type {connection : Connection} {request : Request}
    (received : connection.request = some request) :
    request.type = connection.input.headD 0 := by
  rw [request_some received]
  cases connection.input with
  | nil => rfl
  | cons first rest => rfl

end Connection

theorem Table.records_length (table : Table) (request : Request) (now : Int64) :
    (table.handle request now).records.length =
      if MsgType.ofByte request.type = some .sessionList then table.entries.length else 0 := by
  rw [Table.handle]
  cases MsgType.ofByte request.type with
  | none => rfl
  | some type =>
      cases type with
      | sessionRegister =>
          change (table.handleRegister request now).records.length = 0
          rw [Table.handleRegister]
          cases table.firstInactive with
          | some index => rfl
          | none =>
              cases Int.decLt table.sessionCount table.maxSessions with
              | isTrue room => simp [Int.not_le.mpr room]
              | isFalse full => simp [Int.not_lt.mp full]
      | sessionUnregister =>
          change (table.handleUnregister request).records.length = 0
          rw [Table.handleUnregister]
          cases table.findSession (request.bytes.drop 65) <;> rfl
      | sessionCount => rfl
      | sessionList =>
          change (table.handleList).records.length = table.entries.length
          rw [Table.entries, Table.active, Slots.occupied, Table.handleList]
          simp only [List.length_map]
      | sessionKill =>
          change (table.handleKill request).records.length = 0
          rw [Table.handleKill]
          cases table.findSession (request.bytes.drop 65) <;> rfl
      | sessionKillUser => rfl

/-- Whether caald signals itself is seen from the bytes it has received. -/
theorem Connection.deadly_iff {caald : Int32} {connection : Connection} {request : Request}
    (received : connection.request = some request) (table : Table) :
    connection.Deadly caald table ↔ table.signalsSelf caald request = true := by
  rw [Deadly, ← request_some received]

/-- The blocks of an answer have the sizes that the client's first byte and the
number of entries determine. -/
theorem Connection.blocks_lengths {caald : Int32} {connection : Connection} {request : Request}
    {table : Table} (received : connection.request = some request)
    (harmless : ¬ connection.Deadly caald table) (now : Int64) :
    (table.handle request now).toReply.blocks.map List.length =
      connection.answerSizes caald table := by
  have recordSizes : ∀ records : List SessionInfo,
      (records.map SessionInfo.bytes).map List.length =
        List.replicate records.length SessionInfo.size := by
    intro records
    rw [List.map_map, List.eq_replicate_iff]
    refine ⟨by rw [List.length_map], ?_⟩
    intro size member
    rcases List.mem_map.mp member with ⟨record, _, rfl⟩
    exact record.length_bytes
  rw [Reply.blocks, List.map_cons, Response.length_bytes, recordSizes,
    Table.records_length, request_type received, answerSizes, if_neg harmless]
  split
  · rfl
  · rfl

/-- The request signals caald itself, in the course of its handler. -/
theorem handleClient_deadly {caald : Int32} {connection : Connection} {request : Request}
    {table : Table} (received : connection.request = some request)
    (deadly : connection.Deadly caald table) (now : Int64) :
    handleClient caald table connection now =
      ⟨[], callsMade caald (table.handle request now).effects, .terminated⟩ := by
  rw [handleClient, received]
  dsimp only
  rw [table.handle_fatal, if_pos ((connection.deadly_iff received table).mp deadly)]

/-- The request is carried out and answered. -/
theorem handleClient_harmless {caald : Int32} {connection : Connection} {request : Request}
    {table : Table} (received : connection.request = some request)
    (harmless : ¬ connection.Deadly caald table) (now : Int64) :
    handleClient caald table connection now =
      { sent := (writeBlocks connection.writes (table.handle request now).toReply.blocks).sent
        effects := (table.handle request now).effects
        process :=
          if (writeBlocks connection.writes (table.handle request now).toReply.blocks).killed then
            .terminated
          else .accepting (table.handle request now).table } := by
  rw [handleClient, received]
  dsimp only
  rw [table.handle_fatal,
    if_neg fun deadly => harmless ((connection.deadly_iff received table).mpr deadly)]

/-- A request that is sent whole is received as it is, if the daemon's reads do not fail. -/
theorem Connection.request_whole {reads : Schedule} (flowing : Flowing reads) (writes : Schedule)
    (request : Request) : Connection.request ⟨request.bytes, reads, writes⟩ = some request := by
  have enough : Request.size ≤ request.bytes.length := Nat.le_of_eq request.length_bytes.symm
  rcases readAll_flowing flowing enough with ⟨_, _, read⟩
  rw [Connection.request]
  simp only [read, Option.map_some]
  rw [List.take_of_length_le (Nat.le_of_eq request.length_bytes), Request.ofBytes_bytes]

/-- Where no call fails, a request that signals only other processes is carried out and
answered. -/
theorem handleClient_flowing {caald : Int32} {table : Table} {request : Request}
    {reads writes : Schedule} (flowingReads : Flowing reads) (flowingWrites : Flowing writes)
    (harmless : table.signalsSelf caald request = false) (now : Int64) :
    handleClient caald table ⟨request.bytes, reads, writes⟩ now =
      ⟨(table.handle request now).toReply.blocks.flatten, (table.handle request now).effects,
        .accepting (table.handle request now).table⟩ := by
  have received := Connection.request_whole flowingReads writes request
  have spared : ¬ Connection.Deadly caald ⟨request.bytes, reads, writes⟩ table := by
    rw [Connection.deadly_iff received, harmless]
    exact Bool.false_ne_true
  rw [handleClient_harmless received spared]
  simp only [writeBlocks_flowing flowingWrites]
  rfl

theorem flowing_nil : Flowing [] := by
  intro _ member
  cases member

/-- A client that sends a request and takes in all of the answer. -/
def Connection.sending (request : Request) : Connection :=
  ⟨request.bytes, [], []⟩

theorem Connection.sending_request (request : Request) : (sending request).request = some request :=
  request_whole flowing_nil [] request

theorem handleClient_sending {caald : Int32} {table : Table} {request : Request}
    (harmless : table.signalsSelf caald request = false) (now : Int64) :
    handleClient caald table (.sending request) now =
      ⟨(table.handle request now).toReply.blocks.flatten, (table.handle request now).effects,
        .accepting (table.handle request now).table⟩ :=
  handleClient_flowing flowing_nil flowing_nil harmless now

/-! ## Survival -/

/-- Serving the client ends at `accept`, with the table its request leaves. -/
def Survives (caald : Int32) (table : Table) (connection : Connection) (now : Int64) : Prop :=
  (handleClient caald table connection now).process = .accepting (connection.result table now)

/-- The client sends no full request, or its request signals only other processes and it
keeps its end open until the answer is written. -/
def Connection.Bearable (caald : Int32) (connection : Connection) (table : Table) : Prop :=
  connection.Complete → ¬ connection.Deadly caald table ∧ ¬ connection.Abandoned caald table

/-- A client is survived exactly when it sends no full request, or one that signals only other
processes, and keeps its end open until the answer is written. -/
theorem survives_iff (caald : Int32) (table : Table) (connection : Connection) (now : Int64) :
    Survives caald table connection now ↔ connection.Bearable caald table := by
  rw [Survives, Connection.result, Connection.Bearable, ← connection.request_isSome,
    Connection.Abandoned]
  cases received : connection.request with
  | none => simp [handleClient, received]
  | some request =>
      by_cases deadly : connection.Deadly caald table
      · simp [handleClient_deadly received deadly now, deadly]
      · rw [handleClient_harmless received deadly now,
          ← Connection.blocks_lengths received deadly now, ← writeBlocks_killed]
        cases ended : (writeBlocks connection.writes
            (table.handle request now).toReply.blocks).killed with
        | false => simp [deadly]
        | true => simp

/-- The pass neither signals caald nor leaves it with a closed connection to write to. -/
def Attended (caald : Int32) (process : Process) (pass : Pass) : Prop :=
  match process, pass with
  | .accepting table, .client connection _ => connection.Bearable caald table
  | _, _ => True

/-- What the table goes through in the passes of the accept loop. -/
def Pass.apply (table : Table) : Pass → Table
  | .client connection now => connection.result table now
  | .reload file allocated => table.reloadConfig file allocated

/-- A daemon that goes on has the table of its pass. -/
theorem ServerStep.apply {caald : Int32} {table after : Table} {pass : Pass}
    (step : ServerStep caald (.accepting table) pass (.accepting after)) :
    after = pass.apply table := by
  generalize left : Process.accepting after = next at step
  cases step with
  | reload _ file allocated =>
      cases left
      rfl
  | client _ connection now =>
      rw [Pass.apply, Connection.result]
      cases received : connection.request with
      | none =>
          rw [handleClient, received] at left
          cases left
          rfl
      | some request =>
          by_cases deadly : connection.Deadly caald table
          · rw [handleClient_deadly received deadly] at left
            cases left
          · rw [handleClient_harmless received deadly] at left
            dsimp only at left
            split at left
            · cases left
            · cases left
              rfl

theorem Table.WF.apply {table : Table} (wf : table.WF) (pass : Pass) : (pass.apply table).WF := by
  cases pass with
  | reload file allocated => exact (wf.reloadConfig_spec file allocated).1
  | client connection now =>
      rw [Pass.apply, Connection.result]
      cases connection.request with
      | none => exact wf
      | some request => exact wf.handle request now

theorem ServerStep.attended {caald : Int32} {table : Table} {pass : Pass} {next : Process}
    (attended : Attended caald (.accepting table) pass)
    (step : ServerStep caald (.accepting table) pass next) :
    next = .accepting (pass.apply table) := by
  cases step with
  | client _ connection now => exact (survives_iff caald table connection now).mpr attended
  | reload _ file allocated => rfl

/-- With only attended passes the daemon keeps running, and its table is the
result of the passes in order. -/
theorem server_attended_run {caald : Int32} {table : Table} {passes : List Pass}
    {process : Process}
    (run : ((server caald).restrict (Attended caald)).Run (.accepting table) passes process) :
    process = .accepting (passes.foldl Pass.apply table) := by
  generalize begun : Process.accepting table = start at run
  induction run with
  | nil => exact begun.symm
  | snoc _ step ih =>
      subst ih
      rw [List.foldl_append]
      exact ServerStep.attended step.1 step.2

/-- The daemon survives a client exactly when the client sends no full request, or one that
signals only other processes, and keeps its end open until the answer is written; in a run of
only such clients, with reloads between them, it keeps running with the table their requests
make. -/
theorem daemon_survives_iff (caald : Int32) (table : Table) :
    ((server caald).Reachable (.accepting table) → ∀ connection now,
      (Survives caald table connection now ↔ connection.Bearable caald table)) ∧
    ∀ {passes : List Pass} {process : Process}, (server caald).init (.accepting table) →
      ((server caald).restrict (Attended caald)).Run (.accepting table) passes process →
      process = .accepting (passes.foldl Pass.apply table) :=
  ⟨fun _ connection now => survives_iff caald table connection now,
    fun _ run => server_attended_run run⟩

/-- A client that sends a COUNT and then takes in its answer as `writes` says. -/
def counting (writes : Schedule) : Connection where
  input := ({ Request.zero with type := 3 } : Request).bytes
  reads := []
  writes := writes

theorem counting_complete (writes : Schedule) : (counting writes).Complete := by
  constructor
  · exact Nat.le_of_eq (Request.length_bytes _).symm
  · simp [counting, progress]

theorem counting_harmless (caald : Int32) (writes : Schedule) (table : Table) :
    ¬ (counting writes).Deadly caald table := by
  have whole : (counting writes).input.take Request.size =
      ({ Request.zero with type := 3 } : Request).bytes :=
    List.take_of_length_le (Nat.le_of_eq (Request.length_bytes _))
  rw [Connection.Deadly, whole, Request.ofBytes_bytes]
  exact Bool.false_ne_true

theorem counting_answerSizes (caald : Int32) (writes : Schedule) (table : Table) :
    (counting writes).answerSizes caald table = [Response.size] :=
  if_neg (counting_harmless caald writes table)

/-- The table of a daemon just started, with one slot. -/
def oneSlot : Table := Table.initial.reloadConfig (.parsed (.int64 1)) true

theorem oneSlot_init (caald : Int32) : (server caald).init (.accepting oneSlot) :=
  ⟨.parsed (.int64 1), true, by decide, rfl⟩

/-- The daemon does not survive a client that sends a COUNT and hangs up. -/
theorem daemon_ended_by_hangup :
    ¬ ∀ caald table, (server caald).Reachable (.accepting table) → ∀ connection now,
      Survives caald table connection now := by
  intro survives
  have survived := survives 1 oneSlot (.of_init (oneSlot_init 1)) (counting [.broken]) 0
  have bearable := (survives_iff _ _ _ _).mp survived (counting_complete _)
  apply bearable.2
  rw [Connection.Abandoned, counting_answerSizes]
  simp [counting, calls, progressAll, progress]

private theorem patient_bearable (caald : Int32) (table : Table) :
    (counting [.moved 40, .moved 29, .broken]).Bearable caald table := by
  refine fun _ => ⟨counting_harmless caald _ table, ?_⟩
  rw [Connection.Abandoned, counting_answerSizes]
  simp [counting, calls, progressAll, progress]

/-- The same client, answered before it hangs up, after a reload. -/
theorem daemon_survives_patient :
    Survives 1 oneSlot (counting [.moved 40, .moved 29, .broken]) 0 ∧
      (handleClient 1 oneSlot (counting [.moved 40, .moved 29, .broken]) 0).process =
        .accepting ([.reload .missing true,
          .client (counting [.moved 40, .moved 29, .broken]) 0].foldl Pass.apply oneSlot) := by
  constructor
  · exact ((daemon_survives_iff 1 oneSlot).1 (.of_init (oneSlot_init 1)) _ 0).mpr
      (patient_bearable 1 oneSlot)
  · exact (daemon_survives_iff 1 oneSlot).2 (oneSlot_init 1)
      (.cons ⟨trivial, .reload oneSlot .missing true⟩
        (.single ⟨patient_bearable 1 oneSlot, .client oneSlot _ 0⟩))

end Caal

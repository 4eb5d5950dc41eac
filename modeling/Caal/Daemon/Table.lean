import Caal.Lib.Slots
import Caal.Proto

/-!
# The session table of the daemon

The table of `caald.c` and the functions that read and change it: config reload,
the lookup by container id and the six request handlers. `session_t *sessions`
is the list of all allocated slots, of which the first `session_count` have been
used; a list without slots is the null pointer.

Each handler returns the new table, the response it fills in, the records a LIST
reply streams and the system calls it makes, in order. Byte streams are left to
`Caal.Daemon.Serve`. Handlers read the request's strings through pointers into
the packed structure, so each scan is over the memory from the field on.
-/

namespace Caal

open CMemory

/-- `session_t`. -/
structure Session where
  username : Field
  containerId : Field
  pid : Int32
  startTime : Int64
  active : Bool
  deriving DecidableEq

/-- A slot cleared by `memset`. -/
def Session.zero : Session := ⟨.zero _, .zero _, 0, 0, false⟩

/-- The globals `sessions`, `session_count` and `max_sessions`. -/
structure Table where
  sessions : List Session
  sessionCount : Nat
  maxSessions : Int
  deriving DecidableEq

/-- Observable calls of the handlers: `kill(pid, SIGTERM)` and `log_event`. -/
inductive Effect where
  | kill (pid : Int32)
  | log (event : String) (username containerId : Bytes)
  deriving DecidableEq

/-- The pids signalled, in order. -/
def signals (effects : List Effect) : List Int32 :=
  effects.filterMap fun effect =>
    match effect with
    | .kill pid => some pid
    | .log _ _ _ => none

/-- What a handler answers and does: the response, the records streamed behind
it, and its calls. -/
structure Reply where
  response : Response
  records : List SessionInfo
  effects : List Effect
  deriving DecidableEq

/-- A reply together with the table left behind. -/
structure Handled extends Reply where
  table : Table

/-- The bytes of an ASCII literal. -/
def ascii (literal : String) : Bytes :=
  literal.toList.map fun char => UInt8.ofNat char.toNat

namespace Response

/-- `resp->ok = 1` in a zeroed response. -/
def accept : Response := { zero with ok := 1 }

/-- `resp->ok = 0` with an error text in a zeroed response. -/
def refuse (error : String) : Response :=
  { zero with ok := 0, error := zero.error.strncpy (ascii error) }

@[simp] theorem ok_accept : accept.ok = 1 := rfl

@[simp] theorem ok_refuse (error : String) : (refuse error).ok = 0 := rfl

end Response

/-! ## Configuration -/

/-- A value found by `toml_seek`, by its type tag. -/
inductive TomlDatum where
  | unknown
  | string (text : Bytes)
  | int64 (value : Int64)
  | boolean (value : Bool)
  | other
  deriving DecidableEq

/-- What `reload_config` finds at `CONFIG_PATH`. -/
inductive ConfigFile where
  | missing
  | unparseable
  | parsed (maxSessions : TomlDatum)
  deriving DecidableEq

/-- `new_max` of `reload_config`: the cast to `int` narrows to 32 bits. -/
def newMax : TomlDatum → Int
  | .int64 value => if 0 < value then value.toInt32.toInt else 1024
  | _ => 1024

namespace Table

/-- The globals before the first reload. -/
def initial : Table := ⟨[], 0, 0⟩

/-- `reload_config`; `allocated` is whether `realloc` succeeds. -/
def reloadConfig (table : Table) (file : ConfigFile) (allocated : Bool) : Table :=
  match file with
  | .missing => table
  | .unparseable => table
  | .parsed datum =>
      if newMax datum = table.maxSessions then table
      else if newMax datum < table.maxSessions then table
      else if allocated then
        { table with
          sessions := table.sessions ++
            List.replicate (newMax datum - table.maxSessions).toNat Session.zero
          maxSessions := newMax datum }
      else table

/-! ## Handlers -/

/-- `find_session`. -/
def findSession (table : Table) (containerId : Bytes) : Option Nat :=
  Slots.firstWhere
    (fun slot => slot.active && strcmp slot.containerId.bytes containerId == 0)
    table.sessions table.sessionCount

/-- The first inactive slot, as the loop of `handle_register` finds it. -/
def firstInactive (table : Table) : Option Nat :=
  Slots.firstWhere (fun slot => !slot.active) table.sessions table.sessionCount

/-- The assignments of `handle_register` to its slot. -/
def fill (request : Request) (now : Int64) (slot : Session) : Session where
  username := slot.username.snprintf (request.bytes.drop 1)
  containerId := slot.containerId.snprintf (request.bytes.drop 65)
  pid := request.pid
  startTime := now
  active := true

/-- `s->active = 0`. -/
def deactivate (slot : Session) : Session := { slot with active := false }

/-- `handle_register`; `now` is `time(NULL)`. -/
def handleRegister (table : Table) (request : Request) (now : Int64) : Handled :=
  let logged := [.log "SESSION_START" ((cstr (request.bytes.drop 1)).take 63)
    ((cstr (request.bytes.drop 65)).take 63)]
  match table.firstInactive with
  | some index =>
      { table := { table with sessions := table.sessions.modify index (fill request now) }
        response := .accept
        records := []
        effects := logged }
  | none =>
      if table.maxSessions ≤ table.sessionCount then
        { table, response := .refuse "max sessions reached", records := [], effects := [] }
      else
        { table :=
            { table with
              sessions := table.sessions.modify table.sessionCount (fill request now)
              sessionCount := table.sessionCount + 1 }
          response := .accept
          records := []
          effects := logged }

/-- The slot `find_session` points to. -/
def slotAt (table : Table) (index : Nat) : Session :=
  table.sessions.getD index .zero

/-- `handle_unregister`. -/
def handleUnregister (table : Table) (request : Request) : Handled :=
  match table.findSession (request.bytes.drop 65) with
  | none => { table, response := .refuse "session not found", records := [], effects := [] }
  | some index =>
      { table := { table with sessions := table.sessions.modify index deactivate }
        response := .accept
        records := []
        effects := [.log "SESSION_END" (table.slotAt index).username.text
          (table.slotAt index).containerId.text] }

/-- The counting loop of `handle_count` and `handle_list`. -/
def activeCount (table : Table) : Nat :=
  (table.sessions.take table.sessionCount).countP Session.active

/-- `handle_count`. -/
def handleCount (table : Table) : Handled where
  table := table
  response := { Response.accept with count := Int32.ofNat table.activeCount }
  records := []
  effects := []

/-- The record `handle_list` fills in for a slot. -/
def info (slot : Session) : SessionInfo where
  username := SessionInfo.zero.username.snprintf slot.username.bytes
  containerId := SessionInfo.zero.containerId.snprintf slot.containerId.bytes
  pid := slot.pid
  startTime := slot.startTime

/-- `handle_list`: a header with the count, then a record for each active slot. -/
def handleList (table : Table) : Handled where
  table := table
  response := { Response.accept with count := Int32.ofNat table.activeCount }
  records := ((table.sessions.take table.sessionCount).filter Session.active).map info
  effects := []

/-- `handle_kill`. -/
def handleKill (table : Table) (request : Request) : Handled :=
  match table.findSession (request.bytes.drop 65) with
  | none => { table, response := .refuse "session not found", records := [], effects := [] }
  | some index =>
      { table := { table with sessions := table.sessions.modify index deactivate }
        response := .accept
        records := []
        effects :=
          [.kill (table.slotAt index).pid,
            .log "SESSION_KILLED" (table.slotAt index).username.text
              (table.slotAt index).containerId.text] }

/-- The test of the loop of `handle_kill_user`. -/
def ownedBy (username : Bytes) (slot : Session) : Bool :=
  strcmp slot.username.bytes username == 0

/-- The loop of `handle_kill_user` over the used slots. -/
def killUserLoop (username : Bytes) : List Session → List Session × List Effect × Nat
  | [] => ([], [], 0)
  | slot :: slots =>
      let (rest, effects, killed) := killUserLoop username slots
      if slot.active && ownedBy username slot then
        (deactivate slot :: rest,
          .kill slot.pid :: .log "SESSION_KILLED" (cstr username) slot.containerId.text :: effects,
          killed + 1)
      else (slot :: rest, effects, killed)

/-- `handle_kill_user`. -/
def handleKillUser (table : Table) (request : Request) : Handled :=
  let (used, effects, killed) :=
    killUserLoop (request.bytes.drop 1) (table.sessions.take table.sessionCount)
  { table := { table with sessions := used ++ table.sessions.drop table.sessionCount }
    response :=
      if killed = 0 then .refuse "no sessions found"
      else { Response.accept with count := Int32.ofNat killed }
    records := []
    effects := effects }

/-- The `switch` of `handle_client`. -/
def handle (table : Table) (request : Request) (now : Int64) : Handled :=
  match MsgType.ofByte request.type with
  | some .sessionRegister => table.handleRegister request now
  | some .sessionUnregister => table.handleUnregister request
  | some .sessionCount => table.handleCount
  | some .sessionList => table.handleList
  | some .sessionKill => table.handleKill request
  | some .sessionKillUser => table.handleKillUser request
  | none => { table, response := .refuse "unknown type", records := [], effects := [] }

end Table

end Caal

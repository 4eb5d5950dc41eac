import Caal.Daemon.Refinement
import Caal.Lib.Checked

/-!
# Slot accesses of the daemon

The loops and the assignments of `caald.c` with every index into `sessions` checked against
the allocation. In a well-formed table no access fails, and what is computed is what
`Caal.Daemon.Table` says.
-/

namespace Caal

open CMemory

namespace Table.Checked

variable (table : Table) (request : Request) (now : Int64)

/-- `find_session`. -/
def findSession (containerId : Bytes) : Option (Option Nat) :=
  Slots.scan (fun slot => slot.active && strcmp slot.containerId.bytes containerId == 0)
    table.sessions table.sessionCount 0

/-- `handle_register`. -/
def handleRegister : Option Handled :=
  let logged := [.log "SESSION_START" ((cstr (request.bytes.drop 1)).take 63)
    ((cstr (request.bytes.drop 65)).take 63)]
  (Slots.scan (fun slot => !slot.active) table.sessions table.sessionCount 0).bind fun found =>
    match found with
    | some index =>
        (Slots.store table.sessions index (fill request now)).map fun sessions =>
          { table := { table with sessions }
            response := .accept
            records := []
            effects := logged }
    | none =>
        if table.maxSessions ≤ table.sessionCount then
          some { table, response := .refuse "max sessions reached", records := [], effects := [] }
        else
          (Slots.store table.sessions table.sessionCount (fill request now)).map fun sessions =>
            { table := { table with sessions, sessionCount := table.sessionCount + 1 }
              response := .accept
              records := []
              effects := logged }

/-- The common part of `handle_unregister` and `handle_kill`: the active session with the
container id is deactivated; `calls` are the calls made with it. -/
def release (calls : Session → List Effect) : Option Handled :=
  (findSession table (request.bytes.drop 65)).bind fun found =>
    match found with
    | none =>
        some { table, response := .refuse "session not found", records := [], effects := [] }
    | some index =>
        table.sessions[index]?.bind fun slot =>
          (Slots.store table.sessions index deactivate).map fun sessions =>
            { table := { table with sessions }
              response := .accept
              records := []
              effects := calls slot }

/-- `handle_unregister`. -/
def handleUnregister : Option Handled :=
  release table request fun slot => [.log "SESSION_END" slot.username.text slot.containerId.text]

/-- `handle_kill`. -/
def handleKill : Option Handled :=
  release table request fun slot =>
    [.kill slot.pid, .log "SESSION_KILLED" slot.username.text slot.containerId.text]

/-- The counting loop of `handle_count` and `handle_list`. -/
def activeCount : Option Nat :=
  Slots.forEach (fun index count => table.sessions[index]?.map fun slot =>
    if slot.active then count + 1 else count) table.sessionCount 0 0

/-- `handle_count`. -/
def handleCount : Option Handled :=
  (activeCount table).map fun count =>
    { table, response := { Response.accept with count := Int32.ofNat count }
      records := []
      effects := [] }

/-- `handle_list`. -/
def handleList : Option Handled :=
  (activeCount table).bind fun count =>
    (Slots.forEach (fun index records => table.sessions[index]?.map fun slot =>
      if slot.active then records ++ [info slot] else records) table.sessionCount 0 []).map
      fun records =>
        { table, response := { Response.accept with count := Int32.ofNat count }
          records
          effects := [] }

/-- `handle_kill_user`. -/
def handleKillUser : Option Handled :=
  (Slots.sweep (fun slot => slot.active && ownedBy (request.bytes.drop 1) slot) deactivate
    (fun (effects, killed) slot =>
      (effects ++ [.kill slot.pid,
        .log "SESSION_KILLED" (cstr (request.bytes.drop 1)) slot.containerId.text], killed + 1))
    table.sessionCount 0 (table.sessions, [], 0)).map fun (sessions, effects, killed) =>
      { table := { table with sessions }
        response :=
          if killed = 0 then .refuse "no sessions found"
          else { Response.accept with count := Int32.ofNat killed }
        records := []
        effects }

/-- The `switch` of `handle_client`. -/
def handle : Option Handled :=
  match MsgType.ofByte request.type with
  | some .sessionRegister => handleRegister table request now
  | some .sessionUnregister => handleUnregister table request
  | some .sessionCount => handleCount table
  | some .sessionList => handleList table
  | some .sessionKill => handleKill table request
  | some .sessionKillUser => handleKillUser table request
  | none =>
      some { table, response := .refuse "unknown type", records := [], effects := [] }

/-- `realloc` to so many slots; `fresh` is what the added memory holds. -/
def realloc (fresh : Nat → Session) (size : Nat) : List Session :=
  (List.range size).map fun index => table.sessions.getD index (fresh index)

/-- `reload_config`. The added slots are cleared before they are used. -/
def reloadConfig (file : ConfigFile) (allocated : Bool) (fresh : Nat → Session) :
    Option Table :=
  match file with
  | .missing => some table
  | .unparseable => some table
  | .parsed datum =>
      if newMax datum = table.maxSessions then some table
      else if newMax datum < table.maxSessions then some table
      else if allocated then
        (Slots.forEach (fun index sessions => Slots.store sessions index fun _ => .zero)
          (newMax datum - table.maxSessions).toNat table.maxSessions.toNat
          (realloc table fresh (newMax datum).toNat)).map fun sessions =>
            { table with sessions, maxSessions := newMax datum }
      else some table

/-! ## What the loops compute -/

private theorem foldl_count (slots : List Session) (count : Nat) :
    slots.foldl (fun count slot => if slot.active then count + 1 else count) count =
      count + slots.countP Session.active := by
  induction slots generalizing count with
  | nil => rfl
  | cons slot slots ih =>
      rw [List.foldl_cons, ih, List.countP_cons]
      cases slot.active with
      | false => rfl
      | true => exact Nat.add_right_comm count 1 _

private theorem foldl_info (slots : List Session) (records : List SessionInfo) :
    slots.foldl (fun records slot => if slot.active then records ++ [info slot] else records)
        records =
      records ++ (slots.filter Session.active).map info := by
  induction slots generalizing records with
  | nil => simp
  | cons slot slots ih =>
      rw [List.foldl_cons, ih, List.filter_cons]
      split <;> simp

private theorem foldl_killed (memory : Bytes) (slots : List Session) (effects : List Effect)
    (killed : Nat) :
    slots.foldl (fun (effects, killed) slot =>
        (effects ++ [.kill slot.pid, .log "SESSION_KILLED" (cstr memory) slot.containerId.text],
          killed + 1)) (effects, killed) =
      (effects ++ slots.flatMap fun slot =>
          [.kill slot.pid, .log "SESSION_KILLED" (cstr memory) slot.containerId.text],
        killed + slots.length) := by
  induction slots generalizing effects killed with
  | nil => simp
  | cons slot slots ih =>
      rw [List.foldl_cons, ih, List.flatMap_cons, List.append_assoc, List.length_cons]
      exact congrArg (Prod.mk _) (by omega)

/-! ## No access fails -/

variable {table} (wf : table.WF)

include wf

theorem findSession_eq (containerId : Bytes) :
    findSession table containerId = some (table.findSession containerId) :=
  Slots.scan_eq _ wf.count_le_length

theorem handleRegister_eq :
    handleRegister table request now = some (table.handleRegister request now) := by
  rw [handleRegister, Slots.scan_eq _ wf.count_le_length, Option.bind_some,
    Table.handleRegister]
  change (match table.firstInactive with | some index => _ | none => _) = _
  cases search : table.firstInactive with
  | some index =>
      have inside := (Slots.firstWhere_lt search).2
      simp only [Slots.store_of_lt inside, Option.map_some]
  | none =>
      simp only
      split
      case isTrue full => rfl
      case isFalse room =>
        have inside : table.sessionCount < table.sessions.length := by
          have capacity := wf.allocated
          omega
        simp only [Slots.store_of_lt inside, Option.map_some]

theorem release_eq (calls : Session → List Effect) :
    release table request calls = some (match table.findSession (request.bytes.drop 65) with
      | none => { table, response := .refuse "session not found", records := [], effects := [] }
      | some index =>
          { table := { table with sessions := table.sessions.modify index deactivate }
            response := .accept
            records := []
            effects := calls (table.slotAt index) }) := by
  rw [release, findSession_eq wf, Option.bind_some]
  cases search : table.findSession (request.bytes.drop 65) with
  | none => rfl
  | some index =>
      have inside := (Slots.firstWhere_lt search).2
      simp only [Slots.store_of_lt inside, Option.map_some, slotAt,
        List.getElem?_eq_getElem inside, List.getD_eq_getElem?_getD, Option.bind_some,
        Option.getD_some]

theorem activeCount_eq : activeCount table = some table.activeCount := by
  have inside : 0 + table.sessionCount ≤ table.sessions.length := by
    rw [Nat.zero_add]
    exact wf.count_le_length
  rw [activeCount, Slots.forEach_read table.sessions _ inside, List.drop_zero, foldl_count,
    Nat.zero_add]
  rfl

theorem handleList_eq : handleList table = some table.handleList := by
  have inside : 0 + table.sessionCount ≤ table.sessions.length := by
    rw [Nat.zero_add]
    exact wf.count_le_length
  rw [handleList, activeCount_eq wf, Option.bind_some,
    Slots.forEach_read table.sessions _ inside, List.drop_zero, foldl_info]
  rfl

theorem handleKillUser_eq :
    handleKillUser table request = some (table.handleKillUser request) := by
  have inside : 0 + table.sessionCount ≤ table.sessions.length := by
    rw [Nat.zero_add]
    exact wf.count_le_length
  rw [handleKillUser, Slots.sweep_from _ _ _ inside, Table.handleKillUser, killUserLoop_eq,
    List.drop_zero, List.take_zero, List.nil_append, Nat.zero_add, Option.map_some, foldl_killed,
    List.filter_filter]
  have both : (fun slot : Session => ownedBy (request.bytes.drop 1) slot && slot.active) =
      fun slot => slot.active && ownedBy (request.bytes.drop 1) slot := by
    funext slot
    exact Bool.and_comm _ _
  rw [both]
  simp

/-- In a well-formed table each access of each handler is inside the allocation. -/
theorem handle_eq : handle table request now = some (table.handle request now) := by
  rw [handle, Table.handle]
  cases MsgType.ofByte request.type with
  | none => rfl
  | some type =>
      cases type with
      | sessionRegister => exact handleRegister_eq request now wf
      | sessionUnregister => exact release_eq request wf _
      | sessionCount =>
          change handleCount table = some table.handleCount
          rw [handleCount, activeCount_eq wf]
          rfl
      | sessionList => exact handleList_eq wf
      | sessionKill => exact release_eq request wf _
      | sessionKillUser => exact handleKillUser_eq request wf

omit wf in
theorem length_realloc (fresh : Nat → Session) (size : Nat) :
    (realloc table fresh size).length = size := by
  rw [realloc, List.length_map, List.length_range]

omit wf in
/-- `realloc` keeps the slots that were there. -/
theorem take_realloc (fresh : Nat → Session) {size : Nat} (larger : table.sessions.length ≤ size) :
    (realloc table fresh size).take table.sessions.length = table.sessions := by
  apply List.ext_getElem
  · rw [List.length_take, length_realloc]
    exact Nat.min_eq_left larger
  · intro index _ inside
    simp [realloc, inside]

/-- Growing the table writes to the added slots only, and to all of them. -/
theorem reloadConfig_eq (file : ConfigFile) (allocated : Bool) (fresh : Nat → Session) :
    reloadConfig table file allocated fresh = some (table.reloadConfig file allocated) := by
  cases file with
  | missing => rfl
  | unparseable => rfl
  | parsed datum =>
      rw [reloadConfig, Table.reloadConfig]
      split
      · rfl
      · split
        · rfl
        · rename_i different atLeast
          split
          · have allocation := wf.allocated
            have before : table.maxSessions.toNat = table.sessions.length := by omega
            have larger : table.sessions.length ≤ (newMax datum).toNat := by omega
            have inside : table.sessions.length + (newMax datum - table.maxSessions).toNat =
                (newMax datum).toNat := by omega
            rw [before, Slots.forEach_store _ (by rw [inside, length_realloc]), inside,
              take_realloc fresh larger, List.drop_of_length_le (length_realloc fresh _).le,
              List.append_nil]
            rfl
          · rfl

end Table.Checked

/-! ## The table in service -/

/-- The daemon from its first reload on, which must leave a table: requests of any bytes and
reloads in any order. -/
def service : LTS Table Event where
  init table := ∃ file allocated, table = Table.initial.reloadConfig file allocated ∧
    table.sessions ≠ []
  step := DaemonStep

theorem service_wf {table : Table} (reachable : service.Reachable table) : table.WF := by
  apply reachable.invariant
  · intro start initial
    rcases initial with ⟨file, allocated, rfl, _⟩
    exact (Table.WF.initial.reloadConfig_spec file allocated).1
  · intro state event next wf step
    exact DaemonStep.wf step wf

theorem DaemonStep.maxSessions_le {table next : Table} {event : Event} (wf : table.WF)
    (step : DaemonStep table event next) : table.maxSessions ≤ next.maxSessions := by
  cases step with
  | served request now => exact (Table.maxSessions_handle table request now).ge
  | reloaded file allocated => exact (wf.reloadConfig_spec file allocated).2.2

/-- What holds of the table in every state of the daemon, under requests of arbitrary bytes
and reloads of arbitrary files. -/
theorem service_sound {table : Table} (reachable : service.Reachable table) :
    (table.sessionCount : Int) ≤ table.maxSessions ∧
      table.maxSessions = table.sessions.length ∧
      (∀ event next, service.step table event next → table.maxSessions ≤ next.maxSessions) ∧
      (∀ slot ∈ table.sessions.drop table.sessionCount, slot.active = false) ∧
      (∀ slot ∈ table.sessions.take table.sessionCount,
        Terminated slot.username.bytes ∧ Terminated slot.containerId.bytes) ∧
      (∀ request now, Table.Checked.handle table request now = some (table.handle request now)) ∧
      ∀ file allocated fresh, Table.Checked.reloadConfig table file allocated fresh =
        some (table.reloadConfig file allocated) := by
  have wf := service_wf reachable
  refine ⟨wf.count_le, wf.allocated, ?_, wf.unused, ?_, ?_, ?_⟩
  · intro event next step
    exact DaemonStep.maxSessions_le wf step
  · intro slot member
    exact wf.terminated slot (List.mem_of_mem_take member)
  · intro request now
    exact Table.Checked.handle_eq request now wf
  · intro file allocated fresh
    exact Table.Checked.reloadConfig_eq wf file allocated fresh

/-- A daemon with one slot that served a REGISTER without any NUL byte. -/
def unterminatedTable : Table :=
  ((Table.initial.reloadConfig (.parsed (.int64 1)) true).handle
    (Request.ofBytes (1 :: List.replicate 132 97)) 0).table

theorem service_sound_unterminated :
    unterminatedTable.sessionCount = 1 ∧
      (unterminatedTable.sessionCount : Int) ≤ unterminatedTable.maxSessions ∧
      ∀ slot ∈ unterminatedTable.sessions.take unterminatedTable.sessionCount,
        Terminated slot.username.bytes ∧ Terminated slot.containerId.bytes := by
  have started : service.Reachable (Table.initial.reloadConfig (.parsed (.int64 1)) true) :=
    .of_init ⟨_, _, rfl, by decide⟩
  have sound := service_sound (started.step (.served _ (Request.ofBytes
    (1 :: List.replicate 132 97)) 0))
  exact ⟨by decide, sound.1, sound.2.2.2.2.1⟩

end Caal

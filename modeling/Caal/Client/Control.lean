import Caal.Lib.Columns
import Caal.Client.Listing

/-!
# The control program

`caalctl.c`: the command line, the four commands over a connection to the daemon, and what they
print. Whatever a connection does, what is printed is what the daemon's sessions make of the
command, or the message that the command failed.
-/

namespace Caal

open CMemory Transfer

namespace Ctl

/-! ## The program -/

/-- What a run printed to its two streams, and its exit status. -/
structure Outcome where
  stdout : Bytes
  stderr : Bytes
  status : Nat
  deriving DecidableEq

namespace Outcome

def success (text : Bytes) : Outcome := ⟨text, [], 0⟩

def failure (text : Bytes) : Outcome := ⟨[], text, 1⟩

end Outcome

/-- `time(NULL)` in each pass of the loop over the sessions, and `localtime` with `strftime`. -/
structure Clock where
  time : Nat → Int64
  stamp : Int64 → Bytes

/-- `usage`. -/
def usage (prog : Bytes) : Bytes :=
  ascii "Usage: " ++ cstr prog ++
    ascii (" <command> [args]\n" ++
      "\n" ++
      "Commands:\n" ++
      "  list              list all active sessions\n" ++
      "  count             print the number of active sessions\n" ++
      "  kill <id>         kill a session by container ID\n" ++
      "  killuser <user>   kill all sessions for a user\n")

/-- `"(%02dh%02dm%02ds up)"` in an array of 32 bytes. -/
def uptime (elapsed : Int64) : Bytes :=
  (40 :: (zeroFilled 2 (elapsed / 3600).toInt32.toInt ++
    104 :: (zeroFilled 2 (elapsed % 3600 / 60).toInt32.toInt ++
      109 :: (zeroFilled 2 (elapsed % 60).toInt32.toInt ++ ascii "s up)")))).take 31

/-- `"%-20s %-30s %-8s %s"`. -/
def columns (username containerId pid started : Bytes) : Bytes :=
  leftAligned 20 username ++ 32 :: (leftAligned 30 containerId ++ 32 :: (leftAligned 8 pid ++
    32 :: started))

/-- The two lines above the sessions. -/
def heading : Bytes :=
  columns (ascii "USERNAME") (ascii "CONTAINER ID") (ascii "PID") (ascii "STARTED") ++ [10] ++
    (columns (ascii "--------") (ascii "------------") (ascii "---") (ascii "-------") ++ [10])

/-- The line for a session, without its end. -/
def row (clock : Clock) (index : Nat) (entry : Entry) : Bytes :=
  columns entry.username entry.containerId (decimal entry.pid.toInt)
    (clock.stamp entry.startTime ++ 32 :: uptime (clock.time index - entry.startTime))

/-- A record as `printf` reads it, the strings up to the first NUL. -/
def printed (info : SessionInfo) : Entry :=
  ⟨cstr info.bytes, cstr (info.bytes.drop 64), info.pid, info.startTime⟩

def rows (clock : Clock) (entries : List Entry) : Bytes :=
  (entries.mapIdx (row clock)).flatMap fun line => line ++ [10]

/-- `cmd_list`. -/
def cmdList (clock : Clock) (peer : Peer) : Completion Outcome :=
  (sessionList peer 1024).map fun listing =>
    if listing.returned < 0 then .failure (ascii "[CaaLctl] failed to list sessions\n")
    else if listing.returned = 0 then .success (ascii "no active sessions\n")
    else .success (heading ++ rows clock (listing.records.map printed))

/-- `cmd_count`. -/
def cmdCount (peer : Peer) : Completion Outcome :=
  (sessionCount peer).map fun count =>
    if count < 0 then .failure (ascii "[CaaLctl] failed to get session count\n")
    else .success (decimal count ++ [10])

/-- `cmd_kill`. -/
def cmdKill (peer : Peer) (containerId : Bytes) : Completion Outcome :=
  (sessionKill peer containerId).map fun ok =>
    if ok then .success (ascii "killed session " ++ cstr containerId ++ [10])
    else .failure (ascii "[CaaLctl] failed to kill session '" ++ cstr containerId ++ ascii "'\n")

/-- `cmd_killuser`. -/
def cmdKilluser (peer : Peer) (username : Bytes) : Completion Outcome :=
  (sessionKillUser peer username).map fun ok =>
    if ok then .success (ascii "killed all sessions for user '" ++ cstr username ++ ascii "'\n")
    else .failure (ascii "[CaaLctl] failed to kill sessions for user '" ++ cstr username ++
      ascii "'\n")

/-- `main`, with the connection that `caald_connect` gives and the arguments behind the name of
the program. -/
def main (clock : Clock) (connection : Option Peer) (prog : Bytes) (args : List Bytes) :
    Completion Outcome :=
  match args with
  | [] => .returned (.failure (usage prog))
  | command :: args =>
      match connection with
      | none =>
          .returned (.failure
            (ascii ("[CaaLctl] Cannot connect to caald (is it running?)\n" ++
              "[CaaLctl] You may want to run this as root (sudo) if you aren't already\n")))
      | some peer =>
          if strcmp command (ascii "list") = 0 then cmdList clock peer
          else if strcmp command (ascii "count") = 0 then cmdCount peer
          else if strcmp command (ascii "kill") = 0 then
            match args with
            | [] => .returned (.failure (ascii "[CaaLctl] kill requires a container ID\n"))
            | containerId :: _ => cmdKill peer containerId
          else if strcmp command (ascii "killuser") = 0 then
            match args with
            | [] => .returned (.failure (ascii "[CaaLctl] killuser requires a username\n"))
            | username :: _ => cmdKilluser peer username
          else
            .returned (.failure
              (ascii "[CaaLctl] unknown command '" ++ cstr command ++ ascii "'\n" ++ usage prog))

/-! ## What is asked for -/

/-- The commands, and command lines that are none. -/
inductive Order where
  | list
  | count
  | kill (containerId : Bytes)
  | killuser (username : Bytes)
  | misuse (complaint : Bytes)

/-- What a command line asks for. -/
def order (prog : Bytes) : List Bytes → Order
  | [] => .misuse (usage prog)
  | command :: args =>
      if cstr command = ascii "list" then .list
      else if cstr command = ascii "count" then .count
      else if cstr command = ascii "kill" then
        match args with
        | [] => .misuse (ascii "[CaaLctl] kill requires a container ID\n")
        | containerId :: _ => .kill containerId
      else if cstr command = ascii "killuser" then
        match args with
        | [] => .misuse (ascii "[CaaLctl] killuser requires a username\n")
        | username :: _ => .killuser username
      else
        .misuse (ascii "[CaaLctl] unknown command '" ++ cstr command ++ ascii "'\n" ++ usage prog)

namespace Order

def perform (clock : Clock) (peer : Peer) : Order → Completion Outcome
  | list => cmdList clock peer
  | count => cmdCount peer
  | kill containerId => cmdKill peer containerId
  | killuser username => cmdKilluser peer username
  | misuse complaint => .returned (.failure complaint)

/-- The request that an order sends. -/
def request : Order → Option Request
  | list => some .list
  | count => some .count
  | kill containerId => some (.kill containerId)
  | killuser username => some (.killUser username)
  | misuse _ => none

/-- What an order should print over some sessions. -/
def shown (clock : Clock) (entries : List Entry) : Order → Outcome
  | list =>
      if entries = [] then .success (ascii "no active sessions\n")
      else .success (heading ++ rows clock (entries.take 1024))
  | count => .success (decimal entries.length ++ [10])
  | kill containerId =>
      if ∃ entry ∈ entries, entry.containerId = (cstr containerId).take 63 then
        .success (ascii "killed session " ++ cstr containerId ++ [10])
      else .failure (ascii "[CaaLctl] failed to kill session '" ++ cstr containerId ++ ascii "'\n")
  | killuser username =>
      if ∃ entry ∈ entries, entry.username = (cstr username).take 63 then
        .success (ascii "killed all sessions for user '" ++ cstr username ++ ascii "'\n")
      else .failure (ascii "[CaaLctl] failed to kill sessions for user '" ++ cstr username ++
        ascii "'\n")
  | misuse complaint => .failure complaint

/-- The message of an order that came to nothing. -/
def failed : Order → Outcome
  | list => .failure (ascii "[CaaLctl] failed to list sessions\n")
  | count => .failure (ascii "[CaaLctl] failed to get session count\n")
  | kill containerId =>
      .failure (ascii "[CaaLctl] failed to kill session '" ++ cstr containerId ++ ascii "'\n")
  | killuser username =>
      .failure (ascii "[CaaLctl] failed to kill sessions for user '" ++ cstr username ++
        ascii "'\n")
  | misuse complaint => .failure complaint

/-- The table behind an order that the daemon has received. -/
def carriedOut (table : Table) (now : Int64) (order : Order) : Table :=
  match order.request with
  | none => table
  | some request => (table.handle request now).table

end Order

/-- The daemon that an order was sent to over a link. -/
def daemonBehind (link : Link) (caald : Int32) (table : Table) (now : Int64)
    (order : Order) : Process :=
  match order.request with
  | none => (handleClient caald table (link.connection []) now).process
  | some request =>
      (handleClient caald table
        (link.connection (writeAll link.clientWrites request.bytes).sent) now).process

/-- `main` over a connection does what its command line asks for. -/
theorem main_eq_perform (clock : Clock) (peer : Peer) (prog : Bytes) (args : List Bytes) :
    main clock (some peer) prog args = (order prog args).perform clock peer := by
  cases args with
  | nil => rfl
  | cons command args =>
      have literal : ∀ name : Bytes, (0 : UInt8) ∉ name →
          (strcmp command name = 0 ↔ cstr command = name) := by
        intro name free
        rw [strcmp_eq_zero, cstr_of_zero_free free]
      have list := literal (ascii "list") (by decide)
      have count := literal (ascii "count") (by decide)
      have kill := literal (ascii "kill") (by decide)
      have killuser := literal (ascii "killuser") (by decide)
      rw [main.eq_def, order.eq_def]
      simp only [list, count, kill, killuser]
      split_ifs
      · rfl
      · rfl
      · cases args <;> rfl
      · cases args <;> rfl
      · rfl

/-! ## Over any link -/

/-- A request that is sent whole and received is received as it is. -/
theorem received_eq {link : Link} {request got : Request}
    (received : (link.connection request.bytes).request = some got) : got = request := by
  rw [Connection.request_some received]
  change Request.ofBytes (request.bytes.take Request.size) = request
  rw [List.take_of_length_le (Nat.le_of_eq request.length_bytes), Request.ofBytes_bytes]

/-- A response that was read from what the daemon sent: the daemon has received the request, and
the response is its own. -/
theorem exchange_some {link : Link} {caald : Int32} {table : Table}
    {now : Int64} {request : Request}
    (plain : (table.handle request now).records = []) {answered : Answered}
    (exchanged : (link.peer caald table now).exchange request = .returned (some answered)) :
    answered.response = (table.handle request now).response ∧
      (handleClient caald table (link.connection (writeAll link.clientWrites request.bytes).sent)
        now).process = .accepting (table.handle request now).table := by
  rw [Peer.exchange] at exchanged
  cases written : (writeAll (link.peer caald table now).writes request.bytes).status with
  | killed => simp [written] at exchanged
  | failed => simp [written] at exchanged
  | complete =>
      have whole : (writeAll link.clientWrites request.bytes).sent = request.bytes :=
        writeAll_complete written
      simp only [written, Completion.returned.injEq, Option.map_eq_some_iff] at exchanged
      rcases exchanged with ⟨bytes, got, equal⟩
      change (readAll link.clientReads Response.size (handleClient caald table
        (link.connection (writeAll link.clientWrites request.bytes).sent) now).sent).got = _ at got
      rw [whole] at got ⊢
      rcases readAll_some got with ⟨enough, bytesEq, _⟩
      cases received : (link.connection request.bytes).request with
      | none =>
          rw [handleClient, received] at enough
          exact (Nat.not_succ_le_zero _ enough).elim
      | some request' =>
          cases received_eq received
          -- a daemon that signals itself sends nothing
          have harmless : ¬ (link.connection request.bytes).Deadly caald table := by
            intro deadly
            rw [handleClient_deadly received deadly] at enough
            exact Nat.not_succ_le_zero _ enough
          rw [handleClient_harmless received harmless] at enough bytesEq ⊢
          have blocks : (table.handle request now).toReply.blocks =
              [(table.handle request now).response.bytes] := by
            rw [Reply.blocks, plain]
            rfl
          have sent : writeBlocks link.daemonWrites (table.handle request now).toReply.blocks =
              ⟨(table.handle request now).response.bytes, false⟩ := by
            have whole : (table.handle request now).toReply.blocks.flatten.length ≤
                (writeBlocks link.daemonWrites
                  (table.handle request now).toReply.blocks).sent.length := by
              rw [blocks, List.flatten_singleton, Response.length_bytes, ← blocks]
              exact enough
            rw [writeBlocks_whole whole, blocks, List.flatten_singleton]
          change bytes = (writeBlocks link.daemonWrites
            (table.handle request now).toReply.blocks).sent.take Response.size at bytesEq
          change answered.response = _ ∧ (if (writeBlocks link.daemonWrites
            (table.handle request now).toReply.blocks).killed = true then _ else _) = _
          rw [sent] at bytesEq ⊢
          rw [List.take_of_length_le (Nat.le_of_eq (Response.length_bytes _))] at bytesEq
          rw [← equal, bytesEq]
          exact ⟨Response.ofBytes_bytes _, rfl⟩

/-! ## What the daemon answers -/

section Answers

variable {table : Table} (wf : table.WF) (now : Int64)

theorem records_plain {request : Request}
    (other : MsgType.ofByte request.type ≠ some .sessionList) :
    (table.handle request now).records = [] := by
  rw [← List.length_eq_zero_iff, Table.records_length, if_neg other]

include wf

/-- A KILL is accepted when a session has the id. -/
theorem ok_kill (containerId : Bytes) :
    ((table.handle (.kill containerId) now).response.ok != 0) =
      decide (∃ entry ∈ table.entries, entry.containerId = (cstr containerId).take 63) := by
  have replies := congrArg Reply.response (wf.handle_eq_replyOn (.kill containerId) now)
  have field : cstr ((Request.kill containerId).bytes.drop 65) = (cstr containerId).take 63 := by
    rw [(Request.terminated_kill containerId).containerId_eq]
    exact (field_strncpy containerId).1
  have type : MsgType.ofByte (Request.kill containerId).type = some .sessionKill := rfl
  simp only [Table.replyOn, type, field] at replies
  rw [replies]
  cases found : table.entries.find? fun entry => entry.containerId = (cstr containerId).take 63 with
  | none =>
      have absent := List.find?_eq_none.mp found
      simp only [decide_eq_true_eq] at absent
      symm
      simpa using absent
  | some entry =>
      have member := List.mem_of_find?_eq_some found
      have carries := List.find?_some found
      rw [decide_eq_true_eq] at carries
      symm
      exact decide_eq_true ⟨entry, member, carries⟩

/-- A KILL_USER is accepted when a session is the user's. -/
theorem ok_killUser (username : Bytes) :
    ((table.handle (.killUser username) now).response.ok != 0) =
      decide (∃ entry ∈ table.entries, entry.username = (cstr username).take 63) := by
  have replies := congrArg Reply.response (wf.handle_eq_replyOn (.killUser username) now)
  have field : cstr ((Request.killUser username).bytes.drop 1) = (cstr username).take 63 := by
    rw [(Request.terminated_killUser username).username_eq]
    exact (field_strncpy username).1
  change (table.handle (.killUser username) now).response =
    (if (table.entries.filter fun entry => entry.username =
        cstr ((Request.killUser username).bytes.drop 1)).length = 0 then _ else _) at replies
  rw [replies, field]
  split
  case isTrue unowned =>
    rw [List.length_eq_zero_iff, List.filter_eq_nil_iff] at unowned
    simp only [decide_eq_true_eq] at unowned
    symm
    simpa using unowned
  case isFalse owned =>
    rw [List.length_eq_zero_iff, List.filter_eq_nil_iff] at owned
    simp only [decide_eq_true_eq] at owned
    symm
    simpa using owned

/-- What a table stores fits the fields, so `printf` stops at the end of each. -/
theorem printed_eq {records : List SessionInfo} {size : Nat}
    (listed : records.map SessionInfo.entry = table.entries.take size) :
    records.map printed = table.entries.take size := by
  rw [← listed]
  apply List.map_congr_left
  intro info member
  have stored : info.entry ∈ table.entries := by
    apply List.mem_of_mem_take (i := size)
    rw [← listed]
    exact List.mem_map_of_mem member
  rcases List.mem_map.mp stored with ⟨slot, active, same⟩
  rcases wf.terminated_active active with ⟨username, containerId⟩
  have ends {buffer stored : Field} (equal : stored.text = buffer.text)
      (terminated : Terminated stored.bytes) : Terminated buffer.bytes := by
    rw [← Buf.scan_lt_iff buffer [], List.append_nil]
    change buffer.text.length < 64
    rw [← equal]
    exact Nat.lt_succ_of_le (Buf.length_text_le terminated)
  have first : cstr info.bytes = info.username.text :=
    cstr_append_of_terminated (ends (congrArg Entry.username same) username) _
  have second : cstr (info.bytes.drop 64) = info.containerId.text := by
    rw [SessionInfo.bytes, List.drop_left' info.username.length_bytes]
    exact cstr_append_of_terminated (ends (congrArg Entry.containerId same) containerId) _
  rw [printed, first, second]
  rfl

end Answers

/-! ## Orders over a link -/

theorem accepts_returned {link : Link} {caald : Int32} {table : Table}
    {now : Int64} {request : Request}
    (other : MsgType.ofByte request.type ≠ some .sessionList) {ok : Bool}
    (accepted : (link.peer caald table now).accepts request = .returned ok) :
    ok = false ∨ ok = ((table.handle request now).response.ok != 0) ∧
      (handleClient caald table (link.connection (writeAll link.clientWrites request.bytes).sent)
        now).process = .accepting (table.handle request now).table := by
  rw [Peer.accepts] at accepted
  cases exchanged : (link.peer caald table now).exchange request with
  | killed => simp [exchanged, Completion.map] at accepted
  | returned answer =>
      rw [exchanged] at accepted
      cases answer with
      | none =>
          cases accepted
          exact .inl rfl
      | some answered =>
          rcases exchange_some (records_plain now other) exchanged with ⟨response, process⟩
          have told : ok = (answered.response.ok != 0) := (Completion.returned.inj accepted).symm
          rw [response] at told
          exact .inr ⟨told, process⟩

/-- A count that is no error is the daemon's, which goes on with the table as it is. -/
theorem sessionCount_returned {caald : Int32} {table : Table} (wf : table.WF) {link : Link}
    {now : Int64} {count : Int}
    (counted : sessionCount (link.peer caald table now) = .returned count) :
    count = -1 ∨ count = table.entries.length ∧
      (handleClient caald table
        (link.connection (writeAll link.clientWrites Request.count.bytes).sent)
        now).process = .accepting table := by
  rw [sessionCount] at counted
  cases exchanged : (link.peer caald table now).exchange .count with
  | killed => simp [exchanged, Completion.map] at counted
  | returned answer =>
      rw [exchanged] at counted
      cases answer with
      | none =>
          cases counted
          exact .inl rfl
      | some answered =>
          rcases exchange_some (records_plain now (by decide)) exchanged with ⟨response, process⟩
          have fields : answered.response.ok = 1 ∧
              answered.response.count.toInt = table.entries.length := by
            rw [response]
            exact ⟨rfl, wf.count_reply now⟩
          have answer : (if answered.response.ok = 0 then -1
              else answered.response.count.toInt) = (table.entries.length : Int) := by
            rw [fields.1, fields.2]
            exact if_neg (by decide)
          simp only [Completion.map, answer, Completion.returned.injEq] at counted
          exact .inr ⟨counted.symm, process⟩

/-- What an order other than a listing prints, and where it leaves the daemon. -/
theorem perform_plain {caald : Int32} {table : Table} (wf : table.WF) {link : Link}
    {now : Int64} {clock : Clock}
    {order : Order} (other : order ≠ .list) {outcome : Outcome}
    (performed : order.perform clock (link.peer caald table now) = .returned outcome) :
    outcome = order.failed ∨ outcome = order.shown clock table.entries ∧
      daemonBehind link caald table now order = .accepting (order.carriedOut table now) := by
  cases order with
  | list => exact (other rfl).elim
  | count =>
      change (sessionCount (link.peer caald table now)).map _ = _ at performed
      cases counted : sessionCount (link.peer caald table now) with
      | killed => simp [counted, Completion.map] at performed
      | returned count =>
          rw [counted] at performed
          rcases sessionCount_returned wf counted with rfl | ⟨rfl, process⟩
          · cases performed
            exact .inl rfl
          · simp only [Completion.map, Completion.returned.injEq] at performed
            rw [if_neg (by omega)] at performed
            exact .inr ⟨performed.symm, process⟩
  | kill containerId =>
      change (sessionKill (link.peer caald table now) containerId).map _ = _ at performed
      cases accepted : sessionKill (link.peer caald table now) containerId with
      | killed => simp [accepted, Completion.map] at performed
      | returned ok =>
          rw [accepted] at performed
          rcases accepts_returned (fun same => by cases same) accepted with rfl | ⟨told, process⟩
          · cases performed
            exact .inl rfl
          · refine .inr ⟨?_, process⟩
            rw [ok_kill wf] at told
            cases performed
            rw [told, Order.shown]
            split_ifs <;> simp_all
  | killuser username =>
      change (sessionKillUser (link.peer caald table now) username).map _ = _ at performed
      cases accepted : sessionKillUser (link.peer caald table now) username with
      | killed => simp [accepted, Completion.map] at performed
      | returned ok =>
          rw [accepted] at performed
          rcases accepts_returned (fun same => by cases same) accepted with rfl | ⟨told, process⟩
          · cases performed
            exact .inl rfl
          · refine .inr ⟨?_, process⟩
            rw [ok_killUser wf] at told
            cases performed
            rw [told, Order.shown]
            split_ifs <;> simp_all
  | misuse complaint =>
      cases performed
      exact .inl rfl

theorem readRecords_length {count : Nat} {reads : Schedule} {input : Bytes}
    {got : List SessionInfo} (read : readRecords count reads input = some got) :
    SessionInfo.size * count ≤ input.length := by
  induction count generalizing reads input got with
  | zero => exact Nat.zero_le _
  | succ count ih =>
      rw [readRecords] at read
      cases received : (readAll reads SessionInfo.size input).got with
      | none => simp [received] at read
      | some bytes =>
          simp only [received, Option.map_eq_some_iff] at read
          rcases read with ⟨more, readMore, _⟩
          rcases readAll_some received with ⟨enough, _, rest⟩
          have others := ih readMore
          rw [rest, List.length_drop] at others
          rw [Nat.mul_succ]
          omega

/-- A listing that is no error was sent whole, as far as it goes. -/
theorem sessionList_sent {peer : Peer} {maxSessions : Int} {listing : Listing}
    (listed : sessionList peer maxSessions = .returned listing) (fine : 0 ≤ listing.returned) :
    (writeAll peer.writes Request.list.bytes).sent = Request.list.bytes ∧
      Response.size + SessionInfo.size * listing.returned.toNat ≤
        (peer.answer Request.list.bytes).length := by
  have failed : ¬ (0 : Int) ≤ Listing.error.returned := by decide
  rw [sessionList, Peer.exchange] at listed
  cases written : (writeAll peer.writes Request.list.bytes).status with
  | killed => simp [written, Completion.map] at listed
  | failed =>
      simp only [written, Completion.map, Completion.returned.injEq] at listed
      rw [← listed] at fine
      exact (failed fine).elim
  | complete =>
      have whole := writeAll_complete written
      refine ⟨whole, ?_⟩
      simp only [written, whole, Completion.map, Completion.returned.injEq] at listed
      cases header : (readAll peer.reads Response.size (peer.answer Request.list.bytes)).got with
      | none =>
          rw [header] at listed
          rw [← listed] at fine
          exact (failed fine).elim
      | some bytes =>
          rcases readAll_some header with ⟨enough, _, rest⟩
          simp only [header, Option.map_some] at listed
          split at listed
          case isTrue =>
            rw [← listed] at fine
            exact (failed fine).elim
          case isFalse =>
            cases read : readRecords (min (Response.ofBytes bytes).count.toInt maxSessions).toNat
                (readAll peer.reads Response.size (peer.answer Request.list.bytes)).rest
                (readAll peer.reads Response.size (peer.answer Request.list.bytes)).input with
            | none =>
                rw [read] at listed
                rw [← listed] at fine
                exact (failed fine).elim
            | some records =>
                rw [read] at listed
                have bound := readRecords_length read
                rw [rest, List.length_drop] at bound
                rw [← listed]
                dsimp only
                omega

/-- A daemon whose listing was read to its end goes on. -/
theorem process_listed {caald : Int32} {table : Table} (wf : table.WF) {connection : Connection}
    {now : Int64}
    (requested : connection.request = none ∨ connection.request = some .list)
    (whole : Response.size + SessionInfo.size * table.entries.length ≤
      (handleClient caald table connection now).sent.length) :
    (handleClient caald table connection now).process = .accepting table := by
  rcases requested with lost | received
  · rw [handleClient, lost]
  · rw [handleClient_list received] at whole
    have total : table.listBlocks.flatten.length =
        Response.size + SessionInfo.size * table.entries.length := by
      rw [List.length_flatten, listBlocks_lengths wf, List.sum_cons, List.sum_replicate_nat,
        Nat.mul_comm]
    rw [← total] at whole
    have delivered := writeBlocks_whole whole
    have harmless : ¬ connection.Deadly caald table := by
      rw [Connection.deadly_iff received]
      exact Bool.false_ne_true
    rw [handleClient_harmless received harmless]
    change (if (writeBlocks connection.writes table.listBlocks).killed = true then _ else _) = _
    rw [delivered]
    rfl

/-- What a listing prints while the daemon's writes keep the framing. -/
theorem perform_list {caald : Int32} {table : Table} (wf : table.WF) {link : Link} {now : Int64}
    {clock : Clock}
    (steady : Steady link.daemonWrites
      (Response.size :: List.replicate table.entries.length SessionInfo.size)) {outcome : Outcome}
    (performed : Order.list.perform clock (link.peer caald table now) = .returned outcome) :
    outcome = Order.list.failed ∨ outcome = Order.list.shown clock table.entries ∧
      (table.entries.length ≤ 1024 →
        daemonBehind link caald table now .list =
          .accepting (Order.list.carriedOut table now)) := by
  change (sessionList (link.peer caald table now) 1024).map _ = _ at performed
  rw [← listBlocks_lengths wf] at steady
  have genuine := (framed_of_steady wf steady).listed link rfl caald 1024 now
  cases listed : sessionList (link.peer caald table now) 1024 with
  | killed => simp [listed, Completion.map] at performed
  | returned listing =>
      rw [listed] at performed genuine
      rcases genuine with killed | error | ⟨records, counted, described⟩
      · cases killed
      · cases error
        cases performed
        exact .inl rfl
      · cases counted
        right
        have entries : records.map printed = table.entries.take 1024 := printed_eq wf described
        constructor
        · simp only [Completion.map, Completion.returned.injEq, entries] at performed
          rw [if_neg (by omega)] at performed
          rw [← performed, Order.shown]
          cases sessions : table.entries with
          | nil => rfl
          | cons entry entries =>
              rw [if_neg (List.cons_ne_nil _ _), if_neg]
              rw [List.length_cons]
              omega
        · intro few
          rcases sessionList_sent listed (by dsimp only; omega) with ⟨sent, bound⟩
          have all : (min (table.entries.length : Int) 1024).toNat = table.entries.length := by
            omega
          dsimp only at bound
          rw [all] at bound
          change (handleClient caald table (link.connection (writeAll link.clientWrites
            Request.list.bytes).sent) now).process = .accepting table
          change (writeAll link.clientWrites Request.list.bytes).sent = _ at sent
          rw [sent]
          exact process_listed wf (request_list link) bound

/-! ## Runs of the program -/

/-- Whatever fails on the way between `caalctl` and the daemon: what is printed is the truth about
the daemon's sessions or says that the command failed, and a run that ends well has been carried
out by a daemon that goes on. A listing needs replies that keep their framing, and its daemon
goes on if all sessions fit. -/
theorem main_truthful {table : Table} (reachable : daemon.Reachable table) (link : Link)
    (caald : Int32) (now : Int64) (clock : Clock) (prog : Bytes) (args : List Bytes)
    {outcome : Outcome}
    (steady : order prog args = .list → Steady link.daemonWrites
      (Response.size :: List.replicate table.entries.length SessionInfo.size))
    (ran : main clock (some (link.peer caald table now)) prog args = .returned outcome) :
    (outcome = (order prog args).failed ∨
        outcome = (order prog args).shown clock table.entries) ∧
      (outcome.status = 0 →
        outcome = (order prog args).shown clock table.entries ∧
          ((order prog args = .list → table.entries.length ≤ 1024) →
            daemonBehind link caald table now (order prog args) =
              .accepting ((order prog args).carriedOut table now))) := by
  have wf := daemon_wf reachable
  rw [main_eq_perform] at ran
  generalize order prog args = order at steady ran ⊢
  have unsuccessful : order.failed.status ≠ 0 := by
    cases order <;> exact Nat.one_ne_zero
  have told : outcome = order.failed ∨ outcome = order.shown clock table.entries ∧
      ((order = .list → table.entries.length ≤ 1024) →
        daemonBehind link caald table now order = .accepting (order.carriedOut table now)) := by
    by_cases list : order = .list
    · subst list
      exact (perform_list wf (steady rfl) ran).imp_right fun ⟨shown, process⟩ =>
        ⟨shown, fun few => process (few rfl)⟩
    · exact (perform_plain wf list ran).imp_right fun ⟨shown, process⟩ => ⟨shown, fun _ => process⟩
  refine ⟨told.imp_right And.left, fun success => ?_⟩
  rcases told with failed | shown
  · rw [failed] at success
    exact (unsuccessful success).elim
  · exact shown

/-- A clock that stands still. -/
def stopped : Clock := ⟨fun _ => 0, fun _ => []⟩

/-- A KILL over a choppy link. -/
theorem main_truthful_choppy :
    daemonBehind choppy 1 crowded 0 (.kill (ascii "a")) =
      .accepting (crowded.handle (.kill (ascii "a")) 0).table := by
  have ran : main stopped (some (choppy.peer 1 crowded 0)) (ascii "caalctl")
      [ascii "kill", ascii "a"] = .returned (.success (ascii "killed session a\n")) := by
    decide +kernel
  have truthful := main_truthful crowded_reachable choppy 1 0 stopped (ascii "caalctl")
    [ascii "kill", ascii "a"] (fun same => by cases same) ran
  exact (truthful.2 rfl).2 fun same => by cases same

end Ctl

end Caal

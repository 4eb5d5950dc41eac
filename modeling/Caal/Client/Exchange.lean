import Caal.Client.Library
import Caal.Daemon.Serve
import Caal.Session.Identity

/-!
# Library, wire format and daemon together

A library function at one end of a connection and `handle_client` at the other.
When no call fails, however the two streams are cut, each function carries out
the intended operation on the daemon's table. Behind a `kill` that takes in caald itself
there is no table any more.
-/

namespace Caal

open CMemory Transfer

/-- What a COUNT is answered. -/
theorem Table.WF.count_reply {table : Table} (wf : table.WF) (now : Int64) :
    (table.handle .count now).response.count.toInt = table.entries.length := by
  change (Int32.ofNat table.activeCount).toInt = table.entries.length
  rw [Table.activeCount_eq]
  exact Int32.toInt_ofNat_of_lt wf.length_entries_lt

/-- How the two streams of a connection are cut by the calls at either end. -/
structure Link where
  clientWrites : Schedule
  daemonReads : Schedule
  daemonWrites : Schedule
  clientReads : Schedule

namespace Link

/-- No call at either end fails. -/
structure Flowing (link : Link) : Prop where
  clientWrites : Transfer.Flowing link.clientWrites
  daemonReads : Transfer.Flowing link.daemonReads
  daemonWrites : Transfer.Flowing link.daemonWrites
  clientReads : Transfer.Flowing link.clientReads

/-- The client, as the daemon sees it, after it has sent some bytes. -/
def connection (link : Link) (sent : Bytes) : Connection :=
  ⟨sent, link.daemonReads, link.daemonWrites⟩

/-- The daemon, as the client sees it. -/
def peer (link : Link) (caald : Int32) (table : Table) (now : Int64) : Peer where
  writes := link.clientWrites
  reads := link.clientReads
  answer sent := (handleClient caald table (link.connection sent) now).sent

/-- The request the daemon receives when the library sends one. -/
def received (link : Link) (request : Request) : Option Request :=
  (link.connection (writeAll link.clientWrites request.bytes).sent).request

variable {link : Link}

variable (flowing : link.Flowing)

include flowing

theorem Flowing.received (request : Request) : link.received request = some request := by
  have sent : (writeAll link.clientWrites request.bytes).sent = request.bytes := by
    rw [writeAll_eq, (flowing.clientWrites.progress _).1]
    exact List.take_length
  rw [Link.received, sent]
  exact Connection.request_whole flowing.daemonReads link.daemonWrites request

variable {caald : Int32} {table : Table} {request : Request}

/-- What the daemon does with a request that arrives, and what it sends. -/
theorem Flowing.handleClient (harmless : table.signalsSelf caald request = false) (now : Int64) :
    handleClient caald table (link.connection request.bytes) now =
      ⟨(table.handle request now).toReply.blocks.flatten, (table.handle request now).effects,
        .accepting (table.handle request now).table⟩ :=
  handleClient_flowing flowing.daemonReads flowing.daemonWrites harmless now

theorem Flowing.exchange (harmless : table.signalsSelf caald request = false) (now : Int64) :
    ∃ schedule, Transfer.Flowing schedule ∧
      (link.peer caald table now).exchange request =
        .returned (some ⟨(table.handle request now).response,
          ((table.handle request now).records.map SessionInfo.bytes).flatten, schedule⟩) := by
  apply Peer.exchange_flowing flowing.clientWrites flowing.clientReads
  change (Caal.handleClient caald table (link.connection request.bytes) now).sent = _
  rw [flowing.handleClient harmless now]
  rfl

theorem Flowing.accepts (harmless : table.signalsSelf caald request = false) (now : Int64) :
    (link.peer caald table now).accepts request =
      .returned ((table.handle request now).response.ok != 0) := by
  rcases flowing.exchange harmless now with ⟨_, _, exchanged⟩
  rw [Peer.accepts, exchanged]
  rfl

theorem Flowing.sessionCount (wf : table.WF) (now : Int64) :
    sessionCount (link.peer caald table now) = .returned table.entries.length := by
  rcases @Flowing.exchange link flowing caald table .count rfl now with ⟨_, _, exchanged⟩
  have counted : (table.handle .count now).toReply =
      ⟨{ Response.accept with count := Int32.ofNat table.entries.length }, [], []⟩ :=
    wf.handle_eq_replyOn .count now
  rw [Caal.sessionCount, exchanged, counted]
  exact congrArg Completion.returned (Int32.toInt_ofNat_of_lt wf.length_entries_lt)

theorem Flowing.sessionList (wf : table.WF) (maxSessions : Int) (now : Int64) :
    ∃ records, sessionList (link.peer caald table now) maxSessions =
        .returned ⟨min table.entries.length maxSessions, records⟩ ∧
      records.map SessionInfo.entry = table.entries.take maxSessions.toNat := by
  rcases @Flowing.exchange link flowing caald table .list rfl now with
    ⟨reads, flowingReads, exchanged⟩
  have listed : (table.handle .list now).toReply =
      ⟨{ Response.accept with count := Int32.ofNat table.entries.length },
        table.entries.map Entry.record, []⟩ :=
    wf.handle_eq_replyOn .list now
  have counted : (Int32.ofNat table.entries.length).toInt = table.entries.length :=
    Int32.toInt_ofNat_of_lt wf.length_entries_lt
  have size : (min (table.entries.length : Int) maxSessions).toNat =
      ((table.entries.map Entry.record).take maxSessions.toNat).length := by
    rw [List.length_take, List.length_map]
    omega
  have split : ((table.entries.map Entry.record).map SessionInfo.bytes).flatten =
      (((table.entries.map Entry.record).take maxSessions.toNat).map SessionInfo.bytes).flatten ++
      (((table.entries.map Entry.record).drop maxSessions.toNat).map
        SessionInfo.bytes).flatten := by
    rw [← List.flatten_append, ← List.map_append, List.take_append_drop]
  have read := readRecords_flowing flowingReads
    ((table.entries.map Entry.record).take maxSessions.toNat)
    (((table.entries.map Entry.record).drop maxSessions.toNat).map SessionInfo.bytes).flatten
  rw [← size, ← split] at read
  refine ⟨(table.entries.map Entry.record).take maxSessions.toNat, ?_, ?_⟩
  · rw [Caal.sessionList, exchanged, listed]
    simp only [Completion.map, Response.ok_accept, counted, read]
    rfl
  · rw [List.map_take, wf.records_entries]

end Link

/-! ## Arguments longer than a field -/

namespace Request

theorem terminated_register (username containerId : Bytes) (pid : Int32) :
    (register username containerId pid).Terminated :=
  ⟨(field_strncpy username).2, (field_strncpy containerId).2⟩

theorem terminated_unregister (containerId : Bytes) : (unregister containerId).Terminated :=
  ⟨Buf.terminated_zero, (field_strncpy containerId).2⟩

theorem terminated_kill (argument : Bytes) : (kill argument).Terminated :=
  ⟨Buf.terminated_zero, (field_strncpy argument).2⟩

theorem terminated_killUser (argument : Bytes) : (killUser argument).Terminated :=
  ⟨(field_strncpy argument).2, Buf.terminated_zero⟩

theorem command_kill (argument : Bytes) (now : Int64) :
    (kill argument).command now = .kill ((cstr argument).take 63) :=
  congrArg Command.kill (field_strncpy argument).1

theorem command_killUser (argument : Bytes) (now : Int64) :
    (killUser argument).command now = .killUser ((cstr argument).take 63) :=
  congrArg Command.killUser (field_strncpy argument).1

end Request

/-- A KILL_USER signals caald itself if a session of the user has such a pid. -/
theorem Table.signalsSelf_killUser (table : Table) (caald : Int32) (username : Bytes) :
    table.signalsSelf caald (.killUser username) = table.entries.any fun entry =>
      entry.username = (cstr username).take 63 && targets caald entry.pid := by
  have cut := (Request.terminated_killUser username).username_eq.trans (field_strncpy username).1
  change (table.active.any fun slot =>
    Table.ownedBy ((Request.killUser username).bytes.drop 1) slot && targets caald slot.pid) = _
  rw [Table.entries, List.any_map]
  congr 1
  funext slot
  rw [Table.ownedBy_eq, cut]
  rfl

/-- A string shorter than a field is the cut of an argument only if it is the
argument. -/
theorem eq_take_iff {short text : Bytes} (bound : short.length < 63) :
    short = text.take 63 ↔ short = text := by
  rcases Nat.lt_or_ge 63 text.length with long | fits
  · constructor
    · intro equal
      rw [equal, List.length_take, Nat.min_eq_left (Nat.le_of_lt long)] at bound
      exact (Nat.lt_irrefl 63 bound).elim
    · intro equal
      rw [equal] at bound
      exact (Nat.lt_asymm bound long).elim
  · rw [List.take_of_length_le fits]

/-! ## Sessions registered by caalsh -/

/-- A REGISTER request as caalsh sends it: for a username of at most 32 bytes and
a container id made by `container_start`. -/
def Request.FromCaalsh (request : Request) : Prop :=
  MsgType.ofByte request.type = some .sessionRegister →
    ∃ username pid time, (cstr username).length ≤ 32 ∧
      request = .register username (Caal.containerId pid time) pid

/-- All sessions are registered by caalsh; other requests may be anyone's. -/
def Event.FromCaalsh : Event → Prop
  | served request _ _ => request.FromCaalsh
  | reloaded _ _ => True

/-- The daemon of a host on which only caalsh registers sessions. -/
def hostDaemon : LTS Table Event :=
  daemon.restrict fun _ event => event.FromCaalsh

/-- What such a daemon stores fits the fields with room to spare. -/
def Entry.Short (entry : Entry) : Prop :=
  entry.username.length ≤ 32 ∧ entry.containerId.length < 63

theorem requested_short {request : Request} (fromCaalsh : request.FromCaalsh)
    (type : MsgType.ofByte request.type = some .sessionRegister) (now : Int64) :
    (Table.requested request now).Short := by
  rcases fromCaalsh type with ⟨username, pid, time, bound, rfl⟩
  rw [(Request.terminated_register _ _ _).requested_eq now]
  have userText := (field_strncpy username).1
  have idText := (field_strncpy (containerId pid time)).1
  rw [cstr_of_zero_free (zero_notMem_containerId pid time)] at idText
  constructor
  · change ((Buf.zero 64).strncpy username).text.length ≤ 32
    rw [userText]
    exact Nat.le_trans (List.length_take_le' _ _) bound
  · change ((Buf.zero 64).strncpy (containerId pid time)).text.length < 63
    rw [idText]
    exact Nat.lt_of_le_of_lt (List.length_take_le' _ _) (length_containerId_lt pid time)

theorem hostDaemon_short {table : Table} (reachable : hostDaemon.Reachable table) :
    table.WF ∧ ∀ entry ∈ table.entries, entry.Short := by
  apply reachable.invariant
  · intro start initial
    cases initial
    refine ⟨Table.WF.initial, ?_⟩
    simp [Table.entries, Table.active, Slots.occupied, Table.initial]
  · intro state event next held step
    refine ⟨DaemonStep.wf step.2 held.1, ?_⟩
    cases step.2 with
    | served request now =>
        intro entry member
        rcases held.1.mem_entries_handle request now member with stored | ⟨type, rfl⟩
        · exact held.2 entry stored
        · exact requested_short step.1 type now
    | reloaded file allocated =>
        rw [(held.1.reloadConfig_spec file allocated).2.1]
        exact held.2

/-! ## Composition -/

/-- Every library function carries out its operation on the daemon's table, unless caald
signals itself on it. -/
structure Composes (caald : Int32) (table : Table) (link : Link) (now : Int64) : Prop where
  /-- The daemon receives the request that was sent. -/
  received : ∀ request, link.received request = some request
  /-- It carries it out. -/
  carried : ∀ request, table.signalsSelf caald request = false →
    (handleClient caald table (link.connection request.bytes) now).process =
      .accepting (table.handle request now).table
  /-- The strings sent are the caller's, cut to 63 bytes and terminated. -/
  strings : ∀ username containerId pid,
    (Request.register username containerId pid).username.text = (cstr username).take 63 ∧
    (Request.register username containerId pid).containerId.text = (cstr containerId).take 63 ∧
    (Request.unregister containerId).containerId.text = (cstr containerId).take 63 ∧
    (Request.kill containerId).containerId.text = (cstr containerId).take 63 ∧
    (Request.killUser username).username.text = (cstr username).take 63 ∧
    (Request.register username containerId pid).Terminated ∧
    (Request.unregister containerId).Terminated ∧
    (Request.kill containerId).Terminated ∧ (Request.killUser username).Terminated
  register : ∀ username containerId pid,
    sessionRegister (link.peer caald table now) username containerId pid =
      .returned ((table.handle (.register username containerId pid) now).response.ok != 0)
  unregister : ∀ containerId,
    sessionUnregister (link.peer caald table now) containerId =
      .returned ((table.handle (.unregister containerId) now).response.ok != 0)
  count : sessionCount (link.peer caald table now) = .returned table.entries.length
  list : ∀ maxSessions, ∃ records,
    sessionList (link.peer caald table now) maxSessions =
      .returned ⟨min table.entries.length maxSessions, records⟩ ∧
    records.map SessionInfo.entry = table.entries.take maxSessions.toNat
  kill : ∀ containerId, table.signalsSelf caald (.kill containerId) = false →
    sessionKill (link.peer caald table now) containerId =
      .returned ((table.handle (.kill containerId) now).response.ok != 0)
  killUser : ∀ username, table.signalsSelf caald (.killUser username) = false →
    sessionKillUser (link.peer caald table now) username =
      .returned ((table.handle (.killUser username) now).response.ok != 0)

theorem composes {table : Table} (wf : table.WF) {link : Link} (flowing : link.Flowing)
    (caald : Int32) (now : Int64) : Composes caald table link now where
  received request := flowing.received request
  carried request harmless := by
    rw [flowing.handleClient harmless now]
  strings := by
    intro username containerId pid
    have user := (field_strncpy username).1
    have id := (field_strncpy containerId).1
    exact ⟨user, id, id, id, user, Request.terminated_register username containerId pid,
      Request.terminated_unregister containerId, Request.terminated_kill containerId,
      Request.terminated_killUser username⟩
  register _ _ _ := flowing.accepts rfl now
  unregister _ := flowing.accepts rfl now
  count := flowing.sessionCount wf now
  list maxSessions := flowing.sessionList wf maxSessions now
  kill _ harmless := flowing.accepts harmless now
  killUser _ harmless := flowing.accepts harmless now

/-- What `kill` and `killuser` with an argument of any length do to the sessions: the first
one, in slot order, with that id goes, and all those of that user. -/
structure KillsExactly (table : Table) (now : Int64) (argument : Bytes) : Prop where
  kill : (table.handle (.kill argument) now).table.entries =
    table.entries.eraseP fun entry => entry.containerId = cstr argument
  killUser : (table.handle (.killUser argument) now).table.entries =
    table.entries.filter fun entry => entry.username ≠ cstr argument

private theorem eraseP_agree {Item : Type} {items : List Item} {first second : Item → Bool}
    (agree : ∀ item ∈ items, first item = second item) :
    items.eraseP first = items.eraseP second := by
  induction items with
  | nil => rfl
  | cons item items ih =>
      have later := ih fun other member => agree other (List.mem_cons_of_mem _ member)
      rw [List.eraseP_cons, List.eraseP_cons, agree item List.mem_cons_self, later]

theorem killsExactly {table : Table} (wf : table.WF)
    (short : ∀ entry ∈ table.entries, entry.Short) (now : Int64) (argument : Bytes) :
    KillsExactly table now argument := by
  constructor
  · change (table.handleKill (.kill argument)).table.entries = _
    have cut := (Request.terminated_kill argument).containerId_eq.trans (field_strncpy argument).1
    rw [table.handleKill_entries, cut]
    apply eraseP_agree
    intro entry member
    exact decide_eq_decide.mpr (eq_take_iff (short entry member).2)
  · change (table.handleKillUser (.killUser argument)).table.entries = _
    have cut := (Request.terminated_killUser argument).username_eq.trans (field_strncpy argument).1
    rw [Table.handleKillUser_entries wf, cut]
    apply List.filter_congr
    intro entry member
    have fits : entry.username.length < 63 :=
      Nat.lt_of_le_of_lt (short entry member).1 (by decide)
    rw [← decide_not]
    exact decide_eq_decide.mpr (not_congr (eq_take_iff fits))

/-- Library, wire format and daemon compose: over any reachable table and any cutting
of the streams without a failing call, each library function has its intended effect
and result; and on a host where only caalsh registers sessions, `kill X` takes the first
session whose id is X, and `killuser X` just the sessions whose username is X. -/
theorem client_daemon_compose {link : Link} (flowing : link.Flowing) (caald : Int32)
    (now : Int64) :
    (∀ table, daemon.Reachable table → Composes caald table link now) ∧
    ∀ table, hostDaemon.Reachable table → ∀ argument, KillsExactly table now argument := by
  constructor
  · intro table reachable
    exact composes (daemon_wf reachable) flowing caald now
  · intro table reachable argument
    rcases hostDaemon_short reachable with ⟨wf, short⟩
    exact killsExactly wf short now argument

/-- A link that moves three bytes, then one, then all that is left. -/
def choppy : Link :=
  ⟨[.moved 3, .moved 1], [.moved 3, .moved 1], [.moved 3, .moved 1], [.moved 3, .moved 1]⟩

theorem choppy_flowing : choppy.Flowing := by
  have moves : Flowing [.moved 3, .moved 1] := by
    intro call member
    rcases List.mem_pair.mp member with rfl | rfl
    · exact ⟨3, by decide, rfl⟩
    · exact ⟨1, by decide, rfl⟩
  exact ⟨moves, moves, moves, moves⟩

/-- A daemon at which caalsh has registered a session of alice and one of bob. -/
def lodgers (alicePid bobPid : Int32) : Table :=
  let empty := Table.initial.reloadConfig (.parsed (.int64 2)) true
  let one := (empty.handle (.register (ascii "alice") (containerId alicePid 7) alicePid) 7).table
  (one.handle (.register (ascii "bob") (containerId bobPid 7) bobPid) 8).table

theorem hostDaemon_register {table : Table} {username : Bytes}
    (reachable : hostDaemon.Reachable table) (bound : (cstr username).length ≤ 32) (pid : Int32)
    (time now : Int64) :
    hostDaemon.Reachable
      (table.handle (.register username (containerId pid time) pid) now).table := by
  have registers : Request.FromCaalsh (.register username (containerId pid time) pid) :=
    fun _ => ⟨username, pid, time, bound, rfl⟩
  have serve := DaemonStep.served table (.register username (containerId pid time) pid) now
  exact reachable.step (And.intro registers serve : hostDaemon.step table (.served _ now _) _)

theorem lodgers_reachable (alicePid bobPid : Int32) :
    hostDaemon.Reachable (lodgers alicePid bobPid) := by
  have reload : hostDaemon.step Table.initial (.reloaded (.parsed (.int64 2)) true)
      (Table.initial.reloadConfig (.parsed (.int64 2)) true) :=
    ⟨trivial, .reloaded _ _ _⟩
  have opened : hostDaemon.Reachable (Table.initial.reloadConfig (.parsed (.int64 2)) true) :=
    .step (.of_init rfl) reload
  have one := hostDaemon_register opened (show (cstr (ascii "alice")).length ≤ 32 by decide)
    alicePid 7 7
  exact hostDaemon_register one (show (cstr (ascii "bob")).length ≤ 32 by decide) bobPid 7 8

/-- Two sessions over a choppy link, and a KILL of the first. -/
theorem client_daemon_compose_choppy :
    sessionCount (choppy.peer 1 (lodgers 4242 4243) 9) = .returned 2 ∧
      sessionKill (choppy.peer 1 (lodgers 4242 4243) 9) (containerId 4242 7) = .returned true ∧
      ((lodgers 4242 4243).handle (.kill (containerId 4242 7)) 9).table.entries =
        [⟨ascii "bob", containerId 4243 7, 4243, 8⟩] := by
  have entries : (lodgers 4242 4243).entries =
      [⟨ascii "alice", containerId 4242 7, 4242, 7⟩,
        ⟨ascii "bob", containerId 4243 7, 4243, 8⟩] := by
    decide +kernel
  have composed := client_daemon_compose choppy_flowing 1 9
  have reachable := lodgers_reachable 4242 4243
  have calls := composed.1 (lodgers 4242 4243) reachable.of_restrict
  refine ⟨?_, ?_, ?_⟩
  · rw [calls.count, entries]
    rfl
  · rw [calls.kill _ (by decide +kernel)]
    decide +kernel
  · rw [(composed.2 _ reachable (containerId 4242 7)).kill, entries]
    decide +kernel

/-- Two sessions with one id: a KILL takes the first of them only. -/
theorem kill_spares_second :
    ¬ ∀ table, hostDaemon.Reachable table → ∀ now argument, ∀ entry ∈ table.entries,
      ((table.handle (.kill argument) now).table.entries.count entry < table.entries.count entry ↔
        entry.containerId = cstr argument) := by
  intro claimed
  have bob := claimed (lodgers 4242 4242) (lodgers_reachable 4242 4242) 9 (containerId 4242 7)
    ⟨ascii "bob", containerId 4242 7, 4242, 8⟩ (by decide +kernel)
  revert bob
  decide +kernel

end Caal

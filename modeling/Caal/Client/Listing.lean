import Caal.Client.Exchange

/-!
# Framing of a LIST reply

`handle_list` goes on with the next record when a write fails. What the client
receives is a prefix of the header and the records exactly when the schedule of
writes is steady: once a block is left incomplete, nothing of a later block is
moved. The condition is necessary because any short list of entries can be what a
reachable table stores.
-/

namespace Caal

open CMemory Transfer

/-! ## Contents of reachable tables -/

/-- The entry fits the character fields. -/
structure Entry.Storable (entry : Entry) : Prop where
  username : entry.username.length ≤ 63 ∧ 0 ∉ entry.username
  containerId : entry.containerId.length ≤ 63 ∧ 0 ∉ entry.containerId

theorem Entry.Storable.requested_eq {entry : Entry} (storable : entry.Storable) :
    Table.requested (.register entry.username entry.containerId entry.pid) entry.startTime =
      entry := by
  rw [(Request.terminated_register _ _ _).requested_eq]
  have text : ∀ string : Bytes, string.length ≤ 63 ∧ 0 ∉ string →
      ((Buf.zero 64).strncpy string).text = string := by
    intro string fits
    rw [(field_strncpy string).1, cstr_of_zero_free fits.2, List.take_of_length_le fits.1]
  have username := text entry.username storable.username
  have containerId := text entry.containerId storable.containerId
  cases entry with
  | mk name id pid startTime =>
      change Entry.mk ((Buf.zero 64).strncpy name).text ((Buf.zero 64).strncpy id).text _ _ = _
      rw [username, containerId]
      rfl

namespace Table

/-- Without a free slot among the used ones, a REGISTER appends. -/
theorem WF.handleRegister_append {table : Table} (wf : table.WF)
    (noHoles : table.entries.length = table.sessionCount)
    (room : (table.sessionCount : Int) < table.maxSessions) (request : Request) (now : Int64) :
    (table.handleRegister request now).table.entries =
        table.entries ++ [requested request now] ∧
      (table.handleRegister request now).table.sessionCount = table.sessionCount + 1 := by
  have search : table.firstInactive = none := by
    cases found : table.firstInactive with
    | none => rfl
    | some index =>
        have hole := firstInactive_some found
        rw [noHoles] at hole
        exact (Nat.lt_irrefl _ hole).elim
  have inside : table.sessionCount < table.sessions.length := by
    rw [wf.allocated] at room
    exact Int.ofNat_lt.mp room
  rcases Slots.occupied_append (active_fill request now) inside with ⟨slot, appended⟩
  simp only [Table.handleRegister, search, if_neg (Int.not_le.mpr room), entries, active]
  constructor
  · rw [appended, List.map_append, List.map_cons, entry_fill, List.map_nil]
  · trivial

end Table

/-- A daemon whose config allows as many sessions as an `int` can count. -/
def widest : Table := Table.initial.reloadConfig (.parsed (.int64 2147483647)) true

theorem widest_reachable : daemon.Reachable widest :=
  ⟨Table.initial, _, rfl, .single (.reloaded Table.initial (.parsed (.int64 2147483647)) true)⟩

/-- Every list of storable entries that an `int` can count is what some reachable
table stores, in this order. -/
theorem exists_reachable {entries : List Entry} (storable : ∀ entry ∈ entries, entry.Storable)
    (bound : entries.length ≤ 2147483647) :
    ∃ table, daemon.Reachable table ∧ table.entries = entries ∧
      table.sessionCount = entries.length ∧ table.maxSessions = 2147483647 := by
  induction entries using List.reverseRecOn with
  | nil => exact ⟨widest, widest_reachable, rfl, rfl, by decide⟩
  | append_singleton entries entry ih =>
      rw [List.length_append, List.length_singleton] at bound
      rcases ih (fun other member => storable other (List.mem_append_left _ member))
        (Nat.le_of_succ_le bound) with ⟨table, reachable, stored, used, capacity⟩
      have noHoles : table.entries.length = table.sessionCount := by rw [stored, used]
      have room : (table.sessionCount : Int) < table.maxSessions := by
        rw [used, capacity]
        exact Int.ofNat_lt.mpr bound
      let request := Request.register entry.username entry.containerId entry.pid
      rcases (daemon_wf reachable).handleRegister_append noHoles room request entry.startTime with
        ⟨appended, counted⟩
      refine ⟨(table.handle request entry.startTime).table,
        reachable.step (.served table request entry.startTime), ?_, ?_, ?_⟩
      · have last : entry.Storable := storable entry (by simp)
        rw [last.requested_eq] at appended
        rw [← stored]
        exact appended
      · rw [List.length_append, List.length_singleton, ← used]
        exact counted
      · rw [Table.maxSessions_handle, capacity]

/-! ## What a client of LIST receives -/

/-- The header and the records of a LIST reply. -/
def Table.listBlocks (table : Table) : List Bytes :=
  table.handleList.toReply.blocks

/-- An error, or the first sessions in slot order, as many as there are and fit. -/
def Genuine (table : Table) (maxSessions : Int) (result : Completion Listing) : Prop :=
  result = .killed ∨ result = .returned .error ∨
    ∃ records, result = .returned ⟨min table.entries.length maxSessions, records⟩ ∧
      records.map SessionInfo.entry = table.entries.take maxSessions.toNat

/-- However the other streams are cut or fail, a LIST reply written by the schedule
keeps its framing: the client receives a prefix of header and records, and the
library returns an error or genuine records. -/
structure Framed (table : Table) (writes : Schedule) : Prop where
  received : ∀ link : Link, link.daemonWrites = writes → ∀ caald sent now,
    (link.connection sent).request = some .list →
    (handleClient caald table (link.connection sent) now).sent <+: table.listBlocks.flatten
  listed : ∀ link : Link, link.daemonWrites = writes → ∀ caald maxSessions now,
    Genuine table maxSessions (sessionList (link.peer caald table now) maxSessions)

theorem listBlocks_eq {table : Table} (wf : table.WF) :
    table.listBlocks =
      Response.bytes { Response.accept with count := Int32.ofNat table.entries.length } ::
        (table.entries.map Entry.record).map SessionInfo.bytes := by
  have reply := wf.handle_eq_replyOn .list 0
  change table.handleList.toReply = _ at reply
  rw [Table.listBlocks, reply]
  rfl

theorem listBlocks_lengths {table : Table} (wf : table.WF) :
    table.listBlocks.map List.length =
      Response.size :: List.replicate table.entries.length SessionInfo.size := by
  have recordSizes : ((table.entries.map Entry.record).map SessionInfo.bytes).map List.length =
      List.replicate table.entries.length SessionInfo.size := by
    rw [List.map_map, List.map_map, List.eq_replicate_iff]
    refine ⟨by rw [List.length_map], ?_⟩
    intro size member
    rcases List.mem_map.mp member with ⟨entry, _, rfl⟩
    exact entry.record.length_bytes
  rw [listBlocks_eq wf, List.map_cons, Response.length_bytes, recordSizes]

/-- The library on a prefix of a LIST reply, whatever its calls do. -/
theorem sessionList_of_front {table : Table} (wf : table.WF) {peer : Peer}
    (front : peer.answer Request.list.bytes <+: table.listBlocks.flatten) (maxSessions : Int) :
    Genuine table maxSessions (sessionList peer maxSessions) := by
  rw [sessionList, Peer.exchange]
  cases written : (writeAll peer.writes Request.list.bytes).status with
  | killed => exact .inl rfl
  | failed => exact .inr (.inl rfl)
  | complete =>
      rw [writeAll_complete written]
      generalize peer.answer Request.list.bytes = answer at front ⊢
      cases header : (readAll peer.reads Response.size answer).got with
      | none =>
          simp only [header, Option.map_none, Completion.map]
          exact .inr (.inl rfl)
      | some bytes =>
          rcases readAll_some header with ⟨enough, bytesEq, restEq⟩
          rw [listBlocks_eq wf, List.flatten_cons] at front
          rcases front with ⟨tail, equal⟩
          have first := congrArg (List.take Response.size) equal
          rw [List.take_append_of_le_length enough, List.take_left' (Response.length_bytes _),
            ← bytesEq] at first
          have others := congrArg (List.drop Response.size) equal
          rw [List.drop_append_of_le_length enough, List.drop_left' (Response.length_bytes _),
            ← restEq] at others
          have counted : (Int32.ofNat table.entries.length).toInt = table.entries.length :=
            Int32.toInt_ofNat_of_lt wf.length_entries_lt
          simp only [header, first, Option.map_some, Completion.map, Response.ofBytes_bytes,
            Response.ok_accept, counted]
          rw [if_neg (by decide)]
          cases read : readRecords (min (table.entries.length : Int) maxSessions).toNat
              (readAll peer.reads Response.size answer).rest
              (readAll peer.reads Response.size answer).input with
          | none => exact .inr (.inl rfl)
          | some got =>
              have records := (readRecords_of_front ⟨tail, others⟩ read).1
              refine .inr (.inr ⟨got, rfl, ?_⟩)
              rw [records, List.map_take, wf.records_entries, List.take_eq_take_iff]
              omega

/-- A LIST request that arrives is the one that was sent. -/
theorem request_list (link : Link) :
    (link.connection Request.list.bytes).request = none ∨
      (link.connection Request.list.bytes).request = some .list := by
  cases received : (link.connection Request.list.bytes).request with
  | none => exact .inl rfl
  | some request =>
      right
      rw [Connection.request_some received]
      change some (Request.ofBytes (Request.list.bytes.take Request.size)) = _
      rw [List.take_of_length_le (Nat.le_of_eq Request.list.length_bytes), Request.ofBytes_bytes]

/-- What is sent in answer to a LIST request. -/
theorem handleClient_list {caald : Int32} {table : Table} {connection : Connection}
    (received : connection.request = some .list) (now : Int64) :
    (handleClient caald table connection now).sent =
      (writeBlocks connection.writes table.listBlocks).sent := by
  have harmless : ¬ connection.Deadly caald table := by
    rw [Connection.deadly_iff received]
    exact Bool.false_ne_true
  rw [handleClient_harmless received harmless]
  rfl

/-- A steady schedule keeps the framing. -/
theorem framed_of_steady {table : Table} (wf : table.WF) {writes : Schedule}
    (steady : Steady writes (table.listBlocks.map List.length)) : Framed table writes where
  received := by
    intro link written caald sent now received
    rw [handleClient_list received]
    change (writeBlocks link.daemonWrites _).sent <+: _
    rw [written]
    exact steady.sent_prefix
  listed := by
    intro link written caald maxSessions now
    apply sessionList_of_front wf
    change (handleClient caald table (link.connection Request.list.bytes) now).sent <+: _
    rcases request_list link with lost | received
    · rw [handleClient, lost]
      exact List.nil_prefix
    · rw [handleClient_list received]
      change (writeBlocks link.daemonWrites _).sent <+: _
      rw [written]
      exact steady.sent_prefix

/-! ## Necessity -/

/-- The first byte of a username of one byte. -/
def tag (odd : Bool) : UInt8 := if odd then 1 else 2

/-- An entry of which only the first byte is not zero. -/
def tagged (odd : Bool) : Entry := ⟨[tag odd], [], 0, 0⟩

theorem tagged_storable (odd : Bool) : (tagged odd).Storable := by
  cases odd with
  | false => exact ⟨by decide, by decide⟩
  | true => exact ⟨by decide, by decide⟩

theorem bytes_tagged (odd : Bool) :
    (tagged odd).record.bytes = tag odd :: List.replicate 139 0 := by
  cases odd with
  | false => decide
  | true => decide

/-- Block `index + 1` of the reply is the record of entry `index`. -/
private theorem getD_listBlocks {table : Table} (wf : table.WF) {count index : Nat}
    {odd : Nat → Bool} (stored : table.entries = (List.range count).map fun i => tagged (odd i))
    (inside : index < count) :
    table.listBlocks.getD (index + 1) [] = tag (odd index) :: List.replicate 139 0 := by
  rw [listBlocks_eq wf, stored, List.getD_cons_succ, List.getD_eq_getElem?_getD]
  simp [inside, bytes_tagged]

/-- Any number of entries whose first bytes are tagged at will. -/
private theorem exists_tagged {count : Nat} (bound : count ≤ 2147483647) (odd : Nat → Bool) :
    ∃ table, daemon.Reachable table ∧ table.entries.length = count ∧
      table.entries = (List.range count).map fun i => tagged (odd i) := by
  have storable : ∀ entry ∈ (List.range count).map (fun i => tagged (odd i)), entry.Storable := by
    intro entry member
    rcases List.mem_map.mp member with ⟨i, _, rfl⟩
    exact tagged_storable (odd i)
  rcases exists_reachable storable (by simpa using bound) with ⟨table, reachable, stored, _⟩
  exact ⟨table, reachable, by simp [stored], stored⟩

/-- An unsteady schedule breaks the framing of some reply with this many records. -/
theorem unframed_of_unsteady {writes : Schedule} {count : Nat} (bound : count ≤ 2147483647)
    (unsteady : ¬ Steady writes (Response.size :: List.replicate count SessionInfo.size)) :
    ∃ table, daemon.Reachable table ∧ table.entries.length = count ∧ ¬ Framed table writes := by
  rcases @unsteady_collision UInt8 writes _ unsteady with
    ⟨cut, later, offset, before, inside, within, collision⟩
  rw [List.length_cons, List.length_replicate] at inside
  -- In a framed reply the front of block `later` is the byte at which `cut` stopped.
  have collides : ∀ {table : Table}, daemon.Reachable table → table.entries.length = count →
      Framed table writes →
      (table.listBlocks.getD later [])[0]? = (table.listBlocks.getD cut [])[offset]? := by
    intro table reachable size framed
    have lengths := listBlocks_lengths (daemon_wf reachable)
    rw [size] at lengths
    apply collision table.listBlocks lengths
    let link : Link := ⟨[], [], writes, []⟩
    have arrived : (link.connection Request.list.bytes).request = some .list :=
      Connection.request_whole flowing_nil _ .list
    have received := framed.received link rfl 1 Request.list.bytes 0 arrived
    rwa [handleClient_list arrived] at received
  cases later with
  | zero => exact (Nat.not_lt_zero cut before).elim
  | succ later =>
      have laterInside : later < count := Nat.lt_of_succ_lt_succ inside
      cases cut with
      | zero =>
          -- The header does not depend on the entries: tag them unlike its byte.
          let header := Response.bytes { Response.accept with count := Int32.ofNat count }
          let odd : Nat → Bool := fun _ => decide (header[offset]? = some 2)
          rcases exists_tagged bound odd with ⟨table, reachable, size, stored⟩
          refine ⟨table, reachable, size, ?_⟩
          intro framed
          have collision := collides reachable size framed
          rw [getD_listBlocks (daemon_wf reachable) stored laterInside,
            listBlocks_eq (daemon_wf reachable), size] at collision
          change some (tag (decide (header[offset]? = some 2))) = header[offset]? at collision
          cases even : decide (header[offset]? = some 2) with
          | false =>
              rw [even] at collision
              exact of_decide_eq_false even collision.symm
          | true =>
              rw [even, of_decide_eq_true even] at collision
              exact absurd collision (by decide)
      | succ cut =>
          -- Only the record that is cut off is tagged.
          let odd : Nat → Bool := fun i => decide (i = cut)
          rcases exists_tagged bound odd with ⟨table, reachable, size, stored⟩
          refine ⟨table, reachable, size, ?_⟩
          intro framed
          have earlier : cut < later := Nat.lt_of_succ_lt_succ before
          have collision := collides reachable size framed
          rw [getD_listBlocks (daemon_wf reachable) stored laterInside,
            getD_listBlocks (daemon_wf reachable) stored (Nat.lt_trans earlier laterInside)]
            at collision
          have later_even : odd later = false := decide_eq_false (Nat.ne_of_gt earlier)
          have cut_odd : odd cut = true := decide_eq_true rfl
          rw [later_even, cut_odd] at collision
          cases offset with
          | zero => exact absurd collision (by decide)
          | succ offset =>
              change some (2 : UInt8) = (List.replicate 139 0)[offset]? at collision
              rcases List.getElem?_eq_some_iff.mp collision.symm with ⟨_, zero⟩
              rw [List.getElem_replicate] at zero
              exact absurd zero (by decide)

/-- Over all reachable tables with the same number of sessions, LIST replies keep
their framing under a schedule of writes exactly when the schedule is steady for a
header and that many records. -/
theorem list_framed_iff {table : Table} (reachable : daemon.Reachable table)
    (writes : Schedule) :
    (∀ other, daemon.Reachable other → other.entries.length = table.entries.length →
      Framed other writes) ↔
    Steady writes (Response.size :: List.replicate table.entries.length SessionInfo.size) := by
  constructor
  · intro framed
    by_contra unsteady
    have bound : table.entries.length ≤ 2147483647 :=
      Nat.le_of_lt_succ (daemon_wf reachable).length_entries_lt
    rcases unframed_of_unsteady bound unsteady with ⟨other, reached, size, unframed⟩
    exact unframed (framed other reached size)
  · intro steady other reached size
    apply framed_of_steady (daemon_wf reached)
    rw [listBlocks_lengths (daemon_wf reached), size]
    exact steady

/-- A host with two sessions. -/
def crowded : Table :=
  let empty := Table.initial.reloadConfig (.parsed (.int64 2)) true
  let one := (empty.handle (.register (ascii "ann") (ascii "a") 41) 7).table
  (one.handle (.register (ascii "bob") (ascii "b") 42) 8).table

theorem crowded_reachable : daemon.Reachable crowded :=
  ⟨Table.initial, _, rfl,
    .cons (.reloaded Table.initial (.parsed (.int64 2)) true)
      (.cons (.served _ (.register (ascii "ann") (ascii "a") 41) 7)
        (.single (.served _ (.register (ascii "bob") (ascii "b") 42) 8)))⟩

theorem crowded_entries :
    crowded.entries = [⟨ascii "ann", ascii "a", 41, 7⟩, ⟨ascii "bob", ascii "b", 42, 8⟩] := by
  decide

/-- The header and ten bytes of the first record are sent, the send times out, and
the second record is sent whole. -/
theorem list_misframed :
    ¬ ∀ table, daemon.Reachable table → ∀ writes, Framed table writes := by
  intro framed
  have reply := framed crowded crowded_reachable [.moved 69, .moved 10, .failed]
  have arrived : (Link.connection ⟨[], [], [.moved 69, .moved 10, .failed], []⟩
      Request.list.bytes).request = some .list :=
    Connection.request_whole flowing_nil _ .list
  have received := reply.received ⟨[], [], [.moved 69, .moved 10, .failed], []⟩ rfl
    1 Request.list.bytes 0 arrived
  rw [handleClient_list arrived, listBlocks_eq (daemon_wf crowded_reachable), crowded_entries]
    at received
  revert received
  decide

/-- A send that times out only in the last record is steady. -/
theorem list_framed_last :
    Framed crowded [.moved 69, .moved 140, .moved 30, .failed] := by
  apply (list_framed_iff crowded_reachable [.moved 69, .moved 140, .moved 30, .failed]).mpr
  · rw [crowded_entries]
    simp [Steady, progressAll, progress]
  · exact crowded_reachable
  · rfl

end Caal

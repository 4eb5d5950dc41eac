import Caal.Daemon.Bag

/-!
# The daemon refines a bag of sessions

`bagMachine` is what the session table is for, with no slots, holes or high-water
mark: a bag of entries with a capacity. The daemon, over any sequence of requests
and reloads, is this machine seen through `Table.view`. Tables that agree on what
their active slots store answer alike for ever after.
-/

namespace Caal

open CMemory

/-! ## The bag machine -/

/-- What a request asks of the bag. -/
inductive Command where
  | register (entry : Entry)
  | unregister (containerId : Bytes)
  | count
  | list
  | kill (containerId : Bytes)
  | killUser (username : Bytes)
  | unknown

/-- What the requester is told, and which processes get a SIGTERM. -/
structure Answer where
  ok : Bool
  count : Int
  listed : Multiset Entry
  signalled : Multiset Int32

/-- The bag, and how many entries it may have for a REGISTER to be accepted. -/
structure BagState where
  entries : Multiset Entry
  capacity : Int

/-- A move of the bag machine. -/
inductive BagMove where
  | served (command : Command) (answer : Answer)
  | reloaded

namespace Answer

/-- Accepted, with nothing else to tell. -/
def accepted : Answer := ⟨true, 0, 0, 0⟩

/-- Refused. -/
def refused : Answer := ⟨false, 0, 0, 0⟩

end Answer

inductive BagStep : BagState → BagMove → BagState → Prop where
  | registered {entries : Multiset Entry} {capacity : Int} (entry : Entry)
      (room : (entries.card : Int) < capacity) :
      BagStep ⟨entries, capacity⟩ (.served (.register entry) .accepted)
        ⟨entry ::ₘ entries, capacity⟩
  | registerRefused {entries : Multiset Entry} {capacity : Int} (entry : Entry)
      (full : capacity ≤ entries.card) :
      BagStep ⟨entries, capacity⟩ (.served (.register entry) .refused) ⟨entries, capacity⟩
  | unregistered {entries : Multiset Entry} {capacity : Int} {entry : Entry}
      (member : entry ∈ entries) :
      BagStep ⟨entries, capacity⟩ (.served (.unregister entry.containerId) .accepted)
        ⟨entries.erase entry, capacity⟩
  | unregisterRefused {entries : Multiset Entry} {capacity : Int} {containerId : Bytes}
      (absent : ∀ entry ∈ entries, entry.containerId ≠ containerId) :
      BagStep ⟨entries, capacity⟩ (.served (.unregister containerId) .refused)
        ⟨entries, capacity⟩
  | counted {entries : Multiset Entry} {capacity : Int} :
      BagStep ⟨entries, capacity⟩ (.served .count ⟨true, entries.card, 0, 0⟩)
        ⟨entries, capacity⟩
  | listed {entries : Multiset Entry} {capacity : Int} :
      BagStep ⟨entries, capacity⟩ (.served .list ⟨true, entries.card, entries, 0⟩)
        ⟨entries, capacity⟩
  | killed {entries : Multiset Entry} {capacity : Int} {entry : Entry}
      (member : entry ∈ entries) :
      BagStep ⟨entries, capacity⟩ (.served (.kill entry.containerId) ⟨true, 0, 0, {entry.pid}⟩)
        ⟨entries.erase entry, capacity⟩
  | killRefused {entries : Multiset Entry} {capacity : Int} {containerId : Bytes}
      (absent : ∀ entry ∈ entries, entry.containerId ≠ containerId) :
      BagStep ⟨entries, capacity⟩ (.served (.kill containerId) .refused) ⟨entries, capacity⟩
  | userKilled {entries : Multiset Entry} {capacity : Int} {username : Bytes}
      (some : 0 < (entries.filter (·.username = username)).card) :
      BagStep ⟨entries, capacity⟩
        (.served (.killUser username)
          ⟨true, (entries.filter (·.username = username)).card, 0,
            (entries.filter (·.username = username)).map Entry.pid⟩)
        ⟨entries.filter (·.username ≠ username), capacity⟩
  | userKillRefused {entries : Multiset Entry} {capacity : Int} {username : Bytes}
      (absent : ∀ entry ∈ entries, entry.username ≠ username) :
      BagStep ⟨entries, capacity⟩ (.served (.killUser username) .refused) ⟨entries, capacity⟩
  | unknown {entries : Multiset Entry} {capacity : Int} :
      BagStep ⟨entries, capacity⟩ (.served .unknown .refused) ⟨entries, capacity⟩
  | reloaded {entries : Multiset Entry} {capacity larger : Int} (grown : capacity ≤ larger) :
      BagStep ⟨entries, capacity⟩ .reloaded ⟨entries, larger⟩

/-- The bag machine, from the empty bag without capacity. -/
def bagMachine : LTS BagState BagMove where
  init state := state = ⟨0, 0⟩
  step := BagStep

/-! ## The daemon as a transition system -/

/-- A step of the daemon: a request received in full and answered, or a reload. -/
inductive Event where
  | served (request : Request) (now : Int64) (reply : Reply)
  | reloaded (file : ConfigFile) (allocated : Bool)

inductive DaemonStep : Table → Event → Table → Prop where
  | served (table : Table) (request : Request) (now : Int64) :
      DaemonStep table (.served request now (table.handle request now).toReply)
        (table.handle request now).table
  | reloaded (table : Table) (file : ConfigFile) (allocated : Bool) :
      DaemonStep table (.reloaded file allocated) (table.reloadConfig file allocated)

/-- The daemon over requests and reloads in any order. -/
def daemon : LTS Table Event where
  init table := table = Table.initial
  step := DaemonStep

theorem DaemonStep.wf {table next : Table} {event : Event} (step : DaemonStep table event next)
    (wf : table.WF) : next.WF := by
  cases step with
  | served request now => exact wf.handle request now
  | reloaded file allocated => exact (wf.reloadConfig_spec file allocated).1

/-- The table invariant holds in every reachable table. -/
theorem daemon_wf {table : Table} (reachable : daemon.Reachable table) : table.WF := by
  apply reachable.invariant
  · intro start initial
    cases initial
    exact Table.WF.initial
  · intro state event next wf step
    exact DaemonStep.wf step wf

/-! ## Seen as a bag -/

/-- Both strings of the request are terminated within their fields. -/
structure Request.Terminated (request : Request) : Prop where
  username : CMemory.Terminated request.username.bytes
  containerId : CMemory.Terminated request.containerId.bytes

/-- What a request asks, by its type and the strings of its fields. -/
def Request.command (request : Request) (now : Int64) : Command :=
  match MsgType.ofByte request.type with
  | some .sessionRegister =>
      .register ⟨request.username.text, request.containerId.text, request.pid, now⟩
  | some .sessionUnregister => .unregister request.containerId.text
  | some .sessionCount => .count
  | some .sessionList => .list
  | some .sessionKill => .kill request.containerId.text
  | some .sessionKillUser => .killUser request.username.text
  | none => .unknown

/-- What a reply tells and does. -/
def Reply.answer (reply : Reply) : Answer where
  ok := reply.response.ok != 0
  count := reply.response.count.toInt
  listed := reply.records.map SessionInfo.entry
  signalled := signals reply.effects

namespace Event

/-- Requests with terminated strings, and all reloads. -/
def Terminated : Event → Prop
  | served request _ _ => request.Terminated
  | reloaded _ _ => True

def move : Event → BagMove
  | served request now reply => .served (request.command now) reply.answer
  | reloaded _ _ => .reloaded

end Event

/-- The table as a state of the bag machine. -/
def Table.view (table : Table) : BagState :=
  ⟨table.bag, table.maxSessions⟩

theorem Request.Terminated.username_eq {request : Request} (terminated : request.Terminated) :
    cstr (request.bytes.drop 1) = request.username.text := by
  rw [request.drop_username, cstr_append_of_terminated terminated.username]
  rfl

theorem Request.Terminated.containerId_eq {request : Request}
    (terminated : request.Terminated) :
    cstr (request.bytes.drop 65) = request.containerId.text := by
  rw [request.drop_containerId, cstr_append_of_terminated terminated.containerId]
  rfl

theorem Request.Terminated.requested_eq {request : Request} (terminated : request.Terminated)
    (now : Int64) :
    Table.requested request now =
      ⟨request.username.text, request.containerId.text, request.pid, now⟩ := by
  rw [Table.requested, terminated.username_eq, terminated.containerId_eq,
    List.take_of_length_le (Buf.length_text_le terminated.username),
    List.take_of_length_le (Buf.length_text_le terminated.containerId)]

namespace Table

/-- The record for an active slot describes the slot's entry. -/
theorem WF.record_entry {table : Table} (wf : table.WF) {entry : Entry}
    (member : entry ∈ table.entries) : entry.record.entry = entry := by
  rcases List.mem_map.mp member with ⟨slot, active, rfl⟩
  have terminated := wf.terminated_active active
  have username := List.take_of_length_le (Buf.length_text_le terminated.1)
  have containerId := List.take_of_length_le (Buf.length_text_le terminated.2)
  simp only [Entry.record, SessionInfo.entry, Session.entry, Buf.text_snprintf]
  have again : ∀ buffer : Field, cstr buffer.text = buffer.text := fun buffer =>
    cstr_of_zero_free (zero_notMem_cstr buffer.val)
  rw [again, again, username, containerId]

theorem WF.records_entries {table : Table} (wf : table.WF) :
    (table.entries.map Entry.record).map SessionInfo.entry = table.entries := by
  have described : ∀ entry ∈ table.entries,
      (SessionInfo.entry ∘ Entry.record) entry = id entry := by
    intro entry member
    exact wf.record_entry member
  rw [List.map_map, List.map_congr_left described, List.map_id]

private theorem bag_middle {before after : List Entry} {entry : Entry} {table next : Table}
    (split : table.entries = before ++ entry :: after) (left : next.entries = before ++ after) :
    entry ∈ table.bag ∧ next.bag = table.bag.erase entry := by
  have perm : table.bag = entry ::ₘ next.bag := by
    rw [bag, split, bag, left]
    exact Multiset.coe_eq_coe.mpr List.perm_middle
  rw [perm, Multiset.erase_cons_head]
  exact ⟨Multiset.mem_cons_self entry _, rfl⟩

theorem maxSessions_handle (table : Table) (request : Request) (now : Int64) :
    (table.handle request now).table.maxSessions = table.maxSessions := by
  rw [handle]
  cases MsgType.ofByte request.type with
  | none => rfl
  | some type =>
      cases type with
      | sessionRegister =>
          change (table.handleRegister request now).table.maxSessions = _
          rw [handleRegister]
          cases table.firstInactive with
          | some index => rfl
          | none =>
              cases Int.decLt table.sessionCount table.maxSessions with
              | isTrue room => simp [Int.not_le.mpr room]
              | isFalse full => simp [Int.not_lt.mp full]
      | sessionUnregister =>
          change (table.handleUnregister request).table.maxSessions = _
          rw [handleUnregister]
          cases table.findSession (request.bytes.drop 65) <;> rfl
      | sessionCount => rfl
      | sessionList => rfl
      | sessionKill =>
          change (table.handleKill request).table.maxSessions = _
          rw [handleKill]
          cases table.findSession (request.bytes.drop 65) <;> rfl
      | sessionKillUser => rfl

/-- A count of entries fits the response's `count` field. -/
private theorem toInt_ofNat_length {length : Nat} (bound : length < 2 ^ 31) :
    (Int32.ofNat length).toInt = length :=
  Int32.toInt_ofNat_of_lt bound

private theorem signals_killed (owned : List Entry) (username : Bytes) :
    signals (owned.flatMap fun entry =>
      [.kill entry.pid, .log "SESSION_KILLED" username entry.containerId]) =
      owned.map Entry.pid := by
  induction owned with
  | nil => rfl
  | cons entry owned ih =>
      rw [List.flatMap_cons, signals, List.filterMap_append]
      change entry.pid :: signals _ = _
      rw [ih, List.map_cons]

/-- KILL_USER over the bag, from the entries the loop deactivates and keeps. -/
private theorem userKill_step {entries : List Entry} {username : Bytes} {capacity : Int}
    (bound : entries.length < 2 ^ 31) :
    BagStep ⟨entries, capacity⟩
      (.served (.killUser username)
        (Reply.answer
          ⟨if (entries.filter fun entry => entry.username = username).length = 0 then
              .refuse "no sessions found"
            else
              { Response.accept with
                count := Int32.ofNat
                  (entries.filter fun entry => entry.username = username).length },
            [],
            (entries.filter fun entry => entry.username = username).flatMap fun entry =>
              [.kill entry.pid, .log "SESSION_KILLED" username entry.containerId]⟩))
      ⟨entries.filter fun entry => !decide (entry.username = username), capacity⟩ := by
  have owned : ((entries.filter fun entry => entry.username = username : List Entry) :
      Multiset Entry) = (entries : Multiset Entry).filter (·.username = username) := rfl
  have kept : ((entries.filter fun entry => !decide (entry.username = username) : List Entry) :
      Multiset Entry) = (entries : Multiset Entry).filter (·.username ≠ username) := by
    simp only [Multiset.filter_coe, decide_not]
  have counted :
      (Int32.ofNat (entries.filter fun entry => entry.username = username).length).toInt =
      (entries.filter fun entry => entry.username = username).length :=
    toInt_ofNat_length (Nat.lt_of_le_of_lt (List.length_filter_le _ _) bound)
  cases Nat.eq_zero_or_pos (entries.filter fun entry => entry.username = username).length with
  | inl none =>
      have empty := List.eq_nil_of_length_eq_zero none
      have absent : ∀ entry ∈ entries, entry.username ≠ username := by
        simpa using List.filter_eq_nil_iff.mp empty
      have unchanged : entries.filter (fun entry => !decide (entry.username = username)) =
          entries := by
        rw [List.filter_eq_self]
        simpa using absent
      rw [if_pos none, empty, unchanged]
      exact .userKillRefused absent
  | inr positive =>
      rw [if_neg (Nat.ne_of_gt positive), kept]
      simp only [Reply.answer, counted, signals_killed]
      exact .userKilled positive

section Step

variable {table : Table} (wf : table.WF) {request : Request}
  (terminated : request.Terminated) (now : Int64)

include wf terminated

/-- A request answered by the daemon is a move of the bag machine. -/
theorem handle_refines :
    BagStep table.view
      (.served (request.command now) (table.handle request now).toReply.answer)
      (table.handle request now).table.view := by
  have counted := toInt_ofNat_length wf.length_entries_lt
  have reply := wf.handle_eq_replyOn request now
  rw [view, view, maxSessions_handle, reply, replyOn, Request.command]
  cases type : MsgType.ofByte request.type with
  | none =>
      simp only [handle, type]
      exact .unknown
  | some message =>
      cases message with
      | sessionRegister =>
          simp only [handle, type]
          rcases wf.handleRegister_spec request now with
            ⟨room, ⟨before, after, split, joined⟩, _⟩ | ⟨full, unchanged, _⟩
          · have added : (table.handleRegister request now).table.bag =
                requested request now ::ₘ table.bag := by
              rw [bag, joined, bag, split]
              exact Multiset.coe_eq_coe.mpr List.perm_middle
            rw [if_pos room, added, ← terminated.requested_eq now]
            exact .registered _ room
          · rw [if_neg (Int.not_lt.mpr full), unchanged]
            exact .registerRefused _ full
      | sessionUnregister =>
          simp only [handle, type]
          rw [← terminated.containerId_eq]
          rcases deactivate_spec table (request.bytes.drop 65) with
            ⟨index, before, entry, after, search, split, carries, _, found, freed⟩ |
            ⟨search, absent, found⟩
          · rcases bag_middle split freed with ⟨member, erased⟩
            simp only [handleUnregister, search, found]
            rw [erased, ← carries]
            exact .unregistered member
          · simp only [handleUnregister, search, found]
            exact .unregisterRefused absent
      | sessionCount =>
          simp only [handle, type, Reply.answer, counted]
          exact .counted
      | sessionList =>
          simp only [handle, type, Reply.answer, counted, wf.records_entries]
          exact .listed
      | sessionKill =>
          simp only [handle, type]
          rw [← terminated.containerId_eq]
          rcases deactivate_spec table (request.bytes.drop 65) with
            ⟨index, before, entry, after, search, split, carries, _, found, freed⟩ |
            ⟨search, absent, found⟩
          · rcases bag_middle split freed with ⟨member, erased⟩
            simp only [handleKill, search, found]
            rw [erased, ← carries]
            exact .killed member
          · simp only [handleKill, search, found]
            exact .killRefused absent
      | sessionKillUser =>
          simp only [handle, type]
          rw [← terminated.username_eq, bag, bag, handleKillUser_entries wf]
          exact userKill_step wf.length_entries_lt

end Step

end Table

/-! ## Stale slots -/

/-- What a slot stores, if it is active. -/
def Session.stored (slot : Session) : Option Entry :=
  if slot.active then some slot.entry else none

namespace Table

/-- Two tables that store the same in the same slots: they may differ in what
inactive slots still hold, and in bytes behind the ends of strings. -/
structure Agree (left right : Table) : Prop where
  slots : left.sessions.map Session.stored = right.sessions.map Session.stored
  used : left.sessionCount = right.sessionCount
  capacity : left.maxSessions = right.maxSessions

theorem entries_eq_stored (table : Table) :
    table.entries =
      ((table.sessions.map Session.stored).take table.sessionCount).filterMap id := by
  rw [entries, active, Slots.occupied, ← List.map_take]
  induction table.sessions.take table.sessionCount with
  | nil => rfl
  | cons slot slots ih =>
      cases alive : slot.active with
      | false => simpa [alive, Session.stored] using ih
      | true => simpa [alive, Session.stored] using ih

theorem firstInactive_eq_stored (table : Table) :
    table.firstInactive =
      Slots.firstWhere Option.isNone (table.sessions.map Session.stored)
        table.sessionCount := by
  rw [Slots.firstWhere_map, firstInactive]
  congr 1
  funext slot
  cases alive : slot.active with
  | false => simp [alive, Session.stored]
  | true => simp [alive, Session.stored]

theorem findSession_eq_stored (table : Table) (memory : Bytes) :
    table.findSession memory =
      Slots.firstWhere (Option.any fun entry => entry.containerId = cstr memory)
        (table.sessions.map Session.stored) table.sessionCount := by
  rw [Slots.firstWhere_map, findSession]
  congr 1
  funext slot
  rw [matches_containerId]
  cases alive : slot.active with
  | false => simp [alive, Session.stored]
  | true => simp [alive, Session.stored]

namespace Agree

variable {left right : Table} (agree : Agree left right)

include agree

theorem entries_eq : left.entries = right.entries := by
  rw [entries_eq_stored, entries_eq_stored, agree.slots, agree.used]

theorem firstInactive_eq : left.firstInactive = right.firstInactive := by
  rw [firstInactive_eq_stored, firstInactive_eq_stored, agree.slots, agree.used]

theorem findSession_eq (memory : Bytes) :
    left.findSession memory = right.findSession memory := by
  rw [findSession_eq_stored, findSession_eq_stored, agree.slots, agree.used]

omit agree in
/-- Updating the same slot on both sides. -/
theorem modify {slots slots' : List Session} {index used : Nat} {capacity : Int}
    {update : Session → Session} (change : Option Entry → Option Entry)
    (same : slots.map Session.stored = slots'.map Session.stored)
    (commutes : ∀ slot, (update slot).stored = change slot.stored) :
    Agree ⟨slots.modify index update, used, capacity⟩
      ⟨slots'.modify index update, used, capacity⟩ where
  slots := by rw [Slots.map_modify commutes, Slots.map_modify commutes, same]
  used := rfl
  capacity := rfl

omit agree in
theorem stored_fill (request : Request) (now : Int64) (slot : Session) :
    (Table.fill request now slot).stored = some (requested request now) := by
  rw [Session.stored, active_fill, if_pos rfl, entry_fill]

theorem handleRegister (request : Request) (now : Int64) :
    Agree (left.handleRegister request now).table (right.handleRegister request now).table := by
  have search := agree.firstInactive_eq
  rcases left with ⟨slots, used, capacity⟩
  rcases right with ⟨slots', used', capacity'⟩
  rcases agree with ⟨same, rfl, rfl⟩
  rw [Table.handleRegister, Table.handleRegister, search]
  cases Table.firstInactive ⟨slots', used, capacity⟩ with
  | some index =>
      exact modify (fun _ => some (requested request now)) same (stored_fill request now)
  | none =>
      cases Int.decLt used capacity with
      | isTrue room =>
          simp only [if_neg (Int.not_le.mpr room)]
          exact modify (fun _ => some (requested request now)) same (stored_fill request now)
      | isFalse full =>
          simp only [if_pos (Int.not_lt.mp full)]
          exact ⟨same, rfl, rfl⟩

theorem handleUnregister (request : Request) :
    Agree (left.handleUnregister request).table (right.handleUnregister request).table := by
  have search := agree.findSession_eq (request.bytes.drop 65)
  rcases left with ⟨slots, used, capacity⟩
  rcases right with ⟨slots', used', capacity'⟩
  rcases agree with ⟨same, rfl, rfl⟩
  rw [Table.handleUnregister, Table.handleUnregister, search]
  cases Table.findSession ⟨slots', used, capacity⟩ (request.bytes.drop 65) with
  | none => exact ⟨same, rfl, rfl⟩
  | some index => exact modify (fun _ => none) same fun _ => rfl

theorem handleKill (request : Request) :
    Agree (left.handleKill request).table (right.handleKill request).table := by
  have search := agree.findSession_eq (request.bytes.drop 65)
  rcases left with ⟨slots, used, capacity⟩
  rcases right with ⟨slots', used', capacity'⟩
  rcases agree with ⟨same, rfl, rfl⟩
  rw [Table.handleKill, Table.handleKill, search]
  cases Table.findSession ⟨slots', used, capacity⟩ (request.bytes.drop 65) with
  | none => exact ⟨same, rfl, rfl⟩
  | some index => exact modify (fun _ => none) same fun _ => rfl

omit agree in
/-- What `handle_kill_user` does to a slot, seen through what the slot stores. -/
theorem stored_killed (memory : Bytes) (slot : Session) :
    Session.stored (if slot.active && ownedBy memory slot then Table.deactivate slot else slot) =
      slot.stored.filter fun entry => !decide (entry.username = cstr memory) := by
  rw [ownedBy_eq]
  cases alive : slot.active with
  | false => simp [alive, Session.stored]
  | true =>
      rw [Session.stored.eq_def slot, if_pos alive, Option.filter]
      cases owned : decide (slot.entry.username = cstr memory) with
      | false => simp [alive, Session.stored]
      | true => simp [Session.stored, Table.deactivate]

theorem handleKillUser (request : Request) :
    Agree (left.handleKillUser request).table (right.handleKillUser request).table := by
  rcases left with ⟨slots, used, capacity⟩
  rcases right with ⟨slots', used', capacity'⟩
  rcases agree with ⟨same, rfl, rfl⟩
  have stored : ∀ slots : List Session,
      (Table.handleKillUser ⟨slots, used, capacity⟩ request).table.sessions.map Session.stored =
        ((slots.map Session.stored).take used).map (Option.filter fun entry =>
          !decide (entry.username = cstr (request.bytes.drop 1))) ++
        (slots.map Session.stored).drop used := by
    intro slots
    simp only [Table.handleKillUser, killUserLoop_eq, List.map_append, List.map_map,
      List.map_drop, ← List.map_take]
    congr 1
    apply List.map_congr_left
    intro slot _
    exact stored_killed (request.bytes.drop 1) slot
  refine ⟨?_, rfl, rfl⟩
  rw [stored, stored, same]

theorem reloadConfig (file : ConfigFile) (allocated : Bool) :
    Agree (left.reloadConfig file allocated) (right.reloadConfig file allocated) := by
  rcases left with ⟨slots, used, capacity⟩
  rcases right with ⟨slots', used', capacity'⟩
  rcases agree with ⟨same, rfl, rfl⟩
  have unchanged : Agree ⟨slots, used, capacity⟩ ⟨slots', used, capacity⟩ := ⟨same, rfl, rfl⟩
  cases file with
  | missing => exact unchanged
  | unparseable => exact unchanged
  | parsed datum =>
      rw [Table.reloadConfig, Table.reloadConfig]
      dsimp only
      split
      · exact unchanged
      · split
        · exact unchanged
        · cases allocated with
          | false => exact unchanged
          | true =>
              refine ⟨?_, rfl, rfl⟩
              simp only [if_pos, List.map_append, same]

/-- A request leaves tables that agree behind. -/
theorem handle (request : Request) (now : Int64) :
    Agree (left.handle request now).table (right.handle request now).table := by
  rw [Table.handle, Table.handle]
  cases MsgType.ofByte request.type with
  | none => exact agree
  | some type =>
      cases type with
      | sessionRegister => exact agree.handleRegister request now
      | sessionUnregister => exact agree.handleUnregister request
      | sessionCount => exact agree
      | sessionList => exact agree
      | sessionKill => exact agree.handleKill request
      | sessionKillUser => exact agree.handleKillUser request

/-- A request is answered alike on tables that agree. -/
theorem reply_eq (leftWF : left.WF) (rightWF : right.WF) (request : Request) (now : Int64) :
    (left.handle request now).toReply = (right.handle request now).toReply := by
  rw [leftWF.handle_eq_replyOn, rightWF.handle_eq_replyOn, agree.entries_eq, agree.capacity]

theorem step {next : Table} {event : Event} (leftWF : left.WF) (rightWF : right.WF)
    (step : DaemonStep left event next) :
    ∃ other, DaemonStep right event other ∧ Agree next other := by
  cases step with
  | served request now =>
      refine ⟨(right.handle request now).table, ?_, agree.handle request now⟩
      rw [agree.reply_eq leftWF rightWF]
      exact .served right request now
  | reloaded file allocated =>
      exact ⟨right.reloadConfig file allocated, .reloaded right file allocated,
        agree.reloadConfig file allocated⟩

/-- Whatever follows, requests are answered alike on tables that agree. -/
theorem run {final : Table} {events : List Event} (leftWF : left.WF) (rightWF : right.WF)
    (run : daemon.Run left events final) :
    ∃ other, daemon.Run right events other ∧ Agree final other ∧ final.WF ∧ other.WF := by
  induction run with
  | nil => exact ⟨right, .nil right, agree, leftWF, rightWF⟩
  | snoc _ last ih =>
      rcases ih with ⟨middle, first, agreed, middleWF, otherWF⟩
      rcases agreed.step middleWF otherWF last with ⟨other, matched, agreed⟩
      exact ⟨other, .snoc first matched, agreed, DaemonStep.wf last middleWF,
        DaemonStep.wf matched otherWF⟩

end Agree

end Table

/-! ## Refinement -/

theorem daemon_refinement :
    LTS.Refinement (daemon.restrict fun _ event => event.Terminated) bagMachine
      Table.WF Table.view Event.move where
  initial := by
    intro table initial
    cases initial
    exact ⟨Table.WF.initial, rfl⟩
  forward := by
    intro table event next wf step
    refine ⟨DaemonStep.wf step.2 wf, ?_⟩
    cases step.2 with
    | served request now => exact Table.handle_refines wf step.1 now
    | reloaded file allocated =>
        rcases wf.reloadConfig_spec file allocated with ⟨_, entriesEq, grown⟩
        rw [Table.view, Table.view, Table.bag, Table.bag, entriesEq]
        exact .reloaded grown

/-- Every run of the daemon over requests with terminated strings is a run of the
bag machine, and what inactive slots hold shows in no later answer: any reachable
table that agrees on the active slots answers all that follows in the same way. -/
theorem daemon_refines_bag {events : List Event} {table : Table}
    (run : (daemon.restrict fun _ event => event.Terminated).Run Table.initial events table) :
    bagMachine.Run ⟨0, 0⟩ (events.map Event.move) table.view ∧
      ∀ {other final : Table} {later : List Event}, daemon.Reachable other →
        table.Agree other → daemon.Run table later final →
        ∃ twin, daemon.Run other later twin ∧ final.Agree twin := by
  have refined := daemon_refinement.run run Table.WF.initial
  constructor
  · exact refined.2
  · intro other final later reachable agree continued
    rcases agree.run refined.1 (daemon_wf reachable) continued with ⟨twin, followed, agreed, _⟩
    exact ⟨twin, followed, agreed⟩

/-- One slot, taken and freed again: whose name it still holds does not show. -/
theorem daemon_refines_bag_freed :
    let named : String → Request := fun name =>
      { Request.zero with type := 1, username := (Buf.zero _).strncpy (ascii name), pid := 42 }
    let free : Request := { Request.zero with type := 2 }
    let count : Request := { Request.zero with type := 3 }
    let used : String → Table := fun name =>
      (((Table.initial.reloadConfig (.parsed (.int64 1)) true).handle (named name) 7).table.handle
        free 8).table
    bagMachine.Run ⟨0, 0⟩
      [.reloaded, .served ((named "ann").command 7) .accepted,
        .served (.unregister []) .accepted] ⟨0, 1⟩ ∧
    ∃ twin, daemon.Run (used "bob")
      [.served count 9 ((used "ann").handle count 9).toReply] twin ∧
      (used "ann").Agree twin := by
  intro named free count used
  let empty : Table := Table.initial.reloadConfig (.parsed (.int64 1)) true
  let taken : String → Handled := fun name => empty.handle (named name) 7
  have run : ∀ name, (daemon.restrict fun _ event => event.Terminated).Run Table.initial
      [.reloaded (.parsed (.int64 1)) true, .served (named name) 7 (taken name).toReply,
        .served free 8 ((taken name).table.handle free 8).toReply] (used name) := by
    intro name
    exact .cons ⟨trivial, .reloaded Table.initial (.parsed (.int64 1)) true⟩
      (.cons ⟨⟨Buf.terminated_strncpy_zero _, Buf.terminated_zero⟩,
          .served empty (named name) 7⟩
        (.single ⟨⟨Buf.terminated_zero, Buf.terminated_zero⟩,
          .served (taken name).table free 8⟩))
  have refined := daemon_refines_bag (run "ann")
  refine ⟨refined.1, ?_⟩
  exact refined.2 ⟨Table.initial, _, rfl, (run "bob").of_restrict⟩
    ⟨by decide, rfl, rfl⟩ (.snoc (.nil (used "ann")) (.served (used "ann") count 9))

end Caal

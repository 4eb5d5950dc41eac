import Caal.Client.Library
import Caal.Daemon.Refinement

/-!
# What a REGISTER leaves in the table

`handle_register` stores what the request carries, without a look at it: strings that are
scanned out of fields which need not end in them, an id that another session may have, and
a pid that may be any number. What the other requests do later rests on all three.
-/

namespace Caal

open CMemory

namespace Table

/-! ## The slot of a new entry -/

/-- The slot `handle_register` fills. -/
def registerSlot (table : Table) : Option Nat :=
  match table.firstInactive with
  | some index => some index
  | none => if table.maxSessions ≤ table.sessionCount then none else some table.sessionCount

/-- There is a slot for another entry. -/
def HasRoom (table : Table) : Prop :=
  (table.entries.length : Int) < table.maxSessions

instance (table : Table) : Decidable table.HasRoom :=
  inferInstanceAs (Decidable (_ < _))

/-- The slots in use before the first one that can be used again. -/
def leading (table : Table) : List Session :=
  (table.sessions.take table.sessionCount).takeWhile Session.active

variable {table : Table} {request : Request} {now : Int64}

private theorem takeWhile_split {before after : List Session} {slot : Session}
    (busy : ∀ other ∈ before, other.active = true) (free : slot.active = false) :
    (before ++ slot :: after).takeWhile Session.active = before := by
  rw [List.takeWhile_append_of_pos busy, List.takeWhile_cons_of_neg (by simp [free]),
    List.append_nil]

/-- A REGISTER with a slot for it: the used slots before it are the leading ones, and it is
the only slot that changes. -/
theorem WF.registerSlot_spec (wf : table.WF) (request : Request) (now : Int64) {index : Nat}
    (slot : table.registerSlot = some index) :
    index < table.sessions.length ∧ index ≤ table.sessionCount ∧
      table.sessions.take index = table.leading ∧
      (table.handleRegister request now).table.sessions =
        table.sessions.modify index (Table.fill request now) ∧
      index < (table.handleRegister request now).table.sessionCount ∧
      (table.handleRegister request now).response.ok = 1 := by
  rw [registerSlot] at slot
  cases search : table.firstInactive with
  | some free =>
      rw [search] at slot
      cases slot
      have inside := Slots.firstWhere_lt search
      have front : table.sessions.take index = table.leading := by
        rcases Slots.firstWhere_some search with ⟨before, slot, after, split, rfl, inactive, busy⟩
        have taken := congrArg (List.take before.length) split
        rw [List.take_take, Nat.min_eq_left (Nat.le_of_lt inside.1), List.take_left] at taken
        rw [leading, split, taken]
        exact (takeWhile_split (by simpa using busy) (by simpa using inactive)).symm
      simp only [Table.handleRegister, search]
      exact ⟨inside.2, Nat.le_of_lt inside.1, front, trivial, inside.1, rfl⟩
  | none =>
      rw [search] at slot
      dsimp only at slot
      split at slot
      · cases slot
      · rename_i room
        cases slot
        have inside : table.sessionCount < table.sessions.length := by
          have bound := Int.not_le.mp room
          rw [wf.allocated] at bound
          exact Int.ofNat_lt.mp bound
        have front : table.sessions.take table.sessionCount = table.leading := by
          rw [leading, eq_comm, List.takeWhile_eq_self_iff]
          intro other member
          simpa using Slots.firstWhere_none search other member
        simp only [Table.handleRegister, search, if_neg room]
        exact ⟨inside, Nat.le_refl _, front, trivial, Nat.lt_succ_self _, rfl⟩

/-- With room there is a slot for another entry. -/
theorem WF.registerSlot_of_room (wf : table.WF) (room : table.HasRoom) :
    ∃ index, table.registerSlot = some index := by
  rw [registerSlot]
  cases search : table.firstInactive with
  | some index => exact ⟨index, rfl⟩
  | none =>
      have used : table.entries.length = table.sessionCount := by
        rw [entries, List.length_map, active, Slots.occupied_full search, List.length_take]
        exact Nat.min_eq_left wf.count_le_length
      rw [HasRoom, used] at room
      exact ⟨table.sessionCount, if_neg (Int.not_le.mpr room)⟩

/-! ## Strings and their fields -/

end Table

/-- The strings `handle_register` reads end within the fields they start in. -/
structure Request.Scanned (request : Request) : Prop where
  username : (cstr (request.bytes.drop 1)).length < maxStr
  containerId : (cstr (request.bytes.drop 65)).length < maxStr

theorem Request.scanned_iff (request : Request) : request.Scanned ↔ request.Terminated := by
  have username := Buf.scan_lt_iff request.username
    (request.containerId.bytes ++ int32Bytes request.pid)
  have containerId := Buf.scan_lt_iff request.containerId (int32Bytes request.pid)
  rw [← request.drop_username] at username
  rw [← request.drop_containerId] at containerId
  exact ⟨fun scanned => ⟨username.mp scanned.username, containerId.mp scanned.containerId⟩,
    fun terminated => ⟨username.mpr terminated.username,
      containerId.mpr terminated.containerId⟩⟩

/-- A request answered ok that makes the session in a slot inactive. -/
structure Table.Ends (table : Table) (index : Nat) (request : Request) (now : Int64) : Prop where
  active : (table.slotAt index).active = true
  ok : (table.handle request now).response.ok = 1
  inactive : ((table.handle request now).table.slotAt index).active = false

/-- What an accepted REGISTER should lead to: its strings are those of its fields, and the
requests with the same field bytes, sent next, end the session it has registered. -/
structure Table.Registered (table : Table) (request : Request) (now : Int64) : Prop where
  scanned : request.Scanned
  byContainerId : ∀ {index : Nat} (later : Request) (time : Int64),
    table.registerSlot = some index → later.containerId = request.containerId →
    MsgType.ofByte later.type = some .sessionUnregister ∨
      MsgType.ofByte later.type = some .sessionKill →
    (table.handle request now).table.Ends index later time
  byUsername : ∀ {index : Nat} (later : Request) (time : Int64),
    table.registerSlot = some index → later.username = request.username →
    MsgType.ofByte later.type = some .sessionKillUser →
    (table.handle request now).table.Ends index later time

namespace Table

theorem slotAt_modify {slots : List Session} {used index : Nat} {capacity : Int}
    {update : Session → Session} (inside : index < slots.length) :
    slotAt ⟨slots.modify index update, used, capacity⟩ index = update slots[index] := by
  rw [slotAt, List.getD_eq_getElem?_getD, List.getElem?_modify_eq,
    List.getElem?_eq_getElem inside]
  rfl

/-- Ending the session of the slot that a lookup finds. -/
theorem ends_of_found {registered : Table} {index : Nat} {later : Request} {time : Int64}
    (inside : index < registered.sessions.length)
    (active : (registered.slotAt index).active = true)
    (found : registered.findSession (later.bytes.drop 65) = some index)
    (type : MsgType.ofByte later.type = some .sessionUnregister ∨
      MsgType.ofByte later.type = some .sessionKill) :
    registered.Ends index later time := by
  have freed : ∀ used capacity,
      (slotAt ⟨registered.sessions.modify index deactivate, used, capacity⟩ index).active =
        false := by
    intro used capacity
    rw [slotAt_modify inside]
    rfl
  cases type with
  | inl unregister =>
      refine ⟨active, ?_, ?_⟩
      · simp only [handle, unregister, handleUnregister, found]
        rfl
      · simp only [handle, unregister, handleUnregister, found]
        exact freed _ _
  | inr kill =>
      refine ⟨active, ?_, ?_⟩
      · simp only [handle, kill, handleKill, found]
        rfl
      · simp only [handle, kill, handleKill, found]
        exact freed _ _

/-- A lookup that finds another slot leaves the session of this one active. -/
theorem not_ends_of_found {registered : Table} {index earlier : Nat} {later : Request}
    {time : Int64} (found : registered.findSession (later.bytes.drop 65) = some earlier)
    (different : earlier ≠ index)
    (type : MsgType.ofByte later.type = some .sessionUnregister) :
    ¬ registered.Ends index later time := by
  intro ends
  have inactive := ends.inactive
  simp only [handle, type, handleUnregister, found, slotAt, List.getD_eq_getElem?_getD,
    List.getElem?_modify_ne _ _ different] at inactive
  have active := ends.active
  rw [slotAt, List.getD_eq_getElem?_getD, inactive] at active
  cases active

/-- KILL_USER ends the session of every used slot of the user. -/
theorem ends_of_owned {registered : Table} {index : Nat} {later : Request} {time : Int64}
    {slot : Session} (used : index < registered.sessionCount)
    (here : registered.sessions[index]? = some slot) (active : slot.active = true)
    (owned : ownedBy (later.bytes.drop 1) slot = true)
    (type : MsgType.ofByte later.type = some .sessionKillUser) :
    registered.Ends index later time := by
  have taken : (registered.sessions.take registered.sessionCount)[index]? = some slot := by
    rwa [List.getElem?_take_of_lt used]
  refine ⟨?_, ?_, ?_⟩
  · rw [slotAt, List.getD_eq_getElem?_getD, here]
    exact active
  · have member : slot ∈ ((registered.sessions.take registered.sessionCount).filter
        Session.active).filter (ownedBy (later.bytes.drop 1)) :=
      List.mem_filter.mpr ⟨List.mem_filter.mpr ⟨List.mem_of_getElem? taken, active⟩, owned⟩
    simp only [handle, type, handleKillUser, killUserLoop_eq]
    rw [if_neg (Nat.ne_of_gt (List.length_pos_of_mem member))]
    rfl
  · simp only [handle, type, handleKillUser, killUserLoop_eq, slotAt,
      List.getD_eq_getElem?_getD]
    rw [List.getElem?_append_left, List.getElem?_map, taken]
    · rw [Option.map_some, Option.getD_some, if_pos (by rw [active, owned]; rfl)]
      rfl
    · rw [List.length_map]
      exact (List.getElem?_eq_some_iff.mp taken).1

variable {table : Table} {request : Request} {now : Int64}

/-- The slot an accepted REGISTER leaves, behind the leading slots. -/
theorem WF.registered_spec (wf : table.WF) {index : Nat} (request : Request) (now : Int64)
    (free : table.registerSlot = some index) :
    ∃ slot, (table.handleRegister request now).table.sessions[index]? = some slot ∧
      slot.active = true ∧ slot.entry = requested request now ∧
      index < (table.handleRegister request now).table.sessionCount ∧
      (table.handleRegister request now).table.sessions.take index = table.leading := by
  rcases wf.registerSlot_spec request now free with
    ⟨inside, _, front, filled, used, _⟩
  refine ⟨Table.fill request now table.sessions[index], ?_, active_fill request now _,
    entry_fill request now _, used, ?_⟩
  · rw [filled, List.getElem?_modify_eq, List.getElem?_eq_getElem inside]
    rfl
  · rw [filled, List.take_modify, front]
    apply List.modify_eq_self
    rw [← front, List.length_take]
    exact Nat.min_le_left _ _

theorem mem_leading_active {slot : Session} (member : slot ∈ table.leading) :
    slot.active = true :=
  List.mem_takeWhile_imp member

/-- The test of `find_session` on an active slot. -/
private theorem found_eq {slot : Session} (active : slot.active = true) (memory : Bytes) :
    (slot.active && strcmp slot.containerId.bytes memory == 0) =
      decide (slot.containerId.text = cstr memory) := by
  rw [active, Bool.true_and, matches_containerId]
  rfl

/-- With no leading slot of that id, a lookup finds the session just registered. -/
theorem WF.findSession_registered (wf : table.WF) {index : Nat} {memory : Bytes}
    (free : table.registerSlot = some index)
    (carries : (requested request now).containerId = cstr memory)
    (differ : ∀ other ∈ table.leading, other.containerId.text ≠ cstr memory) :
    (table.handleRegister request now).table.findSession memory = some index := by
  rcases wf.registered_spec request now free with ⟨slot, here, active, entry, used, front⟩
  apply Slots.firstWhere_eq_some used here
  · rw [found_eq active, decide_eq_true_eq, ← carries, ← entry]
    rfl
  · intro other member
    rw [front] at member
    rw [found_eq (mem_leading_active member), decide_eq_false_iff_not]
    exact differ other member

/-- With a leading slot of that id, it finds an earlier one. -/
theorem WF.findSession_earlier (wf : table.WF) (request : Request) (now : Int64) {index : Nat}
    {memory : Bytes} {other : Session}
    (free : table.registerSlot = some index) (member : other ∈ table.leading)
    (same : other.containerId.text = cstr memory) :
    ∃ earlier, earlier ≠ index ∧
      (table.handleRegister request now).table.findSession memory = some earlier := by
  rcases wf.registered_spec request now free with ⟨_, _, _, _, used, front⟩
  have inFront := member
  rw [← front] at inFront
  have accepted : (other.active && strcmp other.containerId.bytes memory == 0) = true := by
    rw [found_eq (mem_leading_active member), decide_eq_true_eq]
    exact same
  have found : ∃ earlier < index,
      (table.handleRegister request now).table.findSession memory = some earlier :=
    Slots.firstWhere_of_mem (Nat.le_of_lt used) inFront accepted
  rcases found with ⟨earlier, before, found⟩
  exact ⟨earlier, Nat.ne_of_lt before, found⟩

/-- A request with terminated strings, of an id that no leading slot has, leads to what an
accepted REGISTER should. -/
theorem WF.registered_of_distinct (wf : table.WF)
    (type : MsgType.ofByte request.type = some .sessionRegister)
    (terminated : request.Terminated)
    (differ : ∀ other ∈ table.leading, other.containerId.text ≠ request.containerId.text) :
    table.Registered request now := by
  have handled : table.handle request now = table.handleRegister request now := by
    simp only [Table.handle, type]
  have stored := terminated.requested_eq now
  refine ⟨request.scanned_iff.mpr terminated, ?_, ?_⟩
  · intro index later time free same laterType
    rcases wf.registered_spec request now free with ⟨slot, here, active, _, _, _⟩
    have laterId : cstr (later.bytes.drop 65) = request.containerId.text := by
      rw [later.drop_containerId, same, cstr_append_of_terminated terminated.containerId]
      rfl
    rw [handled]
    apply ends_of_found (List.getElem?_eq_some_iff.mp here).1 _ _ laterType
    · rw [slotAt, List.getD_eq_getElem?_getD, here]
      exact active
    · apply wf.findSession_registered free
      · rw [stored, laterId]
      · rwa [laterId]
  · intro index later time free same laterType
    rcases wf.registered_spec request now free with ⟨slot, here, active, entry, used, _⟩
    have laterName : cstr (later.bytes.drop 1) = request.username.text := by
      rw [later.drop_username, same, cstr_append_of_terminated terminated.username]
      rfl
    have owned : ownedBy (later.bytes.drop 1) slot = true := by
      rw [ownedBy_eq, decide_eq_true_eq, entry, stored, laterName]
    rw [handled]
    exact ends_of_owned used here active owned laterType

end Table

/-- What an accepted REGISTER should lead to, it leads to exactly if both of its strings end
in their fields and no slot in use before the first free one carries the same id. -/
theorem register_consistent_iff {table : Table} {request : Request} (now : Int64)
    (reachable : daemon.Reachable table)
    (type : MsgType.ofByte request.type = some .sessionRegister) :
    ((table.handle request now).response.ok = 1 → table.Registered request now) ↔
      (table.HasRoom → request.Terminated ∧
        ∀ other ∈ table.leading, other.containerId.text ≠ request.containerId.text) := by
  have wf := daemon_wf reachable
  have handled : table.handle request now = table.handleRegister request now := by
    simp only [Table.handle, type]
  have accepted : (table.handleRegister request now).response.ok = 1 ↔ table.HasRoom :=
    wf.register_ok_iff request now
  rw [← handled] at accepted
  rw [accepted]
  apply forall_congr'
  intro room
  constructor
  · intro registered
    have terminated := request.scanned_iff.mp registered.scanned
    refine ⟨terminated, ?_⟩
    intro other member same
    rcases wf.registerSlot_of_room room with ⟨index, free⟩
    have laterId : cstr (Request.bytes { request with type := 2 } |>.drop 65) =
        request.containerId.text := by
      rw [Request.drop_containerId, cstr_append_of_terminated terminated.containerId]
      rfl
    rcases wf.findSession_earlier request now free member (same.trans laterId.symm) with
      ⟨earlier, different, found⟩
    rw [← handled] at found
    have ends := registered.byContainerId { request with type := 2 } now free rfl (.inl rfl)
    exact Table.not_ends_of_found found different rfl ends
  · rintro ⟨terminated, differ⟩
    exact wf.registered_of_distinct type terminated differ

/-- A table with two slots, both unused. -/
def twoSlots : Table := Table.initial.reloadConfig (.parsed (.int64 2)) true

theorem twoSlots_reachable : daemon.Reachable twoSlots :=
  ⟨Table.initial, _, rfl, .single (.reloaded Table.initial (.parsed (.int64 2)) true)⟩

/-- A REGISTER with these strings. -/
def registerRequest (username containerId : String) (pid : Int32) : Request where
  type := 1
  username := (Buf.zero _).strncpy (ascii username)
  containerId := (Buf.zero _).strncpy (ascii containerId)
  pid := pid

theorem register_consistent_twoSlots :
    (twoSlots.handle (registerRequest "ann" "caalsh-1-1" 1) 7).response.ok = 1 ∧
      twoSlots.Registered (registerRequest "ann" "caalsh-1-1" 1) 7 := by
  have accepted :
      (twoSlots.handle (registerRequest "ann" "caalsh-1-1" 1) 7).response.ok = 1 := by
    decide +kernel
  refine ⟨accepted, (register_consistent_iff 7 twoSlots_reachable rfl).mpr ?_ accepted⟩
  intro _
  exact ⟨⟨Buf.terminated_strncpy_zero _, Buf.terminated_strncpy_zero _⟩, by simp [twoSlots,
    Table.initial, Table.reloadConfig, newMax, Table.leading]⟩

/-- A container id without a NUL is read on into the pid. -/
theorem unterminated_id_read_past :
    ¬ ∀ {table : Table} {request : Request} (now : Int64), daemon.Reachable table →
      MsgType.ofByte request.type = some .sessionRegister →
      (table.handle request now).response.ok = 1 → table.Registered request now := by
  intro claimed
  have unterminated : ¬ (cstr ((Request.bytes { registerRequest "ann" "" 1 with
      containerId := ⟨List.replicate 64 65, List.length_replicate⟩ }).drop 65)).length <
      maxStr := by
    decide +kernel
  exact unterminated (claimed 7 twoSlots_reachable rfl (by decide +kernel)).scanned.containerId

/-! ## Container ids as keys -/

/-- The ids of the sessions are keys: no two sessions have the same, so that a session that a
request has ended by its id is not there, and not listed, under this id any more. -/
structure Table.Keyed (table : Table) : Prop where
  distinct : (table.entries.map Entry.containerId).Nodup
  gone : ∀ {request : Request} (now : Int64),
    MsgType.ofByte request.type = some .sessionUnregister ∨
      MsgType.ofByte request.type = some .sessionKill →
    (table.handle request now).response.ok = 1 →
    ∀ entry ∈ (table.handle request now).table.entries,
      entry.containerId ≠ cstr (request.bytes.drop 65)
  unlisted : ∀ {request list : Request} (now later : Int64),
    MsgType.ofByte request.type = some .sessionUnregister ∨
      MsgType.ofByte request.type = some .sessionKill →
    (table.handle request now).response.ok = 1 →
    MsgType.ofByte list.type = some .sessionList →
    ∀ record ∈ ((table.handle request now).table.handle list later).records,
      record.containerId.text ≠ cstr (request.bytes.drop 65)

/-- A REGISTER with room for it carries an id that no session has. -/
def Event.Fresh (table : Table) : Event → Prop
  | .served request now _ =>
      MsgType.ofByte request.type = some .sessionRegister → table.HasRoom →
      ∀ entry ∈ table.entries, entry.containerId ≠ (Table.requested request now).containerId
  | .reloaded _ _ => True

namespace Table

variable {table next : Table}

/-- One step keeps the ids distinct. -/
theorem WF.distinct_step (wf : table.WF) {event : Event} (step : DaemonStep table event next)
    (fresh : event.Fresh table) (distinct : (table.entries.map Entry.containerId).Nodup) :
    (next.entries.map Entry.containerId).Nodup := by
  cases step with
  | served request now =>
      rcases wf.entries_handle request now with
        kept | ⟨type, room, before, after, split, joined⟩
      · exact distinct.sublist (kept.map Entry.containerId)
      · have new := fresh type room
        rw [split] at new distinct
        have perm : List.Perm (before ++ requested request now :: after)
            (requested request now :: (before ++ after)) := List.perm_middle
        rw [joined, (perm.map Entry.containerId).nodup_iff, List.map_cons, List.nodup_cons]
        refine ⟨?_, distinct⟩
        intro member
        rcases List.mem_map.mp member with ⟨entry, inside, same⟩
        exact new entry inside same
  | reloaded file allocated =>
      rw [(wf.reloadConfig_spec file allocated).2.1]
      exact distinct

/-- With distinct ids, a session ended by its id is not there any more. -/
theorem gone_of_distinct {request : Request} {now : Int64}
    (distinct : (table.entries.map Entry.containerId).Nodup)
    (type : MsgType.ofByte request.type = some .sessionUnregister ∨
      MsgType.ofByte request.type = some .sessionKill)
    (ok : (table.handle request now).response.ok = 1) :
    ∀ entry ∈ (table.handle request now).table.entries,
      entry.containerId ≠ cstr (request.bytes.drop 65) := by
  rcases deactivate_spec table (request.bytes.drop 65) with
    ⟨index, before, gone, after, search, split, carries, _, _, freed⟩ | ⟨search, _, _⟩
  · have left : (table.handle request now).table.entries = before ++ after := by
      cases type with
      | inl unregister =>
          simp only [handle, unregister, handleUnregister, search]
          exact freed
      | inr kill =>
          simp only [handle, kill, handleKill, search]
          exact freed
    have perm : List.Perm table.entries (gone :: (before ++ after)) := by
      rw [split]
      exact List.perm_middle
    rw [(perm.map Entry.containerId).nodup_iff, List.map_cons, List.nodup_cons] at distinct
    rw [left]
    intro entry member same
    apply distinct.1
    rw [carries, ← same]
    exact List.mem_map_of_mem member
  · cases type with
    | inl unregister =>
        simp only [handle, unregister, handleUnregister, search] at ok
        simp at ok
    | inr kill =>
        simp only [handle, kill, handleKill, search] at ok
        simp at ok

/-- A LIST reply shows the ids of the entries. -/
theorem WF.listed_containerId (wf : table.WF) {request : Request} {now : Int64}
    (type : MsgType.ofByte request.type = some .sessionList) {record : SessionInfo}
    (member : record ∈ (table.handle request now).records) :
    ∃ entry ∈ table.entries, entry.containerId = record.containerId.text := by
  have records : (table.handle request now).records = table.entries.map Entry.record := by
    have reply := congrArg Reply.records (wf.handle_eq_replyOn request now)
    rw [reply, replyOn, type]
  rw [records] at member
  rcases List.mem_map.mp member with ⟨entry, inside, rfl⟩
  refine ⟨entry, inside, ?_⟩
  exact (congrArg Entry.containerId (wf.record_entry inside)).symm

theorem WF.keyed_of_distinct (wf : table.WF)
    (distinct : (table.entries.map Entry.containerId).Nodup) : table.Keyed where
  distinct := distinct
  gone := fun _ type ok => gone_of_distinct distinct type ok
  unlisted := by
    intro request list now later type ok listing record member
    rcases WF.listed_containerId (wf.handle request now) listing member with
      ⟨entry, inside, same⟩
    rw [← same]
    exact gone_of_distinct distinct type ok entry inside

end Table

/-- If every REGISTER with room for it carries an id that no session has, ids are keys. -/
theorem containerId_keyed {table : Table}
    (reachable : (daemon.restrict Event.Fresh).Reachable table) : table.Keyed := by
  have wf := daemon_wf reachable.of_restrict
  apply wf.keyed_of_distinct
  apply reachable.invariant_within
  · intro start initial
    cases initial
    exact List.nodup_nil
  · intro state event next reached distinct step
    exact (daemon_wf reached.of_restrict).distinct_step step.2 step.1 distinct

/-- One session, and a second one beside it. -/
def annAlone : Table := (twoSlots.handle (registerRequest "ann" "caalsh-1-1" 1) 7).table

def annAndBob : Table := (annAlone.handle (registerRequest "bob" "caalsh-2-1" 2) 8).table

/-- The first of the two is killed. -/
theorem containerId_keyed_after_register :
    annAndBob.entries.length = 2 ∧
      (annAndBob.handle (.kill (ascii "caalsh-1-1")) 9).response.ok = 1 ∧
      (annAndBob.handle (.kill (ascii "caalsh-1-1")) 9).table.Keyed := by
  have reloaded : (Event.reloaded (.parsed (.int64 2)) true).Fresh Table.initial := trivial
  have first : (Event.served (registerRequest "ann" "caalsh-1-1" 1) 7
      (twoSlots.handle (registerRequest "ann" "caalsh-1-1" 1) 7).toReply).Fresh twoSlots := by
    intro _ _ entry member
    cases member
  have second : (Event.served (registerRequest "bob" "caalsh-2-1" 2) 8
      (annAlone.handle (registerRequest "bob" "caalsh-2-1" 2) 8).toReply).Fresh annAlone := by
    have new : ∀ entry ∈ annAlone.entries, entry.containerId ≠
        (Table.requested (registerRequest "bob" "caalsh-2-1" 2) 8).containerId := by
      decide +kernel
    exact fun _ _ => new
  have killed : (Event.served (.kill (ascii "caalsh-1-1")) 9
      (annAndBob.handle (.kill (ascii "caalsh-1-1")) 9).toReply).Fresh annAndBob := by
    intro type
    cases type
  have keyed := containerId_keyed ⟨Table.initial, _, rfl,
    .cons ⟨reloaded, .reloaded Table.initial (.parsed (.int64 2)) true⟩
      (.cons ⟨first, .served twoSlots (registerRequest "ann" "caalsh-1-1" 1) 7⟩
        (.cons ⟨second, .served annAlone (registerRequest "bob" "caalsh-2-1" 2) 8⟩
          (.single ⟨killed, .served annAndBob (.kill (ascii "caalsh-1-1")) 9⟩)))⟩
  exact ⟨by decide +kernel, by decide +kernel, keyed⟩

/-- Two REGISTERs with one id. -/
theorem containerId_registered_twice :
    ¬ ∀ {table : Table}, daemon.Reachable table → table.Keyed := by
  intro claimed
  let first := twoSlots.handle (registerRequest "ann" "caalsh-1-1" 1) 7
  let second := first.table.handle (registerRequest "bob" "caalsh-1-1" 2) 8
  have repeated : ¬ (second.table.entries.map Entry.containerId).Nodup := by decide +kernel
  have reachable : daemon.Reachable second.table :=
    (twoSlots_reachable.step (.served twoSlots (registerRequest "ann" "caalsh-1-1" 1) 7)).step
      (.served first.table (registerRequest "bob" "caalsh-1-1" 2) 8)
  exact repeated (claimed reachable).distinct

/-! ## Who gets signalled -/

/-- A REGISTER with room for it carries the pid of a process. -/
def Event.OfProcess (table : Table) : Event → Prop
  | .served request _ _ =>
      MsgType.ofByte request.type = some .sessionRegister → table.HasRoom → 0 < request.pid
  | .reloaded _ _ => True

namespace Table

variable {table next : Table}

/-- One step keeps the pids of the sessions those of processes. -/
theorem WF.pids_step (wf : table.WF) {event : Event} (step : DaemonStep table event next)
    (ofProcess : event.OfProcess table) (positive : ∀ entry ∈ table.entries, 0 < entry.pid) :
    ∀ entry ∈ next.entries, 0 < entry.pid := by
  cases step with
  | served request now =>
      intro entry member
      rcases wf.entries_handle request now with
        kept | ⟨type, room, before, after, split, joined⟩
      · exact positive entry (kept.subset member)
      · rcases wf.mem_entries_handle request now member with old | ⟨_, rfl⟩
        · exact positive entry old
        · exact ofProcess type room
  | reloaded file allocated =>
      rw [(wf.reloadConfig_spec file allocated).2.1]
      exact positive

/-- Who is signalled is a session of the table. -/
theorem WF.signalled_entry (wf : table.WF) {request : Request} {now : Int64} {pid : Int32}
    (signalled : pid ∈ signals (table.handle request now).effects) :
    ∃ entry ∈ table.entries, entry.pid = pid := by
  have effects := congrArg Reply.effects (wf.handle_eq_replyOn request now)
  rw [effects, replyOn] at signalled
  cases type : MsgType.ofByte request.type with
  | none =>
      rw [type] at signalled
      cases signalled
  | some message =>
      rw [type] at signalled
      cases message with
      | sessionRegister =>
          dsimp only at signalled
          split at signalled
          · cases signalled
          · cases signalled
      | sessionUnregister =>
          dsimp only at signalled
          split at signalled
          · cases signalled
          · cases signalled
      | sessionCount => cases signalled
      | sessionList => cases signalled
      | sessionKill =>
          dsimp only at signalled
          split at signalled
          · cases signalled
          · rename_i entry found
            have same : pid = entry.pid := by simpa [signals] using signalled
            exact ⟨entry, List.mem_of_find?_eq_some found, same.symm⟩
      | sessionKillUser =>
          rw [signals, List.mem_filterMap] at signalled
          rcases signalled with ⟨effect, called, killed⟩
          rcases List.mem_flatMap.mp called with ⟨entry, owned, call⟩
          refine ⟨entry, (List.mem_filter.mp owned).1, ?_⟩
          rcases List.mem_cons.mp call with rfl | logged
          · simpa using killed
          · cases List.mem_singleton.mp logged
            cases killed

end Table

/-- If every REGISTER with room for it carries the pid of a process, all that is ever
signalled in a run is processes. -/
theorem kill_targets_process {table : Table} {events : List Event}
    (run : (daemon.restrict Event.OfProcess).Run Table.initial events table)
    {request : Request} {now : Int64} {reply : Reply}
    (served : Event.served request now reply ∈ events) :
    ∀ pid ∈ signals reply.effects, 0 < pid := by
  rcases run.step_of_mem served with ⟨earlier, before, after, reached, step⟩
  have reachable : (daemon.restrict Event.OfProcess).Reachable before :=
    ⟨Table.initial, earlier, rfl, reached⟩
  have positive : ∀ entry ∈ before.entries, 0 < entry.pid := by
    apply reachable.invariant_within
    · intro start initial entry member
      cases initial
      cases member
    · intro state event next reached positive step
      exact (daemon_wf reached.of_restrict).pids_step step.2 step.1 positive
  intro pid signalled
  cases step.2 with
  | served =>
      rcases (daemon_wf reachable.of_restrict).signalled_entry signalled with
        ⟨entry, member, rfl⟩
      exact positive entry member

theorem kill_targets_process_registered :
    let taken := twoSlots.handle (registerRequest "ann" "caalsh-1-1" 42) 7
    ∀ pid ∈ signals (taken.table.handle { registerRequest "ann" "" 0 with type := 6 } 8).effects,
      0 < pid := by
  intro taken
  have reloaded : (Event.reloaded (.parsed (.int64 2)) true).OfProcess Table.initial := trivial
  have registered : (Event.served (registerRequest "ann" "caalsh-1-1" 42) 7
      taken.toReply).OfProcess twoSlots := by
    intro _ _
    decide
  have killing : (Event.served { registerRequest "ann" "" 0 with type := 6 } 8
      (taken.table.handle { registerRequest "ann" "" 0 with type := 6 } 8).toReply).OfProcess
      taken.table := by
    intro type
    cases type
  have run : (daemon.restrict Event.OfProcess).Run Table.initial _ _ :=
    .cons ⟨reloaded, .reloaded Table.initial (.parsed (.int64 2)) true⟩
      (.cons ⟨registered, .served twoSlots (registerRequest "ann" "caalsh-1-1" 42) 7⟩
        (.single ⟨killing, .served taken.table { registerRequest "ann" "" 0 with type := 6 } 8⟩))
  exact kill_targets_process run (List.mem_cons_of_mem _ (List.mem_cons_of_mem _
    List.mem_cons_self))

/-- A session registered with the pid -1, and all sessions of its user killed. -/
theorem kill_targets_everyone :
    ¬ ∀ {table : Table} {events : List Event}, daemon.Run Table.initial events table →
      ∀ {request : Request} {now : Int64} {reply : Reply},
        Event.served request now reply ∈ events → ∀ pid ∈ signals reply.effects, 0 < pid := by
  intro claimed
  let taken := twoSlots.handle (registerRequest "ann" "caalsh-1-1" (-1)) 7
  let killed := taken.table.handle { registerRequest "ann" "" 0 with type := 6 } 8
  have run : daemon.Run Table.initial _ killed.table :=
    .cons (.reloaded Table.initial (.parsed (.int64 2)) true)
      (.cons (.served twoSlots (registerRequest "ann" "caalsh-1-1" (-1)) 7)
        (.single (.served taken.table { registerRequest "ann" "" 0 with type := 6 } 8)))
  have everyone : (-1 : Int32) ∈ signals killed.effects := by decide +kernel
  have positive := claimed run (List.mem_cons_of_mem _ (List.mem_cons_of_mem _
    List.mem_cons_self)) (-1) everyone
  exact absurd positive (by decide)

end Caal

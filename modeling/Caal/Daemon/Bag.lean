import Caal.Daemon.Table
import Caal.Lib.LTS
import Mathlib.Data.Multiset.Filter

/-!
# The session table as a bag of sessions

What the table is for: it stores a bag of sessions. `bagMachine` is that purpose
in its own terms, with no slots, holes or high-water mark. `Table.WF` is the
table invariant; under it the replies are a function of the active sessions
alone (`Table.handle_eq_replyOn`), and the daemon refines the bag machine.
-/

namespace Caal

open CMemory

/-- A registered session. -/
structure Entry where
  username : Bytes
  containerId : Bytes
  pid : Int32
  startTime : Int64
  deriving DecidableEq

/-- The entry a slot stores. -/
def Session.entry (slot : Session) : Entry :=
  ⟨slot.username.text, slot.containerId.text, slot.pid, slot.startTime⟩

/-- The entry a LIST record describes. -/
def SessionInfo.entry (info : SessionInfo) : Entry :=
  ⟨info.username.text, info.containerId.text, info.pid, info.startTime⟩

/-- The LIST record for an entry. -/
def Entry.record (entry : Entry) : SessionInfo where
  username := SessionInfo.zero.username.snprintf entry.username
  containerId := SessionInfo.zero.containerId.snprintf entry.containerId
  pid := entry.pid
  startTime := entry.startTime

namespace Table

/-- The active slots below `session_count`, in slot order. -/
def active (table : Table) : List Session :=
  Slots.occupied Session.active table.sessions table.sessionCount

/-- Their entries. -/
def entries (table : Table) : List Entry :=
  table.active.map Session.entry

/-- The bag of entries the table stores. -/
def bag (table : Table) : Multiset Entry :=
  table.entries

/-- The table invariant. -/
structure WF (table : Table) : Prop where
  count_le : (table.sessionCount : Int) ≤ table.maxSessions
  allocated : table.maxSessions = table.sessions.length
  capacity_lt : table.maxSessions < 2 ^ 31
  unused : ∀ slot ∈ table.sessions.drop table.sessionCount, slot.active = false
  terminated : ∀ slot ∈ table.sessions,
    Terminated slot.username.bytes ∧ Terminated slot.containerId.bytes

theorem WF.initial : WF Table.initial where
  count_le := Int.le_refl 0
  allocated := rfl
  capacity_lt := by decide
  unused := by simp [Table.initial]
  terminated := by simp [Table.initial]

theorem WF.count_le_length {table : Table} (wf : table.WF) :
    table.sessionCount ≤ table.sessions.length := by
  have bound := wf.count_le
  rw [wf.allocated] at bound
  exact Int.ofNat_le.mp bound

theorem WF.length_entries_le {table : Table} (wf : table.WF) :
    (table.entries.length : Int) ≤ table.maxSessions := by
  have bound : table.active.length ≤ (table.sessions.take table.sessionCount).length :=
    List.length_filter_le _ _
  rw [List.length_take] at bound
  have capacity := wf.count_le
  rw [entries, List.length_map]
  omega

theorem WF.length_entries_lt {table : Table} (wf : table.WF) :
    table.entries.length < 2 ^ 31 := by
  have bound := wf.length_entries_le
  have capacity := wf.capacity_lt
  omega

/-- An active slot is below `session_count` and its strings are terminated. -/
theorem WF.terminated_active {table : Table} (wf : table.WF) {slot : Session}
    (member : slot ∈ table.active) :
    Terminated slot.username.bytes ∧ Terminated slot.containerId.bytes :=
  wf.terminated slot (List.mem_of_mem_take (List.mem_filter.mp member).1)

/-! ## The handlers, in terms of the entries -/

section Entries

variable (table : Table) (request : Request) (now : Int64)

/-- The entry a REGISTER request asks for. -/
def requested : Entry where
  username := (cstr (request.bytes.drop 1)).take 63
  containerId := (cstr (request.bytes.drop 65)).take 63
  pid := request.pid
  startTime := now

@[simp] theorem entry_fill (slot : Session) :
    (fill request now slot).entry = requested request now := by
  simp [fill, Session.entry, requested]

@[simp] theorem active_fill (slot : Session) : (fill request now slot).active = true := rfl

@[simp] theorem active_deactivate (slot : Session) : (deactivate slot).active = false := rfl

theorem info_eq_record (slot : Session) : info slot = slot.entry.record := by
  have texts : ∀ (buffer : Field) (target : Field),
      target.snprintf buffer.bytes = target.snprintf buffer.text := by
    intro buffer target
    apply Buf.ext
    simp only [Buf.snprintf, Buf.bytes, Buf.text,
      cstr_of_zero_free (zero_notMem_cstr buffer.val)]
  simp only [info, Entry.record, Session.entry, texts]

theorem activeCount_eq : table.activeCount = table.entries.length := by
  simp only [activeCount, entries, active, Slots.occupied, List.length_map,
    List.countP_eq_length_filter]

/-- `strcmp` finds the slots that carry a container id. -/
theorem matches_containerId (memory : Bytes) (slot : Session) :
    (strcmp slot.containerId.bytes memory == 0) =
      decide (slot.entry.containerId = cstr memory) := by
  rw [Bool.eq_iff_iff, beq_iff_eq, decide_eq_true_eq]
  exact strcmp_eq_zero slot.containerId.bytes memory

theorem ownedBy_eq (memory : Bytes) (slot : Session) :
    ownedBy memory slot = decide (slot.entry.username = cstr memory) := by
  rw [Bool.eq_iff_iff, ownedBy, beq_iff_eq, decide_eq_true_eq]
  exact strcmp_eq_zero slot.username.bytes memory

end Entries

/-- With a free slot among the used ones, there are fewer entries than used slots. -/
theorem firstInactive_some {table : Table} {index : Nat}
    (found : table.firstInactive = some index) :
    table.entries.length < table.sessionCount := by
  rcases Slots.firstWhere_some found with ⟨before, free, after, taken, _, inactive, _⟩
  have dropped : table.active.length < (table.sessions.take table.sessionCount).length := by
    rw [active, Slots.occupied, taken]
    apply List.length_filter_lt_length_iff_exists.mpr
    exact ⟨free, by simp, by simpa using inactive⟩
  rw [List.length_take] at dropped
  rw [entries, List.length_map]
  exact (Nat.lt_min.mp dropped).1

/-- A failed lookup: no entry carries the container id. -/
theorem findSession_none {table : Table} {memory : Bytes}
    (absent : table.findSession memory = none) :
    ∀ entry ∈ table.entries, entry.containerId ≠ cstr memory := by
  intro entry member
  rcases List.mem_map.mp member with ⟨slot, active, rfl⟩
  have rejected := Slots.occupied_none absent slot active
  rw [matches_containerId] at rejected
  simpa using rejected

/-- A lookup points to the first entry that carries the container id, and
deactivating its slot removes just this entry. -/
theorem findSession_some {table : Table} {memory : Bytes} {index : Nat}
    (found : table.findSession memory = some index) :
    ∃ before entry after, table.entries = before ++ entry :: after ∧
      entry.containerId = cstr memory ∧
      (∀ other ∈ before, other.containerId ≠ cstr memory) ∧
      (table.slotAt index).entry = entry ∧
      entries { table with sessions := table.sessions.modify index deactivate } =
        before ++ after := by
  rcases Slots.occupied_free active_deactivate found with
    ⟨before, slot, after, split, accepted, rejected, here, freed⟩
  rw [matches_containerId, decide_eq_true_eq] at accepted
  refine ⟨before.map Session.entry, slot.entry, after.map Session.entry, ?_, accepted, ?_, ?_, ?_⟩
  · rw [entries, active, split, List.map_append, List.map_cons]
  · intro other member
    rcases List.mem_map.mp member with ⟨slot', inside, rfl⟩
    have different := rejected slot' inside
    rw [matches_containerId] at different
    simpa using different
  · rw [slotAt, List.getD_eq_getElem?_getD, here, Option.getD_some]
  · rw [entries, active, freed, List.map_append]

/-- The loop of `handle_kill_user`: which slots stay, which calls are made, and
how many slots were deactivated. -/
theorem killUserLoop_eq (memory : Bytes) (slots : List Session) :
    killUserLoop memory slots =
      (slots.map fun slot =>
          if slot.active && ownedBy memory slot then deactivate slot else slot,
        ((slots.filter Session.active).filter (ownedBy memory)).flatMap fun slot =>
          [.kill slot.pid, .log "SESSION_KILLED" (cstr memory) slot.containerId.text],
        ((slots.filter Session.active).filter (ownedBy memory)).length) := by
  induction slots with
  | nil => rfl
  | cons slot slots ih =>
      rw [killUserLoop, ih]
      cases alive : slot.active with
      | false => simp [alive]
      | true =>
          cases owned : ownedBy memory slot with
          | false => simp [alive, owned]
          | true => simp [alive, owned]

/-- The reply to a request, as a function of the entries and the capacity. -/
def replyOn (entries : List Entry) (capacity : Int) (request : Request) (now : Int64) :
    Reply :=
  match MsgType.ofByte request.type with
  | some .sessionRegister =>
      if (entries.length : Int) < capacity then
        ⟨.accept, [], [.log "SESSION_START" (requested request now).username
          (requested request now).containerId]⟩
      else ⟨.refuse "max sessions reached", [], []⟩
  | some .sessionUnregister =>
      match entries.find? fun entry => entry.containerId = cstr (request.bytes.drop 65) with
      | none => ⟨.refuse "session not found", [], []⟩
      | some entry => ⟨.accept, [], [.log "SESSION_END" entry.username entry.containerId]⟩
  | some .sessionCount =>
      ⟨{ Response.accept with count := Int32.ofNat entries.length }, [], []⟩
  | some .sessionList =>
      ⟨{ Response.accept with count := Int32.ofNat entries.length },
        entries.map Entry.record, []⟩
  | some .sessionKill =>
      match entries.find? fun entry => entry.containerId = cstr (request.bytes.drop 65) with
      | none => ⟨.refuse "session not found", [], []⟩
      | some entry =>
          ⟨.accept, [], [.kill entry.pid,
            .log "SESSION_KILLED" entry.username entry.containerId]⟩
  | some .sessionKillUser =>
      let owned := entries.filter fun entry => entry.username = cstr (request.bytes.drop 1)
      ⟨if owned.length = 0 then .refuse "no sessions found"
        else { Response.accept with count := Int32.ofNat owned.length }, [],
        owned.flatMap fun entry =>
          [.kill entry.pid,
            .log "SESSION_KILLED" (cstr (request.bytes.drop 1)) entry.containerId]⟩
  | none => ⟨.refuse "unknown type", [], []⟩

private theorem find?_middle {entries before after : List Entry} {entry : Entry}
    {id : Bytes} (split : entries = before ++ entry :: after)
    (carries : entry.containerId = id) (earlier : ∀ other ∈ before, other.containerId ≠ id) :
    entries.find? (fun entry => entry.containerId = id) = some entry := by
  have absent : before.find? (fun entry => entry.containerId = id) = none := by
    rw [List.find?_eq_none]
    simpa using earlier
  rw [split, List.find?_append, absent, Option.none_or, List.find?_cons_of_pos (by simp [carries])]

private theorem find?_absent {entries : List Entry} {id : Bytes}
    (absent : ∀ entry ∈ entries, entry.containerId ≠ id) :
    entries.find? (fun entry => entry.containerId = id) = none := by
  rw [List.find?_eq_none]
  simpa using absent

/-- The effect of the lookup and deactivation that UNREGISTER and KILL share. -/
theorem deactivate_spec (table : Table) (memory : Bytes) :
    (∃ index before entry after, table.findSession memory = some index ∧
      table.entries = before ++ entry :: after ∧ entry.containerId = cstr memory ∧
      (table.slotAt index).entry = entry ∧
      table.entries.find? (fun entry => entry.containerId = cstr memory) = some entry ∧
      entries { table with sessions := table.sessions.modify index deactivate } =
        before ++ after) ∨
    (table.findSession memory = none ∧
      (∀ entry ∈ table.entries, entry.containerId ≠ cstr memory) ∧
      table.entries.find? (fun entry => entry.containerId = cstr memory) = none) := by
  cases search : table.findSession memory with
  | none =>
      right
      have absent := findSession_none search
      exact ⟨rfl, absent, find?_absent absent⟩
  | some index =>
      left
      rcases findSession_some search with
        ⟨before, entry, after, split, carries, earlier, stored, freed⟩
      exact ⟨index, before, entry, after, rfl, split, carries, stored,
        find?_middle split carries earlier, freed⟩

/-- `handle_kill` takes the first entry with the id, in slot order. -/
theorem handleKill_entries (table : Table) (request : Request) :
    (table.handleKill request).table.entries =
      table.entries.eraseP fun entry => entry.containerId = cstr (request.bytes.drop 65) := by
  rw [handleKill]
  cases search : table.findSession (request.bytes.drop 65) with
  | none =>
      refine (List.eraseP_of_forall_not ?_).symm
      intro entry member carries
      exact findSession_none search entry member (of_decide_eq_true carries)
  | some index =>
      rcases findSession_some search with
        ⟨before, entry, after, split, carries, earlier, stored, freed⟩
      rw [split, List.eraseP_append_right _ fun other member carried =>
        earlier other member (of_decide_eq_true carried),
        List.eraseP_cons_of_pos (by simp [carries])]
      exact freed

section Specs

variable {table : Table} (wf : table.WF) (request : Request) (now : Int64)

include wf

/-- `handle_register`: with room, the requested entry comes in somewhere. -/
theorem WF.handleRegister_spec :
    ((table.entries.length : Int) < table.maxSessions ∧
      (∃ before after, table.entries = before ++ after ∧
        (table.handleRegister request now).table.entries =
          before ++ requested request now :: after) ∧
      (table.handleRegister request now).toReply =
        ⟨.accept, [], [.log "SESSION_START" (requested request now).username
          (requested request now).containerId]⟩) ∨
    (table.maxSessions ≤ table.entries.length ∧
      (table.handleRegister request now).table = table ∧
      (table.handleRegister request now).toReply =
        ⟨.refuse "max sessions reached", [], []⟩) := by
  cases search : table.firstInactive with
  | some index =>
      left
      rcases Slots.occupied_fill (active_fill request now) search with
        ⟨before, slot, after, split, filled⟩
      have hole := firstInactive_some search
      refine ⟨Int.lt_of_lt_of_le (Int.ofNat_lt.mpr hole) wf.count_le, ?_, ?_⟩
      · refine ⟨before.map Session.entry, after.map Session.entry, ?_, ?_⟩
        · rw [entries, active, split, List.map_append]
        · simp only [handleRegister, search, entries, active]
          rw [filled, List.map_append, List.map_cons, entry_fill]
      · simp only [handleRegister, search]
        rfl
  | none =>
      have full : table.active = table.sessions.take table.sessionCount :=
        Slots.occupied_full search
      have lengthEq : table.entries.length = table.sessionCount := by
        rw [entries, List.length_map, full, List.length_take]
        exact Nat.min_eq_left wf.count_le_length
      rw [lengthEq]
      cases lt_or_ge (table.sessionCount : Int) table.maxSessions with
      | inl room =>
          left
          have inside : table.sessionCount < table.sessions.length := by
            rw [wf.allocated] at room
            exact Int.ofNat_lt.mp room
          rcases Slots.occupied_append (active_fill request now) inside with ⟨slot, appended⟩
          refine ⟨room, ?_, ?_⟩
          · refine ⟨table.entries, [], by simp, ?_⟩
            simp only [handleRegister, search, if_neg (Int.not_le.mpr room), entries, active]
            rw [appended, List.map_append, List.map_cons, entry_fill, List.map_nil]
          · simp only [handleRegister, search, if_neg (Int.not_le.mpr room)]
            rfl
      | inr room =>
          right
          refine ⟨room, ?_, ?_⟩
          · simp only [handleRegister, search, if_pos room]
          · simp only [handleRegister, search, if_pos room]

/-- A REGISTER is accepted exactly if there is room. -/
theorem WF.register_ok_iff :
    (table.handleRegister request now).response.ok = 1 ↔
      (table.entries.length : Int) < table.maxSessions := by
  rcases wf.handleRegister_spec request now with ⟨room, _, reply⟩ | ⟨full, _, reply⟩
  · have accepted : (table.handleRegister request now).response = .accept :=
      congrArg Reply.response reply
    rw [accepted]
    exact iff_of_true rfl room
  · have refused : (table.handleRegister request now).response =
        .refuse "max sessions reached" := congrArg Reply.response reply
    rw [refused]
    exact iff_of_false (by simp) (Int.not_lt.mpr full)


/-- `handle_kill_user`: the entries of the user go, all others stay. -/
theorem handleKillUser_entries :
    (table.handleKillUser request).table.entries =
      table.entries.filter fun entry =>
        !decide (entry.username = cstr (request.bytes.drop 1)) := by
  have used := wf.count_le_length
  have lengthEq : (table.sessions.take table.sessionCount).length = table.sessionCount := by
    rw [List.length_take]
    exact Nat.min_eq_left used
  simp only [handleKillUser, killUserLoop_eq, entries, active, Slots.occupied]
  rw [List.take_left' (by rw [List.length_map, lengthEq]),
    Slots.filter_sweep active_deactivate, List.filter_map]
  congr 1
  apply List.filter_congr
  intro slot _
  rw [Function.comp_apply, ownedBy_eq]

omit wf in
theorem handleKillUser_reply :
    (table.handleKillUser request).toReply =
      let owned := table.entries.filter fun entry =>
        entry.username = cstr (request.bytes.drop 1)
      ⟨if owned.length = 0 then .refuse "no sessions found"
        else { Response.accept with count := Int32.ofNat owned.length }, [],
        owned.flatMap fun entry =>
          [.kill entry.pid,
            .log "SESSION_KILLED" (cstr (request.bytes.drop 1)) entry.containerId]⟩ := by
  have owned : (table.entries.filter fun entry =>
      entry.username = cstr (request.bytes.drop 1)) =
      ((table.sessions.take table.sessionCount).filter Session.active |>.filter
        (ownedBy (request.bytes.drop 1))).map Session.entry := by
    rw [entries, active, Slots.occupied, List.filter_map]
    congr 1
    apply List.filter_congr
    intro slot _
    rw [Function.comp_apply, ownedBy_eq]
  simp only [handleKillUser, killUserLoop_eq, owned, List.length_map, List.flatMap_map]
  rfl

/-- Every reply is a function of the entries, the capacity and the request: what
an inactive slot still holds never shows. -/
theorem WF.handle_eq_replyOn :
    (table.handle request now).toReply =
      replyOn table.entries table.maxSessions request now := by
  rw [handle, replyOn]
  cases MsgType.ofByte request.type with
  | none => rfl
  | some type =>
      cases type with
      | sessionRegister =>
          rcases wf.handleRegister_spec request now with ⟨room, _, reply⟩ | ⟨full, _, reply⟩
          · simp only [if_pos room, reply]
          · simp only [if_neg (Int.not_lt.mpr full), reply]
      | sessionUnregister =>
          rcases deactivate_spec table (request.bytes.drop 65) with
            ⟨index, _, entry, _, search, _, _, stored, found, _⟩ | ⟨search, _, found⟩
          · simp only [handleUnregister, search, found]
            rw [← stored]
            rfl
          · simp only [handleUnregister, search, found]
      | sessionCount =>
          simp only [handleCount, activeCount_eq]
      | sessionList =>
          have records : ((table.sessions.take table.sessionCount).filter Session.active).map info =
              table.entries.map Entry.record := by
            rw [entries, active, Slots.occupied, List.map_map]
            apply List.map_congr_left
            intro slot _
            rw [Function.comp_apply, info_eq_record]
          simp only [handleList, activeCount_eq, records]
      | sessionKill =>
          rcases deactivate_spec table (request.bytes.drop 65) with
            ⟨index, _, entry, _, search, _, _, stored, found, _⟩ | ⟨search, _, found⟩
          · simp only [handleKill, search, found]
            rw [← stored]
            rfl
          · simp only [handleKill, search, found]
      | sessionKillUser =>
          exact handleKillUser_reply request

/-- What a request does to the entries: it removes some, or an accepted REGISTER adds the
one it asks for. -/
theorem WF.entries_handle :
    List.Sublist (table.handle request now).table.entries table.entries ∨
      MsgType.ofByte request.type = some .sessionRegister ∧
        (table.entries.length : Int) < table.maxSessions ∧
        ∃ before after, table.entries = before ++ after ∧
          (table.handle request now).table.entries = before ++ requested request now :: after := by
  rw [handle.eq_def]
  have freed : ∀ {before after : List Entry} {gone : Entry},
      table.entries = before ++ gone :: after →
        List.Sublist (before ++ after) table.entries := by
    intro before after gone split
    rw [split]
    exact List.Sublist.append_left (List.sublist_cons_self gone after) before
  cases type : MsgType.ofByte request.type with
  | none => exact .inl (List.Sublist.refl _)
  | some message =>
      cases message with
      | sessionRegister =>
          rcases wf.handleRegister_spec request now with ⟨room, joined, _⟩ | ⟨_, unchanged, _⟩
          · exact .inr ⟨rfl, room, joined⟩
          · left
            simp only [unchanged]
            exact List.Sublist.refl _
      | sessionUnregister =>
          left
          simp only [Table.handleUnregister]
          rcases deactivate_spec table (request.bytes.drop 65) with
            ⟨index, before, gone, after, search, split, _, _, _, left⟩ | ⟨search, _, _⟩
          · simp only [search, left]
            exact freed split
          · simp only [search]
            exact List.Sublist.refl _
      | sessionCount => exact .inl (List.Sublist.refl _)
      | sessionList => exact .inl (List.Sublist.refl _)
      | sessionKill =>
          left
          simp only [Table.handleKill]
          rcases deactivate_spec table (request.bytes.drop 65) with
            ⟨index, before, gone, after, search, split, _, _, _, left⟩ | ⟨search, _, _⟩
          · simp only [search, left]
            exact freed split
          · simp only [search]
            exact List.Sublist.refl _
      | sessionKillUser =>
          left
          simp only [handleKillUser_entries wf]
          exact List.filter_sublist

/-- The entries after a request were there before, or were asked for by a REGISTER. -/
theorem WF.mem_entries_handle {entry : Entry}
    (member : entry ∈ (table.handle request now).table.entries) :
    entry ∈ table.entries ∨
      MsgType.ofByte request.type = some .sessionRegister ∧ entry = requested request now := by
  rcases wf.entries_handle request now with kept | ⟨type, _, before, after, split, joined⟩
  · exact .inl (kept.subset member)
  · rw [joined] at member
    rw [split]
    rcases List.mem_append.mp member with earlier | later
    · exact .inl (List.mem_append_left _ earlier)
    · cases List.mem_cons.mp later with
      | inl same => exact .inr ⟨type, same⟩
      | inr after => exact .inl (List.mem_append_right _ after)

end Specs

/-! ## The invariant over requests and reloads -/

section Preservation

variable {table : Table} (wf : table.WF)

include wf

/-- Updating a used slot, where the slot behind the used ones may become used. -/
theorem WF.modify {index used : Nat} {update : Session → Session}
    (inside : index < used) (grown : table.sessionCount ≤ used)
    (room : (used : Int) ≤ table.maxSessions)
    (updated : ∀ slot : Session,
      Terminated slot.username.bytes ∧ Terminated slot.containerId.bytes →
      Terminated (update slot).username.bytes ∧ Terminated (update slot).containerId.bytes) :
    WF { table with sessions := table.sessions.modify index update, sessionCount := used } where
  count_le := room
  allocated := by
    rw [List.length_modify]
    exact wf.allocated
  capacity_lt := wf.capacity_lt
  unused := by
    intro slot member
    rw [List.drop_modify_of_lt update index used table.sessions inside] at member
    apply wf.unused slot
    rw [← Nat.add_sub_cancel' grown, ← List.drop_drop] at member
    exact List.mem_of_mem_drop member
  terminated := Slots.forall_mem_modify wf.terminated updated

theorem WF.fill {index used : Nat} (request : Request) (now : Int64)
    (inside : index < used) (grown : table.sessionCount ≤ used)
    (room : (used : Int) ≤ table.maxSessions) :
    WF { table with
      sessions := table.sessions.modify index (Table.fill request now)
      sessionCount := used } := by
  apply wf.modify inside grown room
  intro slot _
  exact ⟨Buf.terminated_snprintf _ _, Buf.terminated_snprintf _ _⟩

theorem WF.deactivate {memory : Bytes} {index : Nat}
    (found : table.findSession memory = some index) :
    WF { table with sessions := table.sessions.modify index Table.deactivate } := by
  have inside : index < table.sessionCount := (Slots.firstWhere_lt found).1
  exact wf.modify inside (Nat.le_refl _) wf.count_le fun _ terminated => terminated

theorem WF.handleRegister (request : Request) (now : Int64) :
    (table.handleRegister request now).table.WF := by
  cases search : table.firstInactive with
  | some index =>
      simp only [Table.handleRegister, search]
      have inside : index < table.sessionCount := (Slots.firstWhere_lt search).1
      exact wf.fill request now inside (Nat.le_refl _) wf.count_le
  | none =>
      simp only [Table.handleRegister, search]
      split
      case isTrue full => exact wf
      case isFalse room =>
          exact wf.fill request now (Nat.lt_succ_self _) (Nat.le_succ _)
            (Int.add_one_le_of_lt (Int.not_le.mp room))

theorem WF.handleKillUser (request : Request) :
    (table.handleKillUser request).table.WF := by
  simp only [Table.handleKillUser, killUserLoop_eq]
  have lengthEq : (table.sessions.take table.sessionCount).length = table.sessionCount := by
    rw [List.length_take]
    exact Nat.min_eq_left wf.count_le_length
  constructor
  case count_le => exact wf.count_le
  case allocated =>
    rw [List.length_append, List.length_map, ← List.length_append, List.take_append_drop]
    exact wf.allocated
  case capacity_lt => exact wf.capacity_lt
  case unused =>
    rw [List.drop_left' (by rw [List.length_map, lengthEq])]
    exact wf.unused
  case terminated =>
    intro slot member
    rcases List.mem_append.mp member with used | rest
    · rcases List.mem_map.mp used with ⟨old, inside, rfl⟩
      have terminated := wf.terminated old (List.mem_of_mem_take inside)
      split
      · exact terminated
      · exact terminated
    · exact wf.terminated slot (List.mem_of_mem_drop rest)

/-- Every request keeps the invariant. -/
theorem WF.handle (request : Request) (now : Int64) :
    (table.handle request now).table.WF := by
  rw [Table.handle]
  cases MsgType.ofByte request.type with
  | none => exact wf
  | some type =>
      cases type with
      | sessionRegister => exact wf.handleRegister request now
      | sessionUnregister =>
          cases search : table.findSession (request.bytes.drop 65) with
          | none => simpa only [handleUnregister, search] using wf
          | some index => simpa only [handleUnregister, search] using wf.deactivate search
      | sessionCount => exact wf
      | sessionList => exact wf
      | sessionKill =>
          cases search : table.findSession (request.bytes.drop 65) with
          | none => simpa only [handleKill, search] using wf
          | some index => simpa only [handleKill, search] using wf.deactivate search
      | sessionKillUser => exact wf.handleKillUser request

omit wf in
theorem newMax_lt (datum : TomlDatum) : newMax datum < 2 ^ 31 := by
  rw [newMax.eq_def]
  split
  · split
    · exact Int32.toInt_lt _
    · decide
  · decide

/-- A reload that grows the table. -/
theorem WF.grow {capacity : Int} (larger : table.maxSessions < capacity)
    (bounded : capacity < 2 ^ 31) :
    WF { table with
      sessions := table.sessions ++
        List.replicate (capacity - table.maxSessions).toNat Session.zero
      maxSessions := capacity } where
  count_le := Int.le_of_lt (Int.lt_of_le_of_lt wf.count_le larger)
  allocated := by
    rw [List.length_append, List.length_replicate, Int.natCast_add, ← wf.allocated,
      Int.toNat_of_nonneg (Int.sub_nonneg_of_le (Int.le_of_lt larger))]
    exact (add_sub_cancel _ _).symm
  capacity_lt := bounded
  unused := by
    intro slot member
    rw [List.drop_append_of_le_length wf.count_le_length] at member
    rcases List.mem_append.mp member with old | added
    · exact wf.unused slot old
    · rw [List.eq_of_mem_replicate added]
      rfl
  terminated := by
    intro slot member
    rcases List.mem_append.mp member with old | added
    · exact wf.terminated slot old
    · rw [List.eq_of_mem_replicate added]
      exact ⟨Buf.terminated_zero, Buf.terminated_zero⟩

/-- Every reload keeps the invariant and the entries, and never lowers the
capacity. -/
theorem WF.reloadConfig_spec (file : ConfigFile) (allocated : Bool) :
    (table.reloadConfig file allocated).WF ∧
      (table.reloadConfig file allocated).entries = table.entries ∧
      table.maxSessions ≤ (table.reloadConfig file allocated).maxSessions := by
  have unchanged : table.WF ∧ table.entries = table.entries ∧
      table.maxSessions ≤ table.maxSessions := ⟨wf, rfl, Int.le_refl _⟩
  cases file with
  | missing => exact unchanged
  | unparseable => exact unchanged
  | parsed datum =>
      rw [Table.reloadConfig]
      split
      · exact unchanged
      · split
        · exact unchanged
        · rename_i different atLeast
          split
          · have larger : table.maxSessions < newMax datum :=
              lt_of_le_of_ne (Int.not_lt.mp atLeast) (Ne.symm different)
            refine ⟨wf.grow larger (newMax_lt datum), ?_, Int.le_of_lt larger⟩
            simp only [entries, active, Slots.occupied,
              List.take_append_of_le_length wf.count_le_length]
          · exact unchanged

end Preservation

end Table

end Caal

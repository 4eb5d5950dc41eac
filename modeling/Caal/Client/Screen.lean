import Caal.Client.Control

/-!
# What an operator reads

`caalctl` over connections without failures. The lines of a listing are columns between blanks,
and where names are words they can be read back; and what a KILL_USER has ended is not listed
again before it is registered again.
-/

namespace Caal

open CMemory Transfer LTS

namespace Ctl

/-! ## Lines -/

/-- A name that is one word of a line. -/
structure OneWord (text : Bytes) : Prop where
  nonempty : text ≠ []
  blank : 32 ∉ text
  newline : 10 ∉ text

/-- A line of a listing: who, in which container, run by which process, and for how many
seconds. -/
structure Seen where
  username : Bytes
  containerId : Bytes
  pid : Int
  seconds : Nat
  deriving DecidableEq

/-- The seconds of `"(%02dh%02dm%02ds"`. -/
def readUptime (text : Bytes) : Nat :=
  let hours := cut 104 (text.drop 1)
  let minutes := cut 109 hours.2
  let seconds := cut 115 minutes.2
  ofDecimalDigits hours.1 * 3600 + ofDecimalDigits minutes.1 * 60 + ofDecimalDigits seconds.1

/-- The first three words, and the last but one. -/
def readRow (line : Bytes) : Option Seen :=
  match words line with
  | username :: containerId :: pid :: started =>
      match started.reverse with
      | _ :: up :: _ => some ⟨username, containerId, ofDecimal pid, readUptime up⟩
      | _ => none
  | _ => none

/-- The lines of a listing behind its heading. -/
def readListing (text : Bytes) : List (Option Seen) :=
  ((lines text).drop 2).map readRow

/-- A session at some time. -/
def seen (clock : Clock) (index : Nat) (entry : Entry) : Seen :=
  ⟨entry.username, entry.containerId, entry.pid.toInt,
    (clock.time index - entry.startTime).toInt.toNat⟩

/-! ## Uptime -/

/-- The hours, minutes and seconds of a session, up to the blank. -/
def elapsedWord (seconds : Nat) : Bytes :=
  40 :: (zeroFilled 2 (seconds / 3600 : Nat) ++ 104 :: (zeroFilled 2 (seconds % 3600 / 60 : Nat) ++
    109 :: (zeroFilled 2 (seconds % 60 : Nat) ++ [115])))

section Uptime

variable {elapsed : Int64} {seconds : Nat}

theorem toInt32_of_small {value : Int64} {small : Nat} (equal : value.toInt = small)
    (bound : small < 2 ^ 31) : value.toInt32.toInt = small := by
  rw [Int64.toInt_toInt32, equal, Int.bmod_eq_of_le] <;> omega

theorem hours_eq (whole : elapsed.toInt = seconds) (bound : seconds < 3600 * 2 ^ 31) :
    (elapsed / 3600).toInt32.toInt = (seconds / 3600 : Nat) := by
  apply toInt32_of_small
  · rw [Int64.toInt_div_of_ne_right _ _ (by decide), whole]
    change (seconds : Int).tdiv 3600 = _
    rw [Int.tdiv_eq_ediv_of_nonneg (Int.natCast_nonneg _)]
    rfl
  · omega

theorem rest_eq (whole : elapsed.toInt = seconds) :
    (elapsed % 3600).toInt = (seconds % 3600 : Nat) := by
  rw [Int64.toInt_mod, whole]
  change (seconds : Int).tmod 3600 = _
  rw [Int.tmod_eq_emod_of_nonneg (Int.natCast_nonneg _)]
  rfl

theorem minutes_eq (whole : elapsed.toInt = seconds) :
    (elapsed % 3600 / 60).toInt32.toInt = (seconds % 3600 / 60 : Nat) := by
  apply toInt32_of_small
  · rw [Int64.toInt_div_of_ne_right _ _ (by decide), rest_eq whole]
    change ((seconds % 3600 : Nat) : Int).tdiv 60 = _
    rw [Int.tdiv_eq_ediv_of_nonneg (Int.natCast_nonneg _)]
    rfl
  · omega

theorem seconds_eq (whole : elapsed.toInt = seconds) :
    (elapsed % 60).toInt32.toInt = (seconds % 60 : Nat) := by
  apply toInt32_of_small
  · rw [Int64.toInt_mod, whole]
    change (seconds : Int).tmod 60 = _
    rw [Int.tmod_eq_emod_of_nonneg (Int.natCast_nonneg _)]
    rfl
  · omega

/-- The array is large enough for what is printed into it. -/
theorem uptime_eq (whole : elapsed.toInt = seconds) (bound : seconds < 3600 * 2 ^ 31) :
    uptime elapsed = elapsedWord seconds ++ 32 :: ascii "up)" := by
  have joined : elapsedWord seconds ++ 32 :: ascii "up)" =
      40 :: (zeroFilled 2 (seconds / 3600 : Nat) ++ 104 ::
        (zeroFilled 2 (seconds % 3600 / 60 : Nat) ++ 109 ::
          (zeroFilled 2 (seconds % 60 : Nat) ++ ascii "s up)"))) := by
    have last : ascii "s up)" = [115] ++ 32 :: ascii "up)" := rfl
    simp only [elapsedWord, last, List.cons_append, List.append_assoc]
  have hours := @length_decimal_le (seconds / 3600 : Nat) 10 (by decide) (by omega)
  have minutes := @length_decimal_le (seconds % 3600 / 60 : Nat) 2 (by decide) (by omega)
  have rest := @length_decimal_le (seconds % 60 : Nat) 2 (by decide) (by omega)
  have suffix : (ascii "s up)").length = 5 := rfl
  rw [uptime, hours_eq whole bound, minutes_eq whole, seconds_eq whole, joined]
  apply List.take_of_length_le
  simp only [List.length_cons, List.length_append, length_zeroFilled, suffix]
  omega

theorem notMem_zeroFilled {byte : UInt8} (other : byte ≠ 45 ∧ byte.toNat < 48 ∨ 58 ≤ byte.toNat)
    (width : Nat) (value : Int) : byte ∉ zeroFilled width value := by
  intro member
  rcases mem_zeroFilled member with rfl | rfl | digit
  · revert other
    decide
  · revert other
    decide
  · have range := mem_digits digit
    omega

theorem readUptime_elapsedWord (seconds : Nat) : readUptime (elapsedWord seconds) = seconds := by
  have hours : ∀ value : Nat, 104 ∉ zeroFilled 2 (value : Int) := fun _ =>
    notMem_zeroFilled (.inr (by decide)) 2 _
  have minutes : ∀ value : Nat, 109 ∉ zeroFilled 2 (value : Int) := fun _ =>
    notMem_zeroFilled (.inr (by decide)) 2 _
  have letters : ∀ value : Nat, 115 ∉ zeroFilled 2 (value : Int) := fun _ =>
    notMem_zeroFilled (.inr (by decide)) 2 _
  simp only [readUptime, elapsedWord, List.drop_one, List.tail_cons, cut_append (hours _),
    cut_append (minutes _), cut_append (letters _), ofDecimalDigits_zeroFilled]
  omega

theorem notMem_elapsedWord {byte : UInt8} (other : byte = 32 ∨ byte = 10) (seconds : Nat) :
    byte ∉ elapsedWord seconds := by
  have free : ∀ value : Nat, byte ∉ zeroFilled 2 (value : Int) := by
    intro value
    apply notMem_zeroFilled
    rcases other with rfl | rfl <;> decide
  simp only [elapsedWord, List.mem_cons, List.mem_append, List.not_mem_nil, or_false, free,
    false_or]
  rcases other with rfl | rfl <;> decide

end Uptime

/-! ## Rows -/

/-- What is needed of a session to be read back: names that are words, and a start that is past
and not too long ago. -/
structure Legible (clock : Clock) (entry : Entry) : Prop where
  username : OneWord entry.username
  containerId : OneWord entry.containerId
  past : ∀ index, 0 ≤ (clock.time index - entry.startTime).toInt
  recent : ∀ index, (clock.time index - entry.startTime).toInt < 3600 * 2 ^ 31

section Rows

variable {clock : Clock} {entry : Entry} {index : Nat}

theorem Legible.uptime_eq (legible : Legible clock entry) (index : Nat) :
    uptime (clock.time index - entry.startTime) =
      elapsedWord (clock.time index - entry.startTime).toInt.toNat ++ 32 :: ascii "up)" := by
  have past := legible.past index
  have recent := legible.recent index
  exact Ctl.uptime_eq (by omega) (by omega)

theorem words_columns {username containerId pid : Bytes} (user : OneWord username)
    (id : OneWord containerId) (process : OneWord pid) (started : Bytes) :
    words (columns username containerId pid started) =
      username :: containerId :: pid :: words started := by
  rw [columns, words_leftAligned user.blank user.nonempty,
    words_leftAligned id.blank id.nonempty, words_leftAligned process.blank process.nonempty]

theorem newline_notMem_decimal (value : Int) : (10 : UInt8) ∉ decimal value := by
  intro member
  rcases mem_decimal member with minus | digit
  · cases minus
  · exact absurd digit (by decide)

theorem oneWord_decimal (value : Int) : OneWord (decimal value) :=
  ⟨decimal_ne_nil value, blank_notMem_decimal value, newline_notMem_decimal value⟩

/-- A line is read back as the session it was printed for. -/
theorem Legible.readRow_row (legible : Legible clock entry) (index : Nat) :
    readRow (row clock index entry) = some (seen clock index entry) := by
  have up : words (uptime (clock.time index - entry.startTime)) =
      [elapsedWord (clock.time index - entry.startTime).toInt.toNat, ascii "up)"] := by
    rw [legible.uptime_eq, words,
      pieces_cons (notMem_elapsedWord (.inl rfl) _) (List.cons_ne_nil _ _),
      pieces_of_notMem (by decide) (by decide)]
  have started : words (clock.stamp entry.startTime ++
        32 :: uptime (clock.time index - entry.startTime)) =
      words (clock.stamp entry.startTime) ++
        [elapsedWord (clock.time index - entry.startTime).toInt.toNat, ascii "up)"] := by
    rw [← up]
    exact pieces_append _ _
  rw [readRow, row, words_columns legible.username legible.containerId (oneWord_decimal _), started]
  simp only [List.reverse_append, List.reverse_cons, List.reverse_nil, List.nil_append,
    List.cons_append, ofDecimal_decimal, readUptime_elapsedWord]
  rfl

theorem Legible.newline_notMem_row (legible : Legible clock entry)
    (stamps : ∀ time, 10 ∉ clock.stamp time) (index : Nat) : 10 ∉ row clock index entry := by
  have up : 10 ∉ uptime (clock.time index - entry.startTime) := by
    rw [legible.uptime_eq, List.mem_append]
    rintro (word | last)
    · exact notMem_elapsedWord (.inr rfl) _ word
    · revert last
      decide
  have user := notMem_leftAligned legible.username.newline (by decide) 20
  have id := notMem_leftAligned legible.containerId.newline (by decide) 30
  have pid := notMem_leftAligned (newline_notMem_decimal entry.pid.toInt) (by decide) 8
  simp [row, columns, user, id, pid, stamps, up]

/-- A listing is read back as the sessions it was printed for. -/
theorem readListing_rows {entries : List Entry} (legible : ∀ entry ∈ entries, Legible clock entry)
    (stamps : ∀ time, 10 ∉ clock.stamp time) :
    readListing (heading ++ rows clock entries) =
      entries.mapIdx fun index entry => some (seen clock index entry) := by
  have first :
      10 ∉ columns (ascii "USERNAME") (ascii "CONTAINER ID") (ascii "PID") (ascii "STARTED") ∧
      10 ∉ columns (ascii "--------") (ascii "------------") (ascii "---") (ascii "-------") := by
    decide
  have printed : ∀ line ∈ entries.mapIdx (row clock), 10 ∉ line ∧ line ≠ [] := by
    intro line member
    rcases List.mem_mapIdx.mp member with ⟨index, inside, rfl⟩
    have each := legible _ (List.getElem_mem inside)
    refine ⟨each.newline_notMem_row stamps index, ?_⟩
    intro empty
    have read := each.readRow_row index
    rw [empty] at read
    cases read
  have split : lines (heading ++ rows clock entries) =
      columns (ascii "USERNAME") (ascii "CONTAINER ID") (ascii "PID") (ascii "STARTED") ::
        columns (ascii "--------") (ascii "------------") (ascii "---") (ascii "-------") ::
          entries.mapIdx (row clock) := by
    rw [lines, heading, List.append_assoc, List.append_assoc, List.append_assoc,
      List.singleton_append, pieces_cons first.1 (by decide), List.singleton_append,
      pieces_cons first.2 (by decide), rows, pieces_flatMap printed]
  rw [readListing, split, List.drop_succ_cons, List.drop_succ_cons, List.drop_zero]
  apply List.ext_getElem
  · rw [List.length_map, List.length_mapIdx, List.length_mapIdx]
  · intro index inside within
    rw [List.getElem_map, List.getElem_mapIdx, List.getElem_mapIdx]
    exact (legible _ (List.getElem_mem _)).readRow_row index

end Rows

/-! ## Connections without failures -/

theorem daemonBehind_flowing {link : Link} (flowing : link.Flowing) {caald : Int32} {table : Table}
    {order : Order}
    (harmless : ∀ request, order.request = some request → table.signalsSelf caald request = false)
    (now : Int64) :
    daemonBehind link caald table now order = .accepting (order.carriedOut table now) := by
  have sent : ∀ request : Request, order.request = some request →
      (handleClient caald table (link.connection (writeAll link.clientWrites request.bytes).sent)
        now).process = .accepting (table.handle request now).table := by
    intro request asked
    have whole : (writeAll link.clientWrites request.bytes).sent = request.bytes := by
      rw [writeAll_eq, (flowing.clientWrites.progress _).1]
      exact List.take_length
    rw [whole, flowing.handleClient (harmless request asked)]
  cases order with
  | misuse complaint =>
      have silent : (link.connection []).request = none := by
        rw [← Option.not_isSome_iff_eq_none, Connection.request_isSome]
        exact fun complete => Nat.not_succ_le_zero _ complete.1
      change (handleClient caald table (link.connection []) now).process = .accepting table
      rw [handleClient, silent]
  | _ => exact sent _ rfl

theorem perform_flowing {table : Table} (wf : table.WF) {link : Link} (flowing : link.Flowing)
    {caald : Int32} {order : Order}
    (harmless : ∀ request, order.request = some request → table.signalsSelf caald request = false)
    (now : Int64) (clock : Clock) :
    order.perform clock (link.peer caald table now) =
      .returned (order.shown clock table.entries) := by
  cases order with
  | list =>
      rcases flowing.sessionList wf 1024 now with ⟨records, listed, described⟩
      have entries : records.map printed = table.entries.take 1024 := printed_eq wf described
      rw [Order.perform, cmdList, listed, Completion.map, Order.shown]
      dsimp only
      rw [entries, if_neg (by omega)]
      cases sessions : table.entries with
      | nil => rfl
      | cons entry entries =>
          rw [if_neg (List.cons_ne_nil _ _), if_neg]
          rw [List.length_cons]
          omega
  | count =>
      rw [Order.perform, cmdCount, flowing.sessionCount wf now, Completion.map, Order.shown,
        if_neg (by omega)]
  | kill containerId =>
      rw [Order.perform, cmdKill, sessionKill, flowing.accepts (harmless _ rfl), ok_kill wf,
        Completion.map, Order.shown]
      split_ifs <;> simp_all
  | killuser username =>
      rw [Order.perform, cmdKilluser, sessionKillUser, flowing.accepts (harmless _ rfl),
        ok_killUser wf, Completion.map, Order.shown]
      split_ifs <;> simp_all
  | misuse complaint => rfl

theorem list_harmless {caald : Int32} {table : Table} (request : Request)
    (asked : Order.list.request = some request) : table.signalsSelf caald request = false := by
  cases asked
  rfl

theorem count_harmless {caald : Int32} {table : Table} (request : Request)
    (asked : Order.count.request = some request) : table.signalsSelf caald request = false := by
  cases asked
  rfl

/-- Without a session of the user that has such a pid, its `killuser` does not signal caald. -/
theorem killuser_harmless {caald : Int32} {table : Table} {username : Bytes}
    (spared : ∀ entry ∈ table.entries, entry.username = (cstr username).take 63 →
      targets caald entry.pid = false)
    (request : Request) (asked : (Order.killuser username).request = some request) :
    table.signalsSelf caald request = false := by
  cases asked
  rw [Table.signalsSelf_killUser, List.any_eq_false]
  intro entry member
  rw [Bool.and_eq_true, decide_eq_true_eq]
  rintro ⟨same, own⟩
  exact Bool.false_ne_true ((spared entry member same).symm.trans own)

/-- All names registered are words. -/
def Worded : Event → Prop
  | .served request now _ => MsgType.ofByte request.type = some .sessionRegister →
      OneWord (Table.requested request now).username ∧
        OneWord (Table.requested request now).containerId
  | .reloaded _ _ => True

theorem worded_of_reachable {table : Table}
    (reachable : (daemon.restrict fun _ event => Worded event).Reachable table) :
    table.WF ∧ ∀ entry ∈ table.entries, OneWord entry.username ∧ OneWord entry.containerId := by
  apply reachable.invariant
  · intro start initial
    cases initial
    refine ⟨Table.WF.initial, ?_⟩
    intro _ member
    cases member
  · intro state event next held step
    refine ⟨DaemonStep.wf step.2 held.1, ?_⟩
    cases step.2 with
    | served request now =>
        intro entry member
        rcases held.1.mem_entries_handle request now member with stored | ⟨type, rfl⟩
        · exact held.2 entry stored
        · exact step.1 type
    | reloaded file allocated =>
        rw [(held.1.reloadConfig_spec file allocated).2.1]
        exact held.2

/-- Where names are words, `list` prints what tells the sessions: of the first 1024 of them, in
the order of the table, who runs which container in which process, and for how long. -/
theorem list_read_back {table : Table}
    (reachable : (daemon.restrict fun _ event => Worded event).Reachable table) {link : Link}
    (flowing : link.Flowing) (caald : Int32) (now : Int64) (clock : Clock)
    (stamps : ∀ time, 10 ∉ clock.stamp time)
    (times : ∀ entry ∈ table.entries, ∀ index, 0 ≤ (clock.time index - entry.startTime).toInt ∧
      (clock.time index - entry.startTime).toInt < 3600 * 2 ^ 31)
    (prog command : Bytes) (args : List Bytes) (list : cstr command = ascii "list") :
    ∃ outcome,
      main clock (some (link.peer caald table now)) prog (command :: args) = .returned outcome ∧
      outcome.status = 0 ∧
      readListing outcome.stdout =
        (table.entries.take 1024).mapIdx fun index entry => some (seen clock index entry) := by
  rcases worded_of_reachable reachable with ⟨wf, worded⟩
  have ordered : order prog (command :: args) = .list := if_pos list
  have legible : ∀ entry ∈ table.entries.take 1024, Legible clock entry := by
    intro entry member
    have inside := List.mem_of_mem_take member
    exact ⟨(worded entry inside).1, (worded entry inside).2,
      fun index => (times entry inside index).1, fun index => (times entry inside index).2⟩
  refine ⟨Order.list.shown clock table.entries, ?_, ?_⟩
  · rw [main_eq_perform, ordered, perform_flowing wf flowing list_harmless]
  · rw [Order.shown]
    split
    case isTrue empty =>
      refine ⟨rfl, ?_⟩
      rw [empty]
      have bare : readListing (ascii "no active sessions\n") = [] := by decide
      exact bare
    case isFalse => exact ⟨rfl, readListing_rows legible stamps⟩

/-! ## KILL_USER in a run -/

/-- The client registers a session of the user. -/
def Registers (username : Bytes) : Pass → Prop
  | .client connection now => ∃ request, connection.request = some request ∧
      MsgType.ofByte request.type = some .sessionRegister ∧
      (Table.requested request now).username = username
  | .reload _ _ => False

theorem killUser_leaves_none {before after : BagState} {text : Bytes} {answer : Answer}
    (step : BagStep before (.served (.killUser text) answer) after) :
    ∀ entry ∈ after.entries, entry.username ≠ text := by
  cases step with
  | userKilled some =>
      intro entry member
      exact (Multiset.mem_filter.mp member).2
  | userKillRefused absent => exact absent

/-- The table of a daemon that goes on is well formed, and the user has no session there. -/
def Without (username : Bytes) : Process → Prop
  | .accepting table => table.WF ∧ ∀ entry ∈ table.entries, entry.username ≠ username
  | .terminated => True

theorem Without.step {caald : Int32} {username : Bytes} {process next : Process} {pass : Pass}
    (without : Without username process) (other : ¬ Registers username pass)
    (step : ServerStep caald process pass next) : Without username next := by
  cases next with
  | terminated => trivial
  | accepting after =>
      cases process with
      | terminated => cases step
      | accepting table =>
          rcases without with ⟨wf, absent⟩
          cases step.apply
          refine ⟨wf.apply pass, ?_⟩
          cases pass with
          | reload file allocated =>
              rw [Pass.apply, (wf.reloadConfig_spec file allocated).2.1]
              exact absent
          | client connection now =>
              rw [Pass.apply, Connection.result]
              cases received : connection.request with
              | none => exact absent
              | some request =>
                  intro entry member same
                  rcases wf.mem_entries_handle request now member with stored | ⟨type, rfl⟩
                  · exact absent entry stored same
                  · exact other ⟨request, received, type, same⟩

/-- A user without sessions has none until one is registered. -/
theorem without_of_run {caald : Int32} {username : Bytes} {start final : Process}
    {passes : List Pass} (without : Without username start)
    (run : (server caald).Run start passes final)
    (others : ∀ pass ∈ passes, ¬ Registers username pass) : Without username final :=
  run.preserves without fun held member step => held.step (others _ member) step

/-- After `killuser`, whatever clients do and however often the config is read, as long as the
daemon goes on and the user does not register: the user has no session, `list` and `count` are
about others, and `killuser` fails. No session of the user may have been registered with a pid of
caald's own. -/
theorem killuser_lasts {table : Table} (reachable : daemon.Reachable table) {link : Link}
    (flowing : link.Flowing) {caald : Int32} (now : Int64)
    (prog command username : Bytes) (args : List Bytes)
    (killuser : cstr command = ascii "killuser")
    (spared : ∀ entry ∈ table.entries, entry.username = (cstr username).take 63 →
      targets caald entry.pid = false) :
    ∃ after, daemonBehind link caald table now (order prog (command :: username :: args)) =
        .accepting after ∧
      ∀ passes final, (server caald).Run (.accepting after) passes (.accepting final) →
        (∀ pass ∈ passes, ¬ Registers ((cstr username).take 63) pass) →
        ∀ link : Link, link.Flowing → ∀ now clock,
          (∀ entry ∈ final.entries, entry.username ≠ (cstr username).take 63) ∧
          main clock (some (link.peer caald final now)) prog [ascii "list"] =
            .returned (Order.list.shown clock final.entries) ∧
          main clock (some (link.peer caald final now)) prog [ascii "count"] =
            .returned (.success (decimal final.entries.length ++ [10])) ∧
          main clock (some (link.peer caald final now)) prog (command :: username :: args) =
            .returned (Order.killuser username).failed := by
  have wf := daemon_wf reachable
  have ordered : ∀ rest, order prog (command :: username :: rest) = .killuser username := by
    intro rest
    rw [order, killuser, if_neg (by decide), if_neg (by decide), if_neg (by decide),
      if_pos rfl]
  have ended : ∀ entry ∈ (table.handle (.killUser username) now).table.entries,
      entry.username ≠ (cstr username).take 63 := by
    have step := Table.handle_refines wf (Request.terminated_killUser username) now
    rw [Request.command_killUser] at step
    exact killUser_leaves_none step
  refine ⟨(table.handle (.killUser username) now).table, ?_, ?_⟩
  · rw [ordered, daemonBehind_flowing flowing (killuser_harmless spared)]
    rfl
  · intro passes final run others link flowing later clock
    have left : Without ((cstr username).take 63)
        (.accepting (table.handle (.killUser username) now).table) :=
      ⟨wf.handle _ now, ended⟩
    rcases without_of_run left run others with ⟨wfLater, absent⟩
    have unowned : ∀ entry ∈ final.entries, entry.username = (cstr username).take 63 →
        targets caald entry.pid = false := fun entry member same =>
      (absent entry member same).elim
    refine ⟨absent, ?_, ?_, ?_⟩
    · rw [main_eq_perform]
      exact perform_flowing wfLater flowing list_harmless later clock
    · rw [main_eq_perform]
      exact perform_flowing wfLater flowing count_harmless later clock
    · rw [main_eq_perform, ordered, perform_flowing wfLater flowing (killuser_harmless unowned),
        Order.shown, if_neg]
      · rfl
      · rintro ⟨entry, member, same⟩
        exact absent entry member same

/-! ## Two sessions -/

/-- A clock at the hundredth second. -/
def later : Clock := ⟨fun _ => 100, fun _ => ascii "1970-01-01 00:00:07"⟩

theorem crowded_worded : (daemon.restrict fun _ event => Worded event).Reachable crowded := by
  have empty : (daemon.restrict fun _ event => Worded event).Reachable
      (Table.initial.reloadConfig (.parsed (.int64 2)) true) := by
    have reloaded := DaemonStep.reloaded Table.initial (.parsed (.int64 2)) true
    have nameless : Worded (.reloaded (.parsed (.int64 2)) true) := trivial
    exact (LTS.Reachable.of_init rfl).step ⟨nameless, reloaded⟩
  have ann : ∀ reply, Worded (.served (.register (ascii "ann") (ascii "a") 41) 7 reply) :=
    fun _ _ => ⟨⟨by decide, by decide, by decide⟩, ⟨by decide, by decide, by decide⟩⟩
  have bob : ∀ reply, Worded (.served (.register (ascii "bob") (ascii "b") 42) 8 reply) :=
    fun _ _ => ⟨⟨by decide, by decide, by decide⟩, ⟨by decide, by decide, by decide⟩⟩
  have one := empty.step ⟨ann _, .served _ _ _⟩
  exact one.step ⟨bob _, .served _ _ _⟩

theorem list_read_back_crowded :
    ∃ outcome,
      main later (some (choppy.peer 1 crowded 100)) (ascii "caalctl") [ascii "list"] =
        .returned outcome ∧ outcome.status = 0 ∧
      readListing outcome.stdout =
        [some ⟨ascii "ann", ascii "a", 41, 93⟩, some ⟨ascii "bob", ascii "b", 42, 92⟩] := by
  have newline : (10 : UInt8) ∉ ascii "1970-01-01 00:00:07" := by decide
  have past : (0 : Int) ≤ (100 - 7 : Int64).toInt ∧ (100 - 7 : Int64).toInt < 3600 * 2 ^ 31 ∧
      (0 : Int) ≤ (100 - 8 : Int64).toInt ∧ (100 - 8 : Int64).toInt < 3600 * 2 ^ 31 := by
    decide
  have read := list_read_back crowded_worded choppy_flowing 1 100 later (fun _ => newline) (by
      intro entry member _
      rw [crowded_entries] at member
      simp only [List.mem_cons, List.not_mem_nil, or_false] at member
      rcases member with rfl | rfl
      · exact ⟨past.1, past.2.1⟩
      · exact past.2.2)
    (ascii "caalctl") (ascii "list") [] rfl
  rw [crowded_entries] at read
  exact read

/-- Behind the `killuser` the config is read again, and ann's session ends. -/
theorem killuser_lasts_crowded :
    ∃ after, daemonBehind choppy 1 crowded 100 (.killuser (ascii "bob")) = .accepting after ∧
      let reloaded := after.reloadConfig (.parsed (.int64 3)) true
      let final := (reloaded.handle (.unregister (ascii "a")) 101).table
      (∀ entry ∈ final.entries, entry.username ≠ ascii "bob") ∧
        main later (some (choppy.peer 1 final 103)) (ascii "caalctl") [ascii "count"] =
          .returned (.success (decimal final.entries.length ++ [10])) := by
  have others : ∀ entry ∈ crowded.entries, entry.username = (cstr (ascii "bob")).take 63 →
      targets 1 entry.pid = false := by
    rw [crowded_entries]
    decide
  rcases killuser_lasts crowded_reachable choppy_flowing 100 (ascii "caalctl") (ascii "killuser")
    (ascii "bob") [] rfl others with ⟨after, left, lasts⟩
  have reload := @ServerStep.reload 1 after (.parsed (.int64 3)) true
  have leaves := @ServerStep.client 1 (after.reloadConfig (.parsed (.int64 3)) true)
    (.sending (.unregister (ascii "a"))) 101
  rw [@handleClient_sending 1 _ (.unregister (ascii "a")) rfl 101] at leaves
  have kept := lasts _ _ (.cons reload (.single leaves)) (by
    intro pass member
    rcases List.mem_pair.mp member with rfl | rfl
    · exact id
    · rintro ⟨request, received, registers, _⟩
      cases (Connection.sending_request (.unregister (ascii "a"))).symm.trans received
      cases registers) choppy choppy_flowing 103 later
  exact ⟨after, left, kept.1, kept.2.2.1⟩

end Ctl

end Caal

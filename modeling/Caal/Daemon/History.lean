import Caal.Daemon.Sighup
import Caal.Lib.Journal

/-!
# What the daemon has been through

The table only has what is there now. What was there before is in the records that
`log_event` makes, and in `session_count`, which never goes down.
-/

namespace Caal

open CMemory Journal Transfer

/-! ## Records -/

/-- Whose session it is, as a record names it. -/
abbrev Holder := Bytes × Bytes

def Entry.holder (entry : Entry) : Holder :=
  (entry.username, entry.containerId)

/-- What a record says, to a reader that knows the three events. -/
def changeOf (event : String) (holder : Holder) : Option (Change Holder) :=
  if event = "SESSION_START" then some (.came holder)
  else if event = "SESSION_END" ∨ event = "SESSION_KILLED" then some (.left holder)
  else none

def Effect.change : Effect → Option (Change Holder)
  | .kill _ => none
  | .log event username containerId => changeOf event (username, containerId)

/-- The records among the calls, in order. -/
def changes (effects : List Effect) : List (Change Holder) :=
  effects.filterMap Effect.change

theorem changes_append (first second : List Effect) :
    changes (first ++ second) = changes first ++ changes second :=
  List.filterMap_append

/-- Each signal is recorded right behind it, where `kill` has returned. -/
def announced : List Effect → Bool
  | [] => true
  | [.kill _] => false
  | .kill _ :: .kill _ :: _ => false
  | .kill _ :: .log event _ _ :: effects => event == "SESSION_KILLED" && announced effects
  | .log _ _ _ :: effects => announced effects

theorem announced_append {first second : List Effect} (announcedFirst : announced first = true) :
    announced (first ++ second) = announced second := by
  fun_induction announced first with
  | case1 => rfl
  | case2 pid => cases announcedFirst
  | case3 pid pid' effects => cases announcedFirst
  | case4 pid event username containerId effects ih =>
      rw [Bool.and_eq_true] at announcedFirst
      change (event == "SESSION_KILLED" && announced (effects ++ second)) = _
      rw [announcedFirst.1, Bool.true_and, ih announcedFirst.2]
  | case5 event username containerId effects ih => exact ih announcedFirst

/-- The holders of the active sessions. -/
def Table.holders (table : Table) : Multiset Holder :=
  table.bag.map Entry.holder

theorem Table.holders_eq (table : Table) : table.holders = ↑(table.entries.map Entry.holder) := rfl

/-! ## One request -/

theorem replay_removed {table next : Table} {before after : List Entry} {entry : Entry}
    (split : table.entries = before ++ entry :: after) (left : next.entries = before ++ after) :
    replay table.holders [.left entry.holder] = some next.holders := by
  have middle : table.holders = entry.holder ::ₘ next.holders := by
    rw [Table.holders_eq, Table.holders_eq, split, left, List.map_append, List.map_append,
      List.map_cons]
    exact Multiset.coe_eq_coe.mpr List.perm_middle
  rw [middle]
  exact replay_left

theorem changes_killed {owned : List Entry} {username : Bytes}
    (mine : ∀ entry ∈ owned, entry.username = username) :
    (changes (owned.flatMap fun entry =>
        [.kill entry.pid, .log "SESSION_KILLED" username entry.containerId])) =
        (owned.map Entry.holder).map .left ∧
      announced (owned.flatMap fun entry =>
        [.kill entry.pid, .log "SESSION_KILLED" username entry.containerId]) = true := by
  induction owned with
  | nil => exact ⟨rfl, rfl⟩
  | cons entry owned ih =>
      have later := ih fun other member => mine other (List.mem_cons_of_mem _ member)
      have here : entry.holder = (username, entry.containerId) := by
        rw [Entry.holder, mine entry List.mem_cons_self]
      rw [List.flatMap_cons, List.map_cons, List.map_cons, here]
      refine ⟨?_, later.2⟩
      rw [changes_append, later.1]
      rfl

/-- The records of a request say what it does to the holders, and announce its signals. -/
theorem Table.WF.replay_handle {table : Table} (wf : table.WF) (request : Request) (now : Int64) :
    replay table.holders (changes (table.handle request now).effects) =
        some (table.handle request now).table.holders ∧
      announced (table.handle request now).effects = true := by
  have idle : replay table.holders (changes []) = some table.holders ∧ announced [] = true :=
    ⟨rfl, rfl⟩
  rw [Table.handle]
  cases MsgType.ofByte request.type with
  | none => exact idle
  | some type =>
      cases type with
      | sessionRegister =>
          rcases wf.handleRegister_spec request now with
            ⟨_, ⟨before, after, split, joined⟩, reply⟩ | ⟨_, unchanged, reply⟩
          · have effects : (table.handleRegister request now).effects = _ :=
              congrArg Reply.effects reply
            have added : (table.handleRegister request now).table.holders =
                (Table.requested request now).holder ::ₘ table.holders := by
              rw [Table.holders_eq, Table.holders_eq, split, joined, List.map_append,
                List.map_append, List.map_cons]
              exact Multiset.coe_eq_coe.mpr List.perm_middle
            dsimp only
            rw [effects, added]
            exact ⟨replay_came, rfl⟩
          · have effects : (table.handleRegister request now).effects = _ :=
              congrArg Reply.effects reply
            dsimp only
            rw [effects, unchanged]
            exact idle
      | sessionUnregister =>
          dsimp only
          rw [Table.handleUnregister]
          rcases Table.deactivate_spec table (request.bytes.drop 65) with
            ⟨index, before, entry, after, search, split, _, stored, _, left⟩ | ⟨search, _, _⟩
          · rw [search]
            have removed := @replay_removed table { table with
              sessions := table.sessions.modify index Table.deactivate } _ _ _ split left
            rw [← stored] at removed
            exact ⟨removed, rfl⟩
          · rw [search]
            exact idle
      | sessionCount => exact idle
      | sessionList => exact idle
      | sessionKill =>
          dsimp only
          rw [Table.handleKill]
          rcases Table.deactivate_spec table (request.bytes.drop 65) with
            ⟨index, before, entry, after, search, split, _, stored, _, left⟩ | ⟨search, _, _⟩
          · rw [search]
            have removed := @replay_removed table { table with
              sessions := table.sessions.modify index Table.deactivate } _ _ _ split left
            rw [← stored] at removed
            exact ⟨removed, rfl⟩
          · rw [search]
            exact idle
      | sessionKillUser =>
          have effects : (table.handleKillUser request).effects = _ :=
            congrArg Reply.effects (Table.handleKillUser_reply request)
          have kept := Table.handleKillUser_entries wf request
          have mine : ∀ entry ∈ table.entries.filter (fun entry =>
              entry.username = cstr (request.bytes.drop 1)),
              entry.username = cstr (request.bytes.drop 1) := fun entry member =>
            of_decide_eq_true (List.mem_filter.mp member).2
          have parted : table.holders = ↑((table.entries.filter fun entry =>
              entry.username = cstr (request.bytes.drop 1)).map Entry.holder) +
              (table.handleKillUser request).table.holders := by
            rw [Table.holders_eq, Table.holders_eq, kept, Multiset.coe_add, ← List.map_append]
            exact (Multiset.coe_eq_coe.mpr
              ((List.filter_append_perm _ table.entries).map Entry.holder)).symm
          dsimp only
          rw [effects, parted, (changes_killed mine).1]
          exact ⟨replay_lefts _ _, (changes_killed mine).2⟩

/-! ## The journal of a run -/

/-- The calls that the handlers make in a pass of the accept loop. -/
def Pass.effects (caald : Int32) : Process → Pass → List Effect
  | .accepting table, .client connection now =>
      (handleClient caald table connection now).effects
  | _, _ => []

/-- The daemon with the calls its handlers have made. -/
def journal (caald : Int32) : LTS (Process × List Effect) Pass :=
  (server caald).recording [] fun process pass effects => effects ++ pass.effects caald process

/-- The last call was a signal that caald itself has not survived, and all signals before it
were announced. -/
def EndsItself (caald : Int32) (effects : List Effect) : Prop :=
  ∃ front pid, effects = front ++ [.kill pid] ∧ announced front = true ∧ targets caald pid = true

/-- What a handler has done when it signals caald: it has announced the signals before, and its
records are the first of those it would have made. -/
theorem endsItself_of_fatal {caald : Int32} {effects : List Effect}
    (announcedAll : announced effects = true) (fatal : effects.any (·.fatal caald) = true) :
    EndsItself caald (callsMade caald effects) ∧
      ∃ later, changes effects = changes (callsMade caald effects) ++ later := by
  fun_induction announced effects with
  | case1 => cases fatal
  | case2 pid => cases announcedAll
  | case3 pid pid' effects => cases announcedAll
  | case4 pid event username containerId effects ih =>
      rw [Bool.and_eq_true] at announcedAll
      cases here : targets caald pid with
      | true =>
          have made : callsMade caald (.kill pid :: .log event username containerId :: effects) =
              [.kill pid] := if_pos here
          rw [made]
          exact ⟨⟨[], pid, rfl, rfl, here⟩, _, rfl⟩
      | false =>
          have fatal : effects.any (·.fatal caald) = true := by
            rwa [List.any_cons, List.any_cons, Effect.fatal, here, Effect.fatal, Bool.false_or,
              Bool.false_or] at fatal
          rcases ih announcedAll.2 fatal with ⟨⟨front, last, split, before, own⟩, later, records⟩
          have made : callsMade caald (.kill pid :: .log event username containerId :: effects) =
              .kill pid :: .log event username containerId :: callsMade caald effects := by
            rw [@callsMade_returns _ (.kill pid) _ here, callsMade_returns rfl]
          rw [made]
          refine ⟨⟨.kill pid :: .log event username containerId :: front, last,
            by rw [split]; rfl, ?_, own⟩, later, ?_⟩
          · exact Bool.and_eq_true _ _ ▸ ⟨announcedAll.1, before⟩
          · change changes ([.kill pid, .log event username containerId] ++ effects) =
              changes ([.kill pid, .log event username containerId] ++ callsMade caald effects) ++
                later
            rw [changes_append, changes_append, records, List.append_assoc]
  | case5 event username containerId effects ih =>
      have fatal : effects.any (·.fatal caald) = true := by
        rwa [List.any_cons, Effect.fatal, Bool.false_or] at fatal
      rcases ih announcedAll fatal with ⟨⟨front, last, split, before, own⟩, later, records⟩
      have made : callsMade caald (.log event username containerId :: effects) =
          .log event username containerId :: callsMade caald effects :=
        callsMade_returns rfl
      rw [made]
      refine ⟨⟨.log event username containerId :: front, last, by rw [split]; rfl, before, own⟩,
        later, ?_⟩
      change changes ([.log event username containerId] ++ effects) =
        changes ([.log event username containerId] ++ callsMade caald effects) ++ later
      rw [changes_append, changes_append, records, List.append_assoc]

/-- The journal can be read again, and gives the holders of the active sessions. -/
structure Journaled (caald : Int32) (both : Process × List Effect) : Prop where
  announced : announced both.2 = true ∨ both.1 = .terminated ∧ EndsItself caald both.2
  replays : ∃ left, replay 0 (changes both.2) = some left ∧
    ∀ table, both.1 = .accepting table → table.WF ∧ left = table.holders

theorem Journaled.announced_of_accepting {caald : Int32} {table : Table} {effects : List Effect}
    (journaled : Journaled caald (.accepting table, effects)) : Caal.announced effects = true := by
  rcases journaled.announced with announced | ⟨ended, _⟩
  · exact announced
  · cases ended

/-- A pass whose calls all return. -/
theorem Journaled.extend {caald : Int32} {table : Table} {effects more : List Effect}
    {next : Process} (journaled : Journaled caald (.accepting table, effects))
    (announcedMore : Caal.announced more = true) {left : Multiset Holder}
    (replayed : replay table.holders (changes more) = some left)
    (known : ∀ table, next = .accepting table → table.WF ∧ left = table.holders) :
    Journaled caald (next, effects ++ more) := by
  rcases journaled.replays with ⟨before, replays, accepting⟩
  rcases accepting table rfl with ⟨_, rfl⟩
  have announced := (announced_append journaled.announced_of_accepting).trans announcedMore
  refine ⟨.inl announced, left, ?_, known⟩
  rw [changes_append, replay_append_some replays, replayed]

/-- A pass that ends in a signal to caald. -/
theorem Journaled.die {caald : Int32} {table : Table} {effects more : List Effect}
    (journaled : Journaled caald (.accepting table, effects))
    (announcedMore : Caal.announced more = true) (fatal : more.any (·.fatal caald) = true)
    {left : Multiset Holder} (replayed : replay table.holders (changes more) = some left) :
    Journaled caald (.terminated, effects ++ callsMade caald more) := by
  rcases journaled.replays with ⟨before, replays, accepting⟩
  rcases accepting table rfl with ⟨_, rfl⟩
  rcases endsItself_of_fatal announcedMore fatal with
    ⟨⟨front, pid, split, announcedFront, own⟩, later, records⟩
  rw [records, replay_append] at replayed
  rcases Option.bind_eq_some_iff.mp replayed with ⟨middle, made, _⟩
  refine ⟨.inr ⟨rfl, effects ++ front, pid, ?_, ?_, own⟩, middle, ?_, nofun⟩
  · rw [split, List.append_assoc]
  · exact (announced_append journaled.announced_of_accepting).trans announcedFront
  · rw [changes_append, replay_append_some replays, made]

/-- A pass writes the journal on. -/
theorem Journaled.step {caald : Int32} {process next : Process} {effects : List Effect}
    {pass : Pass} (journaled : Journaled caald (process, effects))
    (step : ServerStep caald process pass next) :
    Journaled caald (next, effects ++ pass.effects caald process) := by
  cases step with
  | reload table file allocated =>
      rcases journaled.replays with ⟨_, _, accepting⟩
      rcases accepting table rfl with ⟨wf, _⟩
      rcases wf.reloadConfig_spec file allocated with ⟨grown, same, _⟩
      apply journaled.extend rfl rfl
      rintro _ ⟨⟩
      refine ⟨grown, ?_⟩
      rw [Table.holders_eq, Table.holders_eq, same]
  | client table connection now =>
      rcases journaled.replays with ⟨_, _, accepting⟩
      rcases accepting table rfl with ⟨wf, _⟩
      change Journaled caald (_, effects ++ (handleClient caald table connection now).effects)
      cases received : connection.request with
      | none =>
          rw [handleClient, received]
          apply journaled.extend rfl rfl
          rintro _ ⟨⟩
          exact ⟨wf, rfl⟩
      | some request =>
          rcases wf.replay_handle request now with ⟨replays, announcedMore⟩
          by_cases deadly : connection.Deadly caald table
          · rw [handleClient_deadly received deadly]
            have fatal := (table.handle_fatal caald request now).trans
              ((connection.deadly_iff received table).mp deadly)
            exact journaled.die announcedMore fatal replays
          · rw [handleClient_harmless received deadly]
            apply journaled.extend announcedMore replays
            intro after accepts
            dsimp only at accepts
            split at accepts
            · cases accepts
            · cases accepts
              exact ⟨wf.handle request now, rfl⟩

theorem journal_journaled {caald : Int32} {both : Process × List Effect}
    (reachable : (journal caald).Reachable both) : Journaled caald both := by
  apply reachable.invariant
  · rintro ⟨process, effects⟩ ⟨⟨file, allocated, _, started⟩, empty⟩
    dsimp only at started empty
    subst empty
    rcases Table.WF.initial.reloadConfig_spec file allocated with ⟨wf, same, _⟩
    refine ⟨.inl rfl, 0, rfl, ?_⟩
    rintro table accepts
    cases started.symm.trans accepts
    refine ⟨wf, ?_⟩
    rw [Table.holders_eq, same]
    rfl
  · rintro ⟨process, effects⟩ pass ⟨next, after⟩ journaled ⟨step, written⟩
    dsimp only at written
    rw [written]
    exact journaled.step step

/-- Whatever clients send, and however they break off, the records can be read again: no
session ends that was not started, each signal is announced unless it takes in caald itself,
which is then at its end, and at `accept` the sessions that started and did not end are the
active ones. -/
theorem journal_replays {caald : Int32} {process : Process} {effects : List Effect}
    (reachable : (journal caald).Reachable (process, effects)) :
    (announced effects = true ∨ process = .terminated ∧ EndsItself caald effects) ∧
      ∃ left, replay 0 (changes effects) = some left ∧
        (∀ table, process = .accepting table → left = table.holders) ∧
        ∀ holder, left.count holder + (changes effects).count (.left holder) =
          (changes effects).count (.came holder) := by
  have journaled := journal_journaled reachable
  rcases journaled.replays with ⟨left, replays, accepting⟩
  refine ⟨journaled.announced, left, replays, fun table accepts => (accepting table accepts).2, ?_⟩
  intro holder
  have balanced := count_of_replay replays holder
  rw [Multiset.count_zero, Nat.zero_add] at balanced
  exact balanced

/-- A request that signals only other processes, from a client that takes in the answer. -/
theorem journal_sending {caald : Int32} {table : Table} {effects : List Effect}
    {request : Request} {now : Int64} (harmless : table.signalsSelf caald request = false) :
    (journal caald).step (.accepting table, effects) (.client (.sending request) now)
      (.accepting (table.handle request now).table,
        effects ++ (table.handle request now).effects) := by
  have served := handleClient_sending harmless now
  have step := @ServerStep.client caald table (.sending request) now
  rw [served] at step
  refine ⟨step, ?_⟩
  change _ = effects ++ (handleClient caald table (.sending request) now).effects
  rw [served]

/-- The REGISTER of a session and a KILL of it. -/
def aliceRegister : Request := .register (ascii "alice") (ascii "caal-1") 4242

def aliceKill : Request := .kill (ascii "caal-1")

/-- The daemon behind both, and its calls. -/
def aliceJournal : Process × List Effect :=
  (.accepting ((oneSlot.handle aliceRegister 0).table.handle aliceKill 9).table,
    [.log "SESSION_START" (ascii "alice") (ascii "caal-1"), .kill 4242,
      .log "SESSION_KILLED" (ascii "alice") (ascii "caal-1")])

/-- Such a run keeps within what its two passes do. -/
theorem aliceJournal_run {guard : Pass → Prop}
    (guarded : ∀ pass ∈ [.client (.sending aliceRegister) 0, .client (.sending aliceKill) 9],
      guard pass) :
    ((journal 1).restrict fun _ pass => guard pass).Run (.accepting oneSlot, [])
      [.client (.sending aliceRegister) 0, .client (.sending aliceKill) 9] aliceJournal := by
  have registered := @journal_sending 1 oneSlot [] aliceRegister 0 (by decide)
  have killed := @journal_sending 1 (oneSlot.handle aliceRegister 0).table
    ([] ++ (oneSlot.handle aliceRegister 0).effects) aliceKill 9 (by decide)
  have calls : [] ++ (oneSlot.handle aliceRegister 0).effects ++
      ((oneSlot.handle aliceRegister 0).table.handle aliceKill 9).effects = aliceJournal.2 := by
    decide
  rw [calls] at killed
  exact .cons ⟨guarded _ (by simp), registered⟩ (.single ⟨guarded _ (by simp), killed⟩)

theorem journal_replays_alice :
    (announced aliceJournal.2 = true ∨
        aliceJournal.1 = .terminated ∧ EndsItself 1 aliceJournal.2) ∧
      ∃ left, replay 0 (changes aliceJournal.2) = some left ∧
        (∀ table, aliceJournal.1 = .accepting table → left = table.holders) ∧
        ∀ holder, left.count holder + (changes aliceJournal.2).count (.left holder) =
          (changes aliceJournal.2).count (.came holder) :=
  journal_replays ⟨_, _, ⟨oneSlot_init 1, rfl⟩,
    (@aliceJournal_run (fun _ => True) fun _ _ => trivial).of_restrict⟩

/-! ## The messages of the journal -/

/-- `"[CaaLd] %s user=%s container=%s"`. -/
def logMessage (event : String) (username containerId : Bytes) : Bytes :=
  ascii "[CaaLd] " ++ (ascii event ++ (ascii " user=" ++ (username ++
    (ascii " container=" ++ containerId))))

def Effect.message : Effect → Option Bytes
  | .kill _ => none
  | .log event username containerId => some (logMessage event username containerId)

/-- What `log_event` passes to `syslog`, call by call. -/
def logMessages (effects : List Effect) : List Bytes :=
  effects.filterMap Effect.message

/-- What is behind a front that a message must have. -/
def behind (front message : Bytes) : Option Bytes :=
  if front.isPrefixOf message then some (message.drop front.length) else none

/-- The username goes up to a blank. -/
def readHolder (text : Bytes) : Option Holder :=
  (behind (ascii " container=") (text.dropWhile (· != 32))).map fun containerId =>
    (text.takeWhile (· != 32), containerId)

def readEvent (event : String) (message : Bytes) : Option (Change Holder) :=
  (behind (ascii "[CaaLd] " ++ (ascii event ++ ascii " user=")) message).bind fun text =>
    (readHolder text).bind (changeOf event)

/-- A message, read by someone who knows the events. -/
def readMessage (message : Bytes) : Option (Change Holder) :=
  ["SESSION_START", "SESSION_END", "SESSION_KILLED"].findSome? fun event => readEvent event message

theorem behind_append (front text : Bytes) : behind front (front ++ text) = some text := by
  rw [behind, if_pos (List.isPrefixOf_iff_prefix.mpr (List.prefix_append front text)),
    List.drop_left]

theorem readHolder_names {username : Bytes} (blankless : 32 ∉ username) (containerId : Bytes) :
    readHolder (username ++ (ascii " container=" ++ containerId)) =
      some (username, containerId) := by
  have inside : ∀ byte ∈ username, (byte != 32) = true := by
    rintro byte member
    rw [bne_iff_ne]
    rintro rfl
    exact blankless member
  have blank : ascii " container=" ++ containerId = 32 :: (ascii "container=" ++ containerId) := rfl
  have stops : (32 :: (ascii "container=" ++ containerId)).takeWhile (· != 32) = [] := rfl
  have remains : (32 :: (ascii "container=" ++ containerId)).dropWhile (· != 32) =
      ascii " container=" ++ containerId := rfl
  rw [readHolder, List.takeWhile_append_of_pos inside, List.dropWhile_append_of_pos inside, blank,
    stops, remains, behind_append, List.append_nil]
  rfl

/-- A message is read back as the record it was made for. -/
theorem readMessage_logMessage {event : String}
    (known : event ∈ ["SESSION_START", "SESSION_END", "SESSION_KILLED"]) {username : Bytes}
    (blankless : 32 ∉ username) (containerId : Bytes) :
    readMessage (logMessage event username containerId) =
      changeOf event (username, containerId) := by
  have own : ∀ event, readEvent event (logMessage event username containerId) =
      changeOf event (username, containerId) := by
    intro event
    have split : logMessage event username containerId =
        (ascii "[CaaLd] " ++ (ascii event ++ ascii " user=")) ++
          (username ++ (ascii " container=" ++ containerId)) := by
      simp only [logMessage, List.append_assoc]
    rw [readEvent, split, behind_append, Option.bind_some, readHolder_names blankless]
    rfl
  simp only [List.mem_cons, List.not_mem_nil, or_false] at known
  rcases known with rfl | rfl | rfl
  · rw [readMessage, List.findSome?_cons, own]
    rfl
  · rw [readMessage, List.findSome?_cons]
    change List.findSome? _ ["SESSION_END", "SESSION_KILLED"] = _
    rw [List.findSome?_cons, own]
    rfl
  · rw [readMessage, List.findSome?_cons]
    change List.findSome? _ ["SESSION_END", "SESSION_KILLED"] = _
    rw [List.findSome?_cons]
    change List.findSome? _ ["SESSION_KILLED"] = _
    rw [List.findSome?_cons, own]
    rfl

/-- Records of the three events, for usernames without blanks. -/
def PlainEvents (effects : List Effect) : Prop :=
  ∀ event username containerId, .log event username containerId ∈ effects →
    event ∈ ["SESSION_START", "SESSION_END", "SESSION_KILLED"] ∧ 32 ∉ username

theorem readable_nil : PlainEvents [] := by
  intro _ _ _ member
  cases member

theorem PlainEvents.append {first second : List Effect} (readableFirst : PlainEvents first)
    (readableSecond : PlainEvents second) : PlainEvents (first ++ second) := by
  intro event username containerId member
  rcases List.mem_append.mp member with inFirst | inSecond
  · exact readableFirst _ _ _ inFirst
  · exact readableSecond _ _ _ inSecond

theorem PlainEvents.mono {part whole : List Effect} (readable : PlainEvents whole)
    (within : part ⊆ whole) : PlainEvents part :=
  fun _ _ _ member => readable _ _ _ (within member)

theorem PlainEvents.messages {effects : List Effect} (readable : PlainEvents effects) :
    (logMessages effects).filterMap readMessage = changes effects := by
  rw [logMessages, List.filterMap_filterMap, changes]
  apply List.filterMap_congr
  intro effect member
  cases effect with
  | kill pid => rfl
  | log event username containerId =>
      rcases readable _ _ _ member with ⟨known, blankless⟩
      exact readMessage_logMessage known blankless containerId

/-- The usernames of the active sessions have no blanks. -/
def Table.Blankless (table : Table) : Prop :=
  ∀ entry ∈ table.entries, 32 ∉ entry.username

theorem Table.WF.readable_handle {table : Table} (wf : table.WF) (blankless : table.Blankless)
    (request : Request) (now : Int64)
    (requested : MsgType.ofByte request.type = some .sessionRegister →
      32 ∉ (Table.requested request now).username) :
    PlainEvents (table.handle request now).effects := by
  have found : ∀ {entry : Entry} {id : Bytes},
      table.entries.find? (fun entry => entry.containerId = id) = some entry →
        32 ∉ entry.username := fun here => blankless _ (List.mem_of_find?_eq_some here)
  have effects := congrArg Reply.effects (wf.handle_eq_replyOn request now)
  rw [effects, replyOn]
  cases type : MsgType.ofByte request.type with
  | none => exact readable_nil
  | some message =>
      cases message with
      | sessionRegister =>
          dsimp only
          split
          · rintro _ _ _ (_ | ⟨_, ⟨⟩⟩)
            exact ⟨by simp, requested type⟩
          · exact readable_nil
      | sessionUnregister =>
          dsimp only
          cases search : table.entries.find? fun entry =>
              entry.containerId = cstr (request.bytes.drop 65) with
          | none => exact readable_nil
          | some entry =>
              rintro _ _ _ (_ | ⟨_, ⟨⟩⟩)
              exact ⟨by simp, found search⟩
      | sessionCount => exact readable_nil
      | sessionList => exact readable_nil
      | sessionKill =>
          dsimp only
          cases search : table.entries.find? fun entry =>
              entry.containerId = cstr (request.bytes.drop 65) with
          | none => exact readable_nil
          | some entry =>
              rintro _ _ _ (_ | ⟨_, _ | ⟨_, ⟨⟩⟩⟩)
              exact ⟨by simp, found search⟩
      | sessionKillUser =>
          intro event username containerId member
          rcases List.mem_flatMap.mp member with ⟨entry, owned, made⟩
          rcases List.mem_filter.mp owned with ⟨inside, mine⟩
          have mine := of_decide_eq_true mine
          rcases made with _ | ⟨_, _ | ⟨_, ⟨⟩⟩⟩
          rw [← mine]
          exact ⟨by simp, blankless entry inside⟩

/-- A REGISTER of the pass has a username without blanks. -/
def Pass.Blankless : Pass → Prop
  | .client connection now => ∀ request, connection.request = some request →
      MsgType.ofByte request.type = some .sessionRegister →
        32 ∉ (Table.requested request now).username
  | .reload _ _ => True

/-- As long as the usernames have no blanks, the journal is its messages. -/
structure Legible (both : Process × List Effect) : Prop where
  readable : PlainEvents both.2
  blankless : ∀ table, both.1 = .accepting table → table.WF ∧ table.Blankless

theorem Legible.step {caald : Int32} {process next : Process} {effects : List Effect} {pass : Pass}
    (legible : Legible (process, effects)) (guarded : pass.Blankless)
    (step : ServerStep caald process pass next) :
    Legible (next, effects ++ pass.effects caald process) := by
  cases step with
  | reload table file allocated =>
      rcases legible.blankless table rfl with ⟨wf, blankless⟩
      rcases wf.reloadConfig_spec file allocated with ⟨grown, same, _⟩
      refine ⟨legible.readable.append readable_nil, ?_⟩
      rintro _ ⟨⟩
      refine ⟨grown, ?_⟩
      rw [Table.Blankless, same]
      exact blankless
  | client table connection now =>
      rcases legible.blankless table rfl with ⟨wf, blankless⟩
      change Legible (_, effects ++ (handleClient caald table connection now).effects)
      cases received : connection.request with
      | none =>
          rw [handleClient, received]
          refine ⟨legible.readable.append readable_nil, ?_⟩
          rintro _ ⟨⟩
          exact ⟨wf, blankless⟩
      | some request =>
          have requested := guarded request received
          have plain := wf.readable_handle blankless request now requested
          by_cases deadly : connection.Deadly caald table
          · rw [handleClient_deadly received deadly]
            refine ⟨legible.readable.append (plain.mono (callsMade_subset caald _)), ?_⟩
            intro after accepts
            cases accepts
          · rw [handleClient_harmless received deadly]
            refine ⟨legible.readable.append plain, ?_⟩
            intro after accepts
            dsimp only at accepts
            split at accepts
            · cases accepts
            · cases accepts
              refine ⟨wf.handle request now, ?_⟩
              intro entry member
              rcases wf.mem_entries_handle request now member with old | ⟨type, rfl⟩
              · exact blankless entry old
              · exact requested type

theorem journal_legible {caald : Int32} {both : Process × List Effect}
    (reachable : ((journal caald).restrict fun _ pass => pass.Blankless).Reachable both) :
    Legible both := by
  apply reachable.invariant
  · rintro ⟨process, effects⟩ ⟨⟨file, allocated, _, started⟩, empty⟩
    dsimp only at started empty
    subst empty
    rcases Table.WF.initial.reloadConfig_spec file allocated with ⟨wf, same, _⟩
    refine ⟨readable_nil, ?_⟩
    rintro table accepts
    cases started.symm.trans accepts
    refine ⟨wf, ?_⟩
    rw [Table.Blankless, same]
    intro _ member
    cases member
  · rintro ⟨process, effects⟩ pass ⟨next, after⟩ legible ⟨guarded, step, written⟩
    dsimp only at written
    rw [written]
    exact legible.step guarded step

/-- Where usernames have no blanks, the messages passed to `syslog` alone give the holders of the
active sessions. -/
theorem logMessages_replay {caald : Int32} {table : Table} {effects : List Effect}
    (reachable : ((journal caald).restrict fun _ pass => pass.Blankless).Reachable
      (.accepting table, effects)) :
    replay 0 ((logMessages effects).filterMap readMessage) = some table.holders := by
  rw [(journal_legible reachable).readable.messages]
  rcases (journal_journaled reachable.of_restrict).replays with ⟨left, replays, accepting⟩
  rw [replays, (accepting table rfl).2]

theorem logMessages_replay_alice :
    replay 0 ([ascii "[CaaLd] SESSION_START user=alice container=caal-1",
        ascii "[CaaLd] SESSION_KILLED user=alice container=caal-1"].filterMap readMessage) =
      some ((oneSlot.handle aliceRegister 0).table.handle aliceKill 9).table.holders := by
  refine @logMessages_replay 1 _ aliceJournal.2
    ⟨_, _, ⟨oneSlot_init 1, rfl⟩, aliceJournal_run fun pass member => ?_⟩
  rcases List.mem_pair.mp member with rfl | rfl
  · intro request received _
    cases (Connection.sending_request aliceRegister).symm.trans received
    decide
  · intro request received registers
    cases (Connection.sending_request aliceKill).symm.trans received
    cases registers

/-! ## The high-water mark -/

/-- The table behind an event. -/
def Event.leave (table : Table) : Event → Table
  | .served request now _ => (table.handle request now).table
  | .reloaded file allocated => table.reloadConfig file allocated

/-- The daemon with the most sessions it has had at a time. -/
def peaks : LTS (Table × Nat) Event :=
  daemon.recording 0 fun table event peak => max peak (event.leave table).entries.length

theorem Table.WF.entries_le_sessionCount {table : Table} (wf : table.WF) :
    table.entries.length ≤ table.sessionCount := by
  have used : table.active.length ≤ (table.sessions.take table.sessionCount).length :=
    List.length_filter_le _ _
  rw [List.length_take, Nat.min_eq_left wf.count_le_length] at used
  rw [Table.entries, List.length_map]
  exact used

/-- A request uses a new slot only if all used ones are active, and then it is active too. -/
theorem Table.WF.sessionCount_handle {table : Table} (wf : table.WF)
    (request : Request) (now : Int64) :
    (table.handle request now).table.sessionCount =
      max table.sessionCount (table.handle request now).table.entries.length := by
  have after := wf.handle request now
  have same (unchanged : (table.handle request now).table.sessionCount = table.sessionCount) :
      (table.handle request now).table.sessionCount =
        max table.sessionCount (table.handle request now).table.entries.length := by
    have bound := after.entries_le_sessionCount
    rw [unchanged] at bound ⊢
    exact (Nat.max_eq_left bound).symm
  cases type : MsgType.ofByte request.type with
  | none =>
      apply same
      rw [Table.handle, type]
  | some message =>
      cases message with
      | sessionRegister =>
          have handled : table.handle request now = table.handleRegister request now := by
            rw [Table.handle, type]
          cases search : table.firstInactive with
          | some index =>
              apply same
              rw [handled, Table.handleRegister, search]
          | none =>
              by_cases room : table.maxSessions ≤ table.sessionCount
              · apply same
                rw [handled, Table.handleRegister, search]
                dsimp only
                rw [if_pos room]
              · have grown : (table.handle request now).table.sessionCount =
                    table.sessionCount + 1 := by
                  rw [handled, Table.handleRegister, search]
                  dsimp only
                  rw [if_neg room]
                have full : table.entries.length = table.sessionCount := by
                  rw [Table.entries, List.length_map, Table.active, Slots.occupied_full search,
                    List.length_take]
                  exact Nat.min_eq_left wf.count_le_length
                have joined : (table.handle request now).table.entries.length =
                    table.entries.length + 1 := by
                  rcases wf.handleRegister_spec request now with
                    ⟨_, ⟨before, after, split, joined⟩, _⟩ | ⟨refused, _, _⟩
                  · rw [handled, joined, split, List.length_append, List.length_append,
                      List.length_cons]
                    rfl
                  · rw [full] at refused
                    exact (room refused).elim
                rw [grown, joined, full, Nat.max_eq_right (Nat.le_succ _)]
      | sessionUnregister =>
          apply same
          rw [Table.handle, type]
          dsimp only
          rw [Table.handleUnregister]
          cases table.findSession (request.bytes.drop 65) <;> rfl
      | sessionCount =>
          apply same
          rw [Table.handle, type]
          rfl
      | sessionList =>
          apply same
          rw [Table.handle, type]
          rfl
      | sessionKill =>
          apply same
          rw [Table.handle, type]
          dsimp only
          rw [Table.handleKill]
          cases table.findSession (request.bytes.drop 65) <;> rfl
      | sessionKillUser =>
          apply same
          rw [Table.handle, type]
          rfl

theorem Table.sessionCount_reloadConfig (table : Table) (file : ConfigFile) (allocated : Bool) :
    (table.reloadConfig file allocated).sessionCount = table.sessionCount := by
  cases file with
  | missing => rfl
  | unparseable => rfl
  | parsed datum =>
      rw [Table.reloadConfig]
      split
      · rfl
      · split
        · rfl
        · split <;> rfl

/-- `session_count` is the most sessions that were ever active at a time: no slot is used
while a used one is free. -/
theorem sessionCount_eq_peak {table : Table} {peak : Nat}
    (reachable : peaks.Reachable (table, peak)) : table.sessionCount = peak := by
  have both : table.WF ∧ table.sessionCount = peak := by
    refine @LTS.Reachable.invariant _ _ _ (fun both => both.1.WF ∧ both.1.sessionCount = both.2) _
      reachable ?_ ?_
    · rintro ⟨table, peak⟩ ⟨start, zero⟩
      cases start
      exact ⟨Table.WF.initial, zero.symm⟩
    · rintro ⟨table, peak⟩ event ⟨next, after⟩ ⟨wf, counted⟩ ⟨step, noted⟩
      dsimp only at wf counted step noted ⊢
      refine ⟨DaemonStep.wf step wf, ?_⟩
      rw [noted, ← counted]
      cases step with
      | served request now => exact wf.sessionCount_handle request now
      | reloaded file allocated =>
          change (table.reloadConfig file allocated).sessionCount =
            max table.sessionCount (table.reloadConfig file allocated).entries.length
          rw [table.sessionCount_reloadConfig, (wf.reloadConfig_spec file allocated).2.1,
            Nat.max_eq_left wf.entries_le_sessionCount]
  exact both.2

/-- Two sessions come and leave, and then one of the accounts comes again. -/
def bobReturns : List Request :=
  [aliceRegister, .register (ascii "bob") (ascii "caal-2") 4243, .unregister (ascii "caal-1"),
    .unregister (ascii "caal-2"), .register (ascii "bob") (ascii "caal-3") 4244]

/-- Requests to a table of three slots, with the most sessions it has had. -/
def threeSlots (requests : List Request) : Table × Nat :=
  requests.foldl
    (fun both request =>
      ((both.1.handle request 0).table,
        max both.2 (both.1.handle request 0).table.entries.length))
    (Table.initial.reloadConfig (.parsed (.int64 3)) true, 0)

theorem threeSlots_reachable (requests : List Request) : peaks.Reachable (threeSlots requests) := by
  induction requests using List.reverseRecOn with
  | nil =>
      have started : peaks.Reachable (Table.initial, 0) := .of_init ⟨rfl, rfl⟩
      exact started.step ⟨.reloaded Table.initial (.parsed (.int64 3)) true, by decide⟩
  | append_singleton requests request ih =>
      rw [threeSlots, List.foldl_append]
      exact ih.step ⟨.served (threeSlots requests).1 request 0, rfl⟩

theorem sessionCount_eq_peak_bob :
    (threeSlots bobReturns).1.sessionCount = 2 ∧
      (threeSlots bobReturns).1.entries.length = 1 := by
  have most : (threeSlots bobReturns).2 = 2 := by decide
  have reachable := threeSlots_reachable bobReturns
  exact ⟨(sessionCount_eq_peak reachable).trans most, by decide⟩

end Caal

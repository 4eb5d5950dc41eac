import Caal.Admin.Tenure

/-!
# Locking a user out

The scripts, the logins and the daemon of a host together. A login that has been admitted is under
way until it registers, so that a user may come in who has been deleted since. Behind a deletion,
or a run of `newcaal` that disables the user, the sessions of the user and the logins under way
only become fewer, and behind a `killuser` there are at most those that were under way.
-/

namespace Caal

open CMemory Toml Scripts LTS Transfer

/-! ## The host -/

/-- A host, the table of its daemon, and the logins that have been admitted and may register. -/
structure Estate where
  host : AdminHost
  table : Table
  underway : List Bytes

inductive EstateAct where
  | admin (run : AdminRun)
  | login (found : Surroundings)
  /-- A login under way sends its REGISTER, or is over or goes on without one. -/
  | register (username containerId : Bytes) (pid : Int32) (now : Int64)
  | unregistered (username : Bytes)
  /-- A request that is no REGISTER. -/
  | request (request : Request) (now : Int64)
  | reload (file : ConfigFile) (allocated : Bool)
  /-- The daemon ends, by a signal to itself or a client that hangs up, and is started again. -/
  | restart

inductive EstateStep (garbled : Bytes → List Bytes → List Bool) (base : Entries)
    (other : Bytes → Option (Datum × Bytes)) : Estate → EstateAct → Estate → Prop where
  | admin {estate : Estate} {run : AdminRun} (regular : run.Regular base estate.host) :
      EstateStep garbled base other estate (.admin run)
        { estate with host := run.result garbled estate.host }
  | admitted {estate : Estate} {found : Surroundings} {username : Bytes} {login : Login}
      {config : UserConfig} (logsIn : LogsIn found username estate.host) (plain : 0 ∉ username)
      (returned : found.login other = .returned login) (entry : login.entry = .ok config) :
      EstateStep garbled base other estate (.login found)
        { estate with underway := username :: estate.underway }
  | turnedAway {estate : Estate} {found : Surroundings}
      (ended : ∀ login, found.login other = .returned login →
        ∃ rejection, login.entry = .error rejection) :
      EstateStep garbled base other estate (.login found) estate
  | registered {estate : Estate} {username : Bytes} (containerId : Bytes) (pid : Int32)
      (now : Int64) (member : username ∈ estate.underway) :
      EstateStep garbled base other estate (.register username containerId pid now)
        { estate with
          table := (estate.table.handle (.register username containerId pid) now).table
          underway := estate.underway.erase username }
  | unregistered {estate : Estate} {username : Bytes} (member : username ∈ estate.underway) :
      EstateStep garbled base other estate (.unregistered username)
        { estate with underway := estate.underway.erase username }
  | served {estate : Estate} {request : Request} (now : Int64)
      (plain : MsgType.ofByte request.type ≠ some .sessionRegister) :
      EstateStep garbled base other estate (.request request now)
        { estate with table := (estate.table.handle request now).table }
  | reloaded {estate : Estate} (file : ConfigFile) (allocated : Bool) :
      EstateStep garbled base other estate (.reload file allocated)
        { estate with table := estate.table.reloadConfig file allocated }
  | restarted {estate : Estate} :
      EstateStep garbled base other estate .restart { estate with table := .initial }

/-- The host from before the first run of a script and the start of the daemon on. -/
def estate (garbled : Bytes → List Bytes → List Bool) (origin : Origin) (base : Entries)
    (other : Bytes → Option (Datum × Bytes)) : LTS Estate EstateAct where
  init estate := estate = ⟨origin.host, .initial, []⟩
  step := EstateStep garbled base other

/-- The sessions of a user that the daemon has, and the logins of the user under way. -/
def Estate.sessions (estate : Estate) (username : Bytes) : Nat :=
  estate.table.entries.countP (·.username = username)

def Estate.pending (estate : Estate) (username : Bytes) : Nat :=
  estate.underway.count username

/-- A script is run for others than a user. -/
def EstateAct.Elsewhere (username : Bytes) : EstateAct → Prop
  | .admin run => run.username ≠ username
  | _ => True

/-! ## Steps -/

section Steps

variable {garbled : Bytes → List Bytes → List Bool} {origin : Origin} {base : Entries}
  {other : Bytes → Option (Datum × Bytes)} {username : Bytes}

/-- What holds of a host, its daemon and its logins in any run. -/
structure Estate.Kept (garbled : Bytes → List Bytes → List Bool) (origin : Origin)
    (base : Entries) (estate : Estate) : Prop where
  host : (administration garbled origin base).Reachable estate.host
  table : estate.table.WF
  named : ∀ name ∈ estate.underway, 0 ∉ name ∧ name.length ≤ 32

theorem Estate.Kept.step {before after : Estate} {act : EstateAct}
    (kept : before.Kept garbled origin base)
    (step : EstateStep garbled base other before act after) : after.Kept garbled origin base := by
  cases step with
  | @admin run regular => exact { kept with host := kept.host.step ⟨regular, rfl⟩ }
  | admitted logsIn plain returned entry =>
      have short := (Surroundings.login_ok logsIn.named returned entry).1
      refine { kept with named := ?_ }
      intro name member
      rcases List.mem_cons.mp member with rfl | earlier
      · exact ⟨plain, short⟩
      · exact kept.named name earlier
  | turnedAway ended => exact kept
  | registered containerId pid now member =>
      exact
        { host := kept.host
          table := kept.table.handle _ now
          named := fun name left => kept.named name (List.mem_of_mem_erase left) }
  | unregistered member =>
      exact { kept with named := fun name left => kept.named name (List.mem_of_mem_erase left) }
  | served now plain => exact { kept with table := kept.table.handle _ now }
  | reloaded file allocated =>
      exact { kept with table := (kept.table.reloadConfig_spec file allocated).1 }
  | restarted => exact { kept with table := Table.WF.initial }

theorem Estate.kept_of_reachable {state : Estate}
    (reached : (estate garbled origin base other).Reachable state) :
    state.Kept garbled origin base := by
  apply reached.invariant
  · rintro start ⟨⟩
    exact
      { host := .of_init rfl
        table := Table.WF.initial
        named := fun name member => (List.not_mem_nil member).elim }
  · intro before act after kept step
    exact kept.step step

/-- A request other than a REGISTER adds no session of a user, and a REGISTER at most one. -/
theorem sessions_handle {table : Table} (wf : table.WF) (request : Request) (now : Int64) :
    (table.handle request now).table.entries.countP (·.username = username) ≤
        table.entries.countP (·.username = username) ∨
      MsgType.ofByte request.type = some .sessionRegister ∧
        (table.handle request now).table.entries.countP (·.username = username) ≤
          table.entries.countP (·.username = username) +
            if (Table.requested request now).username = username then 1 else 0 := by
  rcases wf.entries_handle request now with fewer | ⟨type, _, front, back, split, joined⟩
  · exact .inl fewer.countP_le
  · refine .inr ⟨type, ?_⟩
    rw [joined, split, List.countP_append, List.countP_append, List.countP_cons]
    simp only [decide_eq_true_eq]
    omega

theorem requested_register {name : Bytes} (named : 0 ∉ name ∧ name.length ≤ 32)
    (containerId : Bytes) (pid : Int32) (now : Int64) :
    (Table.requested (.register name containerId pid) now).username = name := by
  rw [(Request.terminated_register name containerId pid).requested_eq now]
  refine (field_strncpy name).1.trans ?_
  rw [cstr_of_zero_free named.1, List.take_of_length_le (named.2.trans (by decide))]

/-- No session of a user is left by a `killuser`. -/
theorem sessions_killUser {table : Table} (wf : table.WF) (plain : 0 ∉ username)
    (short : username.length ≤ 63) (now : Int64) :
    (table.handle (.killUser username) now).table.entries.countP (·.username = username) = 0 := by
  have step := Table.handle_refines wf (Request.terminated_killUser username) now
  rw [Request.command_killUser, cstr_of_zero_free plain, List.take_of_length_le short] at step
  rw [List.countP_eq_zero]
  intro entry member same
  exact Ctl.killUser_leaves_none step entry member (of_decide_eq_true same)

/-- A run for another user does not change what is entered for a user. -/
theorem lookup_result {host : AdminHost} {run : AdminRun} (elsewhere : run.username ≠ username) :
    (run.result garbled host).roster.lookup username = host.roster.lookup username := by
  have holds : (⟨username, host.accounts username, host.ssh.dropIns username,
      host.loaded.dropIns username, host.roster.lookup username,
      False, False⟩ : Tenure).Holds host :=
    ⟨rfl, rfl, .inr rfl, rfl, False.elim, False.elim⟩
  exact (holds.result elsewhere).settings

/-- Where a user is barred, and no script is run for it, a step adds nothing of the user, and no
login of it gets under way. -/
theorem EstateStep.fewer (continues : Continues other) (begun : Begun other origin.config base)
    {before after : Estate} {act : EstateAct} (kept : before.Kept garbled origin base)
    (barred : Barred base username before.host.roster) (elsewhere : act.Elsewhere username)
    (step : EstateStep garbled base other before act after) :
    Barred base username after.host.roster ∧ after.pending username ≤ before.pending username ∧
      after.sessions username + after.pending username ≤
        before.sessions username + before.pending username := by
  cases step with
  | @admin run regular =>
      refine ⟨?_, Nat.le_refl _, Nat.le_refl _⟩
      intro config looked
      rw [Roster.lookUp, lookup_result elsewhere] at looked
      exact barred config looked
  | @admitted found name login config logsIn plain returned entry =>
      have different : name ≠ username := by
        rintro rfl
        have sound := sound_of_reachable begun.plain kept.host
        rcases sound.refuses continues begun barred logsIn returned with ⟨rejection, refused⟩
        cases entry.symm.trans refused
      have same : (name :: before.underway).count username = before.underway.count username :=
        List.count_cons_of_ne different
      rw [Estate.pending, Estate.pending, same]
      exact ⟨barred, Nat.le_refl _, Nat.le_refl _⟩
  | turnedAway ended => exact ⟨barred, Nat.le_refl _, Nat.le_refl _⟩
  | @registered name containerId pid now member =>
      have fewer : (before.underway.erase name).count username =
          before.underway.count username - if name = username then 1 else 0 := by
        rw [List.count_erase]
        simp only [beq_iff_eq]
      have there : name = username → 0 < before.underway.count username := by
        rintro rfl
        exact List.count_pos_iff.mpr member
      have handled := @sessions_handle username _ kept.table (.register name containerId pid) now
      rw [requested_register (kept.named name member)] at handled
      rw [Estate.pending, Estate.pending, Estate.sessions, Estate.sessions, fewer]
      dsimp only
      refine ⟨barred, Nat.sub_le _ _, ?_⟩
      by_cases same : name = username
      · have counted := there same
        rw [if_pos same] at handled ⊢
        omega
      · rw [if_neg same] at handled ⊢
        omega
  | @unregistered name member =>
      have fewer : (before.underway.erase name).count username ≤ before.underway.count username :=
        List.Sublist.count_le _ List.erase_sublist
      exact ⟨barred, fewer, Nat.add_le_add_left fewer _⟩
  | @served request now plain =>
      rcases @sessions_handle username _ kept.table request now with fewer | ⟨type, _⟩
      · exact ⟨barred, Nat.le_refl _, Nat.add_le_add_right fewer _⟩
      · exact (plain type).elim
  | reloaded file allocated =>
      refine ⟨barred, Nat.le_refl _, Nat.le_of_eq ?_⟩
      rw [Estate.sessions, (kept.table.reloadConfig_spec file allocated).2.1]
      rfl
  | restarted =>
      exact ⟨barred, Nat.le_refl _, Nat.add_le_add_right (Nat.zero_le _) _⟩

/-! ## Runs -/

/-- A run that finishes by barring its user, who has no entry in the first file. -/
def AdminRun.Closes (base : Entries) : AdminRun → Prop
  | newcaal _ _ settings stopped => stopped = none ∧ settings.enabled = ascii "false"
  | delcaal _ username stopped => stopped = none ∧ ∀ config, lookUpUser base username ≠ .ok config

theorem AdminRun.Closes.bars {run : AdminRun} {host : AdminHost} (closes : run.Closes base)
    (sound : Sound origin base host) :
    Barred base run.username (run.result garbled host).roster := by
  intro config looked
  cases run with
  | newcaal uids name settings stopped =>
      rcases closes with ⟨rfl, disabled⟩
      change ((Newcaal.main garbled uids name settings).finish host).roster.lookUp base name =
        _ at looked
      rw [Newcaal.main, Script.finish_andThen, Script.finish_andThen, finish_createUser,
        finish_writeToml, finish_writeSshd] at looked
      dsimp only at looked
      rw [Roster.lookUp_entered, if_pos rfl] at looked
      cases looked
      change (settings.enabled == ascii "true") = false
      rw [disabled]
      decide
  | delcaal uids name stopped =>
      rcases closes with ⟨rfl, unlisted⟩
      change ((Delcaal.main garbled uids name).finish host).roster.lookUp base name = _ at looked
      rw [finish_delcaal] at looked
      dsimp only at looked
      split at looked
      · rw [Roster.lookUp_without, if_pos rfl] at looked
        exact (unlisted config looked).elim
      · rename_i missing
        rw [sound.filed.plain (Option.not_isSome_iff_eq_none.mp missing)] at looked
        exact (unlisted config looked).elim

/-- What a user has left of its sessions and of its logins under way, in a run that starts with the
user barred. -/
structure Estate.Fewer (username : Bytes) (start : Estate) (acts : List EstateAct)
    (later : Estate) : Prop where
  barred : Barred base username later.host.roster
  pending : later.pending username ≤ start.pending username
  total : later.sessions username + later.pending username ≤
    start.sessions username + start.pending username
  killed : 0 ∉ username → username.length ≤ 63 →
    (∃ now, .request (.killUser username) now ∈ acts) →
    later.sessions username + later.pending username ≤ start.pending username

theorem Estate.Kept.fewer (continues : Continues other) (begun : Begun other origin.config base)
    {start later : Estate} {acts : List EstateAct} (kept : start.Kept garbled origin base)
    (barred : Barred base username start.host.roster)
    (run : ((estate garbled origin base other).restrict fun _ act => act.Elsewhere username).Run
      start acts later) :
    later.Kept garbled origin base ∧ @Estate.Fewer base username start acts later := by
  induction run with
  | nil =>
      refine ⟨kept, barred, Nat.le_refl _, Nat.le_refl _, ?_⟩
      rintro _ _ ⟨now, member⟩
      cases member
  | @snoc middle after acts act run step ih =>
      rcases ih with ⟨middleKept, fewer⟩
      rcases EstateStep.fewer continues begun middleKept fewer.barred step.1 step.2 with
        ⟨stillBarred, pending, total⟩
      refine ⟨middleKept.step step.2, stillBarred, pending.trans fewer.pending,
        total.trans fewer.total, ?_⟩
      rintro plain short ⟨now, member⟩
      rcases List.mem_append.mp member with earlier | last
      · exact total.trans (fewer.killed plain short ⟨now, earlier⟩)
      · rw [List.mem_singleton] at last
        subst last
        cases step.2 with
        | served _ _ =>
            rw [Estate.sessions, sessions_killUser middleKept.table plain short, Nat.zero_add]
            exact pending.trans fewer.pending

end Steps

/-! ## One user -/

def devRun : AdminRun := .newcaal (fun _ => true) (ascii "dev") (devSettings (ascii "600")) none

def devHost : AdminHost := devRun.result (fun _ _ => []) bareOrigin.host

theorem devRun_regular : devRun.Regular [] bareOrigin.host := enterable_dev [] (by decide)

/-- A login without a daemon. -/
def devLogin : Surroundings where
  username := some (ascii "dev")
  config := devHost.config.map TextFile.bytes
  daemon := none
  sessionDir := none
  cleared := true
  pathSet := true

theorem devLogin_comes_in :
    devLogin.login (fun _ => none) = .returned (.of (.ok (devSettings (ascii "600")).config)) := by
  have first : (administration (fun _ _ => []) bareOrigin []).Reachable bareOrigin.host :=
    .of_init rfl
  have sound := sound_of_reachable bareOrigin_begun.plain (first.step ⟨devRun_regular, rfl⟩)
  have there : ∃ file, devHost.config = some file := ⟨_, rfl⟩
  rcases there with ⟨file, config⟩
  have filed := sound.filed
  change FiledAs bareOrigin [] devHost.config _ at filed
  rw [config] at filed
  rcases filed.limited @continues_none bareOrigin_begun with ⟨toptab, parsed, looked, limit⟩
  have readable : devLogin.Readable (fun _ => none) (ascii "dev") toptab :=
    { named := rfl
      short := by decide
      parsed := by
        change (devHost.config.map TextFile.bytes).bind _ = _
        rw [config]
        exact parsed
      cleared := rfl
      pathSet := rfl }
  have unlimited : sessionLimit [] = 0 := rfl
  rw [readable.login_eq, limit, unlimited, looked]
  rfl

/-- One login has registered, and another one is under way. -/
def devSessions : Estate where
  host := devHost
  table := (oneSlot.handle (.register (ascii "dev") (ascii "caalsh-7-0") 7) 0).table
  underway := [ascii "dev"]

theorem devSessions_reachable :
    (estate (fun _ _ => []) bareOrigin [] fun _ => none).Reachable devSessions := by
  have empty : (estate (fun _ _ => []) bareOrigin [] fun _ => none).Reachable
      ⟨bareOrigin.host, .initial, []⟩ := .of_init rfl
  have loaded := empty.step (.reloaded (.parsed (.int64 1)) true)
  have created := loaded.step (.admin devRun_regular)
  have logsIn : LogsIn devLogin (ascii "dev") devHost := ⟨rfl, rfl⟩
  have plain : (0 : UInt8) ∉ ascii "dev" := by decide
  have first := created.step (.admitted logsIn plain devLogin_comes_in rfl)
  have second := first.step (.admitted logsIn plain devLogin_comes_in rfl)
  exact second.step (.registered (ascii "caalsh-7-0") 7 0 List.mem_cons_self)

end Caal

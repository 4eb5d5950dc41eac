import Caal.Admin.Provision
import Caal.Session.Admission

/-!
# What lasts of a creation and of a deletion

Between a run of `newcaal` for a user that finished and the next run for the same user, whatever
is run for others and wherever it is stopped, `sshd` sends the user to `caalsh`, and logins are
decided by the settings that were entered. Behind a run of `delcaal` no login comes in.
-/

namespace Caal

open CMemory LineRanges Toml Scripts LTS Transfer

def AdminRun.username : AdminRun → Bytes
  | newcaal _ username _ _ => username
  | delcaal _ username _ => username

/-! ## What the runs for others leave alone -/

/-- What a host has for a user. `sshd` has loaded the drop-in, or still has a stale one. -/
structure Tenure where
  username : Bytes
  account : Option Account
  dropIn : Option (List Bytes)
  stale : Option (List Bytes)
  settings : Option Settings
  included : Prop
  configured : Prop

structure Tenure.Holds (tenure : Tenure) (host : AdminHost) : Prop where
  account : host.accounts tenure.username = tenure.account
  dropIn : host.ssh.dropIns tenure.username = tenure.dropIn
  loaded : host.loaded.dropIns tenure.username = tenure.dropIn ∨
    host.loaded.dropIns tenure.username = tenure.stale
  settings : host.roster.lookup tenure.username = tenure.settings
  included : tenure.included → host.ssh.main.any includesDropIns = true ∧
    host.loaded.main.any includesDropIns = true
  configured : tenure.configured → host.config.isSome = true

namespace Tenure

section Holds

variable {garbled : Bytes → List Bytes → List Bool} {tenure : Tenure} {username : Bytes}
  {host : AdminHost}

theorem Holds.createConfig (holds : tenure.Holds host) : tenure.Holds host.createConfig :=
  { holds with configured := fun _ => rfl }

theorem Holds.includeDropIns (holds : tenure.Holds host) : tenure.Holds host.includeDropIns :=
  { holds with
    included := by
      intro included
      rcases holds.included included with ⟨main, loaded⟩
      refine ⟨any_addInclude ?_, loaded⟩
      intro empty
      rw [empty] at main
      cases main }

theorem Holds.reload (holds : tenure.Holds host) : tenure.Holds host.reload :=
  { holds with
    loaded := .inl holds.dropIn
    included := fun included => ⟨(holds.included included).1, (holds.included included).1⟩ }

variable (different : username ≠ tenure.username)

include different

theorem Holds.update (holds : tenure.Holds host) (account : Option Account) :
    tenure.Holds { host with accounts := Function.update host.accounts username account } :=
  { holds with account := (Function.update_of_ne different.symm ..).trans holds.account }

theorem Holds.setDropIn (holds : tenure.Holds host) (text : Option (List Bytes)) :
    tenure.Holds (host.setDropIn username text) :=
  { holds with dropIn := (Function.update_of_ne different.symm ..).trans holds.dropIn }

theorem Holds.removeEntry (holds : tenure.Holds host) :
    tenure.Holds (host.removeEntry garbled username) :=
  { holds with
    settings := by
      change (host.roster.without username).lookup tenure.username = _
      rw [Roster.lookup_without, if_neg different.symm]
      exact holds.settings
    configured := fun configured => by
      change (host.config.map _).isSome = true
      rw [Option.isSome_map]
      exact holds.configured configured }

theorem Holds.addEntry (holds : tenure.Holds host) (settings : Settings) :
    tenure.Holds (host.addEntry username settings) :=
  { holds with
    settings := by
      change List.lookup tenure.username (host.roster ++ [(username, settings)]) = _
      rw [List.lookup_append, List.lookup_cons, beq_eq_false_iff_ne.mpr different.symm,
        List.lookup_nil, Option.or_none]
      exact holds.settings
    configured := fun configured => by
      change (host.config.map _).isSome = true
      rw [Option.isSome_map]
      exact holds.configured configured }

omit different in
/-- A run for another user leaves a tenure alone, wherever it ends. -/
theorem Holds.result (holds : tenure.Holds host) {run : AdminRun}
    (elsewhere : run.username ≠ tenure.username) : tenure.Holds (run.result garbled host) := by
  cases run with
  | newcaal uids username settings stopped =>
      change username ≠ tenure.username at elsewhere
      refine (Triple.of_each ?_).run stopped holds
      refine .andThen ?_ (.andThen ?_ ?_)
      · exact ⟨⟨fun _ holds => holds.update elsewhere _, fun _ holds => holds.update elsewhere _,
          trivial⟩, trivial⟩
      · exact .andThen ⟨⟨fun _ holds => holds.createConfig, trivial⟩, trivial⟩
          ⟨fun _ holds => holds.removeEntry elsewhere, fun _ holds => holds.addEntry elsewhere _,
            trivial⟩
      · exact ⟨fun _ holds => holds.setDropIn elsewhere _,
          .andThen ⟨⟨fun _ holds => holds.includeDropIns, trivial⟩, trivial⟩
            ⟨fun _ holds => holds.reload, trivial⟩⟩
  | delcaal uids username stopped =>
      change username ≠ tenure.username at elsewhere
      refine (Triple.of_each ?_).run stopped holds
      refine .andThen ?_ (.andThen ?_ ?_)
      · exact ⟨⟨fun _ holds => holds.update elsewhere _, trivial⟩, trivial⟩
      · exact ⟨⟨fun _ holds => holds.removeEntry elsewhere, trivial⟩, trivial⟩
      · exact ⟨⟨fun _ holds => holds.setDropIn elsewhere _, fun _ holds => holds.reload, trivial⟩,
          trivial⟩

end Holds

end Tenure

/-! ## What is read of the configuration file -/

section Logins

variable {garbled : Bytes → List Bytes → List Bool} {uids : Nat → Bool} {origin : Origin}
  {base : Entries} {other : Bytes → Option (Datum × Bytes)} {host later : AdminHost}
  {username : Bytes}
  {settings : Settings} {runs : List AdminRun}

theorem sessionLimit_eq (toptab : Entries) :
    sessionLimit toptab = readMaxSessions (tomlGet (ascii "max_sessions") toptab) := by
  have parts : dotParts (ascii "max_sessions") = [ascii "max_sessions"] := by decide
  rw [sessionLimit, tomlSeek, parts, seekFrom]
  cases tomlGet (ascii "max_sessions") toptab <;> rfl

/-- The limit is that of the first file: a user that is called like it has a table there. -/
theorem Accounted.limited (continues : Continues other) (begun : Begun other origin.config base)
    {file : TextFile} {roster : Roster}
    (accounted : Accounted origin.config base (some file, roster)) :
    ∃ toptab, tomlParse other file.bytes = some toptab ∧
      (∀ username, lookUpUser toptab username = roster.lookUp base username) ∧
      sessionLimit toptab = sessionLimit base := by
  rcases accounted.looked_up continues begun with ⟨toptab, parsed, looked, others⟩
  refine ⟨toptab, parsed, looked, ?_⟩
  rw [sessionLimit_eq, sessionLimit_eq]
  by_cases entered : ascii "max_sessions" ∈ roster.names
  · rcases List.mem_map.mp entered with ⟨⟨_, settings⟩, member, rfl⟩
    have user := accounted.enrolled _ member
    have entry := (Roster.lookup_eq_some accounted.distinct).mpr member
    have found := looked (ascii "max_sessions")
    rw [Roster.lookUp, entry] at found
    rcases lookUpUser_eq_ok.mp found with ⟨short, bundle, sought, _⟩
    rw [tomlSeek_setting short (by decide), dotParts_bare user.name] at sought
    rcases Option.bind_eq_some_iff.mp sought with ⟨datum, got, inside⟩
    rw [got, user.absent]
    cases datum with
    | table => rfl
    | _ => cases inside
  · rw [others _ entered]

theorem FiledAs.limited (continues : Continues other) (begun : Begun other origin.config base)
    {file : TextFile} {roster : Roster} (filed : FiledAs origin base (some file) roster) :
    ∃ toptab, tomlParse other file.bytes = some toptab ∧
      (∀ username, lookUpUser toptab username = roster.lookUp base username) ∧
      sessionLimit toptab = sessionLimit base := by
  rcases filed with accounted | ⟨new, header, empty⟩
  · exact accounted.limited continues begun
  · cases header
    subst empty
    have parsed := begun.parses
    rw [new] at parsed
    exact ⟨base, parsed, fun _ => rfl, rfl⟩

/-! ## Logins -/

/-- A login of a user on a host. -/
structure LogsIn (found : Surroundings) (username : Bytes) (host : AdminHost) : Prop where
  named : found.username = some username
  config : found.config = host.config.map TextFile.bytes

/-- Later runs of the scripts, for other users. -/
def RunsElsewhere (garbled : Bytes → List Bytes → List Bool) (origin : Origin) (base : Entries)
    (username : Bytes) (host : AdminHost) (runs : List AdminRun) (later : AdminHost) : Prop :=
  ((administration garbled origin base).restrict fun _ run => run.username ≠ username).Run
    host runs later

theorem Tenure.Holds.lasts {tenure : Tenure}
    (elsewhere : RunsElsewhere garbled origin base tenure.username host runs later)
    (holds : tenure.Holds host) : tenure.Holds later := by
  apply LTS.Run.preserves elsewhere holds
  rintro before run after held _ ⟨different, _, result⟩
  rw [result]
  exact held.result different

/-- What a user has between a run of `newcaal` that has finished and the next run for it. -/
structure Established (other : Bytes → Option (Datum × Bytes)) (base : Entries) (username : Bytes)
    (settings : Settings) (host later : AdminHost) : Prop where
  account : later.accounts username = some ((host.accounts username).getD ⟨caalshPath, true⟩)
  forced : later.loaded.dropIns username = some (matchBlock username)
  included : host.ssh.main ≠ [] → later.loaded.main.any includesDropIns = true
  login : ∀ found (reaches : Option Link) (caald : Int32) (table : Table) (now : Int64),
    LogsIn found username later → found.cleared = true → found.pathSet = true → table.WF →
    found.daemon = reaches.map (fun link => link.peer caald table now) →
    found.login other = .killed ∨ ∃ sessions notice,
      Tally found (sessionLimit base) table.entries sessions notice ∧
      found.login other = .returned (.behind notice (.of
        (verdict (sessionLimit base) sessions (.ok settings.config))))

/-- A user whose entry does not let it in. -/
def Barred (base : Entries) (username : Bytes) (roster : Roster) : Prop :=
  ∀ config, roster.lookUp base username = .ok config → config.enabled = false

/-- A login of a barred user ends before it has a container. -/
theorem Sound.refuses (continues : Continues other) (begun : Begun other origin.config base)
    (sound : Sound origin base host) (barred : Barred base username host.roster)
    {found : Surroundings} (logsIn : LogsIn found username host) {login : Login}
    (returned : found.login other = .returned login) :
    ∃ rejection, login.entry = .error rejection := by
  cases came : login.entry with
  | error rejection => exact ⟨rejection, rfl⟩
  | ok config =>
      rcases Surroundings.login_ok logsIn.named returned came with
        ⟨_, toptab, parsed, looked, enabled⟩
      rw [logsIn.config] at parsed
      rcases Option.bind_eq_some_iff.mp parsed with ⟨text, there, parsed⟩
      rcases Option.map_eq_some_iff.mp there with ⟨file, configEq, rfl⟩
      have filed := sound.filed
      rw [configEq] at filed
      rcases filed.limited continues begun with ⟨_, parsedAgain, lookedUp, _⟩
      cases parsed.symm.trans parsedAgain
      rw [lookedUp] at looked
      cases enabled.symm.trans (barred config looked)

/-- What is left of a user behind a run of `delcaal` that has finished. -/
structure Dismissed (other : Bytes → Option (Datum × Bytes)) (username : Bytes)
    (host later : AdminHost) : Prop where
  account : later.accounts username = none
  dropIn : later.ssh.dropIns username = none
  forced : (host.ssh.dropIns username).isSome = true → later.loaded.dropIns username = none
  login : ∀ found login, LogsIn found username later → found.login other = .returned login →
    ∃ rejection, login.entry = .error rejection

end Logins

/-! ## One user -/

/-- Another user is deleted, as far as its drop-in. -/
theorem elsewhere_web {host : AdminHost} :
    RunsElsewhere (fun _ _ => []) bareOrigin [] (ascii "dev") host
      [.delcaal (fun _ => true) (ascii "web") (some 2)]
      (AdminRun.result (fun _ _ => []) host (.delcaal (fun _ => true) (ascii "web") (some 2))) := by
  have bare : BarePart (ascii "web") := by decide
  have different : ascii "web" ≠ ascii "dev" := by decide
  exact .single ⟨different, bare, rfl⟩

end Caal

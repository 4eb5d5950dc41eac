import Caal.Admin.Accounts
import Caal.Lib.Script

/-!
# Users from creation to deletion

What `newcaal.sh` and `delcaal.sh` do on a host once they know for whom: the account, the entry
in the configuration file, the drop-in for `sshd` and the reload. Both have `set -e`, so that a
run ends at the first command that fails; it can be killed anywhere too.
-/

namespace Caal

open CMemory LineRanges Toml Scripts LTS

/-! ## The host -/

/-- An entry of the user database. -/
structure Account where
  shell : Bytes
  password : Bool

/-- The lines of `/etc/ssh/sshd_config`, and of the file that the scripts keep for a user in
`sshd_config.d`. -/
structure SshConfig where
  main : List Bytes
  dropIns : Bytes → Option (List Bytes)

/-- What the two scripts work on. -/
structure AdminHost where
  accounts : Bytes → Option Account
  config : Option TextFile
  ssh : SshConfig
  /-- What `sshd` has read when it was last reloaded. -/
  loaded : SshConfig
  /-- The users whose entries have been appended and not removed. No file has this. -/
  roster : Roster

/-- `CAALSH_PATH`. -/
def caalshPath : Bytes := ascii "/usr/local/bin/caalsh"

/-- What `write_sshd` writes for a user. -/
def matchBlock (username : Bytes) : List Bytes :=
  [ascii "# Generated by newcaal for user: " ++ username,
    ascii "Match User " ++ username,
    ascii "    AllowAgentForwarding no",
    ascii "    AllowTcpForwarding no",
    ascii "    X11Forwarding no",
    ascii "    PermitTunnel no",
    ascii "    PermitTTY yes",
    ascii "    PermitUserRC no",
    ascii "    ForceCommand " ++ caalshPath]

/-- `\s` in a line. -/
def isSpace (byte : UInt8) : Bool :=
  byte == 32 || 9 ≤ byte && byte ≤ 13

/-- `^\s*Include\s+/etc/ssh/sshd_config\.d/\*\.conf`. -/
def includesDropIns (line : Bytes) : Bool :=
  let word := line.dropWhile isSpace
  let path := word.drop (ascii "Include").length
  (ascii "Include").isPrefixOf word && (path.head?.any isSpace) &&
    (ascii "/etc/ssh/sshd_config.d/*.conf").isPrefixOf (path.dropWhile isSpace)

def includeLine : Bytes := ascii "Include /etc/ssh/sshd_config.d/*.conf"

/-- `sed -i '1s|^|Include /etc/ssh/sshd_config.d/*.conf\n|'`: there must be a first line. -/
def addInclude : List Bytes → List Bytes
  | [] => []
  | first :: rest => includeLine :: first :: rest

/-- The end of `write_toml`. -/
def appendEntry (username : Bytes) (settings : Settings) (file : TextFile) : TextFile where
  lines := file.lines ++ (separator file.terminated ++ entryBlock username settings)
  terminated := true

namespace AdminHost

/-- `useradd`, and the `passwd` behind it. -/
def useradd (username : Bytes) (host : AdminHost) : AdminHost :=
  { host with accounts := Function.update host.accounts username (some ⟨caalshPath, false⟩) }

def passwd (username : Bytes) (host : AdminHost) : AdminHost :=
  { host with
    accounts := Function.update host.accounts username
      ((host.accounts username).map fun account => { account with password := true }) }

def userdel (username : Bytes) (host : AdminHost) : AdminHost :=
  { host with accounts := Function.update host.accounts username none }

def createConfig (host : AdminHost) : AdminHost :=
  { host with config := some newConfig }

/-- `grep` and `sed` on the configuration file. -/
def removeEntry (garbled : Bytes → List Bytes → List Bool) (username : Bytes) (host : AdminHost) :
    AdminHost :=
  { host with
    config := host.config.map (removeBlock (.basic garbled) username)
    roster := host.roster.without username }

def addEntry (username : Bytes) (settings : Settings) (host : AdminHost) : AdminHost :=
  { host with
    config := host.config.map (appendEntry username settings)
    roster := host.roster ++ [(username, settings)] }

def setDropIn (username : Bytes) (text : Option (List Bytes)) (host : AdminHost) : AdminHost :=
  { host with ssh.dropIns := Function.update host.ssh.dropIns username text }

def includeDropIns (host : AdminHost) : AdminHost :=
  { host with ssh.main := addInclude host.ssh.main }

/-- `systemctl reload sshd`. -/
def reload (host : AdminHost) : AdminHost :=
  { host with loaded := host.ssh }

end AdminHost

/-! ## The scripts -/

/-- `^[0-9]+$`. -/
def isNumber (text : Bytes) : Bool :=
  text != [] && text.all isDigit

/-- `id`: it knows a user by its name, and takes a name of digits for a uid as well. `uids` are
those that accounts have. -/
def AdminHost.identifies (uids : Nat → Bool) (username : Bytes) (host : AdminHost) : Bool :=
  (host.accounts username).isSome || isNumber username && uids (ofDecimalDigits username)

namespace Newcaal

open AdminHost

/-- `create_user`. -/
def createUser (uids : Nat → Bool) (username : Bytes) : Script AdminHost :=
  .when (fun host => !host.identifies uids username)
    (.command (useradd username) (.single (passwd username)))

/-- `write_toml`. -/
def writeToml (garbled : Bytes → List Bytes → List Bool) (username : Bytes) (settings : Settings) :
    Script AdminHost :=
  (Script.when (fun host => host.config.isNone) (.single createConfig)).andThen
    (.command (removeEntry garbled username) (.single (addEntry username settings)))

/-- `write_sshd`. -/
def writeSshd (username : Bytes) : Script AdminHost :=
  .command (setDropIn username (some (matchBlock username)))
    ((Script.when (fun host => !host.ssh.main.any includesDropIns) (.single includeDropIns)).andThen
      (.single reload))

/-- The end of `main`. -/
def main (garbled : Bytes → List Bytes → List Bool) (uids : Nat → Bool) (username : Bytes)
    (settings : Settings) : Script AdminHost :=
  (createUser uids username).andThen
    ((writeToml garbled username settings).andThen (writeSshd username))

end Newcaal

namespace Delcaal

open AdminHost

/-- `remove_user`. -/
def removeUser (uids : Nat → Bool) (username : Bytes) : Script AdminHost :=
  .when (identifies uids username) (.single (userdel username))

/-- `remove_toml`. -/
def removeToml (garbled : Bytes → List Bytes → List Bool) (username : Bytes) : Script AdminHost :=
  .when (fun host => host.config.isSome) (.single (removeEntry garbled username))

/-- `remove_sshd`. -/
def removeSshd (username : Bytes) : Script AdminHost :=
  .when (fun host => (host.ssh.dropIns username).isSome)
    (.command (setDropIn username none) (.single reload))

/-- The end of `main`. -/
def main (garbled : Bytes → List Bytes → List Bool) (uids : Nat → Bool) (username : Bytes) :
    Script AdminHost :=
  (removeUser uids username).andThen
    ((removeToml garbled username).andThen (removeSshd username))

end Delcaal

/-- A run of a script, with the uids that accounts have then, and the number of commands behind
which it ended if it was stopped. -/
inductive AdminRun where
  | newcaal (uids : Nat → Bool) (username : Bytes) (settings : Settings) (stopped : Option Nat)
  | delcaal (uids : Nat → Bool) (username : Bytes) (stopped : Option Nat)

/-- A host as it was before the first run. -/
structure Origin where
  accounts : Bytes → Option Account
  config : Option Bytes
  ssh : SshConfig
  loaded : SshConfig

def Origin.host (origin : Origin) : AdminHost :=
  ⟨origin.accounts, origin.config.map .ofBytes, origin.ssh, origin.loaded, []⟩

/-- What a run makes of the host. -/
def AdminRun.result (garbled : Bytes → List Bytes → List Bool) (host : AdminHost) :
    AdminRun → AdminHost
  | newcaal uids username settings stopped =>
      (Newcaal.main garbled uids username settings).run stopped host
  | delcaal uids username stopped => (Delcaal.main garbled uids username).run stopped host

/-- Names without dots, and settings that the file can take. -/
def AdminRun.Regular (base : Entries) (host : AdminHost) : AdminRun → Prop
  | newcaal _ username settings _ => Enterable base host.roster username settings
  | delcaal _ username _ => BarePart username

/-- Any runs of both scripts, one after the other, each finished or stopped anywhere. -/
def administration (garbled : Bytes → List Bytes → List Bool) (origin : Origin) (base : Entries) :
    LTS AdminHost AdminRun where
  init host := host = origin.host
  step host run after := run.Regular base host ∧ after = run.result garbled host

/-! ## What holds wherever a run ends -/

/-- The configuration file has the entries of the roster, where the header of a new file may have
been written without an entry. -/
def FiledAs (origin : Origin) (base : Entries) (config : Option TextFile)
    (roster : Roster) : Prop :=
  Accounted origin.config base (config, roster) ∨
    origin.config = none ∧ config = some newConfig ∧ roster = []

/-- What holds of a host wherever the runs of the scripts end. -/
structure Sound (origin : Origin) (base : Entries) (host : AdminHost) : Prop where
  filed : FiledAs origin base host.config host.roster
  /-- Accounts have `caalsh`, or the shell that they had before. -/
  accounts : ∀ username account, host.accounts username = some account →
    account.shell = caalshPath ∨
      ∃ old, origin.accounts username = some old ∧ account.shell = old.shell
  /-- The line that was added is the first one and the only one of its kind. -/
  main : host.ssh.main = origin.ssh.main ∨
    origin.ssh.main.any includesDropIns = false ∧ host.ssh.main = addInclude origin.ssh.main
  dropIns : ∀ username, host.ssh.dropIns username = origin.ssh.dropIns username ∨
    host.ssh.dropIns username = none ∨ host.ssh.dropIns username = some (matchBlock username)

section Sound

variable {garbled : Bytes → List Bytes → List Bool} {uids : Nat → Bool} {origin : Origin}
  {base : Entries} {host : AdminHost} {username : Bytes} {settings : Settings}

theorem Sound.update (sound : Sound origin base host) {account : Option Account}
    (shell : ∀ new, account = some new → new.shell = caalshPath ∨
      ∃ old, origin.accounts username = some old ∧ new.shell = old.shell) :
    Sound origin base { host with accounts := Function.update host.accounts username account } :=
  { sound with
    accounts := by
      intro other new found
      change Function.update host.accounts username account other = some new at found
      by_cases same : other = username
      · subst same
        rw [Function.update_self] at found
        exact shell new found
      · rw [Function.update_of_ne same] at found
        exact sound.accounts other new found }

theorem Sound.useradd (sound : Sound origin base host) :
    Sound origin base (host.useradd username) := by
  apply sound.update
  intro new created
  cases created
  exact .inl rfl

theorem Sound.passwd (sound : Sound origin base host) :
    Sound origin base (host.passwd username) := by
  apply sound.update
  intro new found
  rcases Option.map_eq_some_iff.mp found with ⟨account, there, rfl⟩
  exact sound.accounts username account there

theorem Sound.userdel (sound : Sound origin base host) :
    Sound origin base (host.userdel username) := by
  apply sound.update
  intro new found
  cases found

theorem Sound.setDropIn (sound : Sound origin base host) {text : Option (List Bytes)}
    (written : text = none ∨ text = some (matchBlock username)) :
    Sound origin base (host.setDropIn username text) :=
  { sound with
    dropIns := by
      intro other
      change Function.update host.ssh.dropIns username text other = _ ∨
        Function.update host.ssh.dropIns username text other = _ ∨
        Function.update host.ssh.dropIns username text other = _
      by_cases same : other = username
      · subst same
        rw [Function.update_self]
        exact .inr written
      · rw [Function.update_of_ne same]
        exact sound.dropIns other }

theorem any_addInclude {lines : List Bytes} (nonempty : lines ≠ []) :
    (addInclude lines).any includesDropIns = true := by
  have matched : includesDropIns includeLine = true := by decide
  cases lines with
  | nil => exact (nonempty rfl).elim
  | cons first rest => simp [addInclude, matched]

theorem Sound.includeDropIns (sound : Sound origin base host)
    (missing : host.ssh.main.any includesDropIns = false) :
    Sound origin base host.includeDropIns :=
  { sound with
    main := by
      rcases sound.main with same | ⟨absent, added⟩
      · rw [same] at missing
        exact .inr ⟨missing, congrArg addInclude same⟩
      · have empty : origin.ssh.main = [] := by
          by_contra nonempty
          rw [added, any_addInclude nonempty] at missing
          cases missing
        have nothing : host.ssh.main = [] := by
          rw [added, empty]
          rfl
        right
        refine ⟨absent, ?_⟩
        change addInclude host.ssh.main = addInclude origin.ssh.main
        rw [nothing, empty] }

theorem Sound.reload (sound : Sound origin base host) : Sound origin base host.reload :=
  { sound with }

theorem FiledAs.plain {config : Option TextFile} {roster : Roster}
    (filed : FiledAs origin base config roster) : config = none → roster = [] := by
  rintro rfl
  rcases filed with accounted | ⟨_, header, _⟩
  · rcases accounted.filed with ⟨_, empty⟩ | ⟨after, there, _⟩
    · exact empty
    · cases there
  · cases header

/-- Removing an entry keeps the file and the roster together. -/
theorem FiledAs.removed
    (plain : ∀ line ∈ (firstFile origin.config).lines, opensSection line = false)
    {config : Option TextFile} {roster : Roster} (filed : FiledAs origin base config roster)
    (bare : BarePart username) :
    FiledAs origin base (config.map (removeBlock (.basic garbled) username))
      (roster.without username) := by
  rcases filed with accounted | ⟨new, header, empty⟩
  · have regular : Edit.Regular base roster (.delete username) := bare
    exact .inl (accounted.step plain regular)
  · subst header
    subst empty
    rw [new] at plain
    exact .inr ⟨new, congrArg some (removeBlock_plain bare plain), rfl⟩

/-- So does replacing it by another one. -/
theorem FiledAs.replaced
    (plain : ∀ line ∈ (firstFile origin.config).lines, opensSection line = false)
    {file : TextFile} {roster : Roster} (filed : FiledAs origin base (some file) roster)
    (enterable : Enterable base roster username settings) :
    FiledAs origin base
      (some (appendEntry username settings (removeBlock (.basic garbled) username file)))
      (roster.without username ++ [(username, settings)]) := by
  have written : appendEntry username settings (removeBlock (.basic garbled) username file) =
      writeToml (.basic garbled) username settings file := by
    rw [appendEntry, writeToml, separator]
  left
  rw [written]
  rcases filed with accounted | ⟨new, header, empty⟩
  · have regular : Edit.Regular base roster (.create username settings) := enterable
    exact accounted.step plain regular
  · cases header
    subst empty
    have regular : Edit.Regular base [] (.create username settings) := enterable
    have fresh : Accounted origin.config base (none, []) :=
      { filed := .inl ⟨by rw [new]; rfl, rfl⟩
        enrolled := fun user member => (List.not_mem_nil member).elim
        distinct := List.nodup_nil
        room := fun nonempty => (nonempty rfl).elim }
    exact fresh.step plain regular

/-! ## The parts of the scripts -/

theorem triple_createUser :
    Triple (fun host => Sound origin base host ∧ Enterable base host.roster username settings)
      (Newcaal.createUser uids username)
      (fun host => Sound origin base host ∧ Enterable base host.roster username settings)
      (Sound origin base) := by
  refine .when (.command
      (fun host => Sound origin base host ∧ Enterable base host.roster username settings) ?_ ?_ ?_)
    (fun _ both _ => both) (fun _ both => both.1)
  · exact fun _ both => both.1.1
  · exact fun _ both => ⟨both.1.1.useradd, both.1.2⟩
  · exact .single (fun _ both => both.1) (fun _ both => ⟨both.1.passwd, both.2⟩)
      fun _ both => both.1

/-- Between the removal and the addition the old entry of the user is missing. -/
def Reopened (garbled : Bytes → List Bytes → List Bool) (origin : Origin) (base : Entries)
    (username : Bytes) (settings : Settings) (host : AdminHost) : Prop :=
  Sound origin base host ∧ ∃ file roster, FiledAs origin base (some file) roster ∧
    Enterable base roster username settings ∧
    host.config = some (removeBlock (.basic garbled) username file) ∧
    host.roster = roster.without username

theorem Reopened.addEntry
    (plain : ∀ line ∈ (firstFile origin.config).lines, opensSection line = false)
    (reopened : Reopened garbled origin base username settings host) :
    Sound origin base (host.addEntry username settings) := by
  rcases reopened with ⟨sound, file, roster, filed, enterable, config, left⟩
  have replaced := @FiledAs.replaced garbled _ _ _ _ plain _ _ filed enterable
  rw [← left] at replaced
  exact { sound with
    filed := by
      change FiledAs origin base (host.config.map _) _
      rw [config]
      exact replaced }

variable (plain : ∀ line ∈ (firstFile origin.config).lines, opensSection line = false)

include plain

theorem Sound.removeEntry (sound : Sound origin base host) (bare : BarePart username) :
    Sound origin base (host.removeEntry garbled username) :=
  { sound with filed := sound.filed.removed plain bare }

theorem triple_writeToml :
    Triple (fun host => Sound origin base host ∧ Enterable base host.roster username settings)
      (Newcaal.writeToml garbled username settings) (Sound origin base) (Sound origin base) := by
  have there : Triple
      (fun host => Sound origin base host ∧ Enterable base host.roster username settings)
      (.when (fun host => host.config.isNone) (.single AdminHost.createConfig))
      (fun host => (Sound origin base host ∧ Enterable base host.roster username settings) ∧
        host.config.isSome = true)
      (Sound origin base) := by
    refine .when (.single (fun _ both => both.1.1) ?_ fun _ both => both.1.1)
      ?_ fun _ both => both.1
    · rintro host ⟨⟨sound, enterable⟩, missing⟩
      have unwritten := Option.isNone_iff_eq_none.mp missing
      have empty := sound.filed.plain unwritten
      have first : origin.config = none := by
        rcases sound.filed with accounted | ⟨_, header, _⟩
        · rcases accounted.filed with ⟨untouched, _⟩ | ⟨after, written, _⟩
          · exact Option.map_eq_none_iff.mp (untouched.symm.trans unwritten)
          · cases unwritten.symm.trans written
        · cases unwritten.symm.trans header
      exact ⟨⟨{ sound with filed := .inr ⟨first, rfl, empty⟩ }, enterable⟩, rfl⟩
    · intro host both found
      rw [Option.isNone_eq_false_iff] at found
      exact ⟨both, found⟩
  have replaced : Triple
      (fun host => (Sound origin base host ∧ Enterable base host.roster username settings) ∧
        host.config.isSome = true)
      (.command (AdminHost.removeEntry garbled username)
        (.single (AdminHost.addEntry username settings)))
      (Sound origin base) (Sound origin base) := by
    refine .command (Reopened garbled origin base username settings) (fun _ both => both.1.1) ?_
      (.single (fun _ reopened => reopened.1) (fun _ reopened => reopened.addEntry plain)
        fun _ sound => sound)
    rintro host ⟨⟨sound, enterable⟩, found⟩
    rcases Option.isSome_iff_exists.mp found with ⟨file, config⟩
    have filed := sound.filed
    rw [config] at filed
    refine ⟨sound.removeEntry plain enterable.name, file, host.roster, filed, enterable, ?_, rfl⟩
    change host.config.map _ = _
    rw [config, Option.map_some]
  exact .andThen _ there replaced

omit plain in
theorem triple_writeSshd :
    Triple (Sound origin base) (Newcaal.writeSshd username) (Sound origin base)
      (Sound origin base) := by
  refine .command (Sound origin base) (fun _ sound => sound)
    (fun _ sound => sound.setDropIn (.inr rfl)) (.andThen (Sound origin base) ?_ ?_)
  · refine .when (.single (fun _ both => both.1) ?_ fun _ sound => sound) (fun _ sound _ => sound)
      fun _ sound => sound
    rintro host ⟨sound, missing⟩
    exact sound.includeDropIns (Bool.not_eq_true' _ ▸ missing)
  · exact .single (fun _ sound => sound) (fun _ sound => sound.reload) fun _ sound => sound

theorem triple_newcaal :
    Triple (fun host => Sound origin base host ∧ Enterable base host.roster username settings)
      (Newcaal.main garbled uids username settings) (Sound origin base) (Sound origin base) :=
  .andThen _ triple_createUser (.andThen _ (triple_writeToml plain) triple_writeSshd)

theorem triple_delcaal (bare : BarePart username) :
    Triple (Sound origin base) (Delcaal.main garbled uids username) (Sound origin base)
      (Sound origin base) := by
  have same : ∀ host, Sound origin base host → Sound origin base host := fun _ sound => sound
  refine .andThen (Sound origin base) ?_ (.andThen (Sound origin base) ?_ ?_)
  · exact .when (.single (fun _ both => both.1) (fun _ both => both.1.userdel) same)
      (fun _ sound _ => sound) same
  · exact .when (.single (fun _ both => both.1) (fun _ both => both.1.removeEntry plain bare) same)
      (fun _ sound _ => sound) same
  · refine .when (.command (Sound origin base) (fun _ both => both.1)
      (fun _ both => both.1.setDropIn (.inl rfl)) ?_) (fun _ sound _ => sound) same
    exact .single same (fun _ sound => sound.reload) same

theorem sound_of_reachable (reached : (administration garbled origin base).Reachable host) :
    Sound origin base host := by
  apply reached.invariant
  · intro start initial
    cases initial
    exact
      { filed := .inl
          { filed := .inl ⟨rfl, rfl⟩
            enrolled := fun user member => (List.not_mem_nil member).elim
            distinct := List.nodup_nil
            room := fun nonempty => (nonempty rfl).elim }
        accounts := fun _ account there => .inr ⟨account, there, rfl⟩
        main := .inl rfl
        dropIns := fun _ => .inl rfl }
  · rintro host run after sound ⟨regular, result⟩
    rw [result]
    cases run with
    | newcaal uids username settings stopped =>
        exact (triple_newcaal plain).run stopped ⟨sound, regular⟩
    | delcaal uids username stopped => exact (triple_delcaal plain regular).run stopped sound

omit plain

/-! ## Finished runs -/

/-- The accounts behind `create_user`. -/
def AdminHost.created (uids : Nat → Bool) (username : Bytes) (host : AdminHost) :
    Bytes → Option Account :=
  if host.identifies uids username then host.accounts
  else Function.update host.accounts username (some ⟨caalshPath, true⟩)

theorem finish_createUser :
    (Newcaal.createUser uids username).finish host =
      { host with accounts := host.created uids username } := by
  rw [Newcaal.createUser, Script.when, Script.finish, AdminHost.created]
  cases known : host.identifies uids username with
  | false =>
      change (host.useradd username).passwd username =
        { host with accounts := Function.update host.accounts username (some ⟨caalshPath, true⟩) }
      rw [AdminHost.passwd, AdminHost.useradd]
      dsimp only
      rw [Function.update_self, Function.update_idem]
      rfl
  | true => rfl

/-- A user that is no uid in disguise has an account then. -/
theorem created_self
    (named : isNumber username = true → uids (ofDecimalDigits username) = false) :
    host.created uids username username =
      some ((host.accounts username).getD ⟨caalshPath, true⟩) := by
  have known : host.identifies uids username = (host.accounts username).isSome := by
    rw [AdminHost.identifies]
    cases number : isNumber username with
    | false => rw [Bool.false_and, Bool.or_false]
    | true => rw [named number, Bool.and_false, Bool.or_false]
  rw [AdminHost.created, known]
  cases account : host.accounts username with
  | none => exact Function.update_self ..
  | some there => exact account

theorem created_of_ne {user : Bytes} (different : user ≠ username) :
    host.created uids username user = host.accounts user := by
  rw [AdminHost.created]
  split
  · rfl
  · exact Function.update_of_ne different ..

theorem finish_writeToml :
    (Newcaal.writeToml garbled username settings).finish host =
      { host with
        config := some (appendEntry username settings
          (removeBlock (.basic garbled) username (host.config.getD newConfig)))
        roster := host.roster.without username ++ [(username, settings)] } := by
  rw [Newcaal.writeToml, Script.finish_andThen, Script.when, Script.finish]
  rcases host with ⟨_, _ | file, _, _, _⟩
  · rfl
  · rfl

theorem finish_writeSshd :
    (Newcaal.writeSshd username).finish host =
      { host with
        ssh :=
          { main := if host.ssh.main.any includesDropIns then host.ssh.main
              else addInclude host.ssh.main
            dropIns := Function.update host.ssh.dropIns username (some (matchBlock username)) }
        loaded :=
          { main := if host.ssh.main.any includesDropIns then host.ssh.main
              else addInclude host.ssh.main
            dropIns := Function.update host.ssh.dropIns username
              (some (matchBlock username)) } } := by
  rw [Newcaal.writeSshd, Script.finish, Script.finish_andThen, Script.when, Script.finish]
  change AdminHost.reload (if (!host.ssh.main.any includesDropIns) = true then _ else _) = _
  cases host.ssh.main.any includesDropIns <;> rfl

theorem finish_delcaal :
    (Delcaal.main garbled uids username).finish host =
      { accounts := Function.update host.accounts username none
        config := host.config.map (removeBlock (.basic garbled) username)
        ssh := { host.ssh with dropIns := Function.update host.ssh.dropIns username none }
        loaded := if (host.ssh.dropIns username).isSome then
            { host.ssh with dropIns := Function.update host.ssh.dropIns username none }
          else host.loaded
        roster := if host.config.isSome then host.roster.without username else host.roster } := by
  have user : (Delcaal.removeUser uids username).finish host =
      { host with accounts := Function.update host.accounts username none } := by
    rw [Delcaal.removeUser, Script.when, Script.finish]
    split
    case isTrue => rfl
    case isFalse unknown =>
      have missing : host.accounts username = none := by
        rw [AdminHost.identifies, Bool.or_eq_true, not_or] at unknown
        exact Option.not_isSome_iff_eq_none.mp unknown.1
      change host = _
      rw [← missing, Function.update_eq_self]
  have toml : ∀ host, (Delcaal.removeToml garbled username).finish host =
      { host with
        config := host.config.map (removeBlock (.basic garbled) username)
        roster := if host.config.isSome then host.roster.without username else host.roster } := by
    rintro ⟨_, _ | file, _, _, _⟩
    · rfl
    · rfl
  have sshd : ∀ host, (Delcaal.removeSshd username).finish host =
      { host with
        ssh := { host.ssh with dropIns := Function.update host.ssh.dropIns username none }
        loaded := if (host.ssh.dropIns username).isSome then
            { host.ssh with dropIns := Function.update host.ssh.dropIns username none }
          else host.loaded } := by
    intro host
    rw [Delcaal.removeSshd, Script.when, Script.finish]
    cases dropIn : host.ssh.dropIns username with
    | none =>
        change host = { host with ssh := ⟨host.ssh.main, _⟩, loaded := host.loaded }
        rw [← dropIn, Function.update_eq_self]
    | some text => rfl
  rw [Delcaal.main, Script.finish_andThen, Script.finish_andThen, user, toml, sshd]

/-! ## What is looked up -/

/-- The configuration file, if there is one, parses, and the roster is what `caalsh` finds. -/
def Tells (other : Bytes → Option (Datum × Bytes)) (base : Entries) (roster : Roster)
    (config : Option TextFile) : Prop :=
  ∀ file, config = some file → ∃ toptab, tomlParse other file.bytes = some toptab ∧
    ∀ username, lookUpUser toptab username = roster.lookUp base username

variable {other : Bytes → Option (Datum × Bytes)}

theorem FiledAs.tells (continues : Continues other) (begun : Begun other origin.config base)
    {config : Option TextFile} {roster : Roster} (filed : FiledAs origin base config roster) :
    Tells other base roster config := by
  rintro file rfl
  rcases filed with accounted | ⟨new, header, empty⟩
  · rcases accounted.looked_up continues begun with ⟨toptab, parsed, looked, _⟩
    exact ⟨toptab, parsed, looked⟩
  · cases header
    subst empty
    have parsed := begun.parses
    rw [new] at parsed
    exact ⟨base, parsed, fun _ => rfl⟩

/-- What `newcaal` has done when it reports that a user is ready. -/
structure Provisioned (other : Bytes → Option (Datum × Bytes)) (base : Entries) (username : Bytes)
    (settings : Settings) (host after : AdminHost) : Prop where
  account : after.accounts username = some ((host.accounts username).getD ⟨caalshPath, true⟩)
  entry : ∃ file toptab, after.config = some file ∧ tomlParse other file.bytes = some toptab ∧
    lookUpUser toptab username = .ok settings.config ∧
    ∀ user, user ≠ username → lookUpUser toptab user = host.roster.lookUp base user
  dropIn : after.ssh.dropIns username = some (matchBlock username)
  included : host.ssh.main ≠ [] → after.ssh.main.any includesDropIns = true
  loaded : after.loaded = after.ssh
  others : ∀ user, user ≠ username → after.accounts user = host.accounts user ∧
    after.ssh.dropIns user = host.ssh.dropIns user

theorem Roster.lookup_without {roster : Roster} (user : Bytes) :
    (roster.without username).lookup user =
      if user = username then none else roster.lookup user := by
  induction roster with
  | nil => simp [Roster.without]
  | cons entry roster ih =>
      rcases entry with ⟨name, set⟩
      change List.lookup user (List.filter _ ((name, set) :: roster)) = _
      rw [List.filter_cons, List.lookup_cons]
      by_cases kept : name = username
      · rw [if_neg (by simp [kept])]
        refine ih.trans ?_
        split
        · rfl
        · rename_i different
          rw [beq_eq_false_iff_ne.mpr fun same => different (same.trans kept)]
      · rw [if_pos (by simp [kept]), List.lookup_cons]
        cases same : user == name with
        | true =>
            rw [if_neg]
            rw [beq_iff_eq.mp same]
            exact kept
        | false => exact ih

theorem Roster.lookUp_entered {roster : Roster} (user : Bytes) :
    (roster.without username ++ [(username, settings)] : Roster).lookUp base user =
      if user = username then .ok settings.config else roster.lookUp base user := by
  rw [Roster.lookUp, List.lookup_append, Roster.lookup_without]
  by_cases same : user = username
  · rw [if_pos same, if_pos same, Option.none_or, List.lookup_cons, beq_iff_eq.mpr same]
  · rw [if_neg same, if_neg same, Roster.lookUp.eq_def, List.lookup_cons,
      beq_eq_false_iff_ne.mpr same, List.lookup_nil, Option.or_none]

theorem Roster.lookUp_without {roster : Roster} (user : Bytes) :
    (roster.without username).lookUp base user =
      if user = username then lookUpUser base user else roster.lookUp base user := by
  rw [Roster.lookUp, Roster.lookup_without]
  by_cases same : user = username
  · rw [if_pos same, if_pos same]
  · rw [if_neg same, if_neg same, Roster.lookUp.eq_def]

/-- What `delcaal` has done when it reports that a user has been removed. -/
structure Deprovisioned (other : Bytes → Option (Datum × Bytes)) (base : Entries) (username : Bytes)
    (host after : AdminHost) : Prop where
  account : after.accounts username = none
  entry : ∀ file, after.config = some file → ∃ toptab, tomlParse other file.bytes = some toptab ∧
    lookUpUser toptab username = lookUpUser base username ∧
    ∀ user, user ≠ username → lookUpUser toptab user = host.roster.lookUp base user
  dropIn : after.ssh.dropIns username = none
  loaded : (host.ssh.dropIns username).isSome = true → after.loaded = after.ssh
  others : ∀ user, user ≠ username → after.accounts user = host.accounts user ∧
    after.ssh.dropIns user = host.ssh.dropIns user

end Sound

/-! ## One user -/

/-- A host without users of CaaL. -/
def bareOrigin : Origin where
  accounts := fun _ => none
  config := none
  ssh := ⟨[ascii "Port 22"], fun _ => none⟩
  loaded := ⟨[ascii "Port 22"], fun _ => none⟩

theorem bareOrigin_begun : Begun (fun _ => none) bareOrigin.config [] := by
  have header : (tomlParse (fun _ => none) newConfig.bytes).map List.length = some 0 := by
    decide +kernel
  rcases Option.map_eq_some_iff.mp header with ⟨base, parses, empty⟩
  rw [List.length_eq_zero_iff] at empty
  subst empty
  exact ⟨parses, fun line member => by
    simpa using List.all_eq_true.mp (by decide : newConfig.lines.all (!opensSection ·) = true)
      line member⟩

theorem continues_none : Continues fun _ => none := by
  intro _ _ _ _ found
  cases found

/-- `newcaal` was killed behind `useradd`, before a password was set. -/
def unfinished : AdminHost :=
  (Newcaal.main (fun _ _ => []) (fun _ => true) (ascii "dev") (devSettings (ascii "600"))).stop 1
    bareOrigin.host

theorem unfinished_reachable :
    (administration (fun _ _ => []) bareOrigin []).Reachable unfinished := by
  have start : (administration (fun _ _ => []) bareOrigin []).Reachable bareOrigin.host :=
    .of_init rfl
  have run : AdminRun.Regular [] bareOrigin.host
      (.newcaal (fun _ => true) (ascii "dev") (devSettings (ascii "600")) (some 1)) :=
    enterable_dev [] (by decide)
  exact start.step ⟨run, rfl⟩

end Caal

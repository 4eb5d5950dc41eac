import Caal.Client.Screen
import Caal.Admin.Readback
import Caal.Host.Census

/-!
# The admission of a login

`main` of `caalsh.c` up to `container_start`: the user, the configuration file, the sessions that
are counted, and what is looked up. Whatever the daemon's connection does, a login comes in just
when its entry and the sessions that were counted allow it.
-/

namespace Caal

open CMemory Transfer Toml LTS

/-! ## The program -/

/-- What `main` finds: the name that `getpwuid` gives, the bytes at `CONFIG_PATH`, the connection
that `caald_connect` gives and the entries of `SESSION_DIR`, and whether the two calls on the
environment succeed. -/
structure Surroundings where
  username : Option Bytes
  config : Option Bytes
  daemon : Option Peer
  sessionDir : Option (List DirEntry)
  cleared : Bool
  pathSet : Bool

/-- Why a login ends before it has a container. -/
inductive Rejection where
  | unresolved
  | noConfig
  | unparsed
  | full
  | refused (refusal : Refusal)
  | disabled
  | notCleared
  | pathNotSet

/-- What is printed for it. -/
def Rejection.message : Rejection → Bytes
  | unresolved => ascii "[CaaLsh] could not resolve user\n"
  | noConfig => ascii "[CaaLsh] could not open config\n"
  | unparsed => ascii "[CaaLsh] could not parse config\n"
  | full => ascii "[CaaLsh] max sessions reached, try again later\n"
  | refused .usernameTooLong => ascii "[CaaLsh] username too long\n"
  | refused .notConfigured => ascii "[CaaLsh] user not configured, access denied\n"
  | refused .bundleNotString => ascii "[CaaLsh] bundle is not a string\n"
  | refused .bundleNotAbsolute => ascii "[CaaLsh] bundle path must be absolute\n"
  | disabled => ascii "[CaaLsh] user disabled, access denied\n"
  | notCleared => ascii "[CaaLsh] clearenv failed\n"
  | pathNotSet => ascii "[CaaLsh] setenv failed\n"

/-- How `main` comes to `container_start`, or returns 1 before, with what it has printed. -/
structure Login where
  stderr : Bytes
  entry : Except Rejection UserConfig

def Login.of (entry : Except Rejection UserConfig) : Login where
  stderr :=
    match entry with
    | .ok _ => []
    | .error rejection => rejection.message
  entry := entry

/-- Something was printed before. -/
def Login.behind (notice : Bytes) (login : Login) : Login :=
  { login with stderr := notice ++ login.stderr }

/-- Zero or missing means unlimited. -/
def readMaxSessions : Option Datum → Int
  | some (.int64 maxSessions) => maxSessions
  | _ => 0

def sessionLimit (toptab : Entries) : Int :=
  readMaxSessions (tomlSeek (ascii "max_sessions") toptab)

namespace Surroundings

/-- The count of the directories, none if they cannot be read. -/
def countDirs (found : Surroundings) : Int :=
  match found.sessionDir with
  | none => 0
  | some entries => countDirectories entries

def fallingBack : Bytes := ascii "[CaaLsh] daemon query failed, falling back\n"

/-- `count_active_sessions`, with what it prints. -/
def countActiveSessions (found : Surroundings) : Completion (Int × Bytes) :=
  match found.daemon with
  | some peer =>
      (sessionCount peer).map fun count =>
        if 0 ≤ count then (count, []) else (found.countDirs, fallingBack)
  | none => .returned (found.countDirs, [])

/-- `main` behind the limit check. -/
def lookUp (found : Surroundings) (toptab : Entries) (username : Bytes) :
    Except Rejection UserConfig :=
  match lookUpUser toptab username with
  | .error refusal => .error (.refused refusal)
  | .ok config =>
      if config.enabled = false then .error .disabled
      else if found.cleared = false then .error .notCleared
      else if found.pathSet = false then .error .pathNotSet
      else .ok config

/-- `main`, up to `container_start`. -/
def login (other : Bytes → Option (Datum × Bytes)) (found : Surroundings) : Completion Login :=
  match found.username with
  | none => .returned (.of (.error .unresolved))
  | some username =>
      if 32 < username.length then .returned (.of (.error (.refused .usernameTooLong)))
      else
        match found.config with
        | none => .returned (.of (.error .noConfig))
        | some text =>
            match tomlParse other text with
            | none => .returned (.of (.error .unparsed))
            | some toptab =>
                if 0 < sessionLimit toptab then
                  found.countActiveSessions.map fun (count, notice) =>
                    .behind notice
                      (if sessionLimit toptab ≤ count then .of (.error .full)
                      else .of (found.lookUp toptab username))
                else .returned (.of (found.lookUp toptab username))

end Surroundings

/-! ## What should come of it -/

/-- Whether an entry lets its user in. -/
def welcome : Except Refusal UserConfig → Except Rejection UserConfig
  | .error refusal => .error (.refused refusal)
  | .ok config => if config.enabled then .ok config else .error .disabled

/-- Whether a user comes in over some sessions. -/
def verdict (limit sessions : Int) (entry : Except Refusal UserConfig) :
    Except Rejection UserConfig :=
  if 0 < limit ∧ limit ≤ sessions then .error .full else welcome entry

/-- How many sessions were taken to be there for a login, and what was printed about it. -/
inductive Tally (found : Surroundings) (limit : Int) (sessions : List Entry) :
    Int → Bytes → Prop where
  | unlimited (missing : limit ≤ 0) : Tally found limit sessions 0 []
  | asked (limited : 0 < limit) (reached : found.daemon.isSome = true) :
      Tally found limit sessions sessions.length []
  | fellBack (limited : 0 < limit) (reached : found.daemon.isSome = true) :
      Tally found limit sessions found.countDirs Surroundings.fallingBack
  | alone (limited : 0 < limit) (unreached : found.daemon = none) :
      Tally found limit sessions found.countDirs []

section Login

variable {other : Bytes → Option (Datum × Bytes)} {found : Surroundings} {username text : Bytes}
  {toptab : Entries}

/-- What a login needs to come to its limit check. -/
structure Surroundings.Parsed (other : Bytes → Option (Datum × Bytes)) (found : Surroundings)
    (username : Bytes) (toptab : Entries) : Prop where
  named : found.username = some username
  short : username.length ≤ 32
  parsed : found.config.bind (tomlParse other) = some toptab

/-- What a login needs to be decided by its entry. -/
structure Surroundings.Readable (other : Bytes → Option (Datum × Bytes)) (found : Surroundings)
    (username : Bytes) (toptab : Entries) : Prop
    extends found.Parsed other username toptab where
  cleared : found.cleared = true
  pathSet : found.pathSet = true

namespace Surroundings

theorem Parsed.login_eq (parsed : found.Parsed other username toptab) :
    found.login other =
      if 0 < sessionLimit toptab then
        found.countActiveSessions.map fun (count, notice) =>
          .behind notice
            (if sessionLimit toptab ≤ count then .of (.error .full)
            else .of (found.lookUp toptab username))
      else .returned (.of (found.lookUp toptab username)) := by
  rcases Option.bind_eq_some_iff.mp parsed.parsed with ⟨text, there, parses⟩
  rw [login, parsed.named]
  dsimp only
  rw [if_neg (Nat.not_lt.mpr parsed.short), there]
  dsimp only
  rw [parses]

theorem Readable.lookUp_eq (readable : found.Readable other username toptab) :
    found.lookUp toptab username = welcome (lookUpUser toptab username) := by
  rw [lookUp.eq_def]
  cases lookUpUser toptab username with
  | error refusal => rfl
  | ok config =>
      dsimp only
      rw [readable.cleared, readable.pathSet, welcome]
      cases config.enabled <;> rfl

theorem Readable.login_eq (readable : found.Readable other username toptab) :
    found.login other =
      if 0 < sessionLimit toptab then
        found.countActiveSessions.map fun (count, notice) =>
          .behind notice
            (.of (verdict (sessionLimit toptab) count (lookUpUser toptab username)))
      else .returned (.of (verdict (sessionLimit toptab) 0 (lookUpUser toptab username))) := by
  rw [readable.toParsed.login_eq]
  split
  case isTrue limited =>
    congr 1
    funext ⟨count, notice⟩
    dsimp only
    rw [verdict, readable.lookUp_eq]
    simp only [limited, true_and]
    split <;> rfl
  case isFalse unlimited =>
    rw [verdict, readable.lookUp_eq, if_neg fun both => unlimited both.1]

end Surroundings

/-- A login that comes in has an entry that lets it in. -/
theorem Surroundings.login_ok {login : Login} {config : UserConfig}
    (named : found.username = some username) (returned : found.login other = .returned login)
    (came : login.entry = .ok config) :
    username.length ≤ 32 ∧ ∃ toptab, found.config.bind (tomlParse other) = some toptab ∧
      lookUpUser toptab username = .ok config ∧ config.enabled = true := by
  have fromEntry : ∀ {toptab}, found.lookUp toptab username = .ok config →
      lookUpUser toptab username = .ok config ∧ config.enabled = true := by
    intro toptab looked
    rw [lookUp.eq_def] at looked
    cases entry : lookUpUser toptab username with
    | error refusal =>
        rw [entry] at looked
        cases looked
    | ok read =>
        rw [entry] at looked
        dsimp only at looked
        split at looked
        · cases looked
        · split at looked
          · cases looked
          · split at looked
            · cases looked
            · cases looked
              exact ⟨rfl, Bool.eq_true_of_not_eq_false ‹_›⟩
  rw [Surroundings.login, named] at returned
  dsimp only at returned
  split at returned
  case isTrue long =>
    cases returned
    cases came
  case isFalse short =>
    refine ⟨Nat.not_lt.mp short, ?_⟩
    cases there : found.config with
    | none =>
        rw [there] at returned
        cases returned
        cases came
    | some text =>
        rw [there] at returned
        dsimp only at returned
        cases parsed : tomlParse other text with
        | none =>
            rw [parsed] at returned
            cases returned
            cases came
        | some toptab =>
            rw [parsed] at returned
            refine ⟨toptab, parsed, fromEntry ?_⟩
            dsimp only at returned
            split at returned
            · cases counted : found.countActiveSessions with
              | killed =>
                  rw [counted] at returned
                  cases returned
              | returned both =>
                  rw [counted] at returned
                  cases returned
                  dsimp only [Login.behind] at came
                  split at came
                  · cases came
                  · exact came
            · cases returned
              exact came

variable {reaches : Option Link} {caald : Int32} {table : Table} {now : Int64}

namespace Surroundings

theorem Readable.login_cases (readable : found.Readable other username toptab) (wf : table.WF)
    (daemon : found.daemon = reaches.map fun link => link.peer caald table now) :
    found.login other = .killed ∨ ∃ sessions notice,
      Tally found (sessionLimit toptab) table.entries sessions notice ∧
      found.login other = .returned (.behind notice (.of
        (verdict (sessionLimit toptab) sessions (lookUpUser toptab username)))) := by
  rw [readable.login_eq]
  split
  case isFalse unlimited =>
    exact .inr ⟨0, [], .unlimited (Int.not_lt.mp unlimited), rfl⟩
  case isTrue limited =>
    rw [countActiveSessions.eq_def]
    cases reaches with
    | none =>
        rw [daemon]
        exact .inr ⟨_, _, .alone limited daemon, rfl⟩
    | some link =>
        rw [daemon]
        dsimp only [Option.map_some]
        have there : found.daemon.isSome = true := by
          rw [daemon]
          rfl
        cases counted : sessionCount (link.peer caald table now) with
        | killed => exact .inl rfl
        | returned count =>
            right
            rcases Ctl.sessionCount_returned wf counted with rfl | ⟨rfl, _⟩
            · exact ⟨_, _, .fellBack limited there, rfl⟩
            · refine ⟨_, _, .asked limited there, ?_⟩
              simp only [Completion.map, if_pos (Int.natCast_nonneg _)]

theorem Readable.login_flowing (readable : found.Readable other username toptab)
    (wf : table.WF) {link : Link} (flowing : link.Flowing)
    (daemon : found.daemon = some (link.peer caald table now)) :
    found.login other = .returned (.of (verdict (sessionLimit toptab)
      table.entries.length (lookUpUser toptab username))) := by
  rw [readable.login_eq]
  split
  case isFalse unlimited =>
    rw [verdict, verdict, if_neg fun both => unlimited both.1, if_neg fun both => unlimited both.1]
  case isTrue limited =>
    rw [countActiveSessions, daemon]
    dsimp only
    rw [flowing.sessionCount wf now]
    simp only [Completion.map, if_pos (Int.natCast_nonneg _)]
    rfl

end Surroundings

/-- Whatever the connection to the daemon does, a login that `SIGPIPE` does not end is decided by
its entry and by the sessions of the daemon, or by the directories if the daemon does not say. It
says over a connection without failures. -/
theorem login_admitted (readable : found.Readable other username toptab) (wf : table.WF)
    (daemon : found.daemon = reaches.map fun link => link.peer caald table now) :
    (found.login other = .killed ∨ ∃ sessions notice,
      Tally found (sessionLimit toptab) table.entries sessions notice ∧
      found.login other = .returned (.behind notice (.of
        (verdict (sessionLimit toptab) sessions (lookUpUser toptab username))))) ∧
      ∀ link, reaches = some link → link.Flowing →
        found.login other = .returned (.of (verdict (sessionLimit toptab) table.entries.length
          (lookUpUser toptab username))) := by
  constructor
  · exact readable.login_cases wf daemon
  · rintro link rfl flowing
    exact readable.login_flowing wf flowing daemon

/-! ## The login shell -/

/-- Where a login has come to. -/
def landing : Completion Login → Point
  | .killed => .killed .pipe
  | .returned login =>
      match login.entry with
      | .ok _ => .mkdirSession
      | .error _ => .exited 1

/-- What `count_active_sessions` does there. -/
def Surroundings.counting (found : Surroundings) : Act :=
  match found.daemon with
  | none => .call (.fallback found.countDirs)
  | some peer =>
      match sessionCount peer with
      | .killed => .signal .pipe
      | .returned count => .call (if 0 ≤ count then .counted count else .fallback found.countDirs)

/-- What the lookups do, as one. -/
def Surroundings.lookingUp (found : Surroundings) (toptab : Entries) (username : Bytes) : Act :=
  match found.lookUp toptab username with
  | .ok _ => .call .ok
  | .error _ => .call .fail

/-- The steps of a login from its limit check on. -/
def Surroundings.acts (found : Surroundings) (toptab : Entries) (username : Bytes) : List Act :=
  if 0 < sessionLimit toptab then
    match found.countActiveSessions with
    | .killed => [found.counting]
    | .returned (count, _) =>
        if sessionLimit toptab ≤ count then [found.counting, .call .ok]
        else [found.counting, .call .ok, found.lookingUp toptab username]
  else [found.lookingUp toptab username]

theorem step_lookingUp {config : Config} {proc : Proc} (here : proc.point = .lookups) :
    (session config).step proc (found.lookingUp toptab username)
      (proc.arrive (landing (.returned (.of (found.lookUp toptab username))))) := by
  rw [Surroundings.lookingUp]
  cases found.lookUp toptab username with
  | error rejection =>
      change proc.call config .fail = _
      rw [Proc.call, here]
      rfl
  | ok looked =>
      change proc.call config .ok = _
      rw [Proc.call, here]
      rfl

theorem step_counting {config : Config} (limited : 0 < config.maxSessions) {sessions : Int}
    {notice : Bytes} (counted : found.countActiveSessions = .returned (sessions, notice)) :
    (session config).step (Proc.start config) found.counting
      ((Proc.start config).arrive (.limit sessions)) := by
  have start : (Proc.start config).point = .count := if_pos limited
  have arrives : ∀ outcome, outcome = .counted sessions ∨ outcome = .fallback sessions →
      (session config).step (Proc.start config) (.call outcome)
        ((Proc.start config).arrive (.limit sessions)) := by
    intro outcome counted
    change (Proc.start config).call config outcome = _
    rw [Proc.call, start]
    rcases counted with rfl | rfl <;> rfl
  rw [Surroundings.countActiveSessions.eq_def] at counted
  rw [Surroundings.counting]
  cases daemon : found.daemon with
  | none =>
      rw [daemon] at counted
      cases counted
      exact arrives _ (.inr rfl)
  | some peer =>
      rw [daemon] at counted
      dsimp only at counted ⊢
      cases asked : sessionCount peer with
      | killed =>
          rw [asked] at counted
          cases counted
      | returned count =>
          rw [asked, Completion.map] at counted
          dsimp only at counted ⊢
          split at counted
          case isTrue answered =>
            cases counted
            rw [if_pos answered]
            exact arrives _ (.inl rfl)
          case isFalse unanswered =>
            cases counted
            rw [if_neg unanswered]
            exact arrives _ (.inr rfl)

/-- `SIGPIPE` ends the query. -/
theorem counting_killed (killed : found.countActiveSessions = .killed) :
    found.counting = .signal .pipe := by
  rw [Surroundings.countActiveSessions.eq_def] at killed
  rw [Surroundings.counting]
  cases daemon : found.daemon with
  | none =>
      rw [daemon] at killed
      cases killed
  | some peer =>
      rw [daemon] at killed
      dsimp only at killed ⊢
      cases asked : sessionCount peer with
      | killed => rfl
      | returned count =>
          rw [asked] at killed
          cases killed

theorem step_limit {config : Config} {proc : Proc} {sessions : Int}
    (here : proc.point = .limit sessions) :
    (session config).step proc (.call .ok)
      (proc.arrive (if config.maxSessions ≤ sessions then .exited 1 else .lookups)) := by
  change proc.call config .ok = _
  rw [Proc.call, here]
  rfl

end Login

/-! ## A full host -/

def lobbyConfig : Bytes := ascii "max_sessions = 2\n[dev]\nbundle = \"/srv/dev\"\n"

/-- A user logs in at a host that has as many sessions as its file allows. -/
def lobby : Surroundings where
  username := some (ascii "dev")
  config := some lobbyConfig
  daemon := some (choppy.peer 1 crowded 100)
  sessionDir := none
  cleared := true
  pathSet := true

theorem lobby_readable : ∃ toptab, lobby.Readable (fun _ => none) (ascii "dev") toptab ∧
    sessionLimit toptab = 2 := by
  have read : (tomlParse (fun _ => none) lobbyConfig).map sessionLimit = some 2 := by
    decide +kernel
  rcases Option.map_eq_some_iff.mp read with ⟨toptab, parsed, limit⟩
  have readable : lobby.Readable (fun _ => none) (ascii "dev") toptab :=
    { named := rfl
      short := by decide
      parsed := (Option.bind_some ..).trans parsed
      cleared := rfl
      pathSet := rfl }
  exact ⟨toptab, readable, limit⟩

theorem login_admitted_lobby :
    lobby.login (fun _ => none) = .returned (.of (.error .full)) := by
  rcases lobby_readable with ⟨toptab, readable, limit⟩
  have reaches : lobby.daemon = (some choppy).map fun link => link.peer 1 crowded 100 := rfl
  have decided := (login_admitted readable (daemon_wf crowded_reachable) reaches).2 choppy rfl
    choppy_flowing
  rw [limit, crowded_entries, verdict, if_pos (by decide)] at decided
  exact decided

end Caal

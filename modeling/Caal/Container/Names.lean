import Caal.Container.Machine

/-!
# The names of a session

What `container_start`, `session_disk_setup` and `pty_bridge_init` put together from the
process and the second a session starts in: its id, its directory, its image, the two
directories of its overlay and its console socket. The arrays have fixed sizes, and each
`%s` reads an array that was filled before.
-/

namespace Caal

open CMemory

/-- What a session has a name for. -/
inductive NameKind where
  | containerId
  | sessionDir
  | imagePath
  | upper
  | work
  | sockPath
  deriving DecidableEq

/-- The arrays for the names: those of `container_start`, those of `session_disk_setup` and
the `sun_path` of `pty_bridge_init`. -/
structure Names where
  containerId : Buf 64
  sessionDir : Buf 128
  imagePath : Buf 128
  upper : Buf 160
  work : Buf 160
  diskUpper : Buf 256
  diskWork : Buf 256
  sockPath : Buf 108
  sunPath : Buf 108

namespace Names

def zero : Names :=
  ⟨.zero _, .zero _, .zero _, .zero _, .zero _, .zero _, .zero _, .zero _, .zero _⟩

/-- The names are printed over whatever the arrays hold. -/
def build (names : Names) (key : SessionKey) : Names :=
  let containerId := names.containerId.snprintf key.id
  let underSessionDir := ascii "/var/lib/caal/sessions/" ++ containerId.text
  let sessionDir := names.sessionDir.snprintf underSessionDir
  let sockPath := names.sockPath.snprintf (socketPath key.pid)
  { containerId := containerId
    sessionDir := sessionDir
    imagePath := names.imagePath.snprintf (underSessionDir ++ ascii ".img")
    upper := names.upper.snprintf (underSessionDir ++ ascii "/upper")
    work := names.work.snprintf (underSessionDir ++ ascii "/work")
    diskUpper := names.diskUpper.snprintf (sessionDir.text ++ ascii "/upper")
    diskWork := names.diskWork.snprintf (sessionDir.text ++ ascii "/work")
    sockPath := sockPath
    sunPath := (Buf.zero 108).strncpy sockPath.text }

/-- The name of each kind. -/
def text (names : Names) : NameKind → Bytes
  | .containerId => names.containerId.text
  | .sessionDir => names.sessionDir.text
  | .imagePath => names.imagePath.text
  | .upper => names.upper.text
  | .work => names.work.text
  | .sockPath => names.sockPath.text

end Names

/-! ## In full -/

/-- What the names behind the session directory end in. -/
def NameKind.suffix : NameKind → Option Bytes
  | .sessionDir => some []
  | .imagePath => some (ascii ".img")
  | .upper => some (ascii "/upper")
  | .work => some (ascii "/work")
  | .containerId | .sockPath => none

namespace SessionKey

/-- The name of each kind, in full. -/
def name (key : SessionKey) (kind : NameKind) : Bytes :=
  match kind with
  | .containerId => key.id
  | .sockPath => socketPath key.pid
  | .sessionDir | .imagePath | .upper | .work => key.sessionDir ++ kind.suffix.getD []

theorem name_eq_append {kind : NameKind} {suffix : Bytes} (key : SessionKey)
    (under : kind.suffix = some suffix) : key.name kind = key.sessionDir ++ suffix := by
  cases kind with
  | containerId => cases under
  | sockPath => cases under
  | sessionDir => cases under; rfl
  | imagePath => cases under; rfl
  | upper => cases under; rfl
  | work => cases under; rfl

end SessionKey

theorem NameKind.suffix_injective {kind other : NameKind} {suffix : Bytes}
    (left : kind.suffix = some suffix) (right : other.suffix = some suffix) : kind = other := by
  revert left right
  cases kind <;> cases other <;> simp [NameKind.suffix] <;> rintro rfl <;> decide

/-! ## Nothing is cut -/

section Build

variable (names : Names) (key : SessionKey)

theorem SessionKey.zero_notMem_under {suffix : Bytes} (zeroFree : 0 ∉ suffix) :
    (0 : UInt8) ∉ key.sessionDir ++ suffix := by
  rw [List.mem_append]
  rintro (dir | rest)
  · exact key.zero_notMem_sessionDir dir
  · exact zeroFree rest

theorem SessionKey.length_under {suffix : Bytes} (short : suffix.length ≤ 6) :
    (key.sessionDir ++ suffix).length ≤ 92 := by
  have bound := key.length_sessionDir_lt
  rw [List.length_append]
  omega

/-- An array for a name behind the session directory has room for it. -/
private theorem text_under {size : Nat} (buffer : Buf (size + 1)) {suffix : Bytes}
    (zeroFree : 0 ∉ suffix) (short : suffix.length ≤ 6) (room : 92 ≤ size) :
    (buffer.snprintf (key.sessionDir ++ suffix)).text = key.sessionDir ++ suffix :=
  buffer.text_snprintf_of_fits (key.zero_notMem_under zeroFree)
    (Nat.le_trans (key.length_under short) room)

namespace Names

/-- What the arrays behind the session directory are given. -/
private theorem under_eq (buffer : Buf 64) :
    ascii "/var/lib/caal/sessions/" ++ (buffer.snprintf key.id).text = key.sessionDir := by
  rw [Buf.text_snprintf, key.text_id]
  rfl

theorem text_sessionDir : (names.build key).sessionDir.text = key.sessionDir := by
  change (names.sessionDir.snprintf (ascii "/var/lib/caal/sessions/" ++
    (names.containerId.snprintf key.id).text)).text = _
  rw [under_eq, Buf.text_snprintf, key.text_sessionDir]

/-- Each array holds its name in full. -/
theorem text_build (kind : NameKind) : (names.build key).text kind = key.name kind := by
  cases kind with
  | containerId => exact (Buf.text_snprintf _ _).trans key.text_id
  | sessionDir => exact (names.text_sessionDir key).trans (List.append_nil _).symm
  | imagePath =>
      change (names.imagePath.snprintf (_ ++ ascii ".img")).text = _
      rw [under_eq]
      exact text_under key _ (by decide) (by decide) (by decide)
  | upper =>
      change (names.upper.snprintf (_ ++ ascii "/upper")).text = _
      rw [under_eq]
      exact text_under key _ (by decide) (by decide) (by decide)
  | work =>
      change (names.work.snprintf (_ ++ ascii "/work")).text = _
      rw [under_eq]
      exact text_under key _ (by decide) (by decide) (by decide)
  | sockPath => exact Container.text_sockPath names.sockPath key.pid

/-- `session_disk_setup` makes the directories that `container_start` names. -/
theorem text_disk :
    (names.build key).diskUpper.text = key.name .upper ∧
      (names.build key).diskWork.text = key.name .work := by
  have dir := names.text_sessionDir key
  constructor
  · change (names.diskUpper.snprintf ((names.build key).sessionDir.text ++ ascii "/upper")).text = _
    rw [dir]
    exact text_under key _ (by decide) (by decide) (by decide)
  · change (names.diskWork.snprintf ((names.build key).sessionDir.text ++ ascii "/work")).text = _
    rw [dir]
    exact text_under key _ (by decide) (by decide) (by decide)

/-- The socket is bound to the path that crun is given. -/
theorem text_sunPath : (names.build key).sunPath.text = key.name .sockPath := by
  change ((Buf.zero 108).strncpy (names.sockPath.snprintf (socketPath key.pid)).text).text = _
  rw [Container.text_sockPath, Buf.text_strncpy_zero]
  exact text_socketPath key.pid

end Names

end Build

/-! ## Apart -/

/-- An id consists of the letters of the shell's name, minus signs and digits. -/
theorem SessionKey.mem_id {key : SessionKey} {byte : UInt8} (member : byte ∈ key.id) :
    byte ∈ ascii "caalsh-" ∨ 48 ≤ byte.toNat ∧ byte.toNat < 58 := by
  have number : ∀ {value : Int}, byte ∈ decimal value →
      byte ∈ ascii "caalsh-" ∨ 48 ≤ byte.toNat ∧ byte.toNat < 58 := by
    intro value inside
    rcases mem_decimal inside with rfl | digit
    · exact .inl (by decide)
    · exact .inr digit
  rw [SessionKey.id, containerId, List.mem_append, List.mem_append, List.mem_cons] at member
  rcases member with name | pid | rfl | time
  · exact .inl name
  · exact number pid
  · exact .inl (by decide)
  · exact number time

/-- A byte that is neither is in no id. -/
theorem SessionKey.notMem_id (key : SessionKey) {byte : UInt8} (name : byte ∉ ascii "caalsh-")
    (digit : ¬ (48 ≤ byte.toNat ∧ byte.toNat < 58)) : byte ∉ key.id := by
  intro member
  rcases SessionKey.mem_id member with inName | isDigit
  · exact name inName
  · exact digit isDigit

/-- No byte of an id begins a suffix. -/
theorem SessionKey.suffix_free (key : SessionKey) :
    ∀ byte ∈ key.id, (byte == 46 || byte == 47) = false := by
  intro byte member
  rw [Bool.or_eq_false_iff, beq_eq_false_iff_ne, beq_eq_false_iff_ne]
  constructor
  · rintro rfl
    exact key.notMem_id (by decide) (by decide) member
  · rintro rfl
    exact key.notMem_id (by decide) (by decide) member

/-- Two paths behind session directories are the same when both parts are. -/
theorem SessionKey.under_inj {key other : SessionKey} {suffix suffix' : Bytes}
    (starts : ∀ byte ∈ suffix.head?, (byte == 46 || byte == 47) = true)
    (startsOther : ∀ byte ∈ suffix'.head?, (byte == 46 || byte == 47) = true)
    (equal : key.sessionDir ++ suffix = other.sessionDir ++ suffix') :
    key = other ∧ suffix = suffix' := by
  rw [sessionDir, sessionDir, List.append_assoc, List.append_assoc] at equal
  rcases append_inj_of_stop (fun byte => byte == 46 || byte == 47) key.suffix_free
    other.suffix_free starts startsOther (List.append_cancel_left equal) with ⟨ids, rest⟩
  exact ⟨SessionKey.id_injective ids, rest⟩

theorem NameKind.suffix_starts {kind : NameKind} {suffix : Bytes}
    (under : kind.suffix = some suffix) :
    ∀ byte ∈ suffix.head?, (byte == 46 || byte == 47) = true := by
  cases kind with
  | containerId => cases under
  | sockPath => cases under
  | sessionDir =>
      cases under
      exact nofun
  | imagePath =>
      cases under
      rintro byte ⟨⟩
      rfl
  | upper =>
      cases under
      rintro byte ⟨⟩
      rfl
  | work =>
      cases under
      rintro byte ⟨⟩
      rfl

/-- The first two bytes of a name. -/
def NameKind.root : NameKind → Bytes
  | .containerId => ascii "ca"
  | .sockPath => ascii "/t"
  | .sessionDir | .imagePath | .upper | .work => ascii "/v"

/-- The two names that are not behind the session directory begin in their own way. -/
theorem NameKind.eq_of_root {kind other : NameKind} (outside : kind.suffix = none)
    (roots : kind.root = other.root) : kind = other := by
  revert outside roots
  cases kind <;> cases other <;> decide

theorem SessionKey.take_name (key : SessionKey) (kind : NameKind) :
    (key.name kind).take 2 = kind.root := by
  cases kind <;> rfl

/-- Names of different sessions, or of different kinds, differ. -/
theorem SessionKey.name_ne {key other : SessionKey} {kind kind' : NameKind}
    (apart : key.pid ≠ other.pid ∨ kind ≠ kind') : key.name kind ≠ other.name kind' := by
  intro equal
  have roots := congrArg (List.take 2) equal
  rw [key.take_name, other.take_name] at roots
  cases under : kind.suffix with
  | some suffix =>
      cases underOther : kind'.suffix with
      | some suffix' =>
          rw [key.name_eq_append under, other.name_eq_append underOther] at equal
          rcases SessionKey.under_inj (NameKind.suffix_starts under)
            (NameKind.suffix_starts underOther) equal with ⟨rfl, rfl⟩
          rcases apart with pids | kinds
          · exact pids rfl
          · exact kinds (NameKind.suffix_injective under underOther)
      | none =>
          cases NameKind.eq_of_root underOther roots.symm
          rw [under] at underOther
          cases underOther
  | none =>
      cases NameKind.eq_of_root under roots
      have pids : key.pid ≠ other.pid := apart.resolve_right fun different => different rfl
      cases kind with
      | containerId => exact pids (congrArg SessionKey.pid (SessionKey.id_injective equal))
      | sockPath => exact pids (socketPath_injective equal)
      | sessionDir => cases under
      | imagePath => cases under
      | upper => cases under
      | work => cases under

/-- A path is a directory, or lies beneath it. -/
def Beneath (path dir : Bytes) : Prop :=
  path = dir ∨ ∃ rest, path = dir ++ ascii "/" ++ rest

/-- No name of a session is in the directory of another. -/
theorem SessionKey.name_not_beneath {key other : SessionKey} (pids : key.pid ≠ other.pid)
    (kind : NameKind) : ¬ Beneath (key.name kind) (other.name .sessionDir) := by
  rintro (same | ⟨rest, inside⟩)
  · exact SessionKey.name_ne (.inl pids) same
  · have dir : other.name .sessionDir = other.sessionDir := List.append_nil _
    rw [dir, List.append_assoc] at inside
    cases under : kind.suffix with
    | some suffix =>
        rw [key.name_eq_append under] at inside
        have starts : ∀ byte ∈ (ascii "/" ++ rest).head?, (byte == 46 || byte == 47) = true := by
          intro byte first
          cases first
          decide
        rcases SessionKey.under_inj (NameKind.suffix_starts under) starts inside with ⟨rfl, _⟩
        exact pids rfl
    | none =>
        have roots := congrArg (List.take 2) inside
        rw [key.take_name] at roots
        have root : (other.sessionDir ++ (ascii "/" ++ rest)).take 2 = ascii "/v" := rfl
        have image : NameKind.imagePath.root = ascii "/v" := rfl
        rw [root, ← image] at roots
        cases NameKind.eq_of_root under roots
        cases under

/-- Whatever the pids and the times of the sessions, and whatever the arrays held: every name
is there in full, the id fits the field of the protocol, names differ between sessions and
between kinds, and none is the directory of another session or beneath it. -/
theorem session_names_apart (time : Int32 → Int64) (before : Int32 → Names) :
    let names := fun pid : Int32 => (before pid).build ⟨pid, time pid⟩
    (∀ pid kind, (names pid).text kind = SessionKey.name ⟨pid, time pid⟩ kind ∧
      (names pid).diskUpper.text = (names pid).text .upper ∧
      (names pid).diskWork.text = (names pid).text .work ∧
      (names pid).sunPath.text = (names pid).text .sockPath ∧
      ((names pid).text .containerId).length ≤ 63) ∧
    (∀ pid pid' kind kind', (pid, kind) ≠ (pid', kind') →
      (names pid).text kind ≠ (names pid').text kind') ∧
    ∀ pid pid' kind, pid ≠ pid' →
      ¬ Beneath ((names pid).text kind) ((names pid').text .sessionDir) := by
  intro names
  have inFull : ∀ pid kind, (names pid).text kind = SessionKey.name ⟨pid, time pid⟩ kind :=
    fun pid kind => (before pid).text_build ⟨pid, time pid⟩ kind
  refine ⟨?_, ?_, ?_⟩
  · intro pid kind
    rcases (before pid).text_disk ⟨pid, time pid⟩ with ⟨upper, work⟩
    have sun := (before pid).text_sunPath ⟨pid, time pid⟩
    refine ⟨inFull pid kind, ?_, ?_, ?_, ?_⟩
    · rw [inFull]
      exact upper
    · rw [inFull]
      exact work
    · rw [inFull]
      exact sun
    · rw [inFull]
      exact Nat.le_of_lt (length_containerId_lt pid (time pid))
  · intro pid pid' kind kind' different
    rw [inFull, inFull]
    apply SessionKey.name_ne
    by_contra same
    rw [not_or, not_not, not_not] at same
    exact different (Prod.ext same.1 same.2)
  · intro pid pid' kind pids
    rw [inFull, inFull]
    exact SessionKey.name_not_beneath pids kind

/-- Two sessions that start in the same second. -/
theorem session_names_apart_same_second :
    (Names.zero.build ⟨7, 100⟩).text .imagePath ≠ (Names.zero.build ⟨71, 100⟩).text .imagePath ∧
      (Names.zero.build ⟨7, 100⟩).text .upper ≠ (Names.zero.build ⟨7, 100⟩).text .work ∧
      ¬ Beneath ((Names.zero.build ⟨7, 100⟩).text .upper)
        ((Names.zero.build ⟨71, 100⟩).text .sessionDir) := by
  have apart := session_names_apart (fun _ => 100) (fun _ => .zero)
  exact ⟨apart.2.1 7 71 .imagePath .imagePath (by decide), apart.2.1 7 7 .upper .work (by decide),
    apart.2.2 7 71 .upper (by decide)⟩

end Caal

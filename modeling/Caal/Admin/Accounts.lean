import Caal.Admin.Readback
import Caal.Lib.LTS

/-!
# The users of the configuration file

`newcaal` and `delcaal` run any number of times on one configuration file. What `caalsh`
looks up in it afterwards is a roster of users with their settings: a creation enters or
replaces a user, a deletion strikes one out, and no other user notices.
-/

namespace Caal

open CMemory LineRanges Toml

/-! ## The roster -/

/-- The users that were created, with their settings. -/
abbrev Roster := List (Bytes × Settings)

namespace Roster

variable {roster : Roster} {username other : Bytes} {settings : Settings}

def without (roster : Roster) (username : Bytes) : Roster :=
  roster.filter fun user => user.1 ≠ username

def names (roster : Roster) : List Bytes :=
  roster.map Prod.fst

theorem without_append (first second : Roster) :
    without (first ++ second) username = first.without username ++ second.without username :=
  List.filter_append ..

theorem names_append (first second : Roster) :
    names (first ++ second) = first.names ++ second.names :=
  List.map_append

theorem mem_without {user : Bytes × Settings} :
    user ∈ roster.without username ↔ user ∈ roster ∧ user.1 ≠ username := by
  simp [without]

theorem notMem_names_without : username ∉ (roster.without username).names := by
  simp [names, without]

theorem names_without_sublist : (roster.without username).names.Sublist roster.names :=
  List.filter_sublist.map Prod.fst

theorem lookup_eq_none : roster.lookup username = none ↔ username ∉ roster.names := by
  rw [List.lookup_eq_none_iff, names, List.mem_map]
  constructor
  · rintro absent ⟨user, member, rfl⟩
    simpa using absent user member
  · intro absent user member
    simpa using fun equal : username = user.1 => absent ⟨user, member, equal.symm⟩

theorem lookup_eq_some (distinct : roster.names.Nodup) :
    roster.lookup username = some settings ↔ (username, settings) ∈ roster := by
  induction roster with
  | nil => simp
  | cons user roster ih =>
      rcases user with ⟨name, set⟩
      rw [names, List.map_cons, List.nodup_cons] at distinct
      rw [List.lookup_cons, List.mem_cons, Prod.mk.injEq]
      by_cases here : username = name
      · have absent : (username, settings) ∉ roster := by
          intro member
          apply distinct.1
          rw [← here]
          exact List.mem_map.mpr ⟨_, member, rfl⟩
        rw [beq_iff_eq.mpr here, or_iff_left absent, and_iff_right here]
        exact ⟨fun found => (Option.some.inj found).symm, fun equal => congrArg some equal.symm⟩
      · rw [beq_eq_false_iff_ne.mpr here, or_iff_right fun both => here both.1]
        exact ih distinct.2

end Roster

/-! ## The runs of the scripts -/

/-- A run of `newcaal` or `delcaal` that comes to the configuration file. -/
inductive Edit where
  | create (username : Bytes) (settings : Settings)
  | delete (username : Bytes)

/-- What `write_toml` makes where there is no file. -/
def newConfig : TextFile where
  lines := [ascii "# CaaL configuration",
    ascii "# Each section maps a unix user to an OCI bundle.", []]
  terminated := true

/-- `write_toml` and `remove_toml`. -/
def Edit.apply (garbled : Bytes → List Bytes → List Bool) (file : Option TextFile) :
    Edit → Option TextFile
  | .create username settings =>
      some (writeToml (.basic garbled) username settings (file.getD newConfig))
  | .delete username => file.map (removeToml (.basic garbled) username)

def Edit.enter (roster : Roster) : Edit → Roster
  | .create username settings => roster.without username ++ [(username, settings)]
  | .delete username => roster.without username

/-- The edits of a configuration file, which may be missing at first. -/
def configFile (garbled : Bytes → List Bytes → List Bool) (start : Option Bytes) :
    LTS (Option TextFile) Edit where
  init file := file = start.map .ofBytes
  step file edit after := after = edit.apply garbled file

/-- A created user has a name without dots and settings that can be written, is no key of
the rest of the configuration, and finds room in its table. -/
structure Enterable (base : Entries) (roster : Roster) (username : Bytes) (settings : Settings) :
    Prop where
  name : BarePart username
  accepted : Accepted username settings
  writable : Writable username settings
  absent : tomlGet username base = none
  room : base.length + (roster.without username).length < tableMax

def Edit.Regular (base : Entries) (roster : Roster) : Edit → Prop
  | .create username settings => Enterable base roster username settings
  | .delete username => BarePart username

/-- The configuration file with the roster of its users. -/
def accounts (garbled : Bytes → List Bytes → List Bool) (start : Option Bytes) (base : Entries) :
    LTS (Option TextFile × Roster) Edit :=
  ((configFile garbled start).recording [] fun _ edit roster => edit.enter roster).restrict
    fun both edit => edit.Regular base both.2

/-! ## The lines of the file -/

theorem dotParts_bare {name : Bytes} (bare : BarePart name) : dotParts name = [name] := by
  have noDot : ∀ {text : Bytes}, (∀ byte ∈ text, bareChar byte = true) →
      dotParts text = [text] := by
    intro text chars
    induction text with
    | nil => rfl
    | cons byte text ih =>
        have dot : byte ≠ 46 := bareChar_ne (chars byte List.mem_cons_self) rfl
        rw [dotParts, if_neg dot,
          ih fun other member => chars other (List.mem_cons_of_mem _ member)]
  exact noDot bare.2

theorem ordinary_bare {name : Bytes} (bare : BarePart name) :
    ∀ byte ∈ name, Bre.ordinary byte = true := by
  intro byte member
  have differs (special : UInt8) (notBare : bareChar special = false) : byte ≠ special :=
    bareChar_ne (bare.2 byte member) notBare
  simp [Bre.ordinary, differs 92 rfl, differs 91 rfl, differs 36 rfl,
    differs 46 rfl, differs 42 rfl]

theorem spliceable_bare {name : Bytes} (bare : BarePart name) : Spliceable name :=
  ⟨fun member => bareChar_ne (bare.2 _ member) rfl rfl,
    fun member => bareChar_ne (bare.2 _ member) rfl rfl⟩

/-- The header of one user is not that of another. -/
theorem namesUser_sectionHeader {username other : Bytes} (bare : BarePart username)
    (otherBare : BarePart other) :
    namesUser username (sectionHeader other) = decide (username = other) := by
  rw [Bool.eq_iff_iff, decide_eq_true_eq, namesUser, List.isPrefixOf_iff_prefix]
  constructor
  · rintro ⟨rest, equal⟩
    simp only [sectionHeader, List.cons_append, List.cons.injEq, true_and,
      List.append_assoc] at equal
    have free : ∀ {name : Bytes}, BarePart name → ∀ byte ∈ name, (byte == 93) = false :=
      fun bare byte member => beq_eq_false_iff_ne.mpr (bareChar_ne (bare.2 byte member) rfl)
    have stops : ∀ rest : Bytes, ∀ byte ∈ (93 :: rest).head?, (byte == 93) = true := by
      intro rest byte head
      cases head
      rfl
    exact (append_inj_of_stop (· == 93) (free bare) (free otherBare) (stops rest) (stops [])
      equal).1
  · rintro rfl
    exact List.prefix_refl _

/-- Lines that the scripts have written behind lines without users: entries, and blank lines
in front of them or left by those that were removed. -/
inductive Written (front : List Bytes) : List Bytes → Roster → Prop where
  | front : Written front front []
  | blank {lines : List Bytes} {roster : Roster} (written : Written front lines roster) :
      Written front (lines ++ [[]]) roster
  | entry {lines : List Bytes} {roster : Roster} (written : Written front lines roster)
      (username : Bytes) (settings : Settings) :
      Written front (lines ++ entryBlock username settings) (roster ++ [(username, settings)])

/-- What the script deletes of such lines is the entry of the user. -/
theorem Written.remove {front lines : List Bytes} {roster : Roster} {username : Bytes}
    (written : Written front lines roster) (plain : ∀ line ∈ front, opensSection line = false)
    (bare : BarePart username) (named : ∀ name ∈ roster.names, BarePart name)
    (distinct : roster.names.Nodup) :
    Written front (keep (deletions (namesUser username) opensSection false lines) lines)
        (roster.without username) ∧
      (activeAfter (namesUser username) opensSection false lines = true →
        username ∈ roster.names) := by
  have missed : ∀ line, opensSection line = false → namesUser username line = false := by
    intro line closed
    by_contra hit
    cases closed.symm.trans (opensSection_of_namesUser (Bool.eq_true_of_not_eq_false hit))
  induction written with
  | front =>
      have idle := @deletions_idle _ opensSection (namesUser username) front
        fun line member => missed line (plain line member)
      rw [idle.1, idle.2, keep_map_false]
      exact ⟨.front, fun inSection => (Bool.false_ne_true inSection).elim⟩
  | @blank lines roster written ih =>
      rcases ih named distinct with ⟨kept, active⟩
      have unhit : namesUser username [] = false := missed [] rfl
      rw [deletions_append, keep_append (length_deletions _ _), activeAfter_append]
      cases range : activeAfter (namesUser username) opensSection false lines with
      | true =>
          refine ⟨?_, fun _ => active range⟩
          change Written front (_ ++ []) _
          rw [List.append_nil]
          exact kept
      | false =>
          simp only [deletions, activeAfter, cycle, unhit, keep, Bool.false_eq_true, if_false]
          exact ⟨kept.blank, fun inSection => inSection.elim⟩
  | @entry lines roster written other settings ih =>
      rw [Roster.names_append, List.nodup_append] at distinct
      have otherBare : BarePart other := named other (by simp [Roster.names])
      rcases ih (fun name member => named name (by
        rw [Roster.names_append]
        exact List.mem_append_left _ member)) distinct.1 with ⟨kept, active⟩
      have header := namesUser_sectionHeader bare otherBare
      have handled : (entryPart other settings).Handled (namesUser username) (namesUser username)
          (activeAfter (namesUser username) opensSection false lines) := by
        refine ⟨rfl, ?_⟩
        split
        case isTrue hit =>
          -- no other entry of the user is in front of this one
          intro range
          have same := of_decide_eq_true (header.symm.trans hit)
          exact (distinct.2.2 username (active range) other (by simp [Roster.names]) same).elim
        case isFalse => exact fun line member => missed line (entryBody_plain line member)
      have deleted := (deletions_part_iff _ (entryPart other settings)).mpr handled
      have range := activeAfter_part handled
      rw [deletions_append, keep_append (length_deletions _ _), activeAfter_append,
        Roster.without_append]
      change Written front (_ ++ keep (deletions _ _ _ (entryPart other settings).lines)
        (entryPart other settings).lines) _ ∧
        (activeAfter _ _ _ (entryPart other settings).lines = _ → _)
      rw [deleted, range]
      change Written front (_ ++ keep ((entryPart other settings).lines.map fun _ =>
        namesUser username (sectionHeader other)) _) _ ∧
        ((namesUser username (sectionHeader other) && _) = true → _)
      rw [header]
      by_cases same : username = other
      · subst same
        have struck : Roster.without [(username, settings)] username = [] := by
          simp [Roster.without]
        rw [decide_eq_true rfl, keep_map_true, struck, List.append_nil, List.append_nil]
        exact ⟨kept, fun _ => by simp [Roster.names]⟩
      · have left : Roster.without [(other, settings)] username = [(other, settings)] := by
          simp [Roster.without, Ne.symm same]
        rw [decide_eq_false same, keep_map_false, Bool.false_and, left]
        exact ⟨kept.entry other settings, fun inSection => (Bool.false_ne_true inSection).elim⟩

/-! ## What the parser makes of them -/

section Parsed

variable {other : Bytes → Option (Datum × Bytes)} {username : Bytes} {settings : Settings}

/-- An entry in front of any text: it opens a section and fills it. -/
theorem parseLoop_entry (accepted : Accepted username settings)
    (writable : Writable username settings) (passes : Nat) (parser : Parser) (more : Bytes) :
    parseLoop other (passes + 5) parser (unlines (entryBlock username settings) ++ more) =
      (openTable (dotParts username) .none parser.toptab).bind fun opened =>
        (addEntries (dotParts username) (entryItems settings settings.bundle) opened).bind
          fun filled => parseLoop other passes ⟨filled, dotParts username⟩ more := by
  have text : unlines (entryBlock username settings) ++ more =
      headerLine username (settingLine (ascii "bundle") 3
        (32 :: 34 :: (settings.bundle ++ 34 :: 10 :: settingLine (ascii "enabled") 2
          (32 :: (settings.enabled ++ 10 :: settingLine (ascii "disk") 5
            (32 :: (settings.disk ++ 10 :: settingLine (ascii "timeout") 2
              (32 :: (settings.timeout ++ 10 :: more))))))))) := by
    simp [unlines, entryBlock, sectionHeader, headerLine, settingLine, ascii, List.replicate]
  have bundle := barePart_setting (ascii "bundle") (by decide)
  have enabled := barePart_setting (ascii "enabled") (by decide)
  have disk := barePart_setting (ascii "disk") (by decide)
  have timeout := barePart_setting (ascii "timeout") (by decide)
  have diskValue := decimalValue_eq_some.mpr ⟨writable.disk, rfl⟩
  have timeoutValue := decimalValue_eq_some.mpr ⟨writable.timeout, rfl⟩
  rw [text, parseLoop_header writable.name]
  apply Option.bind_congr
  intro opened _
  rw [parseLoop_setting bundle, scanLine_space,
    scanLine_string accepted.bundle_unquoted accepted.bundle_some writable.bundle]
  simp only [Option.bind_some, entryItems, laterItems, addEntries, Option.bind_assoc]
  apply Option.bind_congr
  intro bundled _
  rw [parseLoop_setting enabled, scanLine_space, scanLine_enabled accepted]
  simp only [Option.bind_some, parseLoop_digits disk 5 accepted.disk.1 accepted.disk.2,
    parseLoop_digits timeout 2 accepted.timeout.1 accepted.timeout.2, diskValue, timeoutValue]

/-- Behind the lines the parser has these tables and goes on with whatever follows. -/
def Leaves (other : Bytes → Option (Datum × Bytes)) (lines : List Bytes)
    (toptab : Entries) : Prop :=
  ∀ more, ∃ curtab passes, more.length < passes ∧
    tomlParse other (unlines lines ++ more) =
      (parseLoop other passes ⟨toptab, curtab⟩ more).map Parser.toptab

theorem Leaves.parses {lines : List Bytes} {toptab : Entries} (leaves : Leaves other lines toptab) :
    tomlParse other (unlines lines) = some toptab := by
  rcases leaves [] with ⟨curtab, passes, enough, same⟩
  rcases Nat.exists_eq_add_of_le' enough with ⟨later, rfl⟩
  have ended : parseLoop other (later + ([] : Bytes).length.succ) ⟨toptab, curtab⟩ [] =
      some ⟨toptab, curtab⟩ := parseLoop_fin rfl
  rw [List.append_nil, ended] at same
  exact same

theorem Leaves.blank {lines : List Bytes} {toptab : Entries} (leaves : Leaves other lines toptab) :
    Leaves other (lines ++ [[]]) toptab := by
  intro more
  rcases leaves (10 :: more) with ⟨curtab, passes, enough, same⟩
  rcases Nat.exists_eq_add_of_le' (Nat.lt_of_le_of_lt (Nat.zero_le _) enough) with ⟨later, rfl⟩
  refine ⟨curtab, later, by rw [List.length_cons] at enough; omega, ?_⟩
  have text : unlines (lines ++ [[]]) ++ more = unlines lines ++ 10 :: more := by
    rw [unlines_append, List.append_assoc]
    rfl
  rw [text, same, Nat.succ_eq_add_one, parseLoop_endl rfl]
  rfl

/-- The table of a user. -/
def accountTable (user : Bytes × Settings) : Bytes × Datum :=
  (user.1, .table .opened (entryItems user.2 user.2.bundle))

/-- A new user's table is added behind the others. -/
theorem openTable_account {toptab : Entries} (bare : BarePart username)
    (absent : tabFind username toptab = none) (room : toptab.length < tableMax) :
    ((openTable (dotParts username) .none toptab).bind fun opened =>
      addEntries (dotParts username) (entryItems settings settings.bundle) opened) =
        some (toptab ++ [accountTable (username, settings)]) := by
  have distinct : ((entryItems settings settings.bundle).map Prod.fst).Nodup := by
    rw [names_entryItems]
    decide
  let place : Place [username] .none := (Place.here .opened []).behindNew absent
  have opens : openTable [username] .none toptab = some (place.rebuild []) := by
    rw [openTable, absent]
    exact tabAdd_eq_some.mpr ⟨absent, room, rfl⟩
  have fills : addEntries [username] (entryItems settings settings.bundle) (place.rebuild []) =
      some (place.rebuild ([] ++ entryItems settings settings.bundle)) := by
    apply addEntries_eq (by rfl) _ distinct fun _ _ => rfl
    exact (by decide : 0 + 4 ≤ tableMax)
  rw [dotParts_bare bare, opens, Option.bind_some, fills]
  rfl

theorem Leaves.entry {lines : List Bytes} {toptab : Entries} (leaves : Leaves other lines toptab)
    (bare : BarePart username) (accepted : Accepted username settings)
    (writable : Writable username settings) (absent : tabFind username toptab = none)
    (room : toptab.length < tableMax) :
    Leaves other (lines ++ entryBlock username settings)
      (toptab ++ [accountTable (username, settings)]) := by
  intro more
  rcases leaves (unlines (entryBlock username settings) ++ more) with
    ⟨curtab, passes, enough, same⟩
  have long : 5 ≤ (unlines (entryBlock username settings)).length := by
    simp only [unlines, entryBlock, List.flatMap_cons, List.flatMap_nil, List.length_append,
      List.length_singleton]
    omega
  rw [List.length_append] at enough
  rcases Nat.exists_eq_add_of_le' (Nat.le_trans long (Nat.le_of_lt (by omega : _ < passes))) with
    ⟨later, rfl⟩
  refine ⟨dotParts username, later, by omega, ?_⟩
  have added := @openTable_account username settings toptab bare absent room
  rw [unlines_append, List.append_assoc, same, parseLoop_entry accepted writable]
  dsimp only
  rw [← Option.bind_assoc, added]
  rfl

/-- What one needs to know of a user that is in the file. -/
structure Enrolled (base : Entries) (user : Bytes × Settings) : Prop where
  name : BarePart user.1
  accepted : Accepted user.1 user.2
  writable : Writable user.1 user.2
  absent : tomlGet user.1 base = none

theorem tabFind_of_tomlGet {key : Bytes} {entries : Entries} (plain : cstr key = key)
    (absent : tomlGet key entries = none) : tabFind key entries = none := by
  rw [tomlGet_eq_tomlEntry] at absent
  exact (@tabFind_of_tomlEntry key .scalar entries plain).1 (Option.map_eq_none_iff.mp absent)

theorem BarePart.cstr {name : Bytes} (bare : BarePart name) : cstr name = name :=
  cstr_of_zero_free bare.zero_notMem

theorem tabFind_accounts {base : Entries} {roster : Roster} (absent : tabFind username base = none)
    (new : username ∉ roster.names) :
    tabFind username (base ++ roster.map accountTable) = none := by
  induction roster using List.reverseRecOn with
  | nil => simpa using absent
  | append_singleton roster user ih =>
      rw [Roster.names_append, List.mem_append, not_or] at new
      have other : user.1 ≠ username := fun same => new.2 (by simp [Roster.names, same])
      rw [List.map_append, ← List.append_assoc]
      exact (tabFind_append user.1).trans (by rw [ih new.1, if_neg other]; rfl)

/-- The lines that were written leave a table for each user. -/
theorem Written.leaves {front lines : List Bytes} {roster : Roster} {base : Entries}
    (written : Written front lines roster) (begun : Leaves other front base)
    (enrolled : ∀ user ∈ roster, Enrolled base user) (distinct : roster.names.Nodup)
    (room : roster ≠ [] → base.length + roster.length ≤ tableMax) :
    Leaves other lines (base ++ roster.map accountTable) := by
  induction written with
  | front => simpa using begun
  | blank _ ih => exact (ih enrolled distinct room).blank
  | @entry lines roster _ username settings ih =>
      have room := room (List.append_ne_nil_of_right_ne_nil _ (List.cons_ne_nil _ _))
      rw [Roster.names_append, List.nodup_append] at distinct
      rw [List.length_append, List.length_singleton] at room
      have user := enrolled (username, settings) (by simp)
      have new : username ∉ roster.names := fun member =>
        distinct.2.2 username member username (by simp [Roster.names]) rfl
      have before := ih (fun user member => enrolled user (List.mem_append_left _ member))
        distinct.1 (fun _ => by omega)
      have absent := tabFind_accounts (tabFind_of_tomlGet (BarePart.cstr user.name) user.absent) new
      rw [List.map_append, ← List.append_assoc]
      apply before.entry user.name user.accepted user.writable absent
      rw [List.length_append, List.length_map]
      omega

end Parsed

/-! ## The edits -/

section Edits

variable {garbled : Bytes → List Bytes → List Bool} {username : Bytes} {settings : Settings}
  {file after : TextFile} {roster : Roster} {front : List Bytes}

theorem lines_removeBlock (bare : BarePart username) (file : TextFile) :
    (removeBlock (.basic garbled) username file).lines =
      keep (deletions (namesUser username) opensSection false file.lines) file.lines := by
  have hits : Bre.accepts (userPattern username) = namesUser username :=
    funext (accepts_userPattern (ordinary_bare bare))
  have opening : Bre.accepts sectionPattern = opensSection := funext accepts_sectionPattern
  rw [removeBlock]
  dsimp only
  rw [removedLines_eq (spliceable_bare bare) rfl, Tools.basic]
  dsimp only
  rw [hits, opening]

theorem terminated_removeBlock (ends : file.terminated = true) :
    (removeBlock (.basic garbled) username file).terminated = true := by
  rw [removeBlock]
  dsimp only
  rw [ends, Bool.true_or]

/-- A file without sections is left as it is. -/
theorem removeBlock_plain (bare : BarePart username)
    (plain : ∀ line ∈ file.lines, opensSection line = false) :
    removeBlock (.basic garbled) username file = file := by
  have missed : ∀ line ∈ file.lines, Bre.accepts (userPattern username) line = false := by
    intro line member
    rw [accepts_userPattern (ordinary_bare bare)]
    by_contra hit
    cases (plain line member).symm.trans
      (opensSection_of_namesUser (Bool.eq_true_of_not_eq_false hit))
  have idle : removedLines (.basic garbled) username file.lines =
      file.lines.map fun _ => false := by
    rw [removedLines, if_neg]
    rw [List.any_eq_true]
    rintro ⟨line, member, hit⟩
    cases (missed line member).symm.trans hit
  exact removeBlock_of_unmarked idle

/-- What the first creation finds in front of its entry. -/
def firstFile (start : Option Bytes) : TextFile :=
  (start.map .ofBytes).getD newConfig

def frontLines (start : Option Bytes) : List Bytes :=
  (firstFile start).lines ++ separator (firstFile start).terminated

/-- The file before the first creation, which has no section in it. -/
structure Begun (other : Bytes → Option (Datum × Bytes)) (start : Option Bytes) (base : Entries) :
    Prop where
  parses : tomlParse other (firstFile start).bytes = some base
  plain : ∀ line ∈ (firstFile start).lines, opensSection line = false

theorem bytes_firstFile_newline (start : Option Bytes) (more : Bytes) :
    unlines (frontLines start) ++ more = (firstFile start).bytes ++ 10 :: more := by
  have nonempty : (firstFile start).terminated = false → (firstFile start).lines ≠ [] := by
    cases start with
    | none => nofun
    | some text =>
        intro unended lineless
        have empty : unlines (linesOf text) = [] := congrArg unlines lineless
        have written := unlines_linesOf text
        change (text.getLast?.all fun byte => byte == 10) = false at unended
        rw [unended, empty] at written
        exact List.append_ne_nil_of_right_ne_nil _ (List.cons_ne_nil _ _) written.symm
  rw [frontLines, TextFile.bytes, unlines_append]
  cases ends : (firstFile start).terminated with
  | true =>
      rw [if_pos rfl, List.append_assoc]
      rfl
  | false =>
      rw [if_neg Bool.false_ne_true]
      nth_rewrite 1 [← unlines_dropLast (nonempty ends)]
      simp [separator, unlines]

theorem Begun.leaves {other : Bytes → Option (Datum × Bytes)} {start : Option Bytes}
    {base : Entries} (continues : Continues other) (begun : Begun other start base) :
    Leaves other (frontLines start) base := by
  intro more
  rw [bytes_firstFile_newline]
  exact @tomlParse_append _ _ _ continues _ begun.parses

theorem plain_frontLines {start : Option Bytes}
    (plain : ∀ line ∈ (firstFile start).lines, opensSection line = false) :
    ∀ line ∈ frontLines start, opensSection line = false := by
  intro line member
  rcases List.mem_append.mp member with first | blank
  · exact plain line first
  · rw [separator] at blank
    split at blank
    · rw [List.mem_singleton.mp blank]
      rfl
    · cases blank

/-- The file has the entries of the roster, or has not been written. -/
def Filed (start : Option Bytes) (file : Option TextFile) (roster : Roster) : Prop :=
  (file = start.map .ofBytes ∧ roster = []) ∨
    ∃ after, file = some after ∧ after.terminated = true ∧
      Written (frontLines start) after.lines roster

/-- What holds of the file and the roster after any edits. -/
structure Accounted (start : Option Bytes) (base : Entries) (both : Option TextFile × Roster) :
    Prop where
  filed : Filed start both.1 both.2
  enrolled : ∀ user ∈ both.2, Enrolled base user
  distinct : both.2.names.Nodup
  room : both.2 ≠ [] → base.length + both.2.length ≤ tableMax

theorem Accounted.named {start : Option Bytes} {base : Entries} {both : Option TextFile × Roster}
    (accounted : Accounted start base both) : ∀ name ∈ both.2.names, BarePart name := by
  intro name member
  rcases List.mem_map.mp member with ⟨user, found, rfl⟩
  exact (accounted.enrolled user found).name

theorem Filed.delete {start : Option Bytes} {file : Option TextFile}
    (plain : ∀ line ∈ (firstFile start).lines, opensSection line = false)
    (filed : Filed start file roster) (bare : BarePart username)
    (named : ∀ name ∈ roster.names, BarePart name) (distinct : roster.names.Nodup) :
    Filed start (file.map (removeToml (.basic garbled) username)) (roster.without username) := by
  rcases filed with ⟨rfl, rfl⟩ | ⟨after, rfl, ends, written⟩
  · left
    refine ⟨?_, rfl⟩
    cases start with
    | none => rfl
    | some text => exact congrArg some (removeBlock_plain bare plain)
  · right
    refine ⟨_, rfl, terminated_removeBlock ends, ?_⟩
    rw [removeToml, lines_removeBlock bare]
    exact (written.remove (plain_frontLines plain) bare named distinct).1

theorem Filed.create {start : Option Bytes} {file : Option TextFile}
    (plain : ∀ line ∈ (firstFile start).lines, opensSection line = false)
    (filed : Filed start file roster) (bare : BarePart username)
    (named : ∀ name ∈ roster.names, BarePart name) (distinct : roster.names.Nodup)
    (settings : Settings) :
    Filed start (some (writeToml (.basic garbled) username settings (file.getD newConfig)))
      (roster.without username ++ [(username, settings)]) := by
  refine .inr ⟨_, rfl, rfl, ?_⟩
  rcases filed with ⟨rfl, rfl⟩ | ⟨after, rfl, ends, written⟩
  · have untouched : removeBlock (.basic garbled) username (firstFile start) = firstFile start :=
      removeBlock_plain bare plain
    change Written _ ((removeBlock (.basic garbled) username (firstFile start)).lines ++
      (separator (removeBlock (.basic garbled) username (firstFile start)).terminated ++ _)) _
    rw [untouched, ← List.append_assoc]
    exact Written.front.entry username settings
  · change Written _ ((removeBlock (.basic garbled) username after).lines ++
      ((if (removeBlock (.basic garbled) username after).terminated then [[]] else []) ++ _)) _
    rw [terminated_removeBlock ends, if_pos rfl, ← List.append_assoc, lines_removeBlock bare]
    exact (written.remove (plain_frontLines plain) bare named distinct).1.blank.entry _ _

/-- An edit keeps the entries and the roster together. -/
theorem Accounted.step {start : Option Bytes} {base : Entries} {both : Option TextFile × Roster}
    (plain : ∀ line ∈ (firstFile start).lines, opensSection line = false)
    (accounted : Accounted start base both) {edit : Edit} (regular : edit.Regular base both.2) :
    Accounted start base (edit.apply garbled both.1, edit.enter both.2) := by
  rcases both with ⟨file, roster⟩
  cases edit with
  | delete username =>
      have fewer : (roster.without username).length ≤ roster.length := List.length_filter_le _ _
      exact
        { filed := accounted.filed.delete plain regular accounted.named accounted.distinct
          enrolled := fun user member => accounted.enrolled user (Roster.mem_without.mp member).1
          distinct := accounted.distinct.sublist Roster.names_without_sublist
          room := by
            intro left
            have nonempty : roster ≠ [] := by
              rintro rfl
              exact left rfl
            exact Nat.le_trans (Nat.add_le_add_left fewer _) (accounted.room nonempty) }
  | create username settings =>
      have bare := Enterable.name regular
      have new : ((roster.without username ++ [(username, settings)] : Roster)).names.Nodup := by
        rw [Roster.names_append, List.nodup_append]
        refine ⟨accounted.distinct.sublist Roster.names_without_sublist, List.nodup_singleton _, ?_⟩
        rintro name member _ (_ | ⟨_, ⟨⟩⟩) rfl
        exact Roster.notMem_names_without member
      exact
        { filed := accounted.filed.create plain bare accounted.named accounted.distinct settings
          enrolled := by
            intro user member
            rcases List.mem_append.mp member with old | added
            · exact accounted.enrolled user (Roster.mem_without.mp old).1
            · rw [List.mem_singleton.mp added]
              exact ⟨bare, Enterable.accepted regular, Enterable.writable regular,
                Enterable.absent regular⟩
          distinct := new
          room := by
            intro _
            have room : base.length + (roster.without username).length < tableMax :=
              Enterable.room regular
            change base.length + (roster.without username ++ [(username, settings)]).length ≤ _
            rw [List.length_append, List.length_singleton]
            omega }

theorem reachable_edit {start : Option Bytes} {base : Entries} {file : Option TextFile}
    (reached : (accounts garbled start base).Reachable (file, roster)) (edit : Edit)
    (regular : edit.Regular base roster) :
    (accounts garbled start base).Reachable (edit.apply garbled file, edit.enter roster) :=
  reached.step ⟨regular, rfl, rfl⟩

theorem accounted_of_reachable {start : Option Bytes} {base : Entries}
    (plain : ∀ line ∈ (firstFile start).lines, opensSection line = false)
    {both : Option TextFile × Roster}
    (reached : (accounts garbled start base).Reachable both) : Accounted start base both := by
  apply reached.invariant
  · rintro ⟨file, roster⟩ ⟨initial, empty⟩
    dsimp only at empty
    subst empty
    exact
      { filed := .inl ⟨initial, rfl⟩
        enrolled := nofun
        distinct := List.nodup_nil
        room := fun nonempty => (nonempty rfl).elim }
  · rintro both edit ⟨file, roster⟩ accounted ⟨regular, applied, entered⟩
    dsimp only at applied entered
    rw [applied, entered]
    exact accounted.step plain regular

end Edits

/-! ## What caalsh looks up in it -/

section LookedUp

variable {other : Bytes → Option (Datum × Bytes)} {base : Entries} {roster : Roster}
  {username : Bytes} {settings : Settings}

/-- What `caalsh` is to take from the entry of a user. -/
def Settings.config (settings : Settings) : UserConfig where
  bundlePath := settings.bundle
  enabled := settings.enabled == ascii "true"
  timeout := ofDecimalDigits settings.timeout
  diskSizeMb := ofDecimalDigits settings.disk

/-- A user of the roster has its settings, and any other what the file had before. -/
def Roster.lookUp (roster : Roster) (base : Entries) (username : Bytes) :
    Except Refusal UserConfig :=
  match roster.lookup username with
  | some settings => .ok settings.config
  | none => lookUpUser base username

theorem tomlGet_accounts {key : Bytes} (named : ∀ name ∈ roster.names, BarePart name) :
    tomlGet key (base ++ roster.map accountTable) =
      (tomlGet key base).or ((roster.lookup key).map fun settings =>
        .table .opened (entryItems settings settings.bundle)) := by
  rw [tomlGet_append_entries]
  congr 1
  induction roster with
  | nil => rfl
  | cons user roster ih =>
      rw [List.map_cons, accountTable, tomlGet, BarePart.cstr (named user.1 List.mem_cons_self),
        List.lookup_cons]
      by_cases here : user.1 = key
      · rw [if_pos here, beq_iff_eq.mpr here.symm]
        rfl
      · rw [if_neg here, beq_eq_false_iff_ne.mpr (Ne.symm here)]
        exact ih fun name member => named name (List.mem_cons_of_mem _ member)

/-- Behind a setting there is nothing. -/
theorem seekFrom_entryItems_deep (first second : Bytes) (path : List Bytes) :
    seekFrom (first :: second :: path) (.table .opened (entryItems settings settings.bundle)) =
      none := by
  have leaf : ∀ entry ∈ entryItems settings settings.bundle,
      seekFrom (second :: path) entry.2 = none := by
    simp [entryItems, laterItems, seekFrom]
  rw [seekFrom]
  generalize entryItems settings settings.bundle = items at leaf
  induction items with
  | nil => rfl
  | cons entry items ih =>
      rw [tomlGet]
      split
      · exact leaf entry List.mem_cons_self
      · exact ih fun other member => leaf other (List.mem_cons_of_mem _ member)

theorem lookUpUser_congr {first second : Entries}
    (same : ∀ name ∈ settingNames,
      seekFrom (dotParts username ++ [name]) (.table .none first) =
        seekFrom (dotParts username ++ [name]) (.table .none second)) :
    lookUpUser first username = lookUpUser second username := by
  rw [lookUpUser.eq_def, lookUpUser.eq_def]
  by_cases long : 32 < username.length
  · rw [if_pos long, if_pos long]
  · have found : ∀ name ∈ settingNames, tomlSeek (seekPath username name) first =
        tomlSeek (seekPath username name) second := by
      intro name member
      rw [tomlSeek_setting (Nat.not_lt.mp long) member,
        tomlSeek_setting (Nat.not_lt.mp long) member]
      exact same name member
    rw [if_neg long, if_neg long, found (ascii "bundle") (by decide),
      found (ascii "enabled") (by decide), found (ascii "timeout") (by decide),
      found (ascii "disk") (by decide)]

theorem lookUpUser_stranger (named : ∀ name ∈ roster.names, BarePart name)
    (absent : ∀ name ∈ roster.names, tomlGet name base = none)
    (stranger : username ∉ roster.names) :
    lookUpUser (base ++ roster.map accountTable) username = lookUpUser base username := by
  apply lookUpUser_congr
  intro name _
  cases parts : dotParts username with
  | nil => exact (dotParts_ne_nil username parts).elim
  | cons first path =>
      rw [List.cons_append, seekFrom, seekFrom, tomlGet_accounts named]
      cases account : roster.lookup first with
      | none => rw [Option.map_none, Option.or_none]
      | some settings =>
          have member : first ∈ roster.names := by
            by_contra missing
            cases account.symm.trans (Roster.lookup_eq_none.mpr missing)
          cases path with
          | nil =>
              have whole : first = username := by
                rw [← keyText_dotParts username, parts, keyText]
                exact (List.append_nil first).symm
              exact (stranger (whole ▸ member)).elim
          | cons second path =>
              rw [absent first member]
              cases path <;> exact seekFrom_entryItems_deep second _ _

theorem lookUpUser_account (named : ∀ name ∈ roster.names, BarePart name)
    (user : Enrolled base (username, settings)) (account : roster.lookup username = some settings) :
    lookUpUser (base ++ roster.map accountTable) username = .ok settings.config := by
  have distinct : ((entryItems settings settings.bundle).map Prod.fst).Nodup := by
    rw [names_entryItems]
    decide
  have seek (name : Bytes) (value : Datum)
      (member : (name, value) ∈ entryItems settings settings.bundle) :
      tomlSeek (seekPath username name) (base ++ roster.map accountTable) = some value := by
    have setting : name ∈ settingNames := List.mem_map_of_mem (f := Prod.fst) member
    rw [tomlSeek_setting user.writable.short setting, dotParts_bare user.name]
    change (tomlGet username _).bind (seekFrom [name]) = _
    rw [tomlGet_accounts named, user.absent, account]
    change (tomlGet name (entryItems settings settings.bundle)).bind (seekFrom []) = _
    have found : tomlGet name (entryItems settings settings.bundle) = some value :=
      tomlGet_of_mem plain_setting distinct member
    rw [found]
    rfl
  have bundle := seek (ascii "bundle") (.string settings.bundle) (by simp [entryItems])
  have enabled := seek (ascii "enabled") (.boolean (settings.enabled == ascii "true"))
    (by simp [entryItems, laterItems])
  have disk := seek (ascii "disk") (.int64 (ofDecimalDigits settings.disk))
    (by simp [entryItems, laterItems])
  have timeout := seek (ascii "timeout") (.int64 (ofDecimalDigits settings.timeout))
    (by simp [entryItems, laterItems])
  have text : cstr settings.bundle = settings.bundle := by
    apply cstr_of_zero_free
    intro zero
    rcases (user.writable.bundle 0 zero).1 with valid | tab
    · cases valid
    · cases tab
  have sized : (0 : Int) < ofDecimalDigits settings.disk := by exact_mod_cast user.writable.sized
  refine lookUpUser_eq_ok.mpr ⟨user.writable.short, settings.bundle, bundle, ?_, ?_⟩
  · rw [text]
    exact user.accepted.absolute
  · rw [text, enabled, disk, timeout]
    simp only [Settings.config, readEnabled, readTimeout, readDiskSize, if_pos sized]

/-- A file that has the entries of a roster parses. Each user of the roster is looked up with its
settings; other users, and other keys, are looked up as in the file that was there before. -/
theorem Accounted.looked_up (continues : Continues other) {start : Option Bytes}
    (begun : Begun other start base) {file : TextFile}
    (accounted : Accounted start base (some file, roster)) :
    ∃ toptab, tomlParse other file.bytes = some toptab ∧
      (∀ username, lookUpUser toptab username = roster.lookUp base username) ∧
      ∀ key, key ∉ roster.names → tomlGet key toptab = tomlGet key base := by
  refine ⟨base ++ roster.map accountTable, ?_, ?_, ?_⟩
  · rcases accounted.filed with ⟨untouched, unlisted⟩ | ⟨after, fileEq, ends, written⟩
    · cases start with
      | none => cases untouched
      | some text =>
          cases untouched
          dsimp only at unlisted
          rw [unlisted, List.map_nil, List.append_nil]
          exact begun.parses
    · cases fileEq
      rw [TextFile.bytes, if_pos ends]
      exact (written.leaves (begun.leaves continues) accounted.enrolled accounted.distinct
        accounted.room).parses
  · intro username
    rw [Roster.lookUp.eq_def]
    cases account : roster.lookup username with
    | some settings =>
        have member := (Roster.lookup_eq_some accounted.distinct).mp account
        exact lookUpUser_account accounted.named (accounted.enrolled _ member) account
    | none =>
        apply lookUpUser_stranger accounted.named _ (Roster.lookup_eq_none.mp account)
        intro name found
        rcases List.mem_map.mp found with ⟨user, member, rfl⟩
        exact (accounted.enrolled user member).absent
  · intro key missing
    rw [tomlGet_accounts accounted.named, Roster.lookup_eq_none.mpr missing, Option.map_none,
      Option.or_none]

/-- After any edits the file parses, and the roster is what is looked up in it. -/
theorem accounts_looked_up (continues : Continues other) {garbled : Bytes → List Bytes → List Bool}
    {start : Option Bytes} (begun : Begun other start base) {file : TextFile}
    (reached : (accounts garbled start base).Reachable (some file, roster)) :
    ∃ toptab, tomlParse other file.bytes = some toptab ∧
      (∀ username, lookUpUser toptab username = roster.lookUp base username) ∧
      ∀ key, key ∉ roster.names → tomlGet key toptab = tomlGet key base :=
  (accounted_of_reachable begun.plain reached).looked_up continues begun

end LookedUp

theorem enterable_dev (roster : Roster) (few : roster.length < tableMax) :
    Enterable [] roster (ascii "dev") (devSettings (ascii "600")) where
  name := by decide
  accepted := devSettings_accepted ⟨by decide, List.all_eq_true.mp (by decide)⟩
  writable :=
    { name := by decide
      short := by decide
      bundle := fun byte member => of_decide_eq_true
        (List.all_eq_true.mp (by decide : (ascii "/srv/dev").all (PlainChar ·) = true) byte member)
      timeout := ⟨by decide, by decide +kernel⟩
      disk := ⟨by decide, by decide +kernel⟩
      sized := by decide +kernel }
  absent := rfl
  room := by
    have fewer : (roster.without (ascii "dev")).length ≤ roster.length := List.length_filter_le _ _
    rw [List.length_nil, Nat.zero_add]
    exact Nat.lt_of_le_of_lt fewer few

/-- A user is created in a new file, deleted, and created again. -/
def devAgain : List Edit :=
  [.create (ascii "dev") (devSettings (ascii "600")), .delete (ascii "dev"),
    .create (ascii "dev") (devSettings (ascii "600"))]

theorem accounts_looked_up_devAgain :
    ∃ file toptab, devAgain.foldl (fun file edit => edit.apply (fun _ _ => []) file) none =
        some file ∧
      tomlParse (fun _ => none) file.bytes = some toptab ∧
      lookUpUser toptab (ascii "dev") = .ok (devSettings (ascii "600")).config ∧
      lookUpUser toptab (ascii "web") = .error .notConfigured := by
  have continues : Continues fun _ => none := by
    intro _ _ _ _ found
    cases found
  have header : (tomlParse (fun _ => none) newConfig.bytes).map List.length = some 0 := by
    decide +kernel
  rcases Option.map_eq_some_iff.mp header with ⟨base, parses, empty⟩
  rw [List.length_eq_zero_iff] at empty
  subst empty
  have begun : Begun (fun _ => none) none [] :=
    ⟨parses, fun line member => by
      simpa using List.all_eq_true.mp (by decide : newConfig.lines.all (!opensSection ·) = true)
        line member⟩
  have absent : (accounts (fun _ _ => []) none []).Reachable (none, []) := .of_init ⟨rfl, rfl⟩
  have created := reachable_edit absent (.create _ _) (enterable_dev [] (by decide))
  have deleted := reachable_edit created (.delete (ascii "dev")) (by decide : BarePart _)
  have reached := reachable_edit deleted (.create _ _) (enterable_dev _ (by decide))
  rcases accounts_looked_up @continues begun reached with ⟨toptab, parsed, looked, _⟩
  exact ⟨_, toptab, rfl, parsed, (looked (ascii "dev")).trans rfl, (looked (ascii "web")).trans rfl⟩

end Caal

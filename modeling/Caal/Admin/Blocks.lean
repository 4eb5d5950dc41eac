import Caal.Daemon.Table
import Caal.Lib.Bre
import Caal.Lib.LineRanges

/-!
# The entries of users in the configuration file

`write_toml` of `newcaal.sh` and `remove_toml` of `delcaal.sh`: both delete the entry of a
user with the same `sed` script, into which the username is spliced. What `grep` and `sed`
take a regular expression to match are arguments, and so is what `sed` makes of a script
that the username has turned into another one.
-/

namespace Caal

open CMemory LineRanges

/-- The configuration file as the scripts see it: its lines, and whether the last one ends
in a newline. -/
structure TextFile where
  lines : List Bytes
  terminated : Bool

/-- A line that opens a section. -/
def opensSection (line : Bytes) : Bool :=
  line.head? == some 91

/-- `[username]`. -/
def sectionHeader (username : Bytes) : Bytes :=
  91 :: (username ++ [93])

/-- The header of the section of a user, with any text behind it. -/
def namesUser (username line : Bytes) : Bool :=
  (sectionHeader username).isPrefixOf line

/-- `^\[username\]`, as the scripts splice it. -/
def userPattern (username : Bytes) : Bytes :=
  [94, 92, 91] ++ (username ++ [92, 93])

/-- `^\[`. -/
def sectionPattern : Bytes :=
  [94, 92, 91]

/-- The username leaves the script the one that was meant: it neither ends the regular
expression nor the line. -/
def Spliceable (username : Bytes) : Prop :=
  47 ∉ username ∧ 10 ∉ username

instance (username : Bytes) : Decidable (Spliceable username) :=
  inferInstanceAs (Decidable (_ ∧ _))

/-- The settings of a user as `newcaal` writes them. -/
structure Settings where
  bundle : Bytes
  enabled : Bytes
  disk : Bytes
  timeout : Bytes

/-- What `write_toml` appends behind a blank line. -/
def entryBlock (username : Bytes) (settings : Settings) : List Bytes :=
  [sectionHeader username,
    ascii "bundle    = \"" ++ (settings.bundle ++ ascii "\""),
    ascii "enabled   = " ++ settings.enabled,
    ascii "disk      = " ++ settings.disk,
    ascii "timeout   = " ++ settings.timeout]

/-- The lines in which `grep` and `sed` find an expression; the two do not read all of them
alike. `garbled` is which lines `sed` deletes when the username has made another script of it. -/
structure Tools where
  grep : Bytes → Bytes → Bool
  sed : Bytes → Bytes → Bool
  garbled : Bytes → List Bytes → List Bool

/-- Both read a basic regular expression. -/
def Tools.basic (garbled : Bytes → List Bytes → List Bool) : Tools :=
  ⟨Bre.accepts, Bre.accepts, garbled⟩

section Scripts

variable (tools : Tools)

/-- Which lines are deleted: none if `grep -q` finds no entry, and otherwise those that
`sed -i "/^\[u\]/,/^\[/{//!d}; /^\[u\]/d"` deletes. -/
def removedLines (username : Bytes) (lines : List Bytes) : List Bool :=
  if lines.any (tools.grep (userPattern username)) then
    if Spliceable username then
      deletions (tools.sed (userPattern username)) (tools.sed sectionPattern) false lines
    else tools.garbled username lines
  else lines.map fun _ => false

/-- The removal that both scripts share. -/
def removeBlock (username : Bytes) (file : TextFile) : TextFile where
  lines := keep (removedLines tools username file.lines) file.lines
  terminated := file.terminated || (removedLines tools username file.lines).getLast? == some true

/-- `write_toml`, on a file that exists. -/
def writeToml (username : Bytes) (settings : Settings) (file : TextFile) : TextFile where
  lines := (removeBlock tools username file).lines ++
    ((if (removeBlock tools username file).terminated then [[]] else []) ++
      entryBlock username settings)
  terminated := true

/-- `remove_toml`, on a file that exists. -/
def removeToml (username : Bytes) (file : TextFile) : TextFile :=
  removeBlock tools username file

variable {tools}

/-- Where `grep` reads the expression as `sed` does, `sed` alone would delete the same lines. -/
theorem removedLines_eq {username : Bytes} (spliceable : Spliceable username)
    (alike : tools.grep (userPattern username) = tools.sed (userPattern username))
    (lines : List Bytes) :
    removedLines tools username lines =
      deletions (tools.sed (userPattern username)) (tools.sed sectionPattern) false lines := by
  rw [removedLines, if_pos spliceable, alike]
  split
  case isTrue => rfl
  case isFalse missed =>
    rw [Bool.not_eq_true, List.any_eq_false] at missed
    exact (deletions_idle fun line member => Bool.not_eq_true _ ▸ missed line member).1.symm

/-- A file of which nothing is deleted. -/
theorem removeBlock_of_unmarked {username : Bytes} {file : TextFile}
    (unmarked : removedLines tools username file.lines = file.lines.map fun _ => false) :
    removeBlock tools username file = file := by
  have last : ((file.lines.map fun _ => false).getLast? == some true) = false := by
    rw [beq_eq_false_iff_ne]
    intro last
    rcases List.mem_map.mp (List.mem_of_getLast? last) with ⟨_, _, marked⟩
    cases marked
  rw [removeBlock, unmarked, keep_map_false, last, Bool.or_false]

end Scripts

/-! ## One user's entry -/

/-- The blank line that `write_toml` puts before an entry; it only ends the last line of a
file whose last line has no newline. -/
def separator (terminated : Bool) : List Bytes :=
  if terminated then [[]] else []

/-- Editing a user leaves the others alone: exactly the section of the user is removed, and
removing an entry that was added to a file without one gives the old lines back. -/
structure EditsOnly (tools : Tools) (username : Bytes) (settings : Settings)
    (text : Text opensSection) (terminated : Bool) : Prop where
  removes : removedLines tools username text.lines = text.deletions (namesUser username)
  restores : (∀ part ∈ text.parts, namesUser username part.header = false) →
    (removeToml tools username
      (writeToml tools username settings ⟨text.lines, terminated⟩)).lines =
      text.lines ++ separator terminated

/-- What `remove_toml` then leaves of a file is the file without the sections of the user. -/
theorem EditsOnly.lines_removeToml {tools : Tools} {username : Bytes} {settings : Settings}
    {text : Text opensSection} {terminated : Bool}
    (edits : EditsOnly tools username settings text terminated) :
    (removeToml tools username ⟨text.lines, terminated⟩).lines =
      (text.without (namesUser username)).lines := by
  change keep (removedLines tools username text.lines) text.lines = _
  rw [edits.removes]
  exact keep_deletions text

/-- The spliced expression finds the section of the user, and nothing outside it. Where `grep`
finds nothing, `sed` does not run. -/
structure FindsOnly (tools : Tools) (username : Bytes) (settings : Settings)
    (text : Text opensSection) (terminated : Bool) : Prop where
  selective : text.lines.any (tools.grep (userPattern username)) = true →
    Selective (tools.sed (userPattern username)) (namesUser username) text
  missed : text.lines.any (tools.grep (userPattern username)) = false →
    ∀ part ∈ text.parts, namesUser username part.header = false
  appended : (∀ part ∈ text.parts, namesUser username part.header = false) →
    (text.lines ++ (separator terminated ++ entryBlock username settings)).any
        (tools.grep (userPattern username)) = true ∧
      (∀ line ∈ text.lines ++ separator terminated,
        tools.sed (userPattern username) line = false) ∧
      tools.sed (userPattern username) (sectionHeader username) = true

section Entry

variable {tools : Tools} {username : Bytes} {settings : Settings}

/-- The lines of an entry behind its header. -/
def entryBody (settings : Settings) : List Bytes :=
  (entryBlock [] settings).tail

theorem entryBody_plain : ∀ line ∈ entryBody settings, opensSection line = false := by
  simp [entryBody, entryBlock, opensSection, ascii]

/-- An entry as a part of the file. -/
def entryPart (username : Bytes) (settings : Settings) : Part opensSection where
  header := sectionHeader username
  body := entryBody settings
  opening := rfl
  plain := entryBody_plain

/-- Editing a user leaves the others alone exactly if the spliced expression finds the
section of the user and nothing outside it. -/
theorem editsOnly_iff (opening : ∀ line, tools.sed sectionPattern line = opensSection line)
    (spliceable : Spliceable username) (text : Text opensSection) (terminated : Bool) :
    EditsOnly tools username settings text terminated ↔
      FindsOnly tools username settings text terminated := by
  have opening : tools.sed sectionPattern = opensSection := funext opening
  have removes : removedLines tools username text.lines = text.deletions (namesUser username) ↔
      (text.lines.any (tools.grep (userPattern username)) = true →
        Selective (tools.sed (userPattern username)) (namesUser username) text) ∧
      (text.lines.any (tools.grep (userPattern username)) = false →
        ∀ part ∈ text.parts, namesUser username part.header = false) := by
    rw [removedLines, if_pos spliceable, opening]
    cases text.lines.any (tools.grep (userPattern username)) with
    | true =>
        rw [if_pos rfl, deletions_iff text]
        exact ⟨fun selective => ⟨fun _ => selective, nofun⟩, fun both => both.1 rfl⟩
    | false =>
        rw [if_neg Bool.false_ne_true, eq_comm, deletions_none_iff text]
        exact ⟨fun absent => ⟨nofun, fun _ => absent⟩, fun both => both.2 rfl⟩
  have restores (removed : removedLines tools username text.lines =
        text.deletions (namesUser username))
      (absent : ∀ part ∈ text.parts, namesUser username part.header = false) :
      (removeToml tools username
        (writeToml tools username settings ⟨text.lines, terminated⟩)).lines =
        text.lines ++ separator terminated ↔
      (text.lines ++ (separator terminated ++ entryBlock username settings)).any
          (tools.grep (userPattern username)) = true ∧
        (∀ line ∈ text.lines ++ separator terminated,
          tools.sed (userPattern username) line = false) ∧
        tools.sed (userPattern username) (sectionHeader username) = true := by
    rw [(deletions_none_iff text).mpr absent] at removed
    have unchanged : removeBlock tools username ⟨text.lines, terminated⟩ =
        ⟨text.lines, terminated⟩ := removeBlock_of_unmarked removed
    rw [removeToml, writeToml, unchanged, removeBlock]
    change keep (removedLines tools username
      (text.lines ++ (separator terminated ++ entryBlock username settings)))
      (text.lines ++ (separator terminated ++ entryBlock username settings)) = _ ↔ _
    rw [removedLines, if_pos spliceable, opening]
    cases (text.lines ++ (separator terminated ++ entryBlock username settings)).any
        (tools.grep (userPattern username)) with
    | true =>
        rw [if_pos rfl, ← List.append_assoc]
        exact (@keep_part_iff _ _ _ _ (entryPart username settings)).trans
          (and_iff_right rfl).symm
    | false =>
        rw [if_neg Bool.false_ne_true, keep_map_false, ← List.append_assoc,
          List.append_right_eq_self]
        exact iff_of_false nofun fun both => Bool.false_ne_true both.1
  constructor
  · intro edits
    have found := removes.mp edits.removes
    exact ⟨found.1, found.2,
      fun absent => (restores edits.removes absent).mp (edits.restores absent)⟩
  · intro finds
    have removed := removes.mpr ⟨finds.selective, finds.missed⟩
    exact ⟨removed, fun absent => (restores removed absent).mpr (finds.appended absent)⟩

end Entry

/-! ## Ordinary usernames -/

/-- With characters that stand for themselves the expression is the header. -/
theorem accepts_userPattern {username : Bytes}
    (self : ∀ byte ∈ username, Bre.ordinary byte = true) (line : Bytes) :
    Bre.accepts (userPattern username) line = namesUser username line := by
  have header : Bre.tokens (92 :: 91 :: (username ++ [92, 93])) =
      some ((sectionHeader username).map fun byte => Bre.Token.atom (.byte byte)) := by
    have close : Bre.tokens [92, 93] = some [.atom (.byte 93)] := by decide
    rw [Bre.tokens_escape (by decide), Bre.tokens_append self, close]
    simp [sectionHeader]
  exact (Bre.accepts_anchored header line).trans (Bre.begins_bytes (sectionHeader username) line)

theorem accepts_sectionPattern (line : Bytes) :
    Bre.accepts sectionPattern line = opensSection line := by
  have header : Bre.tokens [92, 91] = some ([91].map fun byte => Bre.Token.atom (.byte byte)) := by
    decide
  rw [sectionPattern, Bre.accepts_anchored header, Bre.begins_bytes]
  cases line with
  | nil => rfl
  | cons byte line => simp [opensSection, List.isPrefixOf, Bool.beq_comm]

theorem opensSection_of_namesUser {username line : Bytes}
    (named : namesUser username line = true) : opensSection line = true := by
  cases line with
  | nil => cases named
  | cons byte line =>
      simp only [namesUser, sectionHeader, List.isPrefixOf, Bool.and_eq_true, beq_iff_eq] at named
      rw [opensSection, ← named.1]
      rfl

/-- A user whose name has only such characters is edited alone if no two of its sections
follow one another. -/
theorem findsOnly_of_ordinary {username : Bytes}
    (self : ∀ byte ∈ username, Bre.ordinary byte = true) {text : Text opensSection}
    (apart : Apart (namesUser username) (namesUser username) false text.parts)
    (garbled : Bytes → List Bytes → List Bool) (settings : Settings) (terminated : Bool) :
    FindsOnly (.basic garbled) username settings text terminated := by
  have hits : Bre.accepts (userPattern username) = namesUser username :=
    funext (accepts_userPattern self)
  have missed : ∀ line, opensSection line = false → namesUser username line = false := by
    intro line closed
    by_contra named
    cases closed.symm.trans (opensSection_of_namesUser (Bool.eq_true_of_not_eq_false named))
  have selective : Selective (namesUser username) (namesUser username) text :=
    ⟨fun line member => missed line (text.plain line member), fun _ _ => rfl,
      fun part _ _ line member => missed line (part.plain line member), apart⟩
  have unfound (absent : ∀ part ∈ text.parts, namesUser username part.header = false) :
      ∀ line ∈ text.lines, namesUser username line = false := by
    intro line member
    rcases List.mem_append.mp member with before | inside
    · exact selective.preamble line before
    · rcases List.mem_flatMap.mp inside with ⟨part, found, within⟩
      rcases List.mem_cons.mp within with rfl | body
      · exact absent part found
      · exact selective.bodies part found (absent part found) line body
  have header : namesUser username (sectionHeader username) = true := by simp [namesUser]
  rw [Tools.basic]
  constructor
  · intro _
    dsimp only
    rw [hits]
    exact selective
  · intro nothing part member
    dsimp only at nothing
    rw [hits, List.any_eq_false] at nothing
    have inside : part.header ∈ text.lines :=
      List.mem_append_right _ (List.mem_flatMap.mpr ⟨part, member, List.mem_cons_self⟩)
    exact Bool.not_eq_true _ ▸ nothing part.header inside
  · intro absent
    dsimp only
    rw [hits, List.any_eq_true]
    refine ⟨⟨sectionHeader username, ?_, header⟩, ?_, header⟩
    · simp [entryBlock]
    · intro line member
      rcases List.mem_append.mp member with before | blank
      · exact unfound absent line before
      · apply missed
        cases terminated with
        | false => cases blank
        | true =>
            cases List.mem_singleton.mp blank
            rfl

/-- Two users, and a username in which a character does not stand for itself. -/
def twoUsers : Text opensSection where
  preamble := []
  parts :=
    [⟨[91, 97, 120, 98, 93], [[100]], rfl, by decide⟩,
      ⟨[91, 100, 101, 118, 93], [[101]], rfl, by decide⟩]
  plain := nofun

theorem editsOnly_iff_ordinary :
    EditsOnly (.basic fun _ _ => []) [100, 101, 118]
      ⟨[47, 98], [116, 114, 117, 101], [49], [54, 48]⟩ twoUsers true := by
  have apart : Apart (namesUser [100, 101, 118]) (namesUser [100, 101, 118]) false
      twoUsers.parts := by
    simp [twoUsers, Apart, namesUser, sectionHeader]
  exact (editsOnly_iff accepts_sectionPattern (by decide) twoUsers true).mpr
    (findsOnly_of_ordinary (List.all_eq_true.mp rfl) apart _ _ true)

theorem section_of_other_removed :
    ¬ ∀ (tools : Tools) (username : Bytes) (settings : Settings) (text : Text opensSection)
      (terminated : Bool),
      (∀ line, tools.sed sectionPattern line = opensSection line) → Spliceable username →
      EditsOnly tools username settings text terminated := by
  intro always
  have edits := always (.basic fun _ _ => []) [97, 46, 98] ⟨[], [], [], []⟩ twoUsers true
    accepts_sectionPattern (by decide)
  exact absurd edits.removes (by decide)

end Caal

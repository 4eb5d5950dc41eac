import Caal.Admin.Provision
import Mathlib.Data.List.DropRight

/-!
# What an administrator enters

The front of `newcaal.sh` and `delcaal.sh`: the command line, the questions and the menu. What
comes through is what the rest of `newcaal` expects, and all that it expects can be entered.
`delcaal` goes on only for a user that is named and with a yes.
-/

namespace Caal

open CMemory Toml

/-! ## The command line -/

/-- Why a script ends before it has done anything. -/
inductive Misuse where
  | unknownOption (arg : Bytes)
  | unexpected (arg : Bytes)
  | noUsername
  | notRoot
  | notAbsolute
  | badTimeout
  | badDiskSize
  /-- `read` has come to the end of its input, under `set -e`. -/
  | endOfInput
  /-- `_fallback_menu` asks for ever. -/
  | undecided
  | aborted

/-- `-y|--yes`. -/
def isFlag (arg : Bytes) : Bool :=
  arg == ascii "-y" || arg == ascii "--yes"

/-- The loop over the arguments, with `username` and `yes_mode`. -/
def parseArgs : Bytes → Bool → List Bytes → Except Misuse (Bytes × Bool)
  | username, yes, [] => .ok (username, yes)
  | username, yes, arg :: args =>
      if isFlag arg = true then parseArgs username true args
      else if arg.head? = some 45 then .error (.unknownOption arg)
      else if username = [] then parseArgs arg yes args
      else .error (.unexpected arg)

/-- The command line of both scripts, for root or for somebody else. -/
def commandLine (root : Bool) (args : List Bytes) : Except Misuse (Bytes × Bool) :=
  match parseArgs [] false args with
  | .error misuse => .error misuse
  | .ok (username, yes) =>
      if username = [] then .error .noUsername
      else if root = false then .error .notRoot
      else .ok (username, yes)

/-! ## Questions -/

/-- The blanks that `read` removes around an answer. -/
def isBlank (byte : UInt8) : Bool :=
  byte == 32 || byte == 9

def trim (line : Bytes) : Bytes :=
  (line.dropWhile isBlank).rdropWhile isBlank

/-- A line that `read` reads. It passes over NULs. -/
def nextLine : Bytes → Option (Bytes × Bytes)
  | [] => none
  | byte :: rest =>
      if byte = 10 then some ([], rest)
      else
        (nextLine rest).map fun (line, behind) => (if byte = 0 then line else byte :: line, behind)

/-- `ask`, with the answer and the input behind it. -/
def ask (default input : Bytes) : Except Misuse (Bytes × Bytes) :=
  match nextLine input with
  | none => .error .endOfInput
  | some (line, rest) => .ok (if trim line = [] then default else trim line, rest)

/-! ## The menu -/

/-- What `key_input` prints for a key. -/
inductive MenuKey where
  | up
  | down
  | enter
  | another
  deriving DecidableEq

/-- The loop of `_arrow_key_menu`. -/
def arrowKeyMenu (options : Nat) : Nat → List MenuKey → Nat
  -- a `read` at the end of the input leaves `key` empty, as the return key does
  | selected, [] => selected
  | selected, .enter :: _ => selected
  | selected, .up :: keys =>
      arrowKeyMenu options (if selected = 0 then options - 1 else selected - 1) keys
  | selected, .down :: keys =>
      arrowKeyMenu options (if options ≤ selected + 1 then 0 else selected + 1) keys
  | selected, .another :: keys => arrowKeyMenu options selected keys

/-- The test in the loop of `_fallback_menu`. -/
def Offered (options : Nat) (selection : Bytes) : Prop :=
  isNumber selection = true ∧ 1 ≤ ofDecimalDigits selection ∧ ofDecimalDigits selection ≤ options

instance (options : Nat) (selection : Bytes) : Decidable (Offered options selection) :=
  inferInstanceAs (Decidable (_ ∧ _ ∧ _))

/-- The loop of `_fallback_menu`, over what is read into `selection`. It does not end with
its input. -/
def fallbackMenu (options : Nat) : List Bytes → Option Nat
  | [] => none
  | selection :: selections =>
      if Offered options selection then some (ofDecimalDigits selection - 1)
      else fallbackMenu options selections

/-- Where the menu is shown, and what comes in there. -/
structure MenuInput where
  /-- There is a `/dev/tty`. -/
  tty : Bool
  /-- It can be opened. Where it cannot, the `exec` fails, and stdin is read. -/
  opens : Bool
  /-- stdin and stdout are terminals. -/
  terminals : Bool
  /-- What `key_input` prints for what is read from `/dev/tty`, and from stdin. -/
  ttyKeys : List MenuKey
  stdinKeys : List MenuKey
  /-- What `_fallback_menu` reads from stdin. -/
  selections : List Bytes

namespace MenuInput

/-- The menu is moved by keys. -/
def keyed (input : MenuInput) : Bool :=
  input.tty || input.terminals

def keys (input : MenuInput) : List MenuKey :=
  if input.tty && input.opens then input.ttyKeys else input.stdinKeys

end MenuInput

/-- `select_option`. A terminal is only asked for where there is no `/dev/tty`. -/
def selectOption (options : Nat) (input : MenuInput) : Option Nat :=
  if input.keyed then some (arrowKeyMenu options 0 input.keys)
  else fallbackMenu options input.selections

/-! ## The scripts -/

namespace Newcaal

/-- The constants for `-y`, which are the defaults of the questions. -/
def defaults : Settings where
  bundle := ascii "/opt/caal/bundles/default"
  enabled := ascii "true"
  disk := ascii "1024"
  timeout := ascii "0"

/-- The questions of `main`. -/
def askSettings (input : Bytes) (menu : MenuInput) : Except Misuse Settings :=
  match ask defaults.bundle input with
  | .error misuse => .error misuse
  | .ok (bundle, input) =>
      if bundle.head? ≠ some 47 then .error .notAbsolute
      else
        match ask defaults.timeout input with
        | .error misuse => .error misuse
        | .ok (timeout, input) =>
            if isNumber timeout = false then .error .badTimeout
            else
              match ask defaults.disk input with
              | .error misuse => .error misuse
              | .ok (disk, _) =>
                  if isNumber disk = false then .error .badDiskSize
                  else
                    match selectOption 2 menu with
                    | none => .error .undecided
                    | some chosen =>
                        .ok ⟨bundle, if chosen = 1 then ascii "false" else ascii "true", disk,
                          timeout⟩

/-- `main` up to `create_user`. -/
def enter (root : Bool) (args : List Bytes) (input : Bytes) (menu : MenuInput) :
    Except Misuse (Bytes × Settings) :=
  match commandLine root args with
  | .error misuse => .error misuse
  | .ok (username, true) => .ok (username, defaults)
  | .ok (username, false) => (askSettings input menu).map fun settings => (username, settings)

end Newcaal

namespace Delcaal

/-- `main` up to `remove_user`. -/
def enter (root : Bool) (args : List Bytes) (menu : MenuInput) : Except Misuse Bytes :=
  match commandLine root args with
  | .error misuse => .error misuse
  | .ok (username, true) => .ok username
  | .ok (username, false) =>
      match selectOption 2 menu with
      | none => .error .undecided
      | some chosen => if chosen = 1 then .error .aborted else .ok username

end Delcaal

/-! ## What comes through -/

/-- The arguments that are no options. -/
def operands (args : List Bytes) : List Bytes :=
  args.filter fun arg => !isFlag arg

/-- The username stands among the arguments, once and perhaps behind empty ones. -/
structure Invoked (args : List Bytes) (username : Bytes) (yes : Bool) : Prop where
  alone : ∃ empties, operands args = List.replicate empties [] ++ [username]
  named : username ≠ [] ∧ username.head? ≠ some 45
  flagged : yes = args.any isFlag

/-- What `read` can leave of a line. -/
structure Typed (answer : Bytes) : Prop where
  inLine : 10 ∉ answer
  zeroFree : 0 ∉ answer
  trimmed : trim answer = answer

theorem trim_trim (line : Bytes) : trim (trim line) = trim line := by
  have head : (trim line).dropWhile isBlank = trim line := by
    rw [List.dropWhile_eq_self_iff]
    intro nonempty
    have kept : trim line <+: line.dropWhile isBlank := List.rdropWhile_prefix _ _
    have longer := lt_of_lt_of_le nonempty kept.length_le
    have unblank := List.dropWhile_get_zero_not isBlank line longer
    rw [List.get_eq_getElem] at unblank
    rwa [kept.getElem nonempty]
  rw [trim, head]
  exact List.rdropWhile_idempotent _ _

theorem nextLine_plain {input line rest : Bytes} (read : nextLine input = some (line, rest)) :
    10 ∉ line ∧ 0 ∉ line := by
  induction input generalizing line rest with
  | nil => cases read
  | cons byte input ih =>
    rw [nextLine] at read
    split at read
    · cases read
      exact ⟨List.not_mem_nil, List.not_mem_nil⟩
    · rename_i inLine
      rcases Option.map_eq_some_iff.mp read with ⟨⟨before, _⟩, further, split⟩
      have plain := ih further
      split_ifs at split with zero
      · cases split
        exact plain
      · cases split
        simp [plain, eq_comm, inLine, zero]

theorem nextLine_line {line : Bytes} (inLine : 10 ∉ line) (zeroFree : 0 ∉ line) (rest : Bytes) :
    nextLine (line ++ 10 :: rest) = some (line, rest) := by
  induction line with
  | nil => rfl
  | cons byte line ih =>
    rw [List.mem_cons, not_or] at inLine zeroFree
    rw [List.cons_append, nextLine, if_neg (Ne.symm inLine.1), ih inLine.2 zeroFree.2]
    simp only [Option.map_some, if_neg (Ne.symm zeroFree.1)]

theorem mem_of_mem_trim {byte : UInt8} {line : Bytes} (inside : byte ∈ trim line) :
    byte ∈ line :=
  (List.dropWhile_suffix _).mem ((List.rdropWhile_prefix _ _).mem inside)

theorem ask_typed {default input answer rest : Bytes} (typed : Typed default)
    (asked : ask default input = .ok (answer, rest)) : Typed answer := by
  rw [ask] at asked
  split at asked
  · cases asked
  · rename_i line _ read
    cases asked
    have plain := nextLine_plain read
    split_ifs
    · exact typed
    · exact ⟨fun inside => plain.1 (mem_of_mem_trim inside),
        fun inside => plain.2 (mem_of_mem_trim inside), trim_trim line⟩

theorem ask_line {answer : Bytes} (typed : Typed answer) (nonempty : answer ≠ [])
    (default rest : Bytes) : ask default (answer ++ 10 :: rest) = .ok (answer, rest) := by
  rw [ask, nextLine_line typed.inLine typed.zeroFree]
  change Except.ok (if trim answer = [] then default else trim answer, rest) = _
  rw [typed.trimmed, if_neg nonempty]

theorem isNumber_iff {text : Bytes} :
    isNumber text = true ↔ text ≠ [] ∧ ∀ byte ∈ text, isDigit byte = true := by
  simp [isNumber]

theorem typed_of_unblank {text : Bytes}
    (unblank : ∀ byte ∈ text, byte ≠ 10 ∧ byte ≠ 0 ∧ isBlank byte = false) : Typed text where
  inLine inside := (unblank 10 inside).1 rfl
  zeroFree inside := (unblank 0 inside).2.1 rfl
  trimmed := by
    have head : text.dropWhile isBlank = text := by
      rw [List.dropWhile_eq_self_iff]
      intro nonempty
      simp [(unblank _ (List.getElem_mem nonempty)).2.2]
    rw [trim, head, List.rdropWhile_eq_self_iff]
    intro nonempty
    simp [(unblank _ (List.getLast_mem nonempty)).2.2]

theorem typed_of_isNumber {text : Bytes} (number : isNumber text = true) : Typed text := by
  refine typed_of_unblank fun byte inside => ?_
  have digit := (isNumber_iff.mp number).2 byte inside
  have ne (special : UInt8) (other : isDigit special = false) : byte ≠ special :=
    isDigit_ne digit other
  refine ⟨ne 10 (by decide), ne 0 (by decide), ?_⟩
  simp [isBlank, ne 32 (by decide), ne 9 (by decide)]

theorem parseArgs_full {username name : Bytes} {yes agreed : Bool} {args : List Bytes}
    (full : username ≠ []) :
    parseArgs username yes args = .ok (name, agreed) ↔
      operands args = [] ∧ name = username ∧ agreed = (yes || args.any isFlag) := by
  induction args generalizing yes with
  | nil => simp [parseArgs, operands, eq_comm]
  | cons arg args ih =>
    by_cases flag : isFlag arg = true
    · rw [parseArgs, if_pos flag, ih]
      simp [operands, flag]
    · rw [parseArgs, if_neg flag, if_neg full]
      simp only [operands, flag, List.filter_cons, Bool.not_false, if_true, reduceCtorEq, false_and,
        iff_false]
      split <;> simp

theorem empties_cons {name : Bytes} {further : List Bytes} (named : name ≠ []) :
    (∃ empties, [] :: further = List.replicate empties [] ++ [name]) ↔
      ∃ empties, further = List.replicate empties [] ++ [name] := by
  constructor
  · rintro ⟨_ | empties, split⟩
    · exact absurd (List.cons.inj split).1.symm named
    · exact ⟨empties, (List.cons.inj split).2⟩
  · rintro ⟨empties, split⟩
    exact ⟨empties + 1, congrArg _ split⟩

theorem empties_full {arg name : Bytes} {further : List Bytes} (full : arg ≠ []) :
    (∃ empties, arg :: further = List.replicate empties [] ++ [name]) ↔
      further = [] ∧ name = arg := by
  constructor
  · rintro ⟨_ | empties, split⟩
    · exact ⟨(List.cons.inj split).2, (List.cons.inj split).1.symm⟩
    · exact absurd (List.cons.inj split).1 full
  · rintro ⟨rfl, rfl⟩
    exact ⟨0, rfl⟩

theorem parseArgs_iff {name : Bytes} {yes agreed : Bool} {args : List Bytes} (named : name ≠ []) :
    parseArgs [] yes args = .ok (name, agreed) ↔
      (∃ empties, operands args = List.replicate empties [] ++ [name]) ∧
        name.head? ≠ some 45 ∧ agreed = (yes || args.any isFlag) := by
  induction args generalizing yes with
  | nil => simp [parseArgs, operands, Ne.symm named]
  | cons arg args ih =>
    by_cases flag : isFlag arg = true
    · rw [parseArgs, if_pos flag, ih]
      simp [operands, flag]
    have operand : operands (arg :: args) = arg :: operands args :=
      List.filter_cons_of_pos (by simp [flag])
    have flags : (arg :: args).any isFlag = args.any isFlag := by simp [flag]
    rw [parseArgs, if_neg flag, operand, flags]
    by_cases full : arg = []
    · subst full
      rw [if_neg (by decide), if_pos rfl, ih, empties_cons named]
    rw [empties_full full]
    by_cases option : arg.head? = some 45
    · rw [if_pos option]
      refine iff_of_false (by simp) ?_
      rintro ⟨⟨_, rfl⟩, plain, _⟩
      exact plain option
    · rw [if_neg option, if_pos rfl, parseArgs_full full]
      constructor
      · rintro ⟨last, rfl, agreed⟩
        exact ⟨⟨last, rfl⟩, option, agreed⟩
      · rintro ⟨⟨last, same⟩, _, agreed⟩
        exact ⟨last, same, agreed⟩

theorem commandLine_iff {root : Bool} {args : List Bytes} {username : Bytes} {yes : Bool} :
    commandLine root args = .ok (username, yes) ↔ root = true ∧ Invoked args username yes := by
  constructor
  · intro entered
    rw [commandLine] at entered
    split at entered
    · cases entered
    rename_i parsed
    split_ifs at entered with unnamed user
    cases entered
    obtain ⟨alone, plain, flagged⟩ := (parseArgs_iff unnamed).mp parsed
    exact ⟨by simpa using user, alone, ⟨unnamed, plain⟩, flagged⟩
  · rintro ⟨rfl, alone, named, flagged⟩
    rw [commandLine, (parseArgs_iff named.1).mpr ⟨alone, named.2, flagged⟩]
    change (if username = [] then _ else _) = _
    rw [if_neg named.1, if_neg (by decide)]

theorem invoked_name {username : Bytes} (named : username ≠ [] ∧ username.head? ≠ some 45) :
    Invoked [username] username false := by
  have flag : isFlag username = false := by
    rw [isFlag, Bool.or_eq_false_iff, beq_eq_false_iff_ne, beq_eq_false_iff_ne]
    constructor <;> rintro rfl <;> exact named.2 (by decide)
  exact ⟨⟨0, by simp [operands, flag]⟩, named, by simp [flag]⟩

namespace Newcaal

theorem typed_defaults : Typed defaults.bundle := by
  have all : defaults.bundle.all (fun byte => byte != 10 && byte != 0 && !isBlank byte) = true := by
    decide
  refine typed_of_unblank fun byte inside => ?_
  simpa [and_assoc] using List.all_eq_true.mp all byte inside

theorem accepted_defaults {username : Bytes} (named : username ≠ [] ∧ username.head? ≠ some 45)
    (inLine : 10 ∉ username) : Accepted username defaults where
  named := named
  nameInLine := inLine
  absolute := by decide
  bundleInLine := typed_defaults.inLine
  enabled := .inl rfl
  disk := isNumber_iff.mp (by decide)
  timeout := isNumber_iff.mp (by decide)

theorem askSettings_accepted {input : Bytes} {menu : MenuInput} {settings : Settings}
    {username : Bytes} (named : username ≠ [] ∧ username.head? ≠ some 45)
    (inLine : 10 ∉ username) (asked : askSettings input menu = .ok settings) :
    Accepted username settings ∧ Typed settings.bundle := by
  rw [askSettings] at asked
  split at asked
  · cases asked
  rename_i bundle _ askedBundle
  split_ifs at asked with absolute
  split at asked
  · cases asked
  rename_i timeout _ askedTimeout
  split_ifs at asked with timeoutNumber
  split at asked
  · cases asked
  rename_i disk _ askedDisk
  split_ifs at asked with diskNumber
  split at asked
  · cases asked
  rename_i chosen _
  cases asked
  have typed := ask_typed typed_defaults askedBundle
  refine ⟨⟨named, inLine, not_not.mp absolute, typed.inLine, ?_,
    isNumber_iff.mp (by simpa using diskNumber),
    isNumber_iff.mp (by simpa using timeoutNumber)⟩, typed⟩
  by_cases no : chosen = 1
  · exact .inr (if_pos no)
  · exact .inl (if_neg no)

/-- The answers that give the settings. -/
def answers (settings : Settings) : Bytes :=
  settings.bundle ++ 10 :: (settings.timeout ++ 10 :: (settings.disk ++ [10]))

/-- The keys that give the settings, at a terminal. -/
def keysOf (settings : Settings) : MenuInput where
  tty := true
  opens := true
  terminals := true
  ttyKeys := if settings.enabled = ascii "false" then [.down, .enter] else [.enter]
  stdinKeys := []
  selections := []

theorem selectOption_keysOf {settings : Settings}
    (enabled : settings.enabled = ascii "true" ∨ settings.enabled = ascii "false") :
    ∃ chosen, selectOption 2 (keysOf settings) = some chosen ∧
      (if chosen = 1 then ascii "false" else ascii "true") = settings.enabled := by
  rcases enabled with yes | no
  · exact ⟨0, by rw [keysOf, yes]; rfl, yes.symm⟩
  · exact ⟨1, by rw [keysOf, if_pos no]; rfl, no.symm⟩

theorem askSettings_answers {username : Bytes} {settings : Settings}
    (accepted : Accepted username settings) (typed : Typed settings.bundle) :
    askSettings (answers settings) (keysOf settings) = .ok settings := by
  have timeout := isNumber_iff.mpr accepted.timeout
  have disk := isNumber_iff.mpr accepted.disk
  have filled : settings.bundle ≠ [] := by
    intro empty
    have absolute := accepted.absolute
    rw [empty] at absolute
    cases absolute
  obtain ⟨chosen, picked, enabled⟩ := selectOption_keysOf accepted.enabled
  simp only [askSettings, answers, ask_line typed filled,
    ask_line (typed_of_isNumber timeout) accepted.timeout.1,
    ask_line (typed_of_isNumber disk) accepted.disk.1, accepted.absolute, timeout, disk, picked,
    enabled, ne_eq, not_true_eq_false, if_false, Bool.true_eq_false]

end Newcaal

/-- For a name in one line, `newcaal` comes to its actions with exactly what the rest of it
expects. -/
theorem newcaal_entered {username : Bytes} {settings : Settings} (inLine : 10 ∉ username) :
    (∃ root args input menu, Newcaal.enter root args input menu = .ok (username, settings)) ↔
      Accepted username settings ∧ Typed settings.bundle := by
  constructor
  · rintro ⟨root, args, input, menu, entered⟩
    rw [Newcaal.enter] at entered
    split at entered
    · cases entered
    · rename_i line
      cases entered
      exact ⟨Newcaal.accepted_defaults (commandLine_iff.mp line).2.named inLine,
        Newcaal.typed_defaults⟩
    · rename_i name line
      cases asked : Newcaal.askSettings input menu with
      | error misuse =>
        rw [asked] at entered
        cases entered
      | ok chosen =>
        rw [asked] at entered
        cases entered
        exact Newcaal.askSettings_accepted (commandLine_iff.mp line).2.named inLine asked
  · rintro ⟨accepted, typed⟩
    refine ⟨true, [username], Newcaal.answers settings, Newcaal.keysOf settings, ?_⟩
    rw [Newcaal.enter, commandLine_iff.mpr ⟨rfl, invoked_name accepted.named⟩]
    change (Newcaal.askSettings _ _).map _ = _
    rw [Newcaal.askSettings_answers accepted typed]
    rfl

/-- A bundle with a blank in its path, for a user that may not come in yet. -/
def laterSettings : Settings where
  bundle := ascii "/srv/dev images"
  enabled := ascii "false"
  disk := ascii "512"
  timeout := ascii "600"

theorem newcaal_entered_dev :
    ∃ root args input menu,
      Newcaal.enter root args input menu = .ok (ascii "dev", laterSettings) := by
  have accepted : Accepted (ascii "dev") laterSettings :=
    { named := by decide
      nameInLine := by decide
      absolute := rfl
      bundleInLine := (by decide : 10 ∉ ascii "/srv/dev images")
      enabled := .inr rfl
      disk := isNumber_iff.mp (by decide)
      timeout := isNumber_iff.mp (by decide) }
  have typed : Typed laterSettings.bundle := ⟨by decide, by decide, by decide⟩
  exact (newcaal_entered (by decide)).mpr ⟨accepted, typed⟩

/-! ## Where the menu comes to -/

/-- The keys up to the return key. -/
def moves (keys : List MenuKey) : List MenuKey :=
  keys.takeWhile (· != .enter)

/-- Rows below the first, counted around. -/
def moved (keys : List MenuKey) : Int :=
  (moves keys).count .down - (moves keys).count .up

theorem moved_enter (keys : List MenuKey) : moved (.enter :: keys) = 0 := by
  simp [moved, moves]

theorem moved_another (keys : List MenuKey) : moved (.another :: keys) = moved keys := by
  simp [moved, moves]

theorem moved_up (keys : List MenuKey) : moved (.up :: keys) = moved keys - 1 := by
  simp [moved, moves]
  omega

theorem moved_down (keys : List MenuKey) : moved (.down :: keys) = moved keys + 1 := by
  simp [moved, moves]
  omega

theorem arrowKeyMenu_eq {options row : Nat} (inside : row < options) (keys : List MenuKey) :
    (arrowKeyMenu options row keys : Int) = (row + moved keys) % options := by
  induction keys generalizing row with
  | nil => exact (Int.emod_eq_of_lt (by simp) (by simpa [moves])).symm
  | cons key keys ih =>
    cases key with
    | enter =>
      rw [arrowKeyMenu, moved_enter, Int.add_zero, Int.emod_eq_of_lt (by omega) (by omega)]
    | another => rw [arrowKeyMenu, moved_another, ih inside]
    | up =>
      rw [arrowKeyMenu, moved_up]
      split
      · rename_i first
        have around : ((options - 1 : Nat) : Int) + moved keys =
            row + (moved keys - 1) + options := by omega
        rw [ih (by omega), around, Int.add_emod_right]
      · have above : ((row - 1 : Nat) : Int) + moved keys = row + (moved keys - 1) := by omega
        rw [ih (by omega), above]
    | down =>
      rw [arrowKeyMenu, moved_down]
      split
      · rename_i last
        have around :
            (row : Int) + (moved keys + 1) = ((0 : Nat) : Int) + moved keys + options := by
          omega
        rw [ih (by omega), around, Int.add_emod_right]
      · have below : ((row + 1 : Nat) : Int) + moved keys = row + (moved keys + 1) := by omega
        rw [ih (by omega), below]

theorem fallbackMenu_eq (options : Nat) (selections : List Bytes) :
    fallbackMenu options selections =
      (selections.find? (Offered options)).map (ofDecimalDigits · - 1) := by
  induction selections with
  | nil => rfl
  | cons selection selections ih =>
    rw [fallbackMenu, List.find?_cons]
    by_cases offered : Offered options selection
    · rw [if_pos offered, decide_eq_true offered]
      rfl
    · rw [if_neg offered, decide_eq_false offered, ih]

theorem offered_of_find {options : Nat} {selections : List Bytes} {selection : Bytes}
    (found : selections.find? (Offered options) = some selection) : Offered options selection := by
  simpa using List.find?_some found

/-- The first of two rows is chosen. -/
def Confirmed (input : MenuInput) : Prop :=
  if input.keyed then 2 ∣ moved input.keys
  else (input.selections.find? (Offered 2)).map ofDecimalDigits = some 1

theorem selectOption_first (input : MenuInput) :
    selectOption 2 input = some 0 ↔ Confirmed input := by
  rw [selectOption, Confirmed]
  cases input.keyed with
  | true =>
    have landed := @arrowKeyMenu_eq 2 0 (by decide) input.keys
    rw [if_pos rfl, if_pos rfl, Option.some_inj]
    omega
  | false =>
    rw [if_neg Bool.false_ne_true, if_neg Bool.false_ne_true, fallbackMenu_eq]
    cases found : input.selections.find? (Offered 2) with
    | none => simp
    | some selection =>
      have offered := offered_of_find found
      simp only [Option.map_some, Option.some_inj]
      have := offered.2.1
      omega

theorem selectOption_lt {input : MenuInput} {chosen : Nat}
    (picked : selectOption 2 input = some chosen) : chosen = 0 ∨ chosen = 1 := by
  rw [selectOption] at picked
  split at picked
  · cases picked
    have landed := @arrowKeyMenu_eq 2 0 (by decide) input.keys
    omega
  · rw [fallbackMenu_eq] at picked
    obtain ⟨selection, found, rfl⟩ := Option.map_eq_some_iff.mp picked
    have offered := offered_of_find found
    have := offered.2.2
    omega

/-- Without a terminal, a `/dev/tty` that cannot be opened leaves the end of the input for the
return key. -/
example (opened : List MenuKey) (selections : List Bytes) :
    Confirmed ⟨true, false, false, opened, [.another], selections⟩ := by
  change 2 ∣ moved [.another]
  decide

end Caal

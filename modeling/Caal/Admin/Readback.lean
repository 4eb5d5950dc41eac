import Caal.Admin.Blocks
import Caal.Toml.Entry

/-!
# Reading back the entry of a user

`newcaal` writes the configuration file and `caalsh` reads it: what `main` of `caalsh`
looks up for a user in the bytes that `write_toml` leaves.
-/

namespace Caal

open CMemory LineRanges Toml

/-! ## The bytes of the file -/

/-- The lines of a text. The last one may lack its newline. -/
def linesOf : Bytes → List Bytes
  | [] => []
  | byte :: rest =>
      if byte = 10 then [] :: linesOf rest
      else
        match linesOf rest with
        | [] => [[byte]]
        | line :: lines => (byte :: line) :: lines

def TextFile.ofBytes (text : Bytes) : TextFile where
  lines := linesOf text
  terminated := text.getLast?.all fun byte => byte == 10

/-- Every line with its newline. -/
def unlines (lines : List Bytes) : Bytes :=
  lines.flatMap fun line => line ++ [10]

def TextFile.bytes (file : TextFile) : Bytes :=
  if file.terminated then unlines file.lines else (unlines file.lines).dropLast

theorem unlines_linesOf (text : Bytes) :
    unlines (linesOf text) =
      if text.getLast?.all (fun byte => byte == 10) then text else text ++ [10] := by
  induction text with
  | nil => rfl
  | cons byte text ih =>
      have last : (byte :: text).getLast?.all (fun byte => byte == 10) =
          if text = [] then byte == 10 else text.getLast?.all fun byte => byte == 10 := by
        cases text with
        | nil => rfl
        | cons next text => rw [List.getLast?_cons_cons, if_neg (List.cons_ne_nil next text)]
      rw [linesOf]
      by_cases newline : byte = 10
      · rw [if_pos newline]
        change 10 :: unlines (linesOf text) = _
        rw [ih, last, newline]
        cases text with
        | nil => rfl
        | cons next text =>
            rw [if_neg (List.cons_ne_nil next text)]
            split <;> rfl
      · rw [if_neg newline]
        cases lines : linesOf text with
        | nil =>
            cases text with
            | nil =>
                rw [last, if_pos rfl, beq_eq_false_iff_ne.mpr newline]
                rfl
            | cons next text =>
                rw [linesOf] at lines
                split at lines
                · cases lines
                · split at lines <;> cases lines
        | cons line later =>
            have nonempty : text ≠ [] := by
              rintro rfl
              cases lines
            rw [lines] at ih
            change byte :: unlines (line :: later) = _
            rw [ih, last, if_neg nonempty]
            split <;> rfl

theorem bytes_ofBytes (text : Bytes) : (TextFile.ofBytes text).bytes = text := by
  rw [TextFile.bytes, TextFile.ofBytes, unlines_linesOf]
  dsimp only
  split
  · rfl
  · exact List.dropLast_concat

theorem unlines_append (first second : List Bytes) :
    unlines (first ++ second) = unlines first ++ unlines second :=
  List.flatMap_append

theorem unlines_dropLast {lines : List Bytes} (nonempty : lines ≠ []) :
    (unlines lines).dropLast ++ [10] = unlines lines := by
  rcases List.eq_nil_or_concat lines with rfl | ⟨front, line, rfl⟩
  · exact (nonempty rfl).elim
  · have last : unlines (front.concat line) = unlines front ++ line ++ [10] := by
      rw [List.concat_eq_append, unlines_append, List.append_assoc]
      simp [unlines]
    rw [last, List.dropLast_concat]

section Scripts

variable {tools : Tools} {username : Bytes}

/-- The text that `write_toml` appends. -/
def entryText (username : Bytes) (settings : Settings) : Bytes :=
  10 :: unlines (entryBlock username settings)

theorem length_removedLines
    (marked : ∀ lines, (tools.garbled username lines).length = lines.length) (lines : List Bytes) :
    (removedLines tools username lines).length = lines.length := by
  rw [removedLines]
  split
  · split
    · exact length_deletions _ lines
    · exact marked lines
  · exact List.length_map _

/-- A file from which all lines are removed ends like an empty one. -/
theorem terminated_of_removeBlock_nil
    (marked : ∀ lines, (tools.garbled username lines).length = lines.length) {text : Bytes}
    (removed : (removeBlock tools username (.ofBytes text)).lines = []) :
    (removeBlock tools username (.ofBytes text)).terminated = true := by
  have lengths := @length_removedLines tools _ marked (TextFile.ofBytes text).lines
  have all := forall_of_keep_nil lengths removed
  rw [removeBlock]
  dsimp only
  cases last : (removedLines tools username (TextFile.ofBytes text).lines).getLast? with
  | none =>
      rw [List.getLast?_eq_none_iff.mp last] at lengths
      have empty : unlines (linesOf text) = [] :=
        congrArg unlines (List.length_eq_zero_iff.mp lengths.symm)
      rw [unlines_linesOf] at empty
      split at empty
      · rw [empty]
        rfl
      · exact (List.append_ne_nil_of_right_ne_nil _ (List.cons_ne_nil _ _) empty).elim
  | some mark =>
      rw [all mark (List.mem_of_getLast? last)]
      exact Bool.or_true _

/-- The bytes that `write_toml` leaves are those that `sed` leaves, and the entry. -/
theorem bytes_writeToml
    (marked : ∀ lines, (tools.garbled username lines).length = lines.length) (settings : Settings)
    (text : Bytes) :
    (writeToml tools username settings (.ofBytes text)).bytes =
      (removeBlock tools username (.ofBytes text)).bytes ++ entryText username settings := by
  have whole := @terminated_of_removeBlock_nil tools username marked text
  rw [TextFile.bytes, writeToml, TextFile.bytes, entryText]
  dsimp only
  rw [if_pos rfl, unlines_append, unlines_append]
  cases ends : (removeBlock tools username (.ofBytes text)).terminated with
  | true => rfl
  | false =>
      rw [ends] at whole
      have left : (removeBlock tools username (.ofBytes text)).lines ≠ [] :=
        fun nothing => Bool.false_ne_true (whole nothing)
      rw [if_neg Bool.false_ne_true, if_neg Bool.false_ne_true]
      nth_rewrite 1 [← unlines_dropLast left]
      rw [List.append_assoc]
      rfl

end Scripts

/-! ## What caalsh looks up -/

/-- Why `main` of `caalsh` refuses a user before it has a bundle for it. -/
inductive Refusal where
  | usernameTooLong
  | notConfigured
  | bundleNotString
  | bundleNotAbsolute

/-- What `main` of `caalsh` takes from the configuration for a user. A user that is not
enabled is refused. -/
structure UserConfig where
  bundlePath : Bytes
  enabled : Bool
  timeout : Int
  diskSizeMb : Int

/-- `snprintf(seek_path, sizeof(seek_path), "%s.bundle", username)`, and its siblings. -/
def seekPath (username name : Bytes) : Bytes :=
  (username ++ 46 :: name).take 127

def readEnabled : Option Datum → Bool
  | some (.boolean enabled) => enabled
  | _ => true

/-- Zero or missing means no limit. -/
def readTimeout : Option Datum → Int
  | some (.int64 timeout) => timeout
  | _ => 0

/-- 1 GB if not set or zero. -/
def readDiskSize : Option Datum → Int
  | some (.int64 size) => if 0 < size then size else 1024
  | _ => 1024

/-- The lookups of `main` for a user, in a configuration that parses. -/
def lookUpUser (toptab : Entries) (username : Bytes) : Except Refusal UserConfig :=
  if 32 < username.length then .error .usernameTooLong
  else
    match tomlSeek (seekPath username (ascii "bundle")) toptab with
    | none => .error .notConfigured
    | some (.string bundle) =>
        if (cstr bundle).head? = some 47 then
          .ok
            { bundlePath := cstr bundle
              enabled := readEnabled (tomlSeek (seekPath username (ascii "enabled")) toptab)
              timeout := readTimeout (tomlSeek (seekPath username (ascii "timeout")) toptab)
              diskSizeMb := readDiskSize (tomlSeek (seekPath username (ascii "disk")) toptab) }
        else .error .bundleNotAbsolute
    | some _ => .error .bundleNotString

theorem lookUpUser_eq_ok {toptab : Entries} {username : Bytes} {found : UserConfig} :
    lookUpUser toptab username = .ok found ↔
      username.length ≤ 32 ∧ ∃ bundle,
        tomlSeek (seekPath username (ascii "bundle")) toptab = some (.string bundle) ∧
        (cstr bundle).head? = some 47 ∧
        found = ⟨cstr bundle, readEnabled (tomlSeek (seekPath username (ascii "enabled")) toptab),
          readTimeout (tomlSeek (seekPath username (ascii "timeout")) toptab),
          readDiskSize (tomlSeek (seekPath username (ascii "disk")) toptab)⟩ := by
  rw [lookUpUser.eq_def]
  by_cases long : 32 < username.length
  · rw [if_pos long]
    exact iff_of_false nofun (fun both => absurd both.1 (Nat.not_le.mpr long))
  rw [if_neg long, and_iff_right (Nat.not_lt.mp long)]
  cases tomlSeek (seekPath username (ascii "bundle")) toptab with
  | none => exact iff_of_false nofun nofun
  | some datum =>
      cases datum with
      | string bundle =>
          dsimp only
          constructor
          · intro ok
            split at ok
            · rename_i absolute
              cases ok
              exact ⟨bundle, rfl, absolute, rfl⟩
            · cases ok
          · rintro ⟨_, equal, absolute, rfl⟩
            cases equal
            exact if_pos absolute
      | _ => exact iff_of_false nofun nofun

/-! ## What newcaal lets through -/

/-- The checks of `main` of `newcaal`, and its defaults: a username that is no option and
that `id` or `useradd` takes, an absolute bundle path, and decimal digits. Answers are lines. -/
structure Accepted (username : Bytes) (settings : Settings) : Prop where
  named : username ≠ [] ∧ username.head? ≠ some 45
  nameInLine : 10 ∉ username
  absolute : settings.bundle.head? = some 47
  bundleInLine : 10 ∉ settings.bundle
  enabled : settings.enabled = ascii "true" ∨ settings.enabled = ascii "false"
  disk : settings.disk ≠ [] ∧ ∀ byte ∈ settings.disk, isDigit byte = true
  timeout : settings.timeout ≠ [] ∧ ∀ byte ∈ settings.timeout, isDigit byte = true

/-- The file parses, and the lookups give what was written. -/
def ReadsBack (config : Option Entries) (username : Bytes) (settings : Settings) : Prop :=
  ∃ toptab, config = some toptab ∧
    lookUpUser toptab username = .ok
      { bundlePath := settings.bundle
        enabled := settings.enabled == ascii "true"
        timeout := ofDecimalDigits settings.timeout
        diskSizeMb := ofDecimalDigits settings.disk }

/-- The settings and the username can be written into the file as they are. -/
structure Writable (username : Bytes) (settings : Settings) : Prop where
  name : BareKey username
  short : username.length ≤ 32
  bundle : ∀ byte ∈ settings.bundle, PlainChar byte
  timeout : Int64Digits settings.timeout
  disk : Int64Digits settings.disk
  sized : 0 < ofDecimalDigits settings.disk

/-- The names of the settings. -/
def settingNames : List Bytes :=
  [ascii "bundle", ascii "enabled", ascii "disk", ascii "timeout"]

/-- The section of the user can be opened and has none of the settings. -/
structure Available (username : Bytes) (toptab : Entries) : Prop where
  vacant : Vacant (dotParts username) .none toptab
  unset : ∀ name ∈ settingNames, tomlSeek (seekPath username name) toptab = none

/-! ## Reading the entry -/

theorem dotParts_setting {name : Bytes} (single : 46 ∉ name) (username : Bytes) :
    dotParts (username ++ 46 :: name) = dotParts username ++ [name] := by
  have whole : dotParts name = [name] := by
    induction name with
    | nil => rfl
    | cons byte name ih =>
        simp only [List.mem_cons, not_or] at single
        rw [dotParts, if_neg (Ne.symm single.1), ih single.2]
  induction username with
  | nil =>
      change [] :: dotParts name = _
      rw [whole]
      rfl
  | cons byte username ih =>
      rw [List.cons_append, dotParts, dotParts, ih]
      split
      · rfl
      · cases parts : dotParts username with
        | nil => exact (dotParts_ne_nil username parts).elim
        | cons part later => rfl

theorem tomlSeek_setting {username name : Bytes} (short : username.length ≤ 32)
    (setting : name ∈ settingNames) (toptab : Entries) :
    tomlSeek (seekPath username name) toptab =
      seekFrom (dotParts username ++ [name]) (.table .none toptab) := by
  have plain : ∀ name ∈ settingNames, name.length ≤ 7 ∧ 46 ∉ name := by decide
  rcases plain name setting with ⟨length, single⟩
  rw [tomlSeek, seekPath, List.take_of_length_le, dotParts_setting single]
  rw [List.length_append, List.length_cons]
  omega

section Entry

variable {other : Bytes → Option (Datum × Bytes)} {username : Bytes} {settings : Settings}
  {key : List Bytes} {toptab : Entries} {finish : Parser}

/-- The lines of an entry behind its bundle. -/
def laterText (settings : Settings) : Bytes :=
  settingLine (ascii "enabled") 2 (32 :: (settings.enabled ++ 10 ::
    settingLine (ascii "disk") 5 (32 :: (settings.disk ++ 10 ::
      settingLine (ascii "timeout") 2 (32 :: (settings.timeout ++ [10]))))))

/-- The lines of an entry behind its header. -/
def settingsText (settings : Settings) : Bytes :=
  settingLine (ascii "bundle") 3
    (32 :: 34 :: (settings.bundle ++ 34 :: 10 :: laterText settings))

theorem entryText_eq : entryText username settings =
    10 :: headerLine username (settingsText settings) := by
  simp [entryText, unlines, entryBlock, sectionHeader, headerLine, settingsText, laterText,
    settingLine, ascii, List.replicate]

/-- What the lines behind the bundle add. -/
def laterItems (settings : Settings) (disk timeout : Int) : Entries :=
  [(ascii "enabled", .boolean (settings.enabled == ascii "true")), (ascii "disk", .int64 disk),
    (ascii "timeout", .int64 timeout)]

theorem barePart_setting : ∀ name ∈ settingNames, BarePart name := by
  decide

theorem scanLine_enabled (accepted : Accepted username settings) (more : Bytes) :
    scanLine other (settings.enabled ++ 10 :: more) =
      some (.boolean (settings.enabled == ascii "true"), more) := by
  rcases accepted.enabled with equal | equal
  · rw [equal]
    exact scanLine_true more
  · rw [equal]
    exact scanLine_false more

theorem parseLoop_later (accepted : Accepted username settings) (passes : Nat) :
    parseLoop other (passes + 4) ⟨toptab, key⟩ (laterText settings) =
      (decimalValue settings.disk).bind fun disk =>
        (decimalValue settings.timeout).bind fun timeout =>
          (addEntries key (laterItems settings disk timeout) toptab).map fun filled =>
            ⟨filled, key⟩ := by
  have enabled := barePart_setting (ascii "enabled") (by decide)
  have disk := barePart_setting (ascii "disk") (by decide)
  have timeout := barePart_setting (ascii "timeout") (by decide)
  have timeoutLine (toptab : Entries) : parseLoop other (passes + 2) ⟨toptab, key⟩
      (settingLine (ascii "timeout") 2 (32 :: (settings.timeout ++ [10]))) =
      (decimalValue settings.timeout).bind fun value =>
        (changeAt (addValue (.int64 value) false [ascii "timeout"]) key .none toptab).map
          fun toptab => ⟨toptab, key⟩ := by
    simp only [Option.map_eq_bind]
    exact parseLoop_digits timeout 2 accepted.timeout.1 accepted.timeout.2
  have diskLine (toptab : Entries) : parseLoop other (passes + 3) ⟨toptab, key⟩
      (settingLine (ascii "disk") 5 (32 :: (settings.disk ++ 10 ::
        settingLine (ascii "timeout") 2 (32 :: (settings.timeout ++ [10]))))) =
      (decimalValue settings.disk).bind fun value =>
        (changeAt (addValue (.int64 value) false [ascii "disk"]) key .none toptab).bind
          fun toptab => parseLoop other (passes + 2) ⟨toptab, key⟩
            (settingLine (ascii "timeout") 2 (32 :: (settings.timeout ++ [10]))) :=
    parseLoop_digits disk 5 accepted.disk.1 accepted.disk.2
  have enabledLine := @parseLoop_setting other (passes + 3) ⟨toptab, key⟩ _ enabled 2
    (32 :: (settings.enabled ++ 10 :: settingLine (ascii "disk") 5 (32 :: (settings.disk ++ 10 ::
      settingLine (ascii "timeout") 2 (32 :: (settings.timeout ++ [10]))))))
  rw [laterText, enabledLine, scanLine_space, scanLine_enabled accepted]
  simp only [Option.bind_some, diskLine, timeoutLine]
  cases decimalValue settings.disk with
  | none => simp
  | some diskValue =>
      cases decimalValue settings.timeout with
      | none => simp
      | some timeoutValue => simp [addEntries, laterItems, Option.map_bind]

/-- What the lines behind the header add. -/
def entryItems (settings : Settings) (bundle : Bytes) : Entries :=
  (ascii "bundle", .string bundle) ::
    laterItems settings (ofDecimalDigits settings.disk) (ofDecimalDigits settings.timeout)

theorem names_entryItems (bundle : Bytes) :
    (entryItems settings bundle).map Prod.fst = settingNames := rfl

theorem Accepted.bundle_some (accepted : Accepted username settings) : settings.bundle ≠ [] := by
  intro empty
  have absolute := accepted.absolute
  rw [empty] at absolute
  cases absolute

theorem Accepted.bundle_unquoted (accepted : Accepted username settings) :
    settings.bundle.head? ≠ some 34 := by
  rw [accepted.absolute]
  decide

/-- Settings that can be written are added as they are. -/
theorem parseLoop_settings (accepted : Accepted username settings)
    (writable : Writable username settings) (passes : Nat) :
    parseLoop other (passes + 5) ⟨toptab, key⟩ (settingsText settings) =
      (addEntries key (entryItems settings settings.bundle) toptab).map fun filled =>
        ⟨filled, key⟩ := by
  have bundle := barePart_setting (ascii "bundle") (by decide)
  have bundleLine := @parseLoop_setting other (passes + 4) ⟨toptab, key⟩ _ bundle 3
    (32 :: 34 :: (settings.bundle ++ 34 :: 10 :: laterText settings))
  have disk := decimalValue_eq_some.mpr ⟨writable.disk, rfl⟩
  have timeout := decimalValue_eq_some.mpr ⟨writable.timeout, rfl⟩
  rw [settingsText, bundleLine, scanLine_space,
    scanLine_string accepted.bundle_unquoted accepted.bundle_some writable.bundle]
  simp only [Option.bind_some, parseLoop_later accepted, disk, timeout, entryItems, addEntries,
    Option.map_bind, Function.comp_def]

/-- Settings that are read have added their items, with a bundle that is the one written
only if it can be written. -/
theorem parseLoop_settings_eq_some (accepted : Accepted username settings) {passes : Nat}
    (parsed : parseLoop other (passes + 5) ⟨toptab, key⟩ (settingsText settings) = some finish) :
    Int64Digits settings.disk ∧ Int64Digits settings.timeout ∧
      ∃ bundle, addEntries key (entryItems settings bundle) toptab = some finish.toptab ∧
        (cstr bundle = settings.bundle → ∀ byte ∈ settings.bundle, PlainChar byte) := by
  have bundle := barePart_setting (ascii "bundle") (by decide)
  have bundleLine := @parseLoop_setting other (passes + 4) ⟨toptab, key⟩ _ bundle 3
    (32 :: 34 :: (settings.bundle ++ 34 :: 10 :: laterText settings))
  rw [settingsText, bundleLine, scanLine_space] at parsed
  rcases Option.bind_eq_some_iff.mp parsed with ⟨⟨value, after⟩, scanned, parsed⟩
  rcases Option.bind_eq_some_iff.mp parsed with ⟨next, changed, parsed⟩
  rcases scanLine_string_eq_some accepted.bundle_unquoted accepted.bundle_some
    accepted.bundleInLine scanned with ⟨rfl, read, rfl, plain⟩
  dsimp only at parsed
  rw [parseLoop_later accepted] at parsed
  rcases Option.bind_eq_some_iff.mp parsed with ⟨disk, diskValue, parsed⟩
  rcases Option.bind_eq_some_iff.mp parsed with ⟨timeout, timeoutValue, parsed⟩
  rcases Option.map_eq_some_iff.mp parsed with ⟨filled, adds, rfl⟩
  rcases decimalValue_eq_some.mp diskValue with ⟨diskDigits, rfl⟩
  rcases decimalValue_eq_some.mp timeoutValue with ⟨timeoutDigits, rfl⟩
  refine ⟨diskDigits, timeoutDigits, read, ?_, plain⟩
  exact Option.bind_eq_some_iff.mpr ⟨next, changed, adds⟩

/-- The keys of the configuration have no NUL in them, and it does not give the user this
very bundle. -/
structure Unrelated (username : Bytes) (settings : Settings) (toptab : Entries) : Prop where
  nulFree : NulFree (.table .none toptab)
  fresh : ∀ bundle, tomlSeek (seekPath username (ascii "bundle")) toptab = some (.string bundle) →
    cstr bundle ≠ settings.bundle

theorem parse_entry (continues : Continues other) {left : Bytes}
    (parses : tomlParse other left = some toptab) :
    ∃ curtab passes, tomlParse other (left ++ entryText username settings) =
      (parseLoop other (passes + 6) ⟨toptab, curtab⟩
        (headerLine username (settingsText settings))).map Parser.toptab := by
  rcases @tomlParse_append _ (headerLine username (settingsText settings)) _ continues _ parses with
    ⟨curtab, passes, enough, same⟩
  have long : 6 ≤ passes := by
    have entry : 5 ≤ (headerLine username (settingsText settings)).length := by
      simp only [headerLine, settingsText, settingLine, List.length_cons, List.length_append]
      omega
    omega
  rcases Nat.exists_eq_add_of_le' long with ⟨more, rfl⟩
  rw [entryText_eq]
  exact ⟨curtab, more, same⟩

theorem plain_setting : ∀ name ∈ settingNames, cstr name = name := by decide

/-- Settings that can be written are read back from an available section. -/
theorem readsBack_of_available (continues : Continues other) (accepted : Accepted username settings)
    {left : Bytes} (parses : tomlParse other left = some toptab)
    (writable : Writable username settings) (available : Available username toptab) :
    ReadsBack (tomlParse other (left ++ entryText username settings)) username settings := by
  have unset : ∀ name ∈ (entryItems settings settings.bundle).map Prod.fst,
      seekFrom (dotParts username ++ [name]) (.table .none toptab) = none := by
    intro name member
    rw [← tomlSeek_setting writable.short member]
    exact available.unset name member
  have distinct : ((entryItems settings settings.bundle).map Prod.fst).Nodup := by
    rw [names_entryItems]
    decide
  have few : (entryItems settings settings.bundle).length ≤ 4 := Nat.le_refl 4
  rcases exists_filled writable.name.plain available.vacant few plain_setting distinct unset with
    ⟨opened, filled, opens, adds, found⟩
  have seek (name : Bytes) (value : Datum)
      (member : (name, value) ∈ entryItems settings settings.bundle) :
      tomlSeek (seekPath username name) filled = some value := by
    rw [tomlSeek_setting writable.short (List.mem_map_of_mem (f := Prod.fst) member)]
    exact found name value member
  rcases @parse_entry other username settings _ continues _ parses with ⟨curtab, passes, parsed⟩
  have header := @parseLoop_header other (passes + 5) ⟨toptab, curtab⟩ username
    (settingsText settings) writable.name
  have whole : tomlParse other (left ++ entryText username settings) = some filled := by
    rw [parsed, header, opens, Option.bind_some, parseLoop_settings accepted writable, adds]
    rfl
  refine ⟨filled, whole, lookUpUser_eq_ok.mpr ⟨writable.short, settings.bundle, ?_⟩⟩
  have bundle := seek (ascii "bundle") (.string settings.bundle) (by simp [entryItems])
  have enabled := seek (ascii "enabled") (.boolean (settings.enabled == ascii "true"))
    (by simp [entryItems, laterItems])
  have disk := seek (ascii "disk") (.int64 (ofDecimalDigits settings.disk))
    (by simp [entryItems, laterItems])
  have timeout := seek (ascii "timeout") (.int64 (ofDecimalDigits settings.timeout))
    (by simp [entryItems, laterItems])
  have text : cstr settings.bundle = settings.bundle := by
    apply cstr_of_zero_free
    intro zero
    rcases (writable.bundle 0 zero).1 with valid | tab
    · cases valid
    · cases tab
  have sized : (0 : Int) < ofDecimalDigits settings.disk := by exact_mod_cast writable.sized
  refine ⟨bundle, ?_, ?_⟩
  · rw [text]
    exact accepted.absolute
  · rw [text, enabled, disk, timeout]
    simp only [readEnabled, readTimeout, readDiskSize, if_pos sized]

theorem entryItems_leaves (bundle : Bytes) : ∀ entry ∈ entryItems settings bundle, ∀ rest text,
    seekFrom rest entry.2 = some (.string text) → rest = [] ∧ entry.2 = .string text := by
  intro entry member rest text sought
  have leaf : ∀ flags entries, entry.2 ≠ .table flags entries := by
    simp only [entryItems, laterItems, List.mem_cons, List.not_mem_nil, or_false] at member
    rcases member with rfl | rfl | rfl | rfl
    · nofun
    · nofun
    · nofun
    · nofun
  cases rest with
  | nil => exact ⟨rfl, Option.some.inj sought⟩
  | cons key rest =>
      cases datum : entry.2 with
      | table flags entries => exact (leaf flags entries datum).elim
      | _ =>
          rw [datum] at sought
          cases sought

theorem string_entryItems {bundle name text : Bytes}
    (member : (name, .string text) ∈ entryItems settings bundle) :
    name = ascii "bundle" ∧ text = bundle := by
  simpa [entryItems, laterItems] using member

theorem readDiskSize_positive (datum : Option Datum) : 0 < readDiskSize datum := by
  cases datum with
  | none => decide
  | some datum =>
      cases datum with
      | int64 size =>
          rw [readDiskSize]
          split
          · assumption
          · decide
      | _ => exact (by decide : (0 : Int) < 1024)

/-- Settings that are read back could be written, and their section was available. -/
theorem available_of_readsBack (continues : Continues other) (accepted : Accepted username settings)
    {left : Bytes} (parses : tomlParse other left = some toptab)
    (unrelated : Unrelated username settings toptab)
    (reads : ReadsBack (tomlParse other (left ++ entryText username settings)) username settings) :
    Writable username settings ∧ Available username toptab := by
  rcases reads with ⟨filled, parsed, looked⟩
  rcases lookUpUser_eq_ok.mp looked with ⟨short, bundle, sought, _, config⟩
  simp only [UserConfig.mk.injEq] at config
  rcases config with ⟨written, _, _, size⟩
  rcases @parse_entry other username settings _ continues _ parses with ⟨curtab, passes, same⟩
  rw [same] at parsed
  rcases Option.map_eq_some_iff.mp parsed with ⟨finish, looped, rfl⟩
  rcases parseLoop_header_eq_some accepted.nameInLine looped with ⟨key, opened, header, looped⟩
  rcases parseLoop_settings_eq_some accepted looped with
    ⟨diskDigits, timeoutDigits, read, adds, plain⟩
  have setting : ascii "bundle" ∈ settingNames := List.mem_cons_self
  have fresh := unrelated.fresh bundle
  rw [tomlSeek_setting short setting] at sought fresh
  have new : seekFrom (dotParts username ++ [ascii "bundle"]) (.table .none toptab) ≠
      some (.string bundle) := fun old => fresh old written.symm
  rcases addEntries_strings (entryItems_leaves read) adds sought with before | ⟨name, member, named⟩
  · exact (new (header.strings _ _ before)).elim
  rcases string_entryItems member with ⟨rfl, rfl⟩
  rw [List.map_append, List.map_singleton, plain_setting _ setting] at named
  rcases header.named (List.append_cancel_right named).symm with ⟨bare, rfl, opens⟩
  rcases vacant_of_filled bare.plain opens adds rfl sought new with ⟨vacant, unset⟩
  constructor
  · refine ⟨bare, short, plain written.symm, timeoutDigits, diskDigits, ?_⟩
    have positive := readDiskSize_positive
      (tomlSeek (seekPath username (ascii "disk")) finish.toptab)
    rw [← size] at positive
    exact_mod_cast positive
  · refine ⟨vacant, fun name member => ?_⟩
    rw [tomlSeek_setting short member]
    exact unset unrelated.nulFree name member

/-- What `newcaal` accepts is read back if the username, the bundle and the numbers can be
written as they are and the section of the user is available in what `sed` leaves; and, unless
that already gives the user the bundle or hides keys behind a NUL, only then. -/
theorem newcaal_readBack_iff (continues : Continues other) {tools : Tools}
    (marked : ∀ lines, (tools.garbled username lines).length = lines.length)
    (accepted : Accepted username settings) {config : Bytes}
    (parses : tomlParse other (removeBlock tools username (.ofBytes config)).bytes =
      some toptab) :
    (Writable username settings ∧ Available username toptab →
      ReadsBack (tomlParse other
        (writeToml tools username settings (.ofBytes config)).bytes) username settings) ∧
    (Unrelated username settings toptab →
      (ReadsBack (tomlParse other
        (writeToml tools username settings (.ofBytes config)).bytes) username settings ↔
      Writable username settings ∧ Available username toptab)) := by
  have enough : Writable username settings ∧ Available username toptab →
      ReadsBack (tomlParse other
        (writeToml tools username settings (.ofBytes config)).bytes) username settings := by
    intro both
    rw [bytes_writeToml marked]
    exact readsBack_of_available continues accepted parses both.1 both.2
  refine ⟨enough, fun unrelated => ⟨fun reads => ?_, enough⟩⟩
  rw [bytes_writeToml marked] at reads
  exact available_of_readsBack continues accepted parses unrelated reads

end Entry

/-! ## A configuration -/

/-- The configuration of another user. -/
def webConfig : Bytes :=
  ascii "[web]\nbundle = \"/srv/web\"\n"

def devSettings (timeout : Bytes) : Settings where
  bundle := ascii "/srv/dev"
  enabled := ascii "true"
  disk := ascii "1024"
  timeout := timeout

theorem devSettings_accepted {timeout : Bytes}
    (digits : timeout ≠ [] ∧ ∀ byte ∈ timeout, isDigit byte = true) :
    Accepted (ascii "dev") (devSettings timeout) where
  named := by decide
  nameInLine := by decide
  absolute := rfl
  bundleInLine := (by decide : 10 ∉ ascii "/srv/dev")
  enabled := .inl rfl
  disk := ⟨(by decide : ascii "1024" ≠ []),
    List.all_eq_true.mp (by decide : (ascii "1024").all isDigit = true)⟩
  timeout := digits

theorem dev_reads_back :
    ReadsBack (tomlParse (fun _ => none)
      (writeToml (.basic fun _ lines => lines.map fun _ => false) (ascii "dev")
        (devSettings (ascii "600")) (.ofBytes webConfig)).bytes)
      (ascii "dev") (devSettings (ascii "600")) := by
  have left : (tomlParse (fun _ => none)
      (removeBlock (.basic fun _ lines => lines.map fun _ => false) (ascii "dev")
        (.ofBytes webConfig)).bytes).map
        (fun toptab => (toptab.length, (tomlEntry (ascii "dev") toptab).isNone)) =
      some (1, true) := by decide +kernel
  rcases Option.map_eq_some_iff.mp left with ⟨toptab, parses, facts⟩
  rw [Prod.mk.injEq, Option.isNone_iff_eq_none] at facts
  have accepted := @devSettings_accepted (ascii "600") ⟨by decide, List.all_eq_true.mp (by decide)⟩
  have continues : Continues fun _ => none := by
    intro _ _ _ _ found
    cases found
  apply (newcaal_readBack_iff @continues (fun lines => List.length_map _) accepted parses).1
  constructor
  · exact
      { name := by decide
        short := by decide
        bundle := fun byte member => of_decide_eq_true
          (List.all_eq_true.mp (by decide : (ascii "/srv/dev").all (PlainChar ·) = true)
            byte member)
        timeout := ⟨by decide, by decide +kernel⟩
        disk := ⟨by decide, by decide +kernel⟩
        sized := by decide +kernel }
  · have parts : dotParts (ascii "dev") = [ascii "dev"] := by decide
    constructor
    · rw [parts, Vacant, facts.2]
      exact ⟨by rw [facts.1]; decide, fun _ => rfl⟩
    · intro name member
      rw [tomlSeek_setting (by decide) member, parts]
      change (tomlGet (ascii "dev") toptab).bind (seekFrom [name]) = none
      rw [tomlGet_none_of_new facts.2]
      rfl

theorem leading_zero_breaks_config :
    ¬ ∀ (other : Bytes → Option (Datum × Bytes)) (tools : Tools) (username : Bytes)
      (settings : Settings) (config : Bytes), Continues other →
      (∀ lines, (tools.garbled username lines).length = lines.length) → Accepted username settings →
      (tomlParse other config).isSome = true →
      ReadsBack (tomlParse other
        (writeToml tools username settings (.ofBytes config)).bytes) username settings := by
  intro always
  have accepted := @devSettings_accepted (ascii "007") ⟨by decide, List.all_eq_true.mp (by decide)⟩
  have continues : Continues fun _ => none := by
    intro _ _ _ _ found
    cases found
  rcases always (fun _ => none) (.basic fun _ lines => lines.map fun _ => false) _ _ webConfig
    @continues (fun lines => List.length_map _) accepted (by decide +kernel) with
      ⟨toptab, parsed, _⟩
  have broken : (tomlParse (fun _ => none)
      (writeToml (.basic fun _ lines => lines.map fun _ => false) (ascii "dev")
        (devSettings (ascii "007")) (.ofBytes webConfig)).bytes).isSome = false := by
    decide +kernel
  rw [parsed] at broken
  cases broken

end Caal

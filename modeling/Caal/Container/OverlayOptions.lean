import Caal.Container.Names
import Caal.Lib.Escaped

/-!
# The option string of an overlay

`container_start` puts the paths of an overlay together into one option string, which the
kernel takes apart again: at commas into options, at colons into lower directories, with
backslashes as escapes. What comes out is what went in for some bundle paths only.
-/

namespace Caal

open CMemory

/-! ## Reading options -/

/-- The layers that the options of an overlay name. -/
structure Layers where
  lower : List Bytes
  upper : Option Bytes
  work : Option Bytes
  deriving DecidableEq

/-- The options of an option string: they end at commas, unless these are escaped. -/
def optionPieces (options : Bytes) : List Bytes :=
  Escaped.split 92 44 options

/-- The value of an option, if the option has this name. -/
def optionValue (name piece : Bytes) : Option Bytes :=
  if name <+: piece then some (piece.drop name.length) else none

/-- The value of an option; the last one counts. -/
def lastValue (name options : Bytes) : Option Bytes :=
  ((optionPieces options).filterMap (optionValue name)).getLast?

/-- How overlayfs reads its options. -/
def layersOf (options : Bytes) : Layers where
  lower :=
    match lastValue (ascii "lowerdir=") options with
    | none => []
    | some dirs => (Escaped.split 92 58 dirs).map (Escaped.unescape 92)
  upper := (lastValue (ascii "upperdir=") options).map (Escaped.unescape 92)
  work := (lastValue (ascii "workdir=") options).map (Escaped.unescape 92)

/-- The kernel knows all options. `takes` is which it knows besides the three that name
layers; empty ones are skipped. -/
def Readable (takes : Bytes → Bool) (options : Bytes) : Prop :=
  ∀ piece ∈ optionPieces options, piece = [] ∨ (optionValue (ascii "lowerdir=") piece).isSome ∨
    (optionValue (ascii "upperdir=") piece).isSome ∨
    (optionValue (ascii "workdir=") piece).isSome ∨ takes piece = true

instance (takes : Bytes → Bool) (options : Bytes) : Decidable (Readable takes options) :=
  List.decidableBAll _ _

/-! ## Writing options -/

/-- `"lowerdir=%s,upperdir=%s,workdir=%s"`. -/
def overlayOptions (rootfs upper work : Bytes) : Bytes :=
  ascii "lowerdir=" ++ (rootfs ++ (ascii ",upperdir=" ++ (upper ++ (ascii ",workdir=" ++ work))))

/-- No byte of the path means anything in an option string. -/
structure Plain (path : Bytes) : Prop where
  comma : 44 ∉ path
  colon : 58 ∉ path
  backslash : 92 ∉ path

instance (path : Bytes) : Decidable (Plain path) :=
  decidable_of_iff (44 ∉ path ∧ 58 ∉ path ∧ 92 ∉ path)
    ⟨fun all => ⟨all.1, all.2.1, all.2.2⟩, fun plain => ⟨plain.comma, plain.colon, plain.backslash⟩⟩

theorem Plain.append_iff {left right : Bytes} :
    Plain (left ++ right) ↔ Plain left ∧ Plain right := by
  constructor
  · rintro ⟨comma, colon, backslash⟩
    rw [List.mem_append, not_or] at comma colon backslash
    exact ⟨⟨comma.1, colon.1, backslash.1⟩, ⟨comma.2, colon.2, backslash.2⟩⟩
  · rintro ⟨left, right⟩
    refine ⟨?_, ?_, ?_⟩
    · exact List.not_mem_append left.comma right.comma
    · exact List.not_mem_append left.colon right.colon
    · exact List.not_mem_append left.backslash right.backslash

theorem optionValue_some {name piece value : Bytes} (named : optionValue name piece = some value) :
    piece = name ++ value := by
  rw [optionValue] at named
  split at named
  · rename_i front
    rcases front with ⟨rest, rfl⟩
    rw [List.drop_left] at named
    cases named
    rfl
  · cases named

theorem lastValue_some {name options value : Bytes} (last : lastValue name options = some value) :
    name ++ value ∈ optionPieces options := by
  rcases List.mem_filterMap.mp (List.mem_of_getLast? last) with ⟨piece, member, named⟩
  rw [← optionValue_some named]
  exact member

section Reading

variable {rootfs upper work : Bytes}

/-- Options of plain paths are read as they were written. -/
theorem optionPieces_plain (rootfsPlain : Plain rootfs) (upperPlain : Plain upper)
    (workPlain : Plain work) :
    optionPieces (overlayOptions rootfs upper work) =
      [ascii "lowerdir=" ++ rootfs, ascii "upperdir=" ++ upper, ascii "workdir=" ++ work] := by
  have lowerFree : Plain (ascii "lowerdir=" ++ rootfs) :=
    Plain.append_iff.mpr ⟨by decide, rootfsPlain⟩
  have upperFree : Plain (ascii "upperdir=" ++ upper) :=
    Plain.append_iff.mpr ⟨by decide, upperPlain⟩
  have workFree : Plain (ascii "workdir=" ++ work) :=
    Plain.append_iff.mpr ⟨by decide, workPlain⟩
  have written : overlayOptions rootfs upper work =
      (ascii "lowerdir=" ++ rootfs) ++ 44 :: ((ascii "upperdir=" ++ upper) ++
        44 :: (ascii "workdir=" ++ work)) := by
    have upperdir : ascii ",upperdir=" = 44 :: ascii "upperdir=" := rfl
    have workdir : ascii ",workdir=" = 44 :: ascii "workdir=" := rfl
    simp only [overlayOptions, upperdir, workdir, List.append_assoc, List.cons_append]
  rw [optionPieces, written,
    Escaped.split_append (by decide) lowerFree.backslash lowerFree.comma,
    Escaped.split_append (by decide) upperFree.backslash upperFree.comma,
    Escaped.split_of_free workFree.backslash workFree.comma]

/-- Options of plain paths are read as the layers they were written for. -/
theorem layersOf_plain (rootfsPlain : Plain rootfs) (upperPlain : Plain upper)
    (workPlain : Plain work) :
    layersOf (overlayOptions rootfs upper work) = ⟨[rootfs], some upper, some work⟩ := by
  have pieces := optionPieces_plain rootfsPlain upperPlain workPlain
  have lower : lastValue (ascii "lowerdir=") (overlayOptions rootfs upper work) =
      some rootfs := by
    rw [lastValue, pieces]
    rfl
  have upperdir : lastValue (ascii "upperdir=") (overlayOptions rootfs upper work) =
      some upper := by
    rw [lastValue, pieces]
    rfl
  have workdir : lastValue (ascii "workdir=") (overlayOptions rootfs upper work) =
      some work := by
    rw [lastValue, pieces]
    rfl
  rw [layersOf, lower, upperdir, workdir]
  simp only [Escaped.split_of_free rootfsPlain.backslash rootfsPlain.colon, List.map_cons,
    List.map_nil, Option.map_some, Escaped.unescape_of_free rootfsPlain.backslash,
    Escaped.unescape_of_free upperPlain.backslash, Escaped.unescape_of_free workPlain.backslash]

/-- The value an option was read to have is in the string with its escapes. -/
private theorem value_of_read {name options path : Bytes}
    (read : (lastValue name options).map (Escaped.unescape 92) = some path) :
    ∃ value, name ++ value ∈ optionPieces options ∧ path.length ≤ value.length := by
  rcases Option.map_eq_some_iff.mp read with ⟨value, last, rfl⟩
  exact ⟨value, lastValue_some last, Escaped.length_unescape_le value⟩

/-- The lower directory is the only one, so it is the whole value without its escapes. -/
private theorem lower_of_read {options path : Bytes} (read : (layersOf options).lower = [path]) :
    ∃ dirs, ascii "lowerdir=" ++ dirs ∈ optionPieces options ∧
      Escaped.split 92 58 dirs = [dirs] ∧ Escaped.unescape 92 dirs = path := by
  rw [layersOf] at read
  dsimp only at read
  cases last : lastValue (ascii "lowerdir=") options with
  | none =>
      rw [last] at read
      cases read
  | some dirs =>
      rw [last] at read
      rcases List.map_eq_singleton_iff.mp read with ⟨piece, single, rfl⟩
      cases Escaped.eq_of_split_singleton single
      exact ⟨dirs, lastValue_some last, single, rfl⟩

/-- If the options are read as the layers they were written for, the three options take up
the whole string, so that the rootfs has no escape, and no comma or colon either. -/
theorem plain_of_layersOf
    (read : layersOf (overlayOptions rootfs upper work) = ⟨[rootfs], some upper, some work⟩) :
    Plain rootfs := by
  rcases lower_of_read (congrArg Layers.lower read) with ⟨dirs, inLower, single, path⟩
  rcases value_of_read (congrArg Layers.upper read) with ⟨upperValue, inUpper, upperLength⟩
  rcases value_of_read (congrArg Layers.work read) with ⟨workValue, inWork, workLength⟩
  have distinct : [ascii "lowerdir=" ++ dirs, ascii "upperdir=" ++ upperValue,
      ascii "workdir=" ++ workValue].Nodup := by
    have lowerUpper : ascii "lowerdir=" ++ dirs ≠ ascii "upperdir=" ++ upperValue :=
      fun equal => absurd (List.cons.inj equal).1 (by decide : ¬ (108 : UInt8) = 117)
    have lowerWork : ascii "lowerdir=" ++ dirs ≠ ascii "workdir=" ++ workValue :=
      fun equal => absurd (List.cons.inj equal).1 (by decide : ¬ (108 : UInt8) = 119)
    have upperWork : ascii "upperdir=" ++ upperValue ≠ ascii "workdir=" ++ workValue :=
      fun equal => absurd (List.cons.inj equal).1 (by decide : ¬ (117 : UInt8) = 119)
    simp [lowerUpper, lowerWork, upperWork]
  have fits := Escaped.three_pieces inLower inUpper inWork distinct
  have lowerName : (ascii "lowerdir=").length = 9 := rfl
  have upperName : (ascii "upperdir=").length = 9 := rfl
  have workName : (ascii "workdir=").length = 8 := rfl
  have upperComma : (ascii ",upperdir=").length = 10 := rfl
  have workComma : (ascii ",workdir=").length = 9 := rfl
  simp only [overlayOptions, List.length_append, lowerName, upperName, workName, upperComma,
    workComma] at fits
  have asLong : dirs.length ≤ (Escaped.unescape 92 dirs).length := by
    rw [path]
    omega
  have backslash := Escaped.escape_notMem_of_length asLong
  rw [Escaped.unescape_of_free backslash] at path
  subst path
  have piece : 92 ∉ ascii "lowerdir=" ++ dirs := List.not_mem_append (by decide) backslash
  have comma := Escaped.separator_notMem inLower piece
  have member : dirs ∈ Escaped.split 92 58 dirs := by
    rw [single]
    exact List.mem_singleton.mpr rfl
  exact ⟨fun inside => comma (List.mem_append_right _ inside),
    Escaped.separator_notMem member backslash, backslash⟩

end Reading

/-- The names of a session mean nothing in an option string. -/
theorem SessionKey.plain_name (key : SessionKey) {suffix : Bytes} (plain : Plain suffix) :
    Plain (key.sessionDir ++ suffix) := by
  have id : Plain key.id :=
    ⟨key.notMem_id (by decide) (by decide), key.notMem_id (by decide) (by decide),
      key.notMem_id (by decide) (by decide)⟩
  have dir : Plain key.sessionDir := Plain.append_iff.mpr ⟨by decide, id⟩
  exact Plain.append_iff.mpr ⟨dir, plain⟩

end Caal

import Mathlib.Logic.Function.Basic
import Mathlib.Data.List.Basic
import Mathlib.Data.List.Find

/-!
# Overlay mounts

Overlay filesystems that are mounted over one another, on directories that may lie in one
another. The lower directory of a new overlay is what its directory shows when it is mounted,
so an overlay is a chain of upper directories over the files themselves. A chain stays usable
after it has been unmounted.
-/

universe u v w x

namespace Overlay

/-- The contents of files, by name. -/
abbrev Tree (Name : Type w) (Content : Type x) := Name → Option Content

/-- An upper directory: the names that were changed, and to what. A name that was
removed is a whiteout. -/
abbrev Layer (Name : Type w) (Content : Type x) := Name → Option (Option Content)

variable {Place : Type u} {Owner : Type v} {Name : Type w} {Content : Type x}

/-- The files in a directory. -/
def Tree.restrict (tree : Tree Name Content) (inside : Name → Bool) : Tree Name Content :=
  fun name => if inside name then tree name else none

/-- An upper directory nothing has been written to. -/
def Layer.untouched : Layer Name Content := fun _ => none

/-- A directory seen through an upper directory. -/
def Layer.over (layer : Layer Name Content) (tree : Tree Name Content) : Tree Name Content :=
  fun name => (layer name).getD (tree name)

@[simp] theorem Layer.over_untouched (tree : Tree Name Content) :
    Layer.untouched.over tree = tree := rfl

/-- A mount: its directory, and the owners of the upper directories it shows, topmost first. -/
structure Mount (Place : Type u) (Owner : Type v) where
  place : Place
  chain : List Owner
  deriving DecidableEq

/-- Files, upper directories and mounts, the newest mount first. An overlay with options that
name other lower directories than its own directory is `astray`: below its upper directory it
shows what these show. -/
structure Disk (Place : Type u) (Owner : Type v) (Name : Type w) (Content : Type x) where
  base : Tree Name Content
  upper : Owner → Layer Name Content
  astray : Owner → Option (Tree Name Content)
  mounts : List (Mount Place Owner)

namespace Disk

/-- Nothing is mounted, and no upper directory is written to. -/
def fresh (base : Tree Name Content) (astray : Owner → Option (Tree Name Content)) :
    Disk Place Owner Name Content where
  base := base
  upper _ := .untouched
  astray := astray
  mounts := []

/-- What a chain of upper directories shows. -/
def view (disk : Disk Place Owner Name Content) : List Owner → Tree Name Content
  | [] => disk.base
  | owner :: lower => (disk.upper owner).over ((disk.astray owner).getD (disk.view lower))

section Mounting

variable [DecidableEq Place]

/-- The mounts on a directory, the newest first. -/
def stack (disk : Disk Place Owner Name Content) (place : Place) : List (List Owner) :=
  (disk.mounts.filter fun mount => mount.place = place).map Mount.chain

variable (beneath : Place → Place → Bool)

/-- The mount that a path leads into: the newest of those on its directory, and of those on a
directory it lies beneath. An older one is hidden by a newer one further up. -/
def foremost (disk : Disk Place Owner Name Content) (place : Place) : Option (Mount Place Owner) :=
  disk.mounts.find? fun mount => mount.place = place || beneath place mount.place

/-- The chain that a path resolves to. -/
def top (disk : Disk Place Owner Name Content) (place : Place) : List Owner :=
  ((disk.foremost beneath place).map Mount.chain).getD []

/-- The path is the root of a mount, so that it can be unmounted. -/
def covers (disk : Disk Place Owner Name Content) (place : Place) : Bool :=
  (disk.foremost beneath place).any fun mount => mount.place = place

/-- An overlay over what the directory shows now. -/
def mount (disk : Disk Place Owner Name Content) (place : Place) (owner : Owner) :
    Disk Place Owner Name Content :=
  { disk with mounts := ⟨place, owner :: disk.top beneath place⟩ :: disk.mounts }

/-- The mounts without the newest on a directory. The newer ones on directories beneath it are
in it, and go with it. -/
def detach (place : Place) : List (Mount Place Owner) → List (Mount Place Owner)
  | [] => []
  | mount :: mounts =>
      if mount.place = place then mounts
      else if beneath mount.place place then detach place mounts
      else mount :: detach place mounts

/-- The topmost mount is detached. -/
def umount (disk : Disk Place Owner Name Content) (place : Place) :
    Disk Place Owner Name Content :=
  { disk with mounts := detach beneath place disk.mounts }

/-- No directory lies beneath another: mounts on different ones have nothing to do with one
another. -/
def flat : Place → Place → Bool := fun _ _ => false

variable {beneath}

section Simp

variable (disk : Disk Place Owner Name Content) (place : Place) (owner : Owner)

@[simp] theorem base_mount : (disk.mount beneath place owner).base = disk.base := rfl

@[simp] theorem upper_mount : (disk.mount beneath place owner).upper = disk.upper := rfl

@[simp] theorem base_umount : (disk.umount beneath place).base = disk.base := rfl

@[simp] theorem upper_umount : (disk.umount beneath place).upper = disk.upper := rfl

end Simp

variable {disk : Disk Place Owner Name Content} {place : Place} {owner : Owner}

theorem stack_congr {after : Disk Place Owner Name Content} (same : after.mounts = disk.mounts) :
    after.stack = disk.stack := by
  funext place
  rw [stack, stack, same]

theorem stack_ne_nil_of_covers (covers : disk.covers beneath place = true) :
    disk.stack place ≠ [] := by
  rw [Disk.covers, Option.any_eq_true] at covers
  rcases covers with ⟨mount, found, same⟩
  have member : mount ∈ disk.mounts.filter fun mount => mount.place = place :=
    List.mem_filter.mpr ⟨List.mem_of_find?_eq_some found, same⟩
  rw [stack]
  exact fun empty => List.ne_nil_of_mem member (List.map_eq_nil_iff.mp empty)

theorem mem_stack {chain : List Owner} (member : chain ∈ disk.stack place) :
    ∃ mount ∈ disk.mounts, mount.place = place ∧ mount.chain = chain := by
  rcases List.mem_map.mp member with ⟨mount, inside, same⟩
  rcases List.mem_filter.mp inside with ⟨mounted, here⟩
  exact ⟨mount, mounted, of_decide_eq_true here, same⟩

/-- The new mount lies on its directory. -/
theorem stack_mount :
    (disk.mount beneath place owner).stack =
      Function.update disk.stack place ((owner :: disk.top beneath place) :: disk.stack place) := by
  funext other
  rw [stack, mount, List.filter_cons]
  by_cases same : other = place
  · subst same
    rw [Function.update_self, if_pos (decide_eq_true rfl)]
    rfl
  · rw [Function.update_of_ne same, if_neg fun equal => same (of_decide_eq_true equal).symm]
    rfl

/-- Where no mount lies further up, a path leads into the newest mount on its directory. -/
theorem top_eq (apart : ∀ mount ∈ disk.mounts, beneath place mount.place = false) :
    disk.top beneath place = (disk.stack place).headD [] := by
  have found : disk.foremost beneath place =
      (disk.mounts.filter fun mount => mount.place = place).head? := by
    rw [foremost, List.head?_filter]
    apply List.find?_congr
    intro mount member
    rw [apart mount member, Bool.or_false]
  rw [top, found, stack]
  cases disk.mounts.filter fun mount => mount.place = place with
  | nil => rfl
  | cons mount mounts => rfl

private theorem filter_detach {mounts : List (Mount Place Owner)}
    (apart : ∀ mount ∈ mounts, beneath mount.place place = false) (other : Place) :
    (detach beneath place mounts).filter (fun mount => mount.place = other) =
      if other = place then (mounts.filter fun mount => mount.place = other).tail
      else mounts.filter fun mount => mount.place = other := by
  induction mounts with
  | nil => simp [detach]
  | cons mount mounts ih =>
      have later := ih fun mount member => apart mount (List.mem_cons_of_mem _ member)
      rw [detach, apart mount List.mem_cons_self, List.filter_cons]
      by_cases here : mount.place = place
      · rw [if_pos here, here]
        by_cases same : other = place
        · simp [same]
        · simp [same, Ne.symm same]
      · rw [if_neg here, if_neg Bool.false_ne_true, List.filter_cons, later]
        by_cases same : other = place
        · simp [same, here]
        · simp [same]

/-- Where no mount lies beneath the directory, its newest mount is all that goes. -/
theorem stack_umount (apart : ∀ mount ∈ disk.mounts, beneath mount.place place = false) :
    (disk.umount beneath place).stack =
      Function.update disk.stack place (disk.stack place).tail := by
  funext other
  rw [stack, umount, filter_detach apart]
  by_cases same : other = place
  · subst same
    rw [if_pos rfl, Function.update_self, stack, List.map_tail]
  · rw [if_neg same, Function.update_of_ne same, stack]

/-- Nothing is mounted that was not mounted before. -/
theorem detach_sublist (mounts : List (Mount Place Owner)) :
    (detach beneath place mounts).Sublist mounts := by
  induction mounts with
  | nil => exact List.Sublist.refl _
  | cons mount mounts ih =>
      rw [detach]
      split
      · exact List.sublist_cons_self mount mounts
      · split
        · exact ih.cons mount
        · exact ih.cons_cons mount

end Mounting

section Writing

variable [DecidableEq Owner] [DecidableEq Name]

/-- A name is changed or removed in what a path was resolved to. -/
def write (disk : Disk Place Owner Name Content) (chain : List Owner) (name : Name)
    (content : Option Content) : Disk Place Owner Name Content :=
  match chain with
  | [] => { disk with base := Function.update disk.base name content }
  | owner :: _ =>
      { disk with
        upper := Function.update disk.upper owner
          (Function.update (disk.upper owner) name (some content)) }

variable (disk : Disk Place Owner Name Content) (owner : Owner) (name : Name)
  (content : Option Content)

/-- What is written through an overlay does not reach the files below. -/
@[simp] theorem base_write (lower : List Owner) :
    (disk.write (owner :: lower) name content).base = disk.base := rfl

/-- Only the topmost upper directory is written to. -/
theorem upper_write_of_ne {other : Owner} (lower : List Owner) (different : other ≠ owner) :
    (disk.write (owner :: lower) name content).upper other = disk.upper other :=
  Function.update_of_ne different _ _

@[simp] theorem astray_write (chain : List Owner) :
    (disk.write chain name content).astray = disk.astray := by
  cases chain <;> rfl

@[simp] theorem mounts_write (chain : List Owner) :
    (disk.write chain name content).mounts = disk.mounts := by
  cases chain <;> rfl

/-- What is written is seen. -/
theorem view_write (chain : List Owner) :
    (disk.write chain name content).view chain name = content := by
  cases chain with
  | nil => simp [write, view]
  | cons owner lower => simp [write, view, Layer.over]

end Writing

/-- Through upper directories that nothing was written to, the files themselves show, unless an
overlay is astray. -/
theorem view_of_untouched {disk : Disk Place Owner Name Content} {chain : List Owner}
    (untouched : ∀ owner ∈ chain, disk.upper owner = .untouched)
    (straight : ∀ owner ∈ chain, disk.astray owner = none) : disk.view chain = disk.base := by
  induction chain with
  | nil => rfl
  | cons owner lower ih =>
      have below : disk.view lower = disk.base :=
        ih (fun other member => untouched other (List.mem_cons_of_mem _ member))
          fun other member => straight other (List.mem_cons_of_mem _ member)
      rw [view, untouched owner List.mem_cons_self, straight owner List.mem_cons_self, below,
        Option.getD_none, Layer.over_untouched]

end Disk

end Overlay

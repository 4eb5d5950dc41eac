import Caal.Container.Lifecycle
import Caal.Container.OverlayOptions

/-!
# The overlay that is asked for

The `mount` that `container_start` makes: its target and its options are the intended ones for
some bundle paths only.
-/

namespace Caal

open CMemory

/-! ## The mount -/

/-- The `mount` of an overlay: where, and with what options. -/
structure MountCall where
  target : Bytes
  options : Bytes
  deriving DecidableEq

/-- The call as `container_start` makes it, out of arrays that held anything before. -/
def mountCall (ct : Container) (names : Names) (array : Buf 512) (key : SessionKey)
    (bundlePath : Bytes) : MountCall :=
  let ct := ct.named key bundlePath
  let names := names.build key
  { target := ct.rootfs.text
    options := (array.snprintf
      (overlayOptions ct.rootfs.text names.upper.text names.work.text)).text }

variable {Place : Type}

/-- The overlay that `container_start` mounts, if it comes to it and the call succeeds. -/
def overlayMount (fails : Point → Bool) (key : SessionKey) (ct : Container) (names : Names)
    (array : Buf 512) (bundlePath : Bytes) (sizeMb : Int64) (machine : Machine Place) :
    Option MountCall :=
  match sessionDiskSetup fails (ct.named key bundlePath).sessionDir.text
      (ct.named key bundlePath).imagePath.text sizeMb machine with
  | (_, false) => none
  | (_, true) =>
      if fails .mountOverlay then none else some (mountCall ct names array key bundlePath)

/-- This is the overlay of a `container_start` that succeeds. -/
theorem containerStart_overlay [DecidableEq Place] (resolve : Bytes → Place)
    {fails : Point → Bool} {key : SessionKey} {ct : Container} (names : Names) (array : Buf 512)
    {bundlePath : Bytes} {sizeMb : Int64} {machine : Machine Place}
    (ok : (containerStart resolve fails key ct bundlePath sizeMb machine).ok = true) :
    ∃ call, overlayMount fails key ct names array bundlePath sizeMb machine = some call ∧
      (containerStart resolve fails key ct bundlePath sizeMb machine).machine.overlays =
        (machine.mountOverlay (resolve call.target) key.upperDir).overlays := by
  have disk := sessionDiskSetup_spec fails key sizeMb machine
  rw [containerStart] at ok ⊢
  rw [overlayMount]
  simp only [Container.sessionDir_named, Container.imagePath_named, Container.containerId_named,
    Container.text_sockPath, Container.rootfs_named] at ok ⊢
  generalize sessionDiskSetup fails key.sessionDir key.imagePath sizeMb machine = result
    at disk ok ⊢
  generalize diskCalls.find? (refused fails key sizeMb machine) = point at disk
  cases disk with
  | unmade => cases ok
  | halfMade inside fresh left => cases ok
  | made fresh unused =>
      dsimp only at ok ⊢
      split at ok
      · cases ok
      · rename_i mounted
        rw [if_neg mounted, if_neg mounted]
        refine ⟨_, rfl, ?_⟩
        have target : (mountCall ct names array key bundlePath).target = mountPoint bundlePath :=
          ct.rootfs_named key bundlePath
        rw [target]
        have setUp := ptyBridgeInit_spec fails (socketPath key.pid)
          (machine.withMounts key (resolve (mountPoint bundlePath)))
        change (match ptyBridgeInit fails (socketPath key.pid)
          (machine.withMounts key (resolve (mountPoint bundlePath))) with
          | (machine, false) => errMounted resolve _ machine
          | (machine, true) =>
              if fails .forkCrun then errMounted resolve _ (machine.unlinkSocket _)
              else Started.mk _ (machine.startCrun key.id) true).ok = true at ok
        change (match ptyBridgeInit fails (socketPath key.pid)
          (machine.withMounts key (resolve (mountPoint bundlePath))) with
          | (machine, false) => errMounted resolve _ machine
          | (machine, true) =>
              if fails .forkCrun then errMounted resolve _ (machine.unlinkSocket _)
              else Started.mk _ (machine.startCrun key.id) true).machine.overlays = _
        generalize ptyBridgeInit fails (socketPath key.pid)
          (machine.withMounts key (resolve (mountPoint bundlePath))) = bridge at setUp ok ⊢
        generalize socketCalls.find? fails = failure at setUp
        cases setUp with
        | unmade => cases ok
        | unbound => cases ok
        | bound => cases ok
        | made =>
            dsimp only at ok ⊢
            split at ok
            · cases ok
            · rename_i forked
              rw [if_neg forked]
              rfl

/-! ## Intended and not -/

section Intended

variable (key : SessionKey) (bundlePath : Bytes)

/-- What `mount` is given: the rootfs as far as its array goes, and the option string in
full. -/
theorem mountCall_eq (ct : Container) (names : Names) (array : Buf 512) :
    mountCall ct names array key bundlePath =
      ⟨mountPoint bundlePath,
        overlayOptions (mountPoint bundlePath) (key.name .upper) (key.name .work)⟩ := by
  have rootfs := ct.rootfs_named key bundlePath
  have upper : (names.build key).upper.text = key.name .upper := names.text_build key .upper
  have work : (names.build key).work.text = key.name .work := names.text_build key .work
  rw [mountCall, rootfs, upper, work, MountCall.mk.injEq]
  refine ⟨rfl, Buf.text_snprintf_of_fits _ ?_ ?_⟩
  · have rootfsFree : (0 : UInt8) ∉ mountPoint bundlePath := by
      rw [← text_rootfs]
      exact zero_notMem_take_cstr _ _
    have upperFree : (0 : UInt8) ∉ key.name .upper := key.zero_notMem_under (by decide)
    have workFree : (0 : UInt8) ∉ key.name .work := key.zero_notMem_under (by decide)
    simp only [overlayOptions, List.mem_append, not_or]
    exact ⟨by decide, rootfsFree, by decide, upperFree, by decide, workFree⟩
  · have rootfsLength : (mountPoint bundlePath).length ≤ 127 := List.length_take_le _ _
    have upperLength : (key.name .upper).length ≤ 92 := key.length_under (by decide)
    have workLength : (key.name .work).length ≤ 92 := key.length_under (by decide)
    have lowerName : (ascii "lowerdir=").length = 9 := rfl
    have upperName : (ascii ",upperdir=").length = 10 := rfl
    have workName : (ascii ",workdir=").length = 9 := rfl
    simp only [overlayOptions, List.length_append, lowerName, upperName, workName]
    omega

/-- Whenever `container_start` mounts an overlay, it is mounted on the `rootfs` of the bundle,
and the kernel reads the options as this directory, the session's own upper directory and its
own work directory. A `mount` with an option that the kernel does not know fails. -/
def MountsAsIntended (Place : Type) (takes : Bytes → Bool) : Prop :=
  ∀ {fails : Point → Bool} {ct : Container} {names : Names} {array : Buf 512} {sizeMb : Int64}
    {machine : Machine Place} {call : MountCall},
    overlayMount fails key ct names array bundlePath sizeMb machine = some call →
    Readable takes call.options →
    call.target = cstr bundlePath ++ ascii "/rootfs" ∧
      call.options =
        overlayOptions (cstr bundlePath ++ ascii "/rootfs") (key.name .upper) (key.name .work) ∧
      layersOf call.options =
        ⟨[cstr bundlePath ++ ascii "/rootfs"], some (key.name .upper), some (key.name .work)⟩

/-- The array for the rootfs has room for it. -/
theorem mountPoint_eq_iff :
    mountPoint bundlePath = cstr bundlePath ++ ascii "/rootfs" ↔
      (cstr bundlePath).length ≤ 120 := by
  have rootfs : (ascii "/rootfs").length = 7 := rfl
  rw [mountPoint, List.take_eq_self_iff, List.length_append, rootfs]
  omega

/-- An overlay is mounted in some run. -/
private theorem overlayMount_possible (Place : Type) :
    ∃ (fails : Point → Bool) (machine : Machine Place),
      overlayMount fails key .zero .zero (.zero 512) bundlePath 1 machine =
        some (mountCall .zero .zero (.zero 512) key bundlePath) := by
  have made := @sessionDiskSetup_empty Place key 1 (by decide)
  refine ⟨fun _ => false, .empty, ?_⟩
  rw [overlayMount, Container.sessionDir_named, Container.imagePath_named, made]
  rfl

/-- The overlay is mounted as intended for exactly the bundle paths that fit and mean nothing
in an option string, and for those that make the kernel refuse the options. -/
theorem overlay_intended_iff (Place : Type) (takes : Bytes → Bool) :
    MountsAsIntended key bundlePath Place takes ↔
      ((cstr bundlePath).length ≤ 120 ∧ Plain (cstr bundlePath)) ∨
        ¬ Readable takes
          (overlayOptions (mountPoint bundlePath) (key.name .upper) (key.name .work)) := by
  have upper : Plain (key.name .upper) := key.plain_name (by decide)
  have work : Plain (key.name .work) := key.plain_name (by decide)
  constructor
  · intro intended
    by_cases readable : Readable takes
      (overlayOptions (mountPoint bundlePath) (key.name .upper) (key.name .work))
    · left
      rcases overlayMount_possible key bundlePath Place with ⟨fails, machine, mounted⟩
      rw [mountCall_eq] at mounted
      rcases intended mounted readable with ⟨target, _, read⟩
      dsimp only at target read
      rw [target] at read
      have plain := plain_of_layersOf read
      exact ⟨(mountPoint_eq_iff bundlePath).mp target, (Plain.append_iff.mp plain).1⟩
    · exact .inr readable
  · intro condition fails ct names array sizeMb machine call mounted readable
    have made : call = mountCall ct names array key bundlePath := by
      rw [overlayMount] at mounted
      split at mounted
      · cases mounted
      · split at mounted
        · cases mounted
        · exact (Option.some.inj mounted).symm
    rw [mountCall_eq] at made
    subst made
    rcases condition with ⟨fits, plain⟩ | unreadable
    · have target := (mountPoint_eq_iff bundlePath).mpr fits
      have rootfs : Plain (cstr bundlePath ++ ascii "/rootfs") :=
        Plain.append_iff.mpr ⟨plain, by decide⟩
      dsimp only
      rw [target]
      exact ⟨rfl, rfl, layersOf_plain rootfs upper work⟩
    · exact (unreadable readable).elim

end Intended

/-- A bundle path with a colon names two lower directories. -/
theorem overlay_of_two_directories :
    ¬ ∀ (Place : Type) (takes : Bytes → Bool) (key : SessionKey) (bundlePath : Bytes),
      bundlePath.head? = some 47 → MountsAsIntended key bundlePath Place takes := by
  intro claimed
  let key : SessionKey := ⟨7, 100⟩
  let bundlePath := ascii "/srv/a:/srv/b"
  rcases overlayMount_possible key bundlePath Unit with ⟨fails, machine, mounted⟩
  rw [mountCall_eq] at mounted
  have readable : Readable (fun _ => false)
      (overlayOptions (mountPoint bundlePath) (key.name .upper) (key.name .work)) := by
    decide +kernel
  have read := congrArg Layers.lower
    (claimed Unit (fun _ => false) key bundlePath rfl mounted readable).2.2
  have two : (layersOf (overlayOptions (mountPoint bundlePath) (key.name .upper)
      (key.name .work))).lower ≠ [cstr bundlePath ++ ascii "/rootfs"] := by
    decide +kernel
  exact two read

end Caal

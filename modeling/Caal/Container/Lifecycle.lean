import Caal.Container.Machine
import Caal.Session.Filing

/-!
# What a failed container_start leaves, and what container_stop does then

`container_start` acquires the resources of a session one by one. Its error exits undo
some of them, and it does not clear the strings by which `container_stop` decides what
there is to tear down.
-/

namespace Caal

open CMemory

variable {Place : Type}

/-! ## The call at which container_start fails -/

/-- The calls of `container_start` whose results it looks at, in their order. -/
def diskCalls : List Point :=
  [.mkdirSession, .openImage, .fallocate, .mkfs, .mountImage, .mkdirUpper, .mkdirWork]

def socketCalls : List Point :=
  [.socket, .bind, .listen]

def mountedCalls : List Point :=
  .mountOverlay :: (socketCalls ++ [.forkCrun])

/-- Whether a call fails, for a reason of its own or because it cannot succeed. -/
def refused (fails : Point → Bool) (key : SessionKey) (sizeMb : Int64)
    (machine : Machine Place) : Point → Bool
  | .mkdirSession => fails .mkdirSession || decide (key.sessionDir ∈ machine.dirs)
  | .openImage => fails .openImage || decide (key.imagePath ∈ machine.images)
  | .fallocate => fails .fallocate || !decide (0 < sizeMb * 1024 * 1024)
  | point => fails point

/-- The call at which `container_start` fails. -/
def failedAt (fails : Point → Bool) (key : SessionKey) (sizeMb : Int64)
    (machine : Machine Place) : Option Point :=
  (diskCalls ++ mountedCalls).find? (refused fails key sizeMb machine)

/-! ## session_disk_setup -/

/-- The machine with the directory and the image of a session. -/
def Machine.withImage (key : SessionKey) (machine : Machine Place) : Machine Place :=
  { machine with
    dirs := insert key.sessionDir machine.dirs
    images := insert key.imagePath machine.images
    mounted := machine.mounted.trans (Finset.subset_insert key.sessionDir machine.dirs) }

/-- The machine with the disk of a session. -/
def Machine.withDisk (key : SessionKey) (machine : Machine Place) : Machine Place :=
  { machine.withImage key with
    loops := insert key.sessionDir machine.loops
    mounted := Finset.insert_subset_insert key.sessionDir machine.mounted }

/-- What `session_disk_setup` leaves, by the call at which it fails. -/
inductive DiskSetup (key : SessionKey) (machine : Machine Place) :
    Option Point → Machine Place × Bool → Prop where
  | unmade : DiskSetup key machine (some .mkdirSession) (machine, false)
  | halfMade {point : Point} {after : Machine Place} (inside : point.inDiskSetup = true)
      (fresh : key.sessionDir ∉ machine.dirs) (left : key.sessionDir ∈ after.dirs) :
      DiskSetup key machine (some point) (after, false)
  | made (fresh : key.sessionDir ∉ machine.dirs) (unused : key.imagePath ∉ machine.images) :
      DiskSetup key machine none (machine.withDisk key, true)

section Calls

variable {fails : Point → Bool} {call : Call Place} {calls : List (Call Place)}
  {machine after : Machine Place}

theorem runCalls_of_some (allowed : fails call.point = false)
    (done : call.run machine = some after) :
    runCalls fails (call :: calls) machine = runCalls fails calls after := by
  rw [runCalls, if_neg (by rw [allowed]; exact Bool.false_ne_true), done]

theorem runCalls_of_none (undone : fails call.point = true ∨ call.run machine = none) :
    runCalls fails (call :: calls) machine = (machine, false) := by
  rw [runCalls]
  rcases undone with failed | undone
  · rw [if_pos failed]
  · rw [undone, ite_self]

end Calls

/-- A call of `session_disk_setup` behind its `mkdir`, which fails for its own reasons. -/
private theorem DiskSetup.cons {fails : Point → Bool} {key : SessionKey} {point : Point}
    {points : List Point} {run : Machine Place → Option (Machine Place)}
    {calls : List (Call Place)} {machine current : Machine Place} (after : Machine Place)
    {refuses : Point → Bool} (inside : point.inDiskSetup = true)
    (fresh : key.sessionDir ∉ machine.dirs) (left : key.sessionDir ∈ current.dirs)
    (refusal : refuses point = true → fails point = true ∨ run current = none)
    (success : refuses point = false → fails point = false ∧ run current = some after)
    (rest : refuses point = false →
      DiskSetup key machine (points.find? refuses) (runCalls fails calls after)) :
    DiskSetup key machine ((point :: points).find? refuses)
      (runCalls fails (⟨point, run⟩ :: calls) current) := by
  cases undone : refuses point with
  | true =>
      rw [List.find?_cons_of_pos undone, runCalls_of_none (refusal undone)]
      exact .halfMade inside fresh left
  | false =>
      have skipped : ¬ refuses point = true := by
        rw [undone]
        exact Bool.false_ne_true
      rw [List.find?_cons_of_neg skipped,
        runCalls_of_some (success undone).1 (success undone).2]
      exact rest undone

theorem sessionDiskSetup_spec (fails : Point → Bool) (key : SessionKey) (sizeMb : Int64)
    (machine : Machine Place) :
    DiskSetup key machine (diskCalls.find? (refused fails key sizeMb machine))
      (sessionDiskSetup fails key.sessionDir key.imagePath sizeMb machine) := by
  rw [sessionDiskSetup, diskCalls]
  cases unmade : refused fails key sizeMb machine .mkdirSession with
  | true =>
      rw [List.find?_cons_of_pos unmade, runCalls_of_none]
      · exact .unmade
      · rw [refused, Bool.or_eq_true, decide_eq_true_eq] at unmade
        rcases unmade with failed | present
        · exact .inl failed
        · exact .inr (if_pos present)
  | false =>
      rw [refused, Bool.or_eq_false_iff, decide_eq_false_iff_not] at unmade
      have skipped : ¬ refused fails key sizeMb machine .mkdirSession = true := by
        rw [refused, Bool.or_eq_true, decide_eq_true_eq]
        rintro (failed | present)
        · cases unmade.1.symm.trans failed
        · exact unmade.2 present
      rw [List.find?_cons_of_neg skipped, runCalls_of_some unmade.1 (if_neg unmade.2)]
      have left := Finset.mem_insert_self key.sessionDir machine.dirs
      refine .cons (machine.withImage key) rfl unmade.2 left ?_ ?_ fun created => ?_
      · intro uncreated
        rw [refused, Bool.or_eq_true, decide_eq_true_eq] at uncreated
        exact uncreated.imp_right fun present => if_pos present
      · intro created
        rw [refused, Bool.or_eq_false_iff, decide_eq_false_iff_not] at created
        exact ⟨created.1, if_neg created.2⟩
      rw [refused, Bool.or_eq_false_iff, decide_eq_false_iff_not] at created
      refine .cons (machine.withImage key) rfl unmade.2 left ?_ ?_ fun _ => ?_
      · intro unallocated
        rw [refused, Bool.or_eq_true, Bool.not_eq_true', decide_eq_false_iff_not] at unallocated
        exact unallocated.imp_right fun empty => if_neg empty
      · intro allocated
        rw [refused, Bool.or_eq_false_iff, Bool.not_eq_false', decide_eq_true_eq] at allocated
        exact ⟨allocated.1, if_pos allocated.2⟩
      refine .cons (machine.withImage key) rfl unmade.2 left .inl
        (fun formatted => ⟨formatted, rfl⟩) fun _ => ?_
      refine .cons (machine.withDisk key) rfl unmade.2 left .inl
        (fun mounted => ⟨mounted, dif_pos left⟩) fun _ => ?_
      refine .cons (machine.withDisk key) rfl unmade.2 left .inl
        (fun upper => ⟨upper, rfl⟩) fun _ => ?_
      refine .cons (machine.withDisk key) rfl unmade.2 left .inl
        (fun work => ⟨work, rfl⟩) fun _ => ?_
      exact .made unmade.2 created.2

/-- With all calls succeeding, an empty machine gets the disk of a session. -/
theorem sessionDiskSetup_empty (key : SessionKey) {sizeMb : Int64}
    (positive : 0 < sizeMb * 1024 * 1024) :
    sessionDiskSetup (fun _ => false) key.sessionDir key.imagePath sizeMb
      (Machine.empty : Machine Place) = (Machine.empty.withDisk key, true) := by
  have disk := sessionDiskSetup_spec (fun _ => false) key sizeMb (Machine.empty : Machine Place)
  have unrefused : diskCalls.find? (refused (fun _ => false) key sizeMb
      (Machine.empty : Machine Place)) = none := by
    simp [diskCalls, refused, Machine.empty, positive]
  rw [unrefused] at disk
  generalize sessionDiskSetup (fun _ => false) key.sessionDir key.imagePath sizeMb
    (Machine.empty : Machine Place) = result at disk ⊢
  cases disk with
  | made fresh unused => rfl

/-- If none of the calls failed, each has been made. -/
theorem run_of_runCalls {fails : Point → Bool} {calls : List (Call Place)}
    {machine : Machine Place} (done : (runCalls fails calls machine).2 = true) {call : Call Place}
    (member : call ∈ calls) : ∃ before after, call.run before = some after := by
  induction calls generalizing machine with
  | nil => cases member
  | cons head calls ih =>
      cases outcome : if fails head.point then none else head.run machine with
      | none =>
          rw [runCalls, outcome] at done
          cases done
      | some after =>
          rw [runCalls, outcome] at done
          rcases List.mem_cons.mp member with rfl | later
          · split at outcome
            · cases outcome
            · exact ⟨machine, after, outcome⟩
          · exact ih done later

/-! ## pty_bridge_init -/

/-- The machine with other console sockets. -/
def Machine.withSockets (sockets : Finset Bytes) (machine : Machine Place) : Machine Place :=
  { machine with sockets }

/-- What `pty_bridge_init` leaves, by the call at which it fails. -/
inductive SocketSetup (path : Bytes) (machine : Machine Place) :
    Option Point → Machine Place × Bool → Prop where
  | unmade : SocketSetup path machine (some .socket) (machine, false)
  | unbound :
      SocketSetup path machine (some .bind)
        (machine.withSockets (machine.sockets.erase path), false)
  | bound :
      SocketSetup path machine (some .listen)
        (machine.withSockets (insert path machine.sockets), false)
  | made :
      SocketSetup path machine none (machine.withSockets (insert path machine.sockets), true)

theorem ptyBridgeInit_spec (fails : Point → Bool) (path : Bytes) (machine : Machine Place) :
    SocketSetup path machine (socketCalls.find? fails)
      (ptyBridgeInit fails path machine) := by
  have free : path ∉ (machine.unlinkSocket path).sockets := Finset.notMem_erase path _
  have made : (machine.unlinkSocket path).bind path =
      some (machine.withSockets (insert path machine.sockets)) := by
    rw [Machine.bind, if_neg free]
    have again : insert path (machine.sockets.erase path) = insert path machine.sockets := by
      ext other
      rw [Finset.mem_insert, Finset.mem_erase, Finset.mem_insert]
      by_cases same : other = path
      · exact iff_of_true (.inl same) (.inl same)
      · rw [and_iff_right same]
    exact congrArg (fun sockets => some (machine.withSockets sockets)) again
  rw [ptyBridgeInit, socketCalls]
  cases socket : fails .socket with
  | true =>
      rw [List.find?_cons_of_pos socket, if_pos rfl]
      exact .unmade
  | false =>
      rw [List.find?_cons_of_neg (by rw [socket]; exact Bool.false_ne_true),
        if_neg Bool.false_ne_true]
      cases bound : fails .bind with
      | true =>
          rw [List.find?_cons_of_pos bound, runCalls_of_none (.inl bound)]
          exact .unbound
      | false =>
          rw [List.find?_cons_of_neg (by rw [bound]; exact Bool.false_ne_true),
            runCalls_of_some bound made]
          cases heard : fails .listen with
          | true =>
              rw [List.find?_cons_of_pos heard, runCalls_of_none (.inl heard)]
              exact .bound
          | false =>
              rw [List.find?_cons_of_neg (by rw [heard]; exact Bool.false_ne_true),
                runCalls_of_some heard rfl]
              exact .made

/-! ## The error exits of container_start -/

/-- `session_disk_cleanup` undoes `session_disk_setup`. -/
theorem Machine.sessionDiskCleanup_withDisk {key : SessionKey} {machine : Machine Place}
    (fresh : key.sessionDir ∉ machine.dirs) (unused : key.imagePath ∉ machine.images) :
    (machine.withDisk key).sessionDiskCleanup key.sessionDir key.imagePath = machine := by
  have unmounted : key.sessionDir ∉ machine.loops := fun member => fresh (machine.mounted member)
  apply Machine.ext
  · exact Finset.erase_insert fresh
  · exact Finset.erase_insert unused
  · exact Finset.erase_insert unmounted
  · rfl
  · rfl
  · rfl

section Exits

variable [DecidableEq Place] (resolve : Bytes → Place) {key : SessionKey} {ct : Container}
  {bundlePath : Bytes}

theorem Machine.umountOverlay_mountOverlay (place : Place) (upperDir : Bytes)
    (machine : Machine Place) :
    (machine.mountOverlay place upperDir).umountOverlay place = machine := by
  apply Machine.ext
  · rfl
  · rfl
  · rfl
  · change Function.update (Function.update machine.overlays place
      (upperDir :: machine.overlays place)) place
        (Function.update machine.overlays place (upperDir :: machine.overlays place) place).tail =
      machine.overlays
    rw [Function.update_self, Function.update_idem, List.tail_cons, Function.update_eq_self]
  · rfl
  · rfl

/-- The machine with the disk and the overlay of a session. -/
def Machine.withMounts (key : SessionKey) (place : Place) (machine : Machine Place) :
    Machine Place :=
  (machine.withDisk key).mountOverlay place key.upperDir

/-- The structure once `pty_bridge_init` has named its socket. -/
def Container.withSocket (ct : Container) (key : SessionKey) (bundlePath : Bytes) : Container :=
  { ct.named key bundlePath with sockPath := ct.sockPath.snprintf (socketPath key.pid) }

/-- The two error labels undo the overlay and the disk. -/
theorem errMounted_eq {machine : Machine Place}
    (fresh : key.sessionDir ∉ machine.dirs) (unused : key.imagePath ∉ machine.images)
    (sessionDir : ct.sessionDir.text = key.sessionDir)
    (imagePath : ct.imagePath.text = key.imagePath)
    (rootfs : ct.rootfs.text = mountPoint bundlePath) (sockets : Finset Bytes) :
    errMounted resolve ct
        ((machine.withMounts key (resolve (mountPoint bundlePath))).withSockets sockets) =
      ⟨ct, machine.withSockets sockets, false⟩ := by
  have undone := Machine.sessionDiskCleanup_withDisk fresh unused
  rw [errMounted, sessionDir, imagePath, rootfs]
  change Started.mk ct (((((machine.withDisk key).mountOverlay (resolve (mountPoint bundlePath))
    key.upperDir).umountOverlay (resolve (mountPoint bundlePath))).sessionDiskCleanup
      key.sessionDir key.imagePath).withSockets sockets) false = _
  rw [Machine.umountOverlay_mountOverlay, undone]

end Exits

/-- What `container_start` leaves, by the call at which it fails. -/
inductive StartEnd (key : SessionKey) (machine : Machine Place) :
    Option Point → Started Place → Prop where
  | unmade {ct : Container} : StartEnd key machine (some .mkdirSession) ⟨ct, machine, false⟩
  | halfMade {point : Point} {ct : Container} {after : Machine Place}
      (inside : point.inDiskSetup = true) (fresh : key.sessionDir ∉ machine.dirs)
      (left : key.sessionDir ∈ after.dirs) :
      StartEnd key machine (some point) ⟨ct, after, false⟩
  | undone {point : Point} {ct : Container} {sockets : Finset Bytes}
      (early : point.inDiskSetup = false) (bound : point ≠ .listen)
      (fewer : sockets ⊆ machine.sockets) :
      StartEnd key machine (some point) ⟨ct, machine.withSockets sockets, false⟩
  | unheard {ct : Container} :
      StartEnd key machine (some .listen)
        ⟨ct, machine.withSockets (insert (socketPath key.pid) machine.sockets), false⟩
  | up {ct : Container} {after : Machine Place} : StartEnd key machine none ⟨ct, after, true⟩

/-- `container_start` behind the overlay mount. -/
private theorem StartEnd.behindMount [DecidableEq Place] (resolve : Bytes → Place)
    (fails : Point → Bool) {key : SessionKey} (bundlePath : Bytes) {machine : Machine Place}
    (fresh : key.sessionDir ∉ machine.dirs) (unused : key.imagePath ∉ machine.images)
    (ct : Container) (sessionDir : ct.sessionDir.text = key.sessionDir)
    (imagePath : ct.imagePath.text = key.imagePath)
    (rootfs : ct.rootfs.text = mountPoint bundlePath) :
    StartEnd key machine ((socketCalls.find? fails).or (List.find? fails [.forkCrun]))
      (match ptyBridgeInit fails (socketPath key.pid)
          (machine.withMounts key (resolve (mountPoint bundlePath))) with
        | (machine, false) => errMounted resolve ct machine
        | (machine, true) =>
            if fails .forkCrun then
              errMounted resolve ct (machine.unlinkSocket (socketPath key.pid))
            else ⟨ct, machine.startCrun key.id, true⟩) := by
  have setUp := ptyBridgeInit_spec fails (socketPath key.pid)
    (machine.withMounts key (resolve (mountPoint bundlePath)))
  have undone := errMounted_eq resolve fresh unused sessionDir imagePath rootfs
  generalize socketCalls.find? fails = point at setUp ⊢
  generalize ptyBridgeInit fails (socketPath key.pid)
    (machine.withMounts key (resolve (mountPoint bundlePath))) = result at setUp ⊢
  cases setUp with
  | unmade =>
      have left := undone machine.sockets
      change StartEnd key machine (some .socket) (errMounted resolve ct
        ((machine.withMounts key (resolve (mountPoint bundlePath))).withSockets machine.sockets))
      rw [left]
      exact .undone rfl (nomatch ·) (Finset.Subset.refl machine.sockets)
  | unbound =>
      have left := undone (machine.sockets.erase (socketPath key.pid))
      change StartEnd key machine (some .bind) (errMounted resolve ct _)
      exact left ▸ .undone rfl (nomatch ·) (Finset.erase_subset _ _)
  | bound =>
      have left := undone (insert (socketPath key.pid) machine.sockets)
      change StartEnd key machine (some .listen) (errMounted resolve ct _)
      exact left ▸ .unheard
  | made =>
      cases unforked : fails .forkCrun with
      | true =>
          have left := undone ((insert (socketPath key.pid) machine.sockets).erase
            (socketPath key.pid))
          rw [Option.none_or, List.find?_cons_of_pos unforked]
          change StartEnd key machine (some .forkCrun) (errMounted resolve ct _)
          refine left ▸ .undone rfl (nomatch ·) ?_
          rw [Finset.erase_insert_eq_erase]
          exact Finset.erase_subset _ _
      | false =>
          rw [Option.none_or,
            List.find?_cons_of_neg (by rw [unforked]; exact Bool.false_ne_true)]
          exact .up

theorem containerStart_spec [DecidableEq Place] (resolve : Bytes → Place)
    (fails : Point → Bool) (key : SessionKey) (ct : Container) (bundlePath : Bytes)
    (sizeMb : Int64) (machine : Machine Place) :
    StartEnd key machine (failedAt fails key sizeMb machine)
      (containerStart resolve fails key ct bundlePath sizeMb machine) := by
  have disk := sessionDiskSetup_spec fails key sizeMb machine
  rw [containerStart, failedAt, List.find?_append]
  simp only [Container.sessionDir_named, Container.imagePath_named, Container.containerId_named,
    Container.text_sockPath]
  generalize diskCalls.find? (refused fails key sizeMb machine) = point at disk ⊢
  generalize sessionDiskSetup fails key.sessionDir key.imagePath sizeMb machine = result at disk ⊢
  cases disk with
  | unmade => exact .unmade
  | halfMade inside fresh left => exact .halfMade inside fresh left
  | made fresh unused =>
      have later : mountedCalls.find? (refused fails key sizeMb machine) =
          mountedCalls.find? fails := rfl
      rw [Option.none_or, later, mountedCalls]
      cases unmounted : fails .mountOverlay with
      | true =>
          rw [List.find?_cons_of_pos unmounted]
          have undone := Machine.sessionDiskCleanup_withDisk fresh unused
          simp only [if_true, undone]
          exact .undone rfl (nomatch ·) (Finset.Subset.refl machine.sockets)
      | false =>
          rw [List.find?_cons_of_neg (by rw [unmounted]; exact Bool.false_ne_true),
            List.find?_append]
          simp only [Container.rootfs_named, Bool.false_eq_true, if_false]
          exact .behindMount resolve fails bundlePath fresh unused
            (ct.withSocket key bundlePath) (ct.sessionDir_named key bundlePath)
            (ct.imagePath_named key bundlePath) (ct.rootfs_named key bundlePath)

/-! ## Atomicity -/

/-- The resources of the machine are as before. A leftover console socket may be gone. -/
structure Machine.Restored (before after : Machine Place) : Prop where
  dirs : after.dirs = before.dirs
  images : after.images = before.images
  loops : after.loops = before.loops
  overlays : after.overlays = before.overlays
  containers : after.containers = before.containers
  sockets : after.sockets ⊆ before.sockets

/-- A failure of the call is cleaned up after. -/
def CleanFailure (key : SessionKey) (machine : Machine Place) (point : Point) : Prop :=
  point.inDiskSetup = false ∧ (point = .listen → socketPath key.pid ∈ machine.sockets)

/-- A failed `container_start` leaves the machine as it was exactly if it failed at a call
that is cleaned up after: neither in `session_disk_setup` behind its first `mkdir`, nor at
the `listen` on a console socket it has made. -/
theorem containerStart_atomic_iff [DecidableEq Place] (resolve : Bytes → Place)
    (fails : Point → Bool) (key : SessionKey) (ct : Container) (bundlePath : Bytes)
    (sizeMb : Int64) (machine : Machine Place) :
    ((containerStart resolve fails key ct bundlePath sizeMb machine).ok = false →
      machine.Restored (containerStart resolve fails key ct bundlePath sizeMb machine).machine) ↔
      ∀ point, failedAt fails key sizeMb machine = some point →
        CleanFailure key machine point := by
  have spec := containerStart_spec resolve fails key ct bundlePath sizeMb machine
  generalize failedAt fails key sizeMb machine = point at spec ⊢
  generalize containerStart resolve fails key ct bundlePath sizeMb machine = started at spec ⊢
  cases spec with
  | unmade =>
      refine iff_of_true (fun _ => ⟨rfl, rfl, rfl, rfl, rfl, Finset.Subset.refl _⟩) ?_
      rintro _ ⟨⟩
      exact ⟨rfl, nofun⟩
  | halfMade inside fresh left =>
      refine iff_of_false (fun atomic => ?_) (fun clean => ?_)
      · have restored := atomic rfl
        rw [restored.dirs] at left
        exact fresh left
      · cases inside.symm.trans (clean _ rfl).1
  | undone early bound fewer =>
      refine iff_of_true (fun _ => ⟨rfl, rfl, rfl, rfl, rfl, fewer⟩) ?_
      rintro _ ⟨⟩
      exact ⟨early, fun equal => (bound equal).elim⟩
  | unheard =>
      constructor
      · rintro atomic _ ⟨⟩
        exact ⟨rfl, fun _ => (atomic rfl).sockets (Finset.mem_insert_self _ _)⟩
      · intro clean _
        exact ⟨rfl, rfl, rfl, rfl, rfl,
          Finset.insert_subset ((clean _ rfl).2 rfl) (Finset.Subset.refl _)⟩
  | up => exact iff_of_true (fun failed => nomatch failed) (fun _ failed => nomatch failed)

/-- On an empty machine, `fallocate` fails: there is not enough space. -/
theorem image_left_behind :
    ¬ ∀ (fails : Point → Bool) (key : SessionKey) (bundlePath : Bytes) (sizeMb : Int64)
      (machine : Machine Bytes),
      (containerStart id fails key .zero bundlePath sizeMb machine).ok = false →
      machine.Restored (containerStart id fails key .zero bundlePath sizeMb machine).machine := by
  intro atomic
  have restored := atomic (· == .fallocate) ⟨100, 0⟩ [47, 98] 1024 .empty (by decide)
  exact absurd restored.images (by decide)

end Caal

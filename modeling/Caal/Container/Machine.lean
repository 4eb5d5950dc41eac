import Caal.Session.Program
import Mathlib.Data.Finset.Insert

/-!
# container_start and container_stop as functions

The two functions of `container.c` with `session_disk_setup`, `session_disk_cleanup` and
`pty_bridge_init`, over the resources of the machine they run on. Which of the calls of
`container_start` fail is an argument; the calls of the cleanup do what they are there for.
The calls are named after the control points of `Caal.Session.Program`.
-/

namespace Caal

open CMemory

/-! ## Names -/

/-- `SESSION_DIR "/%s"`. -/
def SessionKey.sessionDir (key : SessionKey) : Bytes :=
  ascii "/var/lib/caal/sessions/" ++ key.id

/-- `SESSION_DIR "/%s.img"`. -/
def SessionKey.imagePath (key : SessionKey) : Bytes :=
  key.sessionDir ++ ascii ".img"

/-- `SESSION_DIR "/%s/upper"`. -/
def SessionKey.upperDir (key : SessionKey) : Bytes :=
  key.sessionDir ++ ascii "/upper"

/-- `"/tmp/caalsh-pty-%d.sock"`. -/
def socketPath (pid : Int32) : Bytes :=
  ascii "/tmp/caalsh-pty-" ++ (decimal pid.toInt ++ ascii ".sock")

theorem SessionKey.sessionDir_injective : Function.Injective SessionKey.sessionDir :=
  fun _ _ equal => SessionKey.id_injective (List.append_cancel_left equal)

theorem SessionKey.imagePath_injective : Function.Injective SessionKey.imagePath :=
  fun _ _ equal => SessionKey.sessionDir_injective (List.append_cancel_right equal)

theorem socketPath_injective : Function.Injective socketPath := by
  intro left right equal
  have digits := List.append_cancel_right (List.append_cancel_left equal)
  exact Int32.toInt_inj.mp (decimal_injective digits)

section Texts

variable (key : SessionKey)

theorem SessionKey.text_id : (cstr key.id).take 63 = key.id := by
  rw [cstr_id]
  exact List.take_of_length_le (Nat.le_of_lt (length_containerId_lt key.pid key.time))

theorem SessionKey.zero_notMem_sessionDir : (0 : UInt8) ∉ key.sessionDir := by
  rw [sessionDir, List.mem_append]
  rintro (dir | id)
  · revert dir
    decide
  · exact zero_notMem_containerId key.pid key.time id

theorem SessionKey.length_sessionDir_lt : key.sessionDir.length < 86 := by
  have id : key.id.length < 63 := length_containerId_lt key.pid key.time
  have dir : (ascii "/var/lib/caal/sessions/").length = 23 := by decide
  rw [sessionDir, List.length_append, dir]
  omega

theorem SessionKey.text_sessionDir : (cstr key.sessionDir).take 127 = key.sessionDir := by
  have short := key.length_sessionDir_lt
  rw [cstr_of_zero_free key.zero_notMem_sessionDir]
  exact List.take_of_length_le (by omega)

theorem SessionKey.text_imagePath : (cstr key.imagePath).take 127 = key.imagePath := by
  have short := key.length_sessionDir_lt
  have suffix : (ascii ".img").length = 4 := by decide
  have zeroFree : (0 : UInt8) ∉ key.imagePath := by
    rw [imagePath, List.mem_append]
    rintro (dir | image)
    · exact key.zero_notMem_sessionDir dir
    · revert image
      decide
  have length : key.imagePath.length ≤ 127 := by
    rw [imagePath, List.length_append, suffix]
    omega
  rw [cstr_of_zero_free zeroFree]
  exact List.take_of_length_le length

theorem text_socketPath (pid : Int32) : (cstr (socketPath pid)).take 107 = socketPath pid := by
  have pidBound : pid.toInt.natAbs < 10 ^ 10 := by
    have low := pid.le_toInt
    have high := pid.toInt_lt
    omega
  have digits := length_decimal_le (by decide) pidBound
  have dir : (ascii "/tmp/caalsh-pty-").length = 16 := by decide
  have suffix : (ascii ".sock").length = 5 := by decide
  have zeroFree : (0 : UInt8) ∉ socketPath pid := by
    rw [socketPath, List.mem_append, List.mem_append]
    rintro (name | number | sock)
    · revert name
      decide
    · exact zero_notMem_decimal _ number
    · revert sock
      decide
  have length : (socketPath pid).length ≤ 107 := by
    rw [socketPath, List.length_append, List.length_append, dir, suffix]
    omega
  rw [cstr_of_zero_free zeroFree]
  exact List.take_of_length_le length

/-- What the field `rootfs` of `container_t` keeps of `"%s/rootfs"`. -/
def mountPoint (bundlePath : Bytes) : Bytes :=
  (cstr bundlePath ++ ascii "/rootfs").take 127

theorem text_rootfs (bundlePath : Bytes) :
    (cstr (cstr bundlePath ++ ascii "/rootfs")).take 127 = mountPoint bundlePath := by
  have zeroFree : (0 : UInt8) ∉ cstr bundlePath ++ ascii "/rootfs" := by
    rw [List.mem_append]
    rintro (bundle | rootfs)
    · exact zero_notMem_cstr bundlePath bundle
    · revert rootfs
      decide
  rw [cstr_of_zero_free zeroFree, mountPoint]

theorem mountPoint_ne_nil (bundlePath : Bytes) : mountPoint bundlePath ≠ [] := by
  have rootfs : (ascii "/rootfs").length = 7 := by decide
  intro empty
  have length := congrArg List.length empty
  rw [mountPoint, List.length_take, List.length_append, rootfs, List.length_nil] at length
  omega

end Texts

/-! ## The machine -/

/-- What sessions hold on the machine: their directories and images, the directories an
image is mounted on, the overlays on each directory by their upper directories, topmost
first, the console sockets, and the crun children with their containers. -/
@[ext]
structure Machine (Place : Type) where
  dirs : Finset Bytes
  images : Finset Bytes
  loops : Finset Bytes
  overlays : Place → List Bytes
  sockets : Finset Bytes
  containers : Finset Bytes
  /-- Images are mounted on directories. -/
  mounted : loops ⊆ dirs

namespace Machine

variable {Place : Type}

/-- Nobody has logged in. -/
def empty : Machine Place where
  dirs := ∅
  images := ∅
  loops := ∅
  overlays _ := []
  sockets := ∅
  containers := ∅
  mounted := Finset.Subset.refl ∅

/-! ### Calls that may fail -/

/-- `mkdir` refuses a name that exists. -/
def mkdir (path : Bytes) (machine : Machine Place) : Option (Machine Place) :=
  if path ∈ machine.dirs then none
  else some { machine with
    dirs := insert path machine.dirs
    mounted := machine.mounted.trans (Finset.subset_insert path machine.dirs) }

/-- `open` with `O_CREAT | O_EXCL`. -/
def create (path : Bytes) (machine : Machine Place) : Option (Machine Place) :=
  if path ∈ machine.images then none
  else some { machine with images := insert path machine.images }

/-- `fallocate` refuses a size that is not positive. -/
def fallocate (sizeMb : Int64) (machine : Machine Place) : Option (Machine Place) :=
  if 0 < sizeMb * 1024 * 1024 then some machine else none

/-- `mount -o loop` on a directory. -/
def mountLoop (path : Bytes) (machine : Machine Place) : Option (Machine Place) :=
  if there : path ∈ machine.dirs then
    some { machine with
      loops := insert path machine.loops
      mounted := Finset.insert_subset there machine.mounted }
  else none

/-- `bind` refuses a name that exists. -/
def bind (path : Bytes) (machine : Machine Place) : Option (Machine Place) :=
  if path ∈ machine.sockets then none
  else some { machine with sockets := insert path machine.sockets }

/-! ### Calls that do not -/

def unlinkSocket (path : Bytes) (machine : Machine Place) : Machine Place :=
  { machine with sockets := machine.sockets.erase path }

def startCrun (containerId : Bytes) (machine : Machine Place) : Machine Place :=
  { machine with containers := insert containerId machine.containers }

/-- `crun_delete`. -/
def crunDelete (containerId : Bytes) (machine : Machine Place) : Machine Place :=
  { machine with containers := machine.containers.erase containerId }

/-- `session_disk_cleanup`. -/
def sessionDiskCleanup (sessionDir imagePath : Bytes) (machine : Machine Place) :
    Machine Place :=
  { machine with
    loops := machine.loops.erase sessionDir
    images := machine.images.erase imagePath
    dirs := machine.dirs.erase sessionDir
    mounted := Finset.erase_subset_erase sessionDir machine.mounted }

variable [DecidableEq Place]

def mountOverlay (place : Place) (upperDir : Bytes) (machine : Machine Place) :
    Machine Place :=
  { machine with
    overlays := Function.update machine.overlays place (upperDir :: machine.overlays place) }

/-- `umount2` with `MNT_DETACH` detaches the topmost mount, if there is one. -/
def umountOverlay (place : Place) (machine : Machine Place) : Machine Place :=
  { machine with
    overlays := Function.update machine.overlays place (machine.overlays place).tail }

end Machine

/-! ## Sequences of calls -/

/-- A call whose failure ends the function it is made in. -/
structure Call (Place : Type) where
  point : Point
  run : Machine Place → Option (Machine Place)

variable {Place : Type}

/-- The calls up to the first that fails, and whether none did. -/
def runCalls (fails : Point → Bool) : List (Call Place) → Machine Place → Machine Place × Bool
  | [], machine => (machine, true)
  | call :: calls, machine =>
      match if fails call.point then none else call.run machine with
      | none => (machine, false)
      | some machine => runCalls fails calls machine

/-- `session_disk_setup`. -/
def sessionDiskSetup (fails : Point → Bool) (sessionDir imagePath : Bytes) (sizeMb : Int64) :
    Machine Place → Machine Place × Bool :=
  runCalls fails
    [⟨.mkdirSession, Machine.mkdir sessionDir⟩,
      ⟨.openImage, Machine.create imagePath⟩,
      ⟨.fallocate, Machine.fallocate sizeMb⟩,
      ⟨.mkfs, some⟩,
      ⟨.mountImage, Machine.mountLoop sessionDir⟩,
      ⟨.mkdirUpper, some⟩,
      ⟨.mkdirWork, some⟩]

/-- `pty_bridge_init`, which removes a leftover socket before it makes its own. -/
def ptyBridgeInit (fails : Point → Bool) (sockPath : Bytes) (machine : Machine Place) :
    Machine Place × Bool :=
  if fails .socket then (machine, false)
  else
    runCalls fails [⟨.bind, Machine.bind sockPath⟩, ⟨.listen, some⟩] (machine.unlinkSocket sockPath)

/-! ## The two functions -/

/-- `container_t`, without the pid of the child, which only `main` looks at. -/
structure Container where
  containerId : Buf 64
  sessionDir : Buf 128
  imagePath : Buf 128
  rootfs : Buf 128
  sockPath : Buf 108

namespace Container

/-- A zero-initialised `container_t`. -/
def zero : Container where
  containerId := .zero 64
  sessionDir := .zero 128
  imagePath := .zero 128
  rootfs := .zero 128
  sockPath := .zero 108

/-- The strings `container_start` fills in before it acquires anything. -/
def named (ct : Container) (key : SessionKey) (bundlePath : Bytes) : Container :=
  { ct with
    containerId := ct.containerId.snprintf key.id
    sessionDir := ct.sessionDir.snprintf key.sessionDir
    imagePath := ct.imagePath.snprintf key.imagePath
    rootfs := ct.rootfs.snprintf (cstr bundlePath ++ ascii "/rootfs") }

section Named

variable (ct : Container) (key : SessionKey) (bundlePath : Bytes)

@[simp] theorem containerId_named : (ct.named key bundlePath).containerId.text = key.id :=
  (Buf.text_snprintf _ _).trans key.text_id

@[simp] theorem sessionDir_named :
    (ct.named key bundlePath).sessionDir.text = key.sessionDir :=
  (Buf.text_snprintf _ _).trans key.text_sessionDir

@[simp] theorem imagePath_named : (ct.named key bundlePath).imagePath.text = key.imagePath :=
  (Buf.text_snprintf _ _).trans key.text_imagePath

@[simp] theorem rootfs_named :
    (ct.named key bundlePath).rootfs.text = mountPoint bundlePath :=
  (Buf.text_snprintf _ _).trans (text_rootfs bundlePath)

@[simp] theorem text_sockPath (sockPath : Buf 108) (pid : Int32) :
    (sockPath.snprintf (socketPath pid)).text = socketPath pid :=
  (Buf.text_snprintf _ _).trans (text_socketPath pid)

end Named

end Container

/-- What `container_start` leaves: the structure, the machine, and whether it returned a
socket. -/
structure Started (Place : Type) where
  ct : Container
  machine : Machine Place
  ok : Bool

variable [DecidableEq Place] (resolve : Bytes → Place)

/-- The label `err_mounted` of `container_start`. -/
def errMounted (ct : Container) (machine : Machine Place) : Started Place where
  ct := ct
  machine := (machine.umountOverlay (resolve ct.rootfs.text)).sessionDiskCleanup
    ct.sessionDir.text ct.imagePath.text
  ok := false

/-- `container_start` in the process and second of `key`. `resolve` is the directory a path
names. -/
def containerStart (fails : Point → Bool) (key : SessionKey) (ct : Container)
    (bundlePath : Bytes) (sizeMb : Int64) (machine : Machine Place) : Started Place :=
  let ct := ct.named key bundlePath
  match sessionDiskSetup fails ct.sessionDir.text ct.imagePath.text sizeMb machine with
  | (machine, false) => ⟨ct, machine, false⟩
  | (machine, true) =>
      if fails .mountOverlay then
        ⟨ct, machine.sessionDiskCleanup ct.sessionDir.text ct.imagePath.text, false⟩
      else
        let machine := machine.mountOverlay (resolve ct.rootfs.text) key.upperDir
        let ct := { ct with sockPath := ct.sockPath.snprintf (socketPath key.pid) }
        match ptyBridgeInit fails ct.sockPath.text machine with
        | (machine, false) => errMounted resolve ct machine
        | (machine, true) =>
            if fails .forkCrun then
              errMounted resolve ct (machine.unlinkSocket ct.sockPath.text)
            else ⟨ct, machine.startCrun ct.containerId.text, true⟩

/-- `container_stop`, which decides what to tear down by the strings that are not empty. -/
def containerStop (ct : Container) (machine : Machine Place) : Container × Machine Place :=
  let machine :=
    if ct.sockPath.text ≠ [] then machine.unlinkSocket ct.sockPath.text else machine
  let machine :=
    if ct.rootfs.text ≠ [] then machine.umountOverlay (resolve ct.rootfs.text) else machine
  let machine :=
    if ct.sessionDir.text ≠ [] ∧ ct.imagePath.text ≠ [] then
      machine.sessionDiskCleanup ct.sessionDir.text ct.imagePath.text
    else machine
  let machine :=
    if ct.containerId.text ≠ [] then machine.crunDelete ct.containerId.text else machine
  (.zero, machine)

end Caal

import Caal.Container.Lifecycle

/-!
# The timeout and the disk size

Both come from the config as 64-bit integers. The watchdog sleeps for the timeout as an
`unsigned int`, and `session_disk_setup` allocates the disk size after two multiplications in
64 bits.
-/

namespace Caal

open CMemory

/-! ## From the config to the calls -/

/-- `timeout` in `main`. -/
def timeoutOf : TomlDatum → Int64
  | .int64 value => value
  | _ => 0

/-- `disk_size_mb` in `main`. -/
def diskSizeMb : TomlDatum → Int64
  | .int64 value => if 0 < value then value else 1024
  | _ => 1024

/-- `(unsigned int)timeout`, for which the watchdog sleeps. -/
def watchdogSleep (timeout : Int64) : UInt32 :=
  timeout.toUInt64.toUInt32

/-- When the watchdog that is started at some second sends its SIGTERM, if there is one. -/
def watchdogSignal (timeout : Int64) (started : Nat) : Option Nat :=
  if 0 < timeout then some (started + (watchdogSleep timeout).toNat) else none

/-- `size_mb * 1024 * 1024`, which `fallocate` is asked for. -/
def imageBytes (sizeMb : Int64) : Int64 :=
  sizeMb * 1024 * 1024

variable {Place : Type}

/-- The size of the image that a `session_disk_setup` that succeeds has allocated. -/
def allocatedImage (fails : Point → Bool) (sessionDir imagePath : Bytes) (sizeMb : Int64)
    (machine : Machine Place) : Option Int64 :=
  match sessionDiskSetup fails sessionDir imagePath sizeMb machine with
  | (_, false) => none
  | (_, true) => some (imageBytes sizeMb)

/-- The quantities of the config keep their values: the watchdog waits for the timeout, and
an image that is allocated has the size of the disk. -/
structure KeepsQuantities (Place : Type) (timeout disk : TomlDatum) : Prop where
  watchdog : ∀ {started signalled : Nat},
    watchdogSignal (timeoutOf timeout) started = some signalled →
    (started : Int) + (timeoutOf timeout).toInt ≤ signalled
  image : ∀ {fails : Point → Bool} {sessionDir imagePath : Bytes} {machine : Machine Place}
    {size : Int64},
    allocatedImage fails sessionDir imagePath (diskSizeMb disk) machine = some size →
    size.toInt = (diskSizeMb disk).toInt * 2 ^ 20

/-- Neither value is narrowed or wraps around on its way to the call. -/
structure ExactQuantities (timeout disk : TomlDatum) : Prop where
  sleep : ((watchdogSleep (timeoutOf timeout)).toNat : Int) = (timeoutOf timeout).toInt
  image : (imageBytes (diskSizeMb disk)).toInt = (diskSizeMb disk).toInt * 2 ^ 20

/-! ## Arithmetic -/

theorem toNat_watchdogSleep {timeout : Int64} (positive : 0 < timeout) :
    ((watchdogSleep timeout).toNat : Int) = timeout.toInt % 2 ^ 32 := by
  have nonneg : 0 ≤ timeout := Int64.le_of_lt positive
  have low : 0 ≤ timeout.toInt := by simpa using Int64.le_iff_toInt_le.mp nonneg
  have value : timeout.toUInt64.toNat = timeout.toInt.toNat := by
    rw [Int64.toNat_toUInt64_of_le nonneg, Int64.toNat_toInt]
  rw [watchdogSleep, UInt64.toNat_toUInt32, value]
  omega

/-- The product wraps around at `2 ^ 64`, with the low 20 bits always zero. -/
theorem toInt_imageBytes (sizeMb : Int64) :
    (imageBytes sizeMb).toInt = (sizeMb.toInt * 2 ^ 20).bmod (2 ^ 64) := by
  have factor : (1024 : Int64) * 1024 = 1048576 := by decide
  have value : (1048576 : Int64).toInt = 2 ^ 20 := by decide
  rw [imageBytes, Int64.mul_assoc, factor, Int64.toInt_mul, value]

/-- What it comes to, by the low 44 bits of the disk size. -/
theorem toInt_imageBytes_eq (sizeMb : Int64) :
    (imageBytes sizeMb).toInt =
      if sizeMb.toInt % 2 ^ 44 < 2 ^ 43 then sizeMb.toInt % 2 ^ 44 * 2 ^ 20
      else sizeMb.toInt % 2 ^ 44 * 2 ^ 20 - 2 ^ 64 := by
  rw [toInt_imageBytes, Int.bmod_def]
  omega

/-- `fallocate` refuses a size that is not positive. -/
theorem imageBytes_pos {fails : Point → Bool} {sessionDir imagePath : Bytes} {sizeMb : Int64}
    {machine : Machine Place}
    (done : (sessionDiskSetup fails sessionDir imagePath sizeMb machine).2 = true) :
    0 < imageBytes sizeMb := by
  rw [sessionDiskSetup] at done
  rcases run_of_runCalls done (List.mem_cons_of_mem _ (List.mem_cons_of_mem _ List.mem_cons_self))
    with ⟨before, after, allocated⟩
  dsimp only [Machine.fallocate] at allocated
  split at allocated
  · rename_i positive
    exact positive
  · cases allocated

/-! ## Which quantities are kept -/

/-- The watchdog waits long enough for a timeout of less than `2 ^ 32` seconds. -/
theorem watchdog_iff {timeout : Int64} (positive : 0 < timeout) :
    (∀ {started signalled : Nat}, watchdogSignal timeout started = some signalled →
      (started : Int) + timeout.toInt ≤ signalled) ↔ timeout.toInt < 2 ^ 32 := by
  have slept := toNat_watchdogSleep positive
  have low : 0 < timeout.toInt := by simpa using Int64.lt_iff_toInt_lt.mp positive
  constructor
  · intro late
    have signalled : watchdogSignal timeout 0 = some (0 + (watchdogSleep timeout).toNat) :=
      if_pos positive
    have bound := late signalled
    omega
  · intro small started signalled fires
    rw [watchdogSignal, if_pos positive] at fires
    cases fires
    omega

/-- An image that is allocated has the size of the disk, or the size wraps around to one that
is refused. -/
theorem image_iff (Place : Type) {disk : Int64} (positive : 0 < disk) :
    (∀ {fails : Point → Bool} {sessionDir imagePath : Bytes} {machine : Machine Place}
      {size : Int64}, allocatedImage fails sessionDir imagePath disk machine = some size →
      size.toInt = disk.toInt * 2 ^ 20) ↔
      disk.toInt < 2 ^ 43 ∨ disk.toInt % 2 ^ 44 = 0 ∨ 2 ^ 43 ≤ disk.toInt % 2 ^ 44 := by
  have low : 0 < disk.toInt := by simpa using Int64.lt_iff_toInt_lt.mp positive
  have bytes := toInt_imageBytes_eq disk
  constructor
  · intro kept
    by_contra wraps
    have small : disk.toInt % 2 ^ 44 < 2 ^ 43 := by omega
    rw [if_pos small] at bytes
    have valid : 0 < imageBytes disk := by
      rw [Int64.lt_iff_toInt_lt, bytes, Int64.toInt_zero]
      omega
    let key : SessionKey := ⟨1, 0⟩
    have allocated : allocatedImage (fun _ => false) key.sessionDir key.imagePath disk
        (Machine.empty : Machine Place) = some (imageBytes disk) := by
      rw [allocatedImage, sessionDiskSetup_empty key valid]
    have size := kept allocated
    omega
  · intro condition fails sessionDir imagePath machine size allocated
    rw [allocatedImage] at allocated
    split at allocated
    · cases allocated
    · rename_i setUp
      cases allocated
      have done : (sessionDiskSetup fails sessionDir imagePath disk machine).2 = true := by
        rw [setUp]
      have valid := imageBytes_pos done
      rw [Int64.lt_iff_toInt_lt, bytes, Int64.toInt_zero] at valid
      rw [bytes]
      split at valid
      · rename_i small
        rw [if_pos small]
        omega
      · omega

/-- Nothing is narrowed and nothing wraps around for timeouts that fit 32 bits and disks of
which the size in bytes fits 63 bits. -/
theorem exact_iff {timeout disk : Int64} (timed : 0 < timeout) (sized : 0 < disk) :
    ExactQuantities (.int64 timeout) (.int64 disk) ↔
      timeout.toInt < 2 ^ 32 ∧ disk.toInt < 2 ^ 43 := by
  have size : diskSizeMb (.int64 disk) = disk := if_pos sized
  have slept := toNat_watchdogSleep timed
  have bytes := toInt_imageBytes_eq disk
  have timeoutLow : 0 < timeout.toInt := by simpa using Int64.lt_iff_toInt_lt.mp timed
  have diskLow : 0 < disk.toInt := by simpa using Int64.lt_iff_toInt_lt.mp sized
  constructor
  · rintro ⟨sleep, image⟩
    rw [timeoutOf] at sleep
    rw [size, bytes] at image
    split at image
    · omega
    · omega
  · rintro ⟨timeoutFits, diskFits⟩
    constructor
    · rw [timeoutOf]
      omega
    · have small : disk.toInt % 2 ^ 44 < 2 ^ 43 := by omega
      rw [size, bytes, if_pos small]
      omega

/-- The quantities keep their values without a detour exactly for timeouts that fit 32 bits
and disks of which the size in bytes fits 63 bits. What happens in the end is also right if
the size wraps around to one that `fallocate` refuses. -/
theorem quantities_kept_iff (Place : Type) {timeout disk : Int64} (timed : 0 < timeout)
    (sized : 0 < disk) :
    (KeepsQuantities Place (.int64 timeout) (.int64 disk) ∧
        ExactQuantities (.int64 timeout) (.int64 disk) ↔
      timeout.toInt < 2 ^ 32 ∧ disk.toInt < 2 ^ 43) ∧
    (KeepsQuantities Place (.int64 timeout) (.int64 disk) ↔
      timeout.toInt < 2 ^ 32 ∧
        (disk.toInt < 2 ^ 43 ∨ disk.toInt % 2 ^ 44 = 0 ∨ 2 ^ 43 ≤ disk.toInt % 2 ^ 44)) := by
  have kept : KeepsQuantities Place (.int64 timeout) (.int64 disk) ↔
      timeout.toInt < 2 ^ 32 ∧
        (disk.toInt < 2 ^ 43 ∨ disk.toInt % 2 ^ 44 = 0 ∨ 2 ^ 43 ≤ disk.toInt % 2 ^ 44) := by
    have size : diskSizeMb (.int64 disk) = disk := if_pos sized
    rw [← watchdog_iff timed, ← image_iff Place sized]
    constructor
    · intro kept
      have image := @kept.image
      rw [size] at image
      exact ⟨kept.watchdog, image⟩
    · rintro ⟨watchdog, image⟩
      refine ⟨watchdog, ?_⟩
      rw [size]
      exact image
  refine ⟨?_, kept⟩
  rw [exact_iff timed sized]
  constructor
  · intro both
    exact both.2
  · intro fits
    exact ⟨kept.mpr ⟨fits.1, .inl fits.2⟩, fits⟩

theorem quantities_kept_hour :
    KeepsQuantities Unit (.int64 3600) (.int64 2048) ∧
      ExactQuantities (.int64 3600) (.int64 2048) := by
  apply (quantities_kept_iff Unit (by decide) (by decide)).1.mpr
  decide

/-- A timeout of `2 ^ 32` seconds ends the session at once. -/
theorem timeout_narrowed :
    ¬ ∀ (Place : Type) {timeout disk : Int64}, 0 < timeout → 0 < disk →
      KeepsQuantities Place (.int64 timeout) (.int64 disk) ∧
        ExactQuantities (.int64 timeout) (.int64 disk) := by
  intro kept
  have quantities := (@kept Unit 4294967296 1024 (by decide) (by decide)).1
  have signalled : watchdogSignal (timeoutOf (.int64 4294967296)) 0 = some 0 := by decide
  exact absurd (quantities.watchdog signalled) (by decide)

end Caal

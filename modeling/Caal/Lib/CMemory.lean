import Mathlib.Data.List.TakeWhile
import Mathlib.Tactic.Ring

/-!
# Character buffers, C strings and little-endian integers

A region of memory is a list of bytes, read from a pointer onwards. This module
has the part of the C string library that fixed-size wire structures rely on:
`strcmp`, and `strncpy` and `snprintf("%s")` into a buffer whose size is known,
with the facts that relate them through `cstr`, the string a region holds.
-/

namespace CMemory

abbrev Bytes := List UInt8

/-- The C string at the start of a region: the bytes before the first NUL. -/
def cstr (memory : Bytes) : Bytes :=
  memory.takeWhile (· != 0)

/-- The region contains the end of the string it starts with. -/
def Terminated (memory : Bytes) : Prop :=
  0 ∈ memory

instance (memory : Bytes) : Decidable (Terminated memory) :=
  inferInstanceAs (Decidable (0 ∈ memory))

@[simp] theorem cstr_nil : cstr [] = [] := rfl

@[simp] theorem cstr_zero_cons (memory : Bytes) : cstr (0 :: memory) = [] := by
  simp [cstr]

theorem cstr_cons_of_ne {byte : UInt8} (nonzero : byte ≠ 0) (memory : Bytes) :
    cstr (byte :: memory) = byte :: cstr memory := by
  simp [cstr, nonzero]

theorem zero_notMem_cstr (memory : Bytes) : (0 : UInt8) ∉ cstr memory := by
  intro member
  have accepted := List.mem_takeWhile_imp member
  simp at accepted

theorem length_cstr_le (memory : Bytes) : (cstr memory).length ≤ memory.length :=
  (List.takeWhile_sublist _).length_le

theorem length_cstr_lt {memory : Bytes} (terminated : Terminated memory) :
    (cstr memory).length < memory.length := by
  rcases (length_cstr_le memory).lt_or_eq with shorter | equal
  · exact shorter
  · have whole : cstr memory = memory :=
      (List.takeWhile_sublist _).eq_of_length equal
    have absent := zero_notMem_cstr memory
    rw [whole] at absent
    exact (absent terminated).elim

/-- A byte string without NUL is the string it holds. -/
@[simp] theorem cstr_of_zero_free {text : Bytes} (zeroFree : 0 ∉ text) :
    cstr text = text := by
  rw [cstr, List.takeWhile_eq_self_iff]
  intro byte member
  simpa using fun equal : byte = 0 => zeroFree (equal ▸ member)

theorem cstr_append_zero {text : Bytes} (zeroFree : 0 ∉ text) (rest : Bytes) :
    cstr (text ++ 0 :: rest) = text := by
  have accepted : ∀ byte ∈ text, (byte != 0) = true := by
    intro byte member
    simpa using fun equal : byte = 0 => zeroFree (equal ▸ member)
  rw [cstr, List.takeWhile_append_of_pos accepted]
  simp

/-- What follows the terminator is not part of the string. -/
theorem cstr_append_of_terminated {memory : Bytes} (terminated : Terminated memory)
    (rest : Bytes) : cstr (memory ++ rest) = cstr memory := by
  have short : ¬ (cstr memory).length = memory.length :=
    (length_cstr_lt terminated).ne
  rw [cstr, cstr, List.takeWhile_append]
  exact if_neg short

/-- A scan that does not end in the region goes on behind it. -/
theorem cstr_append_of_not_terminated {memory : Bytes} (unterminated : ¬ Terminated memory)
    (rest : Bytes) : cstr (memory ++ rest) = memory ++ cstr rest := by
  have accepted : ∀ byte ∈ memory, (byte != 0) = true := by
    intro byte member
    simpa using fun equal : byte = 0 => unterminated (by rwa [equal] at member)
  rw [cstr, List.takeWhile_append_of_pos accepted]
  rfl

theorem zero_notMem_take_cstr (memory : Bytes) (size : Nat) :
    (0 : UInt8) ∉ (cstr memory).take size :=
  fun member => zero_notMem_cstr memory (List.mem_of_mem_take member)

/-- What two texts have before the first byte of a kind that neither contains. -/
theorem append_inj_of_stop {left right leftRest rightRest : Bytes} (stop : UInt8 → Bool)
    (leftFree : ∀ byte ∈ left, stop byte = false) (rightFree : ∀ byte ∈ right, stop byte = false)
    (leftStops : ∀ byte ∈ leftRest.head?, stop byte = true)
    (rightStops : ∀ byte ∈ rightRest.head?, stop byte = true)
    (equal : left ++ leftRest = right ++ rightRest) : left = right ∧ leftRest = rightRest := by
  have front : ∀ {text rest : Bytes}, (∀ byte ∈ text, stop byte = false) →
      (∀ byte ∈ rest.head?, stop byte = true) →
      (text ++ rest).takeWhile (fun byte => !stop byte) = text := by
    intro text rest free stops
    rw [List.takeWhile_append_of_pos (by simpa using free)]
    cases rest with
    | nil => simp
    | cons byte rest => simp [stops byte rfl]
  have same : left = right := by
    rw [← front leftFree leftStops, ← front rightFree rightStops, equal]
  rw [same] at equal
  exact ⟨same, List.append_cancel_left equal⟩

/-! ## Comparison -/

/-- `strcmp`: the difference at the first position where the strings differ.
Memory behind the region reads as NUL, so that the function is total. -/
def strcmp : Bytes → Bytes → Int
  | [], [] => 0
  | [], right :: _ => -right.toNat
  | left :: _, [] => left.toNat
  | left :: lefts, right :: rights =>
      if left = right ∧ left ≠ 0 then strcmp lefts rights
      else left.toNat - right.toNat

private theorem toNat_sub_eq_zero {left right : UInt8} :
    (left.toNat : Int) - right.toNat = 0 ↔ left = right := by
  rw [← UInt8.toNat_inj]
  omega

theorem strcmp_eq_zero (left right : Bytes) :
    strcmp left right = 0 ↔ cstr left = cstr right := by
  fun_induction strcmp left right with
  | case1 => simp
  | case2 byte rest =>
      rw [Int.neg_eq_zero, Int.natCast_eq_zero, ← UInt8.toNat_zero, UInt8.toNat_inj]
      constructor
      · rintro rfl
        simp
      · intro equal
        by_contra nonzero
        rw [cstr_cons_of_ne nonzero] at equal
        cases equal
  | case3 byte rest =>
      rw [Int.natCast_eq_zero, ← UInt8.toNat_zero, UInt8.toNat_inj]
      constructor
      · rintro rfl
        simp
      · intro equal
        by_contra nonzero
        rw [cstr_cons_of_ne nonzero] at equal
        cases equal
  | case4 byte lefts right rights same ih =>
      obtain ⟨rfl, nonzero⟩ := same
      rw [ih, cstr_cons_of_ne nonzero, cstr_cons_of_ne nonzero, List.cons.injEq]
      exact ⟨fun equal => ⟨rfl, equal⟩, And.right⟩
  | case5 left lefts right rights different =>
      rw [toNat_sub_eq_zero]
      by_cases leftZero : left = 0
      · subst leftZero
        by_cases rightZero : right = 0
        · subst rightZero
          simp
        · rw [cstr_zero_cons, cstr_cons_of_ne rightZero]
          simp [Ne.symm rightZero]
      · have unequal : left ≠ right := fun equal => different ⟨equal, leftZero⟩
        by_cases rightZero : right = 0
        · subst rightZero
          rw [cstr_zero_cons, cstr_cons_of_ne leftZero]
          simp [leftZero]
        · rw [cstr_cons_of_ne leftZero, cstr_cons_of_ne rightZero]
          simp [unequal]

/-- `strncmp`, which looks at no more than `size` characters. -/
def strncmp (left right : Bytes) (size : Nat) : Int :=
  strcmp (left.take size) (right.take size)

theorem strncmp_eq_zero (left right : Bytes) (size : Nat) :
    strncmp left right size = 0 ↔ cstr (left.take size) = cstr (right.take size) :=
  strcmp_eq_zero _ _

/-! ## Buffers -/

/-- A character array of `size` bytes. -/
def Buf (size : Nat) :=
  { bytes : Bytes // bytes.length = size }

namespace Buf

variable {size : Nat}

instance : DecidableEq (Buf size) :=
  inferInstanceAs (DecidableEq { bytes : Bytes // bytes.length = size })

def bytes (buffer : Buf size) : Bytes :=
  buffer.val

@[simp] theorem length_bytes (buffer : Buf size) : buffer.bytes.length = size :=
  buffer.property

theorem ext {left right : Buf size} (equal : left.bytes = right.bytes) : left = right :=
  Subtype.ext equal

/-- The array filled with NUL by `= {0}` or `memset`. -/
def zero (size : Nat) : Buf size :=
  ⟨List.replicate size 0, List.length_replicate⟩

@[simp] theorem bytes_zero : (zero size).bytes = List.replicate size 0 := rfl

/-- The string the array holds. -/
def text (buffer : Buf size) : Bytes :=
  cstr buffer.bytes

@[simp] theorem text_zero : (zero size).text = [] := by
  cases size with
  | zero => rfl
  | succ size => simp [text, List.replicate_succ]

/-- `strncpy(buffer, source, sizeof(buffer) - 1)`: the string cut to the size,
padded with NUL up to it; the last byte of the array is not touched. -/
def strncpy (buffer : Buf (size + 1)) (source : Bytes) : Buf (size + 1) :=
  ⟨(cstr source).take size ++ List.replicate (size - (cstr source).length) 0 ++
      buffer.bytes.drop size, by
    simp only [List.length_append, List.length_take, List.length_replicate,
      List.length_drop, length_bytes]
    omega⟩

/-- `snprintf(buffer, sizeof(buffer), "%s", source)`: the string cut to one less
than the size, a NUL, and behind it what the array held before. -/
def snprintf (buffer : Buf (size + 1)) (source : Bytes) : Buf (size + 1) :=
  ⟨(cstr source).take size ++
      0 :: buffer.bytes.drop (((cstr source).take size).length + 1), by
    simp only [List.length_append, List.length_take, List.length_cons,
      List.length_drop, length_bytes]
    omega⟩

@[simp] theorem text_snprintf (buffer : Buf (size + 1)) (source : Bytes) :
    (buffer.snprintf source).text = (cstr source).take size :=
  cstr_append_zero (zero_notMem_take_cstr source size) _

/-- A string that fits is not cut. -/
theorem text_snprintf_of_fits (buffer : Buf (size + 1)) {source : Bytes}
    (zeroFree : 0 ∉ source) (fits : source.length ≤ size) :
    (buffer.snprintf source).text = source := by
  rw [text_snprintf, cstr_of_zero_free zeroFree, List.take_of_length_le fits]

theorem terminated_snprintf (buffer : Buf (size + 1)) (source : Bytes) :
    Terminated (buffer.snprintf source).bytes := by
  simp [Terminated, snprintf, bytes]

theorem terminated_zero : Terminated (zero (size + 1)).bytes := by
  simp [Terminated, List.replicate_succ]

/-- The bytes `strncpy` leaves in a zeroed array. -/
theorem bytes_strncpy_zero (source : Bytes) :
    ((zero (size + 1)).strncpy source).bytes =
      (cstr source).take size ++
        0 :: List.replicate (size - (cstr source).length) 0 := by
  have last : (List.replicate (size + 1) (0 : UInt8)).drop size = [0] := by simp
  change (cstr source).take size ++ List.replicate (size - (cstr source).length) 0 ++
      (List.replicate (size + 1) (0 : UInt8)).drop size = _
  rw [last, List.append_assoc, ← List.replicate_succ', List.replicate_succ]

@[simp] theorem text_strncpy_zero (source : Bytes) :
    ((zero (size + 1)).strncpy source).text = (cstr source).take size := by
  rw [text, bytes_strncpy_zero]
  exact cstr_append_zero (zero_notMem_take_cstr source size) _

theorem terminated_strncpy_zero (source : Bytes) :
    Terminated ((zero (size + 1)).strncpy source).bytes := by
  rw [Terminated, bytes_strncpy_zero]
  simp

/-- A zeroed array into whose start `memory` has been copied. -/
def load (size : Nat) (memory : Bytes) : Buf size :=
  ⟨memory.take size ++ List.replicate (size - memory.length) 0, by
    simp only [List.length_append, List.length_take, List.length_replicate]
    omega⟩

@[simp] theorem load_bytes_append (buffer : Buf size) (rest : Bytes) :
    load size (buffer.bytes ++ rest) = buffer := by
  apply ext
  have lengthEq := buffer.length_bytes
  change (buffer.bytes ++ rest).take size ++ List.replicate _ 0 = buffer.bytes
  rw [List.take_left' lengthEq, List.length_append, lengthEq]
  simp

theorem length_text_le {buffer : Buf (size + 1)} (terminated : Terminated buffer.bytes) :
    buffer.text.length ≤ size := by
  have bound := length_cstr_lt terminated
  rw [length_bytes] at bound
  exact Nat.le_of_lt_succ bound

/-- A scan from the start of an array ends in the array when the array has a NUL. -/
theorem scan_lt_iff (buffer : Buf size) (rest : Bytes) :
    (cstr (buffer.bytes ++ rest)).length < size ↔ Terminated buffer.bytes := by
  constructor
  · intro short
    by_contra unterminated
    rw [cstr_append_of_not_terminated unterminated, List.length_append, length_bytes] at short
    exact Nat.not_lt.mpr (Nat.le_add_right _ _) short
  · intro terminated
    have bound := length_cstr_lt terminated
    rw [length_bytes] at bound
    rwa [cstr_append_of_terminated terminated]

end Buf

/-! ## Little-endian integers -/

/-- The `width` bytes of an unsigned value, least significant first. -/
def toLE : Nat → Nat → Bytes
  | 0, _ => []
  | width + 1, value => UInt8.ofNat value :: toLE width (value / 256)

/-- The unsigned value of a little-endian byte sequence. -/
def ofLE : Bytes → Nat
  | [] => 0
  | byte :: rest => byte.toNat + 256 * ofLE rest

@[simp] theorem length_toLE (width value : Nat) : (toLE width value).length = width := by
  induction width generalizing value with
  | zero => rfl
  | succ width ih => simp [toLE, ih]

theorem ofLE_toLE {width value : Nat} (bound : value < 256 ^ width) :
    ofLE (toLE width value) = value := by
  induction width generalizing value with
  | zero =>
      have zero : value = 0 := by simpa using bound
      simp [toLE, ofLE, zero]
  | succ width ih =>
      have small : value / 256 < 256 ^ width := by
        rw [Nat.div_lt_iff_lt_mul (by decide)]
        rwa [← Nat.pow_succ]
      rw [toLE, ofLE, ih small]
      have low : (UInt8.ofNat value).toNat = value % 256 := by simp
      rw [low]
      exact Nat.mod_add_div value 256

/-- A 32-bit signed integer in memory. -/
def int32Bytes (value : Int32) : Bytes :=
  toLE 4 value.toUInt32.toNat

def int32Of (memory : Bytes) : Int32 :=
  (UInt32.ofNat (ofLE (memory.take 4))).toInt32

/-- A 64-bit signed integer in memory. -/
def int64Bytes (value : Int64) : Bytes :=
  toLE 8 value.toUInt64.toNat

def int64Of (memory : Bytes) : Int64 :=
  (UInt64.ofNat (ofLE (memory.take 8))).toInt64

@[simp] theorem length_int32Bytes (value : Int32) : (int32Bytes value).length = 4 :=
  length_toLE 4 _

@[simp] theorem length_int64Bytes (value : Int64) : (int64Bytes value).length = 8 :=
  length_toLE 8 _

@[simp] theorem int32Of_bytes_append (value : Int32) (rest : Bytes) :
    int32Of (int32Bytes value ++ rest) = value := by
  rw [int32Of, List.take_left' (length_int32Bytes value), int32Bytes,
    ofLE_toLE value.toUInt32.toNat_lt, UInt32.ofNat_toNat, Int32.toInt32_toUInt32]

@[simp] theorem int64Of_bytes_append (value : Int64) (rest : Bytes) :
    int64Of (int64Bytes value ++ rest) = value := by
  rw [int64Of, List.take_left' (length_int64Bytes value), int64Bytes,
    ofLE_toLE value.toUInt64.toNat_lt, UInt64.ofNat_toNat, Int64.toInt64_toUInt64]

end CMemory

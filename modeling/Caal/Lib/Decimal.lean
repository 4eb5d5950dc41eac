import Caal.Lib.CMemory
import Mathlib.Data.Nat.Digits.Lemmas

/-!
# Decimal numbers in C strings

What the conversions `%d` and `%ld` print, with what is needed of strings that
are put together from it: they contain no NUL, they are short, and different
numbers are printed differently.
-/

namespace CMemory

/-- The decimal digits of a number, most significant first. -/
def digits (value : Nat) : Bytes :=
  if value = 0 then [48]
  else (Nat.digits 10 value).reverse.map fun digit => UInt8.ofNat (48 + digit)

/-- `%d` and `%ld`. -/
def decimal (value : Int) : Bytes :=
  if value < 0 then 45 :: digits value.natAbs else digits value.natAbs

theorem mem_digits {value : Nat} {byte : UInt8} (member : byte ∈ digits value) :
    48 ≤ byte.toNat ∧ byte.toNat < 58 := by
  rw [digits] at member
  split at member
  · cases List.mem_singleton.mp member
    decide
  · rcases List.mem_map.mp member with ⟨digit, inside, rfl⟩
    have small : digit < 10 := Nat.digits_lt_base (by decide) (List.mem_reverse.mp inside)
    rw [UInt8.toNat_ofNat', Nat.mod_eq_of_lt (by omega)]
    omega

theorem digits_ne_nil (value : Nat) : digits value ≠ [] := by
  rw [digits]
  split
  · simp
  · rename_i nonzero
    simpa using Nat.digits_ne_nil_iff_ne_zero.mpr nonzero

theorem minus_notMem_digits (value : Nat) : (45 : UInt8) ∉ digits value := by
  intro member
  have bound := (mem_digits member).1
  revert bound
  decide

theorem zero_notMem_digits (value : Nat) : (0 : UInt8) ∉ digits value := by
  intro member
  have bound := (mem_digits member).1
  revert bound
  decide

/-- A decimal number consists of digits and a minus sign. -/
theorem mem_decimal {value : Int} {byte : UInt8} (member : byte ∈ decimal value) :
    byte = 45 ∨ 48 ≤ byte.toNat ∧ byte.toNat < 58 := by
  rw [decimal] at member
  split at member
  · rcases List.mem_cons.mp member with minus | inside
    · exact .inl minus
    · exact .inr (mem_digits inside)
  · exact .inr (mem_digits member)

theorem zero_notMem_decimal (value : Int) : (0 : UInt8) ∉ decimal value := by
  rw [decimal]
  split
  · simpa using zero_notMem_digits value.natAbs
  · exact zero_notMem_digits value.natAbs

/-! ## Length -/

theorem length_digits_le {value width : Nat} (positive : 0 < width)
    (bound : value < 10 ^ width) : (digits value).length ≤ width := by
  rw [digits]
  split
  · exact positive
  · rw [List.length_map, List.length_reverse]
    exact (Nat.digits_length_le_iff (by decide) value).mpr bound

theorem length_decimal_le {value : Int} {width : Nat} (positive : 0 < width)
    (bound : value.natAbs < 10 ^ width) : (decimal value).length ≤ width + 1 := by
  have short := length_digits_le positive bound
  rw [decimal]
  split
  · exact Nat.succ_le_succ short
  · exact Nat.le_succ_of_le short

/-! ## Injectivity -/

/-- The number a sequence of decimal digits stands for. -/
def ofDecimalDigits (text : Bytes) : Nat :=
  Nat.ofDigits 10 (text.reverse.map fun byte => byte.toNat - 48)

theorem ofDecimalDigits_digits (value : Nat) : ofDecimalDigits (digits value) = value := by
  rw [ofDecimalDigits, digits]
  split
  · rename_i zero
    rw [zero]
    rfl
  · rw [← List.map_reverse, List.reverse_reverse, List.map_map]
    have restored : ∀ digit ∈ Nat.digits 10 value,
        ((fun byte : UInt8 => byte.toNat - 48) ∘ fun digit => UInt8.ofNat (48 + digit)) digit =
          id digit := by
      intro digit member
      have small : digit < 10 := Nat.digits_lt_base (by decide) member
      rw [Function.comp_apply, UInt8.toNat_ofNat', Nat.mod_eq_of_lt (by omega), id_eq]
      exact Nat.add_sub_cancel_left 48 digit
    rw [List.map_congr_left restored, List.map_id, Nat.ofDigits_digits]

theorem digits_injective : Function.Injective digits :=
  Function.LeftInverse.injective ofDecimalDigits_digits

private theorem digits_ne_minus_cons (value : Nat) (rest tail : Bytes) :
    digits value ++ rest ≠ 45 :: tail := by
  intro equal
  cases first : digits value with
  | nil => exact digits_ne_nil value first
  | cons byte bytes =>
      rw [first, List.cons_append, List.cons.injEq] at equal
      apply minus_notMem_digits value
      rw [first, equal.1]
      exact List.mem_cons_self

/-- The first byte that is no digit separates two numbers. -/
private theorem digits_append_inj {left right : Nat} {leftRest rightRest : Bytes}
    (equal : digits left ++ 45 :: leftRest = digits right ++ 45 :: rightRest) :
    left = right ∧ leftRest = rightRest := by
  have free : ∀ value, ∀ byte ∈ digits value, (byte == 45) = false := by
    intro value byte member
    simpa using fun minus : byte = 45 => minus_notMem_digits value (minus ▸ member)
  have stops : ∀ rest : Bytes, ∀ byte ∈ (45 :: rest).head?, (byte == 45) = true := by
    intro rest byte head
    cases head
    rfl
  rcases append_inj_of_stop (· == 45) (free left) (free right) (stops leftRest) (stops rightRest)
    equal with ⟨same, rest⟩
  exact ⟨digits_injective same, (List.cons.inj rest).2⟩

private theorem natAbs_eq_of_neg {left right : Int} (leftNeg : left < 0) (rightNeg : right < 0)
    (equal : left.natAbs = right.natAbs) : left = right := by
  omega

private theorem natAbs_eq_of_nonneg {left right : Int} (leftNonneg : ¬ left < 0)
    (rightNonneg : ¬ right < 0) (equal : left.natAbs = right.natAbs) : left = right := by
  omega

/-- Two numbers with a minus sign between them can be told apart. -/
theorem decimal_append_inj {left right : Int} {leftRest rightRest : Bytes}
    (equal : decimal left ++ 45 :: leftRest = decimal right ++ 45 :: rightRest) :
    left = right ∧ leftRest = rightRest := by
  rw [decimal, decimal] at equal
  split at equal
  case isTrue leftNeg =>
    split at equal
    case isTrue rightNeg =>
      rw [List.cons_append, List.cons_append, List.cons.injEq] at equal
      rcases digits_append_inj equal.2 with ⟨same, rest⟩
      exact ⟨natAbs_eq_of_neg leftNeg rightNeg same, rest⟩
    case isFalse rightNonneg =>
      exact (digits_ne_minus_cons _ _ _ equal.symm).elim
  case isFalse leftNonneg =>
    split at equal
    case isTrue rightNeg =>
      exact (digits_ne_minus_cons _ _ _ equal).elim
    case isFalse rightNonneg =>
      rcases digits_append_inj equal with ⟨same, rest⟩
      exact ⟨natAbs_eq_of_nonneg leftNonneg rightNonneg same, rest⟩

theorem decimal_injective : Function.Injective decimal := by
  intro left right equal
  have appended : decimal left ++ 45 :: [] = decimal right ++ 45 :: [] := by rw [equal]
  exact (decimal_append_inj appended).1

end CMemory

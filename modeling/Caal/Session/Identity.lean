import Caal.Lib.Decimal
import Caal.Daemon.Table

/-!
# The identity of a session

`container_start` names a session after the process that runs it and the second
it starts in. The name fits the character fields of the protocol with room to
spare, and names of different sessions differ.
-/

namespace Caal

open CMemory

/-- `"caalsh-%d-%ld"`, the container id of `container_start`. -/
def containerId (pid : Int32) (time : Int64) : Bytes :=
  ascii "caalsh-" ++ (decimal pid.toInt ++ 45 :: decimal time.toInt)

theorem zero_notMem_containerId (pid : Int32) (time : Int64) :
    (0 : UInt8) ∉ containerId pid time := by
  rw [containerId, List.mem_append, List.mem_append, List.mem_cons]
  rintro (name | pidPart | separator | timePart)
  · revert name
    decide
  · exact zero_notMem_decimal _ pidPart
  · revert separator
    decide
  · exact zero_notMem_decimal _ timePart

theorem length_containerId_lt (pid : Int32) (time : Int64) :
    (containerId pid time).length < 63 := by
  have pidBound : pid.toInt.natAbs < 10 ^ 10 := by
    have low := pid.le_toInt
    have high := pid.toInt_lt
    omega
  have timeBound : time.toInt.natAbs < 10 ^ 19 := by
    have low := time.le_toInt
    have high := time.toInt_lt
    omega
  have pidLength := length_decimal_le (by decide) pidBound
  have timeLength := length_decimal_le (by decide) timeBound
  have name : (ascii "caalsh-").length = 7 := rfl
  simp only [containerId, List.length_append, List.length_cons, name]
  omega

theorem containerId_inj {pid pid' : Int32} {time time' : Int64}
    (equal : containerId pid time = containerId pid' time') : pid = pid' ∧ time = time' := by
  rcases decimal_append_inj (List.append_cancel_left equal) with ⟨pids, times⟩
  exact ⟨Int32.toInt_inj.mp pids, Int64.toInt_inj.mp (decimal_injective times)⟩

end Caal

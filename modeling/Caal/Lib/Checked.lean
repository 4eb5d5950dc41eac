import Caal.Lib.Slots

/-!
# Slot arrays with checked accesses

Reads, writes and the two kinds of loops over the used slots, by index, where an access
outside of the allocated slots has no result. Inside the allocation they compute what the
functions of `Slots` say.
-/

namespace Slots

variable {Slot : Type}

/-- `slots[index] = update(slots[index])`. -/
def store (slots : List Slot) (index : Nat) (update : Slot → Slot) : Option (List Slot) :=
  if index < slots.length then some (slots.modify index update) else none

theorem store_of_lt {slots : List Slot} {index : Nat} (inside : index < slots.length)
    (update : Slot → Slot) : store slots index update = some (slots.modify index update) :=
  if_pos inside

/-- The loop that looks for a slot, with so many left from an index on. -/
def scan (accept : Slot → Bool) (slots : List Slot) : Nat → Nat → Option (Option Nat)
  | 0, _ => some none
  | left + 1, index =>
      slots[index]?.bind fun slot =>
        if accept slot then some (some index) else scan accept slots left (index + 1)

theorem scan_from (accept : Slot → Bool) (slots : List Slot) {left index : Nat}
    (inside : index + left ≤ slots.length) :
    scan accept slots left index =
      some ((((slots.drop index).take left).findIdx? accept).map (· + index)) := by
  induction left generalizing index with
  | zero => rfl
  | succ left ih =>
      have here : index < slots.length := by omega
      rw [scan, List.getElem?_eq_getElem here, Option.bind_some, List.drop_eq_getElem_cons here,
        List.take_succ_cons, List.findIdx?_cons]
      split
      · simp
      · rw [ih (by omega), Option.map_map]
        have shifted : (· + index) ∘ (· + 1) = fun position : Nat => position + (index + 1) := by
          funext position
          exact Nat.add_right_comm position 1 index
        rw [shifted]

/-- Inside the allocation the loop finds the first slot that is accepted. -/
theorem scan_eq (accept : Slot → Bool) {slots : List Slot} {used : Nat}
    (inside : used ≤ slots.length) :
    scan accept slots used 0 = some (firstWhere accept slots used) := by
  rw [scan_from accept slots (by omega), List.drop_zero, firstWhere]
  simp

/-- The loop that goes through all slots from an index on. -/
def forEach {State : Type} (body : Nat → State → Option State) :
    Nat → Nat → State → Option State
  | 0, _, state => some state
  | left + 1, index, state => (body index state).bind (forEach body left (index + 1))

/-- A loop that only reads its slots folds over them. -/
theorem forEach_read {State : Type} (slots : List Slot) (visit : State → Slot → State)
    {left index : Nat} (inside : index + left ≤ slots.length) (state : State) :
    forEach (fun index state => slots[index]?.map (visit state)) left index state =
      some (((slots.drop index).take left).foldl visit state) := by
  induction left generalizing index state with
  | zero => rfl
  | succ left ih =>
      have here : index < slots.length := by omega
      rw [forEach, List.getElem?_eq_getElem here, Option.map_some, Option.bind_some,
        ih (by omega), List.drop_eq_getElem_cons here, List.take_succ_cons, List.foldl_cons]

/-- The slots up to one that was written to. -/
theorem take_modify_succ {slots : List Slot} {index : Nat} (inside : index < slots.length)
    (update : Slot → Slot) :
    (slots.modify index update).take (index + 1) = slots.take index ++ [update slots[index]] := by
  have before : (slots.take index).length = index := by
    rw [List.length_take]
    exact Nat.min_eq_left (Nat.le_of_lt inside)
  rw [List.modify_eq_take_cons_drop inside, List.take_append, before, Nat.add_sub_cancel_left,
    List.take_of_length_le (by omega)]
  rfl

/-- The loop that updates every slot that is accepted, and notes it. -/
def sweep {State : Type} (accept : Slot → Bool) (free : Slot → Slot)
    (note : State → Slot → State) : Nat → Nat → List Slot × State → Option (List Slot × State) :=
  forEach fun index both =>
    both.1[index]?.bind fun slot =>
      if accept slot then (store both.1 index free).map fun slots => (slots, note both.2 slot)
      else some both

theorem sweep_from {State : Type} (accept : Slot → Bool) (free : Slot → Slot)
    (note : State → Slot → State) {left index : Nat} {slots : List Slot}
    (inside : index + left ≤ slots.length) (state : State) :
    sweep accept free note left index (slots, state) =
      some (slots.take index ++
          (((slots.drop index).take left).map fun slot =>
            if accept slot then free slot else slot) ++
          slots.drop (index + left),
        (((slots.drop index).take left).filter accept).foldl note state) := by
  induction left generalizing index slots state with
  | zero => simp [sweep, forEach]
  | succ left ih =>
      have here : index < slots.length := by omega
      rw [sweep, forEach]
      simp only [List.getElem?_eq_getElem here, Option.bind_some]
      rw [List.drop_eq_getElem_cons here, List.take_succ_cons, List.map_cons, List.filter_cons]
      split
      case isTrue accepted =>
        have room : index + 1 + left ≤ (slots.modify index free).length := by
          rw [List.length_modify]
          omega
        rw [store_of_lt here, Option.map_some, Option.bind_some]
        refine (ih room (note state slots[index])).trans ?_
        rw [take_modify_succ here, List.drop_modify_of_lt _ _ _ _ (Nat.lt_succ_self index),
          List.drop_modify_of_lt _ _ _ _ (by omega), Nat.add_right_comm index 1 left]
        simp [Nat.add_assoc]
      case isFalse rejected =>
        refine (ih (by omega) state).trans ?_
        rw [List.take_succ_eq_append_getElem here, Nat.add_right_comm index 1 left]
        simp only [List.append_assoc, List.cons_append, List.nil_append, Nat.add_assoc]

/-- Clearing so many slots from an index on. -/
theorem forEach_store (value : Slot) {left index : Nat} {slots : List Slot}
    (inside : index + left ≤ slots.length) :
    forEach (fun index slots => store slots index fun _ => value) left index slots =
      some (slots.take index ++ List.replicate left value ++ slots.drop (index + left)) := by
  induction left generalizing index slots with
  | zero => simp [forEach]
  | succ left ih =>
      have here : index < slots.length := by omega
      rw [forEach, store_of_lt here, Option.bind_some, ih (by rw [List.length_modify]; omega),
        take_modify_succ here, List.drop_modify_of_lt _ _ _ _ (by omega),
        Nat.add_right_comm index 1 left]
      simp [List.replicate_succ, Nat.add_assoc]

end Slots

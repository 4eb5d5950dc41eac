import Mathlib.Data.List.Basic

/-!
# Slot arrays

An array of slots of which the first `used` have been handed out at some time;
each of these is live or free. The live slots in order are what the array
stores. Taking the first free slot, appending a slot, freeing the first live
slot that matches, and freeing every live slot that matches are described by
their effect on that list.
-/

namespace Slots

variable {Slot : Type} (live : Slot → Bool)

/-- The live slots among the used ones, in slot order. -/
def occupied (slots : List Slot) (used : Nat) : List Slot :=
  (slots.take used).filter live

/-- Index of the first used slot that satisfies `accept`. -/
def firstWhere (accept : Slot → Bool) (slots : List Slot) (used : Nat) : Option Nat :=
  (slots.take used).findIdx? accept

variable {live} {slots : List Slot} {used index : Nat}

theorem firstWhere_some {accept : Slot → Bool}
    (found : firstWhere accept slots used = some index) :
    ∃ before slot after, slots.take used = before ++ slot :: after ∧
      before.length = index ∧ accept slot = true ∧
      ∀ other ∈ before, accept other = false := by
  rw [firstWhere, List.findIdx?_eq_some_iff_getElem] at found
  rcases found with ⟨inside, accepted, rejected⟩
  refine ⟨(slots.take used).take index, (slots.take used)[index],
    (slots.take used).drop (index + 1), ?_, ?_, accepted, ?_⟩
  · rw [List.getElem_cons_drop, List.take_append_drop]
  · rw [List.length_take]
    exact Nat.min_eq_left (Nat.le_of_lt inside)
  · intro other member
    rcases List.getElem_of_mem member with ⟨position, bound, rfl⟩
    have earlier : position < index := by
      rw [List.length_take] at bound
      exact Nat.lt_of_lt_of_le bound (Nat.min_le_left _ _)
    rw [List.getElem_take]
    simpa using rejected position earlier

theorem firstWhere_none {accept : Slot → Bool}
    (absent : firstWhere accept slots used = none) :
    ∀ slot ∈ slots.take used, accept slot = false :=
  List.findIdx?_eq_none_iff.mp absent

theorem firstWhere_lt {accept : Slot → Bool}
    (found : firstWhere accept slots used = some index) :
    index < used ∧ index < slots.length := by
  rw [firstWhere, List.findIdx?_eq_some_iff_getElem] at found
  rcases found with ⟨inside, _⟩
  rw [List.length_take] at inside
  exact Nat.lt_min.mp inside

/-- A search whose first match is known. -/
theorem firstWhere_eq_some {accept : Slot → Bool} {slot : Slot} (inside : index < used)
    (here : slots[index]? = some slot) (accepted : accept slot = true)
    (rejected : ∀ other ∈ slots.take index, accept other = false) :
    firstWhere accept slots used = some index := by
  rcases List.getElem?_eq_some_iff.mp here with ⟨bound, rfl⟩
  rw [firstWhere, List.findIdx?_eq_some_iff_getElem]
  refine ⟨?_, ?_, ?_⟩
  · rw [List.length_take]
    exact Nat.lt_min.mpr ⟨inside, bound⟩
  · rw [List.getElem_take]
    exact accepted
  · intro position earlier
    rw [List.getElem_take]
    have member : slots[position] ∈ slots.take index :=
      List.mem_take_iff_getElem.mpr ⟨position, Nat.lt_min.mpr ⟨earlier, by omega⟩, rfl⟩
    simpa using rejected _ member

/-- A match among the first slots is found there. -/
theorem firstWhere_of_mem {accept : Slot → Bool} {slot : Slot} (inside : index ≤ used)
    (member : slot ∈ slots.take index) (accepted : accept slot = true) :
    ∃ earlier < index, firstWhere accept slots used = some earlier := by
  cases search : firstWhere accept slots used with
  | none =>
      have front : slots.take index = (slots.take used).take index := by
        rw [List.take_take, Nat.min_eq_left inside]
      rw [front] at member
      have rejected := firstWhere_none search slot (List.mem_of_mem_take member)
      rw [accepted] at rejected
      cases rejected
  | some found =>
      refine ⟨found, ?_, rfl⟩
      rcases List.mem_take_iff_getElem.mp member with ⟨position, bound, rfl⟩
      rw [firstWhere, List.findIdx?_eq_some_iff_getElem] at search
      rcases search with ⟨_, _, rejected⟩
      apply Nat.lt_of_not_le
      intro beyond
      have before : position < found := Nat.lt_of_lt_of_le (Nat.lt_min.mp bound).1 beyond
      have wrong := rejected position before
      rw [List.getElem_take] at wrong
      exact wrong accepted

private theorem modify_length (before after : List Slot) (slot : Slot)
    (update : Slot → Slot) :
    (before ++ slot :: after).modify before.length update =
      before ++ update slot :: after := by
  induction before with
  | nil => rfl
  | cons head before ih => simpa using ih

/-- Updating the slot at a known position of the used part. -/
private theorem take_modify_split {before after : List Slot} {slot : Slot}
    (update : Slot → Slot) (split : slots.take used = before ++ slot :: after) :
    (slots.modify before.length update).take used = before ++ update slot :: after := by
  rw [List.take_modify, split, modify_length]

/-- A search that looks only at an image of each slot. -/
theorem firstWhere_map {Image : Type} (image : Slot → Image) (accept : Image → Bool) :
    firstWhere accept (slots.map image) used =
      firstWhere (fun slot => accept (image slot)) slots used := by
  rw [firstWhere, ← List.map_take, List.findIdx?_map]
  rfl

theorem map_modify {Image : Type} {image : Slot → Image} {update : Slot → Slot}
    {change : Image → Image} (commutes : ∀ slot, image (update slot) = change (image slot)) :
    (slots.modify index update).map image = (slots.map image).modify index change := by
  induction slots generalizing index with
  | nil => simp
  | cons head slots ih =>
      cases index with
      | zero => simp [commutes]
      | succ index => simp [ih]

/-- What updating one slot makes true of it, and was true of all, is true of all. -/
theorem forall_mem_modify {property : Slot → Prop} {update : Slot → Slot}
    (holds : ∀ slot ∈ slots, property slot)
    (updated : ∀ slot, property slot → property (update slot)) :
    ∀ slot ∈ slots.modify index update, property slot := by
  induction slots generalizing index with
  | nil => simp
  | cons head slots ih =>
      have first : property head := holds head List.mem_cons_self
      have others : ∀ slot ∈ slots, property slot := fun slot member =>
        holds slot (List.mem_cons_of_mem head member)
      cases index with
      | zero => simpa using ⟨updated head first, others⟩
      | succ index => simpa using ⟨first, fun slot => ih others slot⟩

/-- Taking the first free slot adds one live slot somewhere. -/
theorem occupied_fill {fill : Slot → Slot} (filled : ∀ slot, live (fill slot) = true)
    (found : firstWhere (fun slot => !live slot) slots used = some index) :
    ∃ before slot after, occupied live slots used = before ++ after ∧
      occupied live (slots.modify index fill) used = before ++ fill slot :: after := by
  rcases firstWhere_some found with ⟨before, slot, after, split, rfl, free, _⟩
  refine ⟨before.filter live, slot, after.filter live, ?_, ?_⟩
  · have dead : live slot = false := by simpa using free
    rw [occupied, split, List.filter_append, List.filter_cons_of_neg (by simp [dead])]
  · rw [occupied, take_modify_split fill split, List.filter_append,
      List.filter_cons_of_pos (filled slot)]

/-- Appending a slot adds it behind the live ones. -/
theorem occupied_append {fill : Slot → Slot} (filled : ∀ slot, live (fill slot) = true)
    (room : used < slots.length) :
    ∃ slot, occupied live (slots.modify used fill) (used + 1) =
      occupied live slots used ++ [fill slot] := by
  refine ⟨slots[used], ?_⟩
  have last : slots.take (used + 1) = slots.take used ++ [slots[used]] :=
    (List.take_append_getElem room).symm
  have length : (slots.take used).length = used := by
    rw [List.length_take]
    exact Nat.min_eq_left (Nat.le_of_lt room)
  have updated : (slots.modify used fill).take (used + 1) =
      slots.take used ++ [fill slots[used]] := by
    have moved := take_modify_split fill last
    rwa [length] at moved
  rw [occupied, updated, List.filter_append]
  simp [occupied, filled]

/-- With no free slot among the used ones, all of them are live. -/
theorem occupied_full
    (full : firstWhere (fun slot => !live slot) slots used = none) :
    occupied live slots used = slots.take used := by
  rw [occupied, List.filter_eq_self]
  intro slot member
  simpa using firstWhere_none full slot member

/-- Freeing the first live slot that matches removes the first live match. -/
theorem occupied_free {accept : Slot → Bool} {free : Slot → Slot}
    (freed : ∀ slot, live (free slot) = false)
    (found : firstWhere (fun slot => live slot && accept slot) slots used = some index) :
    ∃ before slot after, occupied live slots used = before ++ slot :: after ∧
      accept slot = true ∧ (∀ other ∈ before, accept other = false) ∧
      slots[index]? = some slot ∧
      occupied live (slots.modify index free) used = before ++ after := by
  have position := firstWhere_lt found
  rcases firstWhere_some found with ⟨before, slot, after, split, rfl, accepted, rejected⟩
  rw [Bool.and_eq_true] at accepted
  refine ⟨before.filter live, slot, after.filter live, ?_, accepted.2, ?_, ?_, ?_⟩
  · rw [occupied, split, List.filter_append, List.filter_cons_of_pos accepted.1]
  · intro other member
    rcases List.mem_filter.mp member with ⟨inside, alive⟩
    simpa [alive] using rejected other inside
  · have atIndex : (slots.take used)[before.length]? = some slot := by simp [split]
    rwa [List.getElem?_take_of_lt position.1] at atIndex
  · rw [occupied, take_modify_split free split, List.filter_append,
      List.filter_cons_of_neg (by simp [freed])]

/-- A failed search: no live slot matches. -/
theorem occupied_none {accept : Slot → Bool}
    (absent : firstWhere (fun slot => live slot && accept slot) slots used = none) :
    ∀ slot ∈ occupied live slots used, accept slot = false := by
  intro slot member
  rcases List.mem_filter.mp member with ⟨inside, alive⟩
  simpa [alive] using firstWhere_none absent slot inside

/-- Freeing every live match keeps the live slots that do not match. -/
theorem filter_sweep {accept : Slot → Bool} {free : Slot → Slot}
    (freed : ∀ slot, live (free slot) = false) (part : List Slot) :
    (part.map fun slot => if live slot && accept slot then free slot else slot).filter live =
      (part.filter live).filter fun slot => !accept slot := by
  induction part with
  | nil => rfl
  | cons slot part ih =>
      rw [List.map_cons]
      cases alive : live slot with
      | false =>
          rw [Bool.false_and, if_neg Bool.false_ne_true, List.filter_cons_of_neg (by simp [alive]),
            List.filter_cons_of_neg (by simp [alive]), ih]
      | true =>
          rw [Bool.true_and, List.filter_cons_of_pos alive]
          cases accepted : accept slot with
          | false =>
              rw [if_neg Bool.false_ne_true, List.filter_cons_of_pos alive,
                List.filter_cons_of_pos (by simp [accepted]), ih]
          | true =>
              rw [if_pos rfl, List.filter_cons_of_neg (by simp [freed]),
                List.filter_cons_of_neg (by simp [accepted]), ih]

end Slots

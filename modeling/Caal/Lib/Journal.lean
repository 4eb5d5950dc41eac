import Mathlib.Algebra.Order.Group.Multiset

/-!
# Journals

A journal records what comes into a bag and what leaves it. Whoever reads it again has the
bag, as long as nothing leaves that is not there.
-/

namespace Journal

variable {Item : Type*}

/-- One line of a journal. -/
inductive Change (Item : Type*) where
  | came (item : Item)
  | left (item : Item)
  deriving DecidableEq

variable [DecidableEq Item]

def Change.apply (bag : Multiset Item) : Change Item → Option (Multiset Item)
  | .came item => some (item ::ₘ bag)
  | .left item => if item ∈ bag then some (bag.erase item) else none

/-- The bag that a journal leaves. -/
def replay : Multiset Item → List (Change Item) → Option (Multiset Item)
  | bag, [] => some bag
  | bag, change :: changes => (change.apply bag).bind fun bag => replay bag changes

variable {bag after : Multiset Item} {item : Item} {changes more : List (Change Item)}

theorem replay_append :
    replay bag (changes ++ more) = (replay bag changes).bind fun bag => replay bag more := by
  induction changes generalizing bag with
  | nil => rfl
  | cons change changes ih =>
      rw [List.cons_append, replay, replay, Option.bind_assoc]
      exact Option.bind_congr fun bag _ => ih

/-- A journal is written on. -/
theorem replay_append_some (replayed : replay bag changes = some after) :
    replay bag (changes ++ more) = replay after more := by
  rw [replay_append, replayed, Option.bind_some]

theorem replay_came : replay bag [.came item] = some (item ::ₘ bag) := rfl

theorem replay_left : replay (item ::ₘ bag) [.left item] = some bag := by
  rw [replay, Change.apply, if_pos (Multiset.mem_cons_self item bag), Multiset.erase_cons_head]
  rfl

/-- Items that leave one after the other. -/
theorem replay_lefts (items : List Item) (bag : Multiset Item) :
    replay ((items : Multiset Item) + bag) (items.map .left) = some bag := by
  induction items with
  | nil => exact congrArg some (zero_add bag)
  | cons item items ih =>
      have first : ((item :: items : List Item) : Multiset Item) + bag =
          item ::ₘ (↑items + bag) := by
        rw [← Multiset.cons_coe, Multiset.cons_add]
      rw [first, List.map_cons, ← List.singleton_append, replay_append_some replay_left, ih]

/-- What a bag has in the end came, and did not leave: a journal is balanced. -/
theorem count_of_replay (replayed : replay bag changes = some after) (item : Item) :
    after.count item + changes.count (.left item) =
      bag.count item + changes.count (.came item) := by
  induction changes generalizing bag with
  | nil =>
      cases replayed
      rfl
  | cons change changes ih =>
      rcases Option.bind_eq_some_iff.mp replayed with ⟨middle, applied, replayed⟩
      have later := ih replayed
      cases change with
      | came other =>
          cases applied
          rw [Multiset.count_cons] at later
          rw [List.count_cons_of_ne (by nofun), List.count_cons]
          by_cases same : item = other
          · subst same
            rw [if_pos rfl] at later
            rw [beq_self_eq_true, if_pos rfl]
            omega
          · have different : (Change.came other == Change.came item) = false :=
              beq_eq_false_iff_ne.mpr fun equal => same (Change.came.inj equal).symm
            rw [if_neg same] at later
            rw [different, if_neg Bool.false_ne_true]
            omega
      | left other =>
          rw [Change.apply] at applied
          split at applied
          case isFalse => cases applied
          case isTrue member =>
            cases applied
            rw [List.count_cons, List.count_cons_of_ne (by nofun)]
            by_cases same : item = other
            · subst same
              have positive := Multiset.count_pos.mpr member
              rw [Multiset.count_erase_self] at later
              rw [beq_self_eq_true, if_pos rfl]
              omega
            · have different : (Change.left other == Change.left item) = false :=
                beq_eq_false_iff_ne.mpr fun equal => same (Change.left.inj equal).symm
              rw [Multiset.count_erase_of_ne same] at later
              rw [different, if_neg Bool.false_ne_true]
              omega

end Journal

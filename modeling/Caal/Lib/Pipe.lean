import Mathlib.Data.List.Basic

/-!
# Relayed streams

One direction of a relay: items are put in at one end, a reader takes them out from the
front, and what it passes on comes out at the other end. What is taken is first in the
reader's hand; a relay is intact as long as nothing gets lost there.
Nothing here depends on a particular program.
-/

universe u

/-- A stream on its way through a relay. -/
structure Pipe (α : Type u) where
  /-- Put in, and not taken out yet. -/
  waiting : List α
  taken : List α
  passed : List α
  deriving DecidableEq

namespace Pipe

variable {α : Type u} {pipe : Pipe α} {hand : List α}

/-- All that was put in. -/
def written (pipe : Pipe α) : List α :=
  pipe.taken ++ pipe.waiting

def put (pipe : Pipe α) (item : α) : Pipe α :=
  { pipe with waiting := pipe.waiting ++ [item] }

/-- The reader takes some items from the front. -/
def take (pipe : Pipe α) (count : Nat) : Pipe α :=
  { pipe with waiting := pipe.waiting.drop count, taken := pipe.taken ++ pipe.waiting.take count }

def pass (pipe : Pipe α) (items : List α) : Pipe α :=
  { pipe with passed := pipe.passed ++ items }

@[simp] theorem taken_put (item : α) : (pipe.put item).taken = pipe.taken := rfl

@[simp] theorem passed_put (item : α) : (pipe.put item).passed = pipe.passed := rfl

@[simp] theorem written_put (item : α) : (pipe.put item).written = pipe.written ++ [item] := by
  simp [written, put]

@[simp] theorem passed_take (count : Nat) : (pipe.take count).passed = pipe.passed := rfl

@[simp] theorem written_take (count : Nat) : (pipe.take count).written = pipe.written := by
  simp [written, take]

@[simp] theorem taken_pass (items : List α) : (pipe.pass items).taken = pipe.taken := rfl

@[simp] theorem waiting_pass (items : List α) : (pipe.pass items).waiting = pipe.waiting := rfl

@[simp] theorem written_pass (items : List α) : (pipe.pass items).written = pipe.written := rfl

theorem taken_prefix_written (pipe : Pipe α) : pipe.taken <+: pipe.written :=
  List.prefix_append _ _

/-! ## Intact streams -/

/-- All that was taken has been passed on, up to what is in hand. -/
def Intact (pipe : Pipe α) (hand : List α) : Prop :=
  pipe.taken = pipe.passed ++ hand

theorem Intact.put (intact : pipe.Intact hand) (item : α) : (pipe.put item).Intact hand :=
  intact

/-- With empty hands, what is taken is then in hand. -/
theorem Intact.take (intact : pipe.Intact []) (count : Nat) :
    (pipe.take count).Intact (pipe.waiting.take count) := by
  rw [Intact, List.append_nil] at intact
  rw [Intact, Pipe.take, intact]

/-- Passing on all that is in hand leaves the hands empty. -/
theorem Intact.pass (intact : pipe.Intact hand) : (pipe.pass hand).Intact [] := by
  rw [Intact, taken_pass, Pipe.pass, List.append_nil]
  exact intact

theorem Intact.passed_prefix (intact : pipe.Intact hand) : pipe.passed <+: pipe.taken := by
  rw [Intact] at intact
  rw [intact]
  exact List.prefix_append _ _

/-- With empty hands and nothing waiting, all has been passed on. -/
theorem Intact.drained (intact : pipe.Intact []) (empty : pipe.waiting = []) :
    pipe.passed = pipe.written := by
  rw [Intact, List.append_nil] at intact
  rw [written, empty, List.append_nil, intact]

/-! ## Streams with a gap -/

/-- No more is passed on than was taken, counting what is in hand. -/
def Bounded (pipe : Pipe α) (hand : List α) : Prop :=
  pipe.passed.length + hand.length ≤ pipe.taken.length

theorem Bounded.le (bounded : pipe.Bounded hand) : pipe.passed.length ≤ pipe.taken.length :=
  Nat.le_trans (Nat.le_add_right _ _) bounded

theorem Bounded.drop (bounded : pipe.Bounded hand) : pipe.Bounded [] :=
  bounded.le

theorem Bounded.take (bounded : pipe.Bounded []) (count : Nat) :
    (pipe.take count).Bounded (pipe.waiting.take count) := by
  rw [Bounded, passed_take, Pipe.take, List.length_append]
  exact Nat.add_le_add_right bounded _

theorem Bounded.pass {items : List α} (bounded : pipe.Bounded hand)
    (fits : items.length ≤ hand.length) : (pipe.pass items).Bounded [] := by
  rw [Bounded, Pipe.pass, List.length_append]
  exact Nat.le_trans (Nat.add_le_add_left fits _) bounded

theorem Bounded.short_of_pass {items : List α} (bounded : pipe.Bounded hand)
    (short : items.length < hand.length) :
    (pipe.pass items).passed.length < (pipe.pass items).taken.length := by
  rw [Pipe.pass, List.length_append]
  exact Nat.lt_of_lt_of_le (Nat.add_lt_add_left short _) bounded

theorem length_taken_le_written (pipe : Pipe α) : pipe.taken.length ≤ pipe.written.length :=
  pipe.taken_prefix_written.length_le

/-- A stream that fell short lacks a next item. -/
theorem exists_missing (front : pipe.passed <+: pipe.taken)
    (short : pipe.passed.length < pipe.taken.length) :
    ∃ missing lost, pipe.taken = pipe.passed ++ missing :: lost := by
  rcases front with ⟨rest, whole⟩
  cases rest with
  | nil =>
      rw [← whole, List.append_nil] at short
      exact (Nat.lt_irrefl _ short).elim
  | cons missing lost => exact ⟨missing, lost, whole.symm⟩

/-- Passing on any other item than the missing one leaves a gap. -/
theorem not_prefix_of_gap {missing other : α} {lost : List α}
    (gap : pipe.taken = pipe.passed ++ missing :: lost) (differs : other ≠ missing) :
    ¬ (pipe.pass [other]).passed <+: (pipe.pass [other]).taken := by
  intro front
  rw [taken_pass, gap, pass, List.prefix_append_right_inj, List.cons_prefix_cons] at front
  exact differs front.1

end Pipe

import Mathlib.Data.List.Flatten
import Mathlib.Data.List.Perm.Subperm

/-!
# Lists with escapes

A list that is cut at a separator, where an escape takes the element behind it out of the
syntax, and the removal of the escapes from a piece. Both are accounted for by lengths:
cutting loses one element at each cut, removing escapes loses one for each of them.
-/

namespace Escaped

variable {α : Type}

/-- Put a front before the first piece. -/
def push (front : List α) : List (List α) → List (List α)
  | [] => [front]
  | piece :: pieces => (front ++ piece) :: pieces

theorem length_push (front : List α) {pieces : List (List α)} (some : pieces ≠ []) :
    (push front pieces).length = pieces.length := by
  cases pieces with
  | nil => exact (some rfl).elim
  | cons piece pieces => rfl

theorem flatten_push (front : List α) (pieces : List (List α)) :
    (push front pieces).flatten = front ++ pieces.flatten := by
  cases pieces with
  | nil => simp [push]
  | cons piece pieces => simp [push]

theorem push_ne_nil (front : List α) (pieces : List (List α)) : push front pieces ≠ [] := by
  cases pieces with
  | nil => simp [push]
  | cons piece pieces => simp [push]

theorem mem_push {front : List α} {pieces : List (List α)} {piece : List α}
    (member : piece ∈ push front pieces) :
    (∃ back, piece = front ++ back ∧ (back ∈ pieces ∨ back = [])) ∨ piece ∈ pieces := by
  cases pieces with
  | nil =>
      cases List.mem_singleton.mp member
      exact .inl ⟨[], (List.append_nil front).symm, .inr rfl⟩
  | cons head pieces =>
      rcases List.mem_cons.mp member with rfl | later
      · exact .inl ⟨head, rfl, .inl List.mem_cons_self⟩
      · exact .inr (List.mem_cons_of_mem head later)

variable [DecidableEq α]

/-- The pieces between the separators that are not escaped, with their escapes. -/
def split (escape separator : α) : List α → List (List α)
  | [] => [[]]
  | [last] => if last = escape then [[last]] else if last = separator then [[], []] else [[last]]
  | first :: second :: rest =>
      if first = escape then push [first, second] (split escape separator rest)
      else if first = separator then [] :: split escape separator (second :: rest)
      else push [first] (split escape separator (second :: rest))

/-- The text without its escapes. An escape with nothing behind it is dropped. -/
def unescape (escape : α) : List α → List α
  | [] => []
  | [last] => if last = escape then [] else [last]
  | first :: second :: rest =>
      if first = escape then second :: unescape escape rest
      else first :: unescape escape (second :: rest)

variable {escape separator : α} {text rest : List α}

/-! ## Cutting -/

theorem split_ne_nil (text : List α) : split escape separator text ≠ [] := by
  fun_cases split escape separator text with
  | case1 => simp
  | case2 => simp
  | case3 => simp
  | case4 => simp
  | case5 => exact push_ne_nil _ _
  | case6 => simp
  | case7 => exact push_ne_nil _ _

/-- Each cut loses the separator, and nothing else is lost. -/
theorem length_flatten_split (text : List α) :
    (split escape separator text).flatten.length + (split escape separator text).length =
      text.length + 1 := by
  fun_induction split escape separator text with
  | case1 => rfl
  | case2 => rfl
  | case3 => rfl
  | case4 => rfl
  | case5 second rest ih =>
      rw [flatten_push, length_push _ (split_ne_nil rest)]
      simp only [List.length_append, List.length_cons, List.length_nil]
      omega
  | case6 second rest different ih =>
      simp only [List.flatten_cons, List.nil_append, List.length_cons] at ih ⊢
      omega
  | case7 first second rest notEscape notSeparator ih =>
      rw [flatten_push, length_push _ (split_ne_nil _)]
      simp only [List.length_append, List.length_cons, List.length_nil] at ih ⊢
      omega

/-- In a piece without escapes there is no separator. -/
theorem separator_notMem {piece : List α} (member : piece ∈ split escape separator text)
    (free : escape ∉ piece) : separator ∉ piece := by
  fun_induction split escape separator text generalizing piece with
  | case1 =>
      cases List.mem_singleton.mp member
      simp
  | case2 =>
      cases List.mem_singleton.mp member
      simp at free
  | case3 =>
      rcases List.mem_pair.mp member with rfl | rfl
      · simp
      · simp
  | case4 last notEscape notSeparator =>
      cases List.mem_singleton.mp member
      simpa using Ne.symm notSeparator
  | case5 second rest ih =>
      rcases mem_push member with ⟨back, rfl, _⟩ | later
      · simp at free
      · exact ih later free
  | case6 second rest different ih =>
      rcases List.mem_cons.mp member with rfl | later
      · simp
      · exact ih later free
  | case7 first second rest notEscape notSeparator ih =>
      rcases mem_push member with ⟨back, rfl, inside⟩ | later
      · rw [List.mem_append, not_or] at free ⊢
        refine ⟨by simpa using Ne.symm notSeparator, ?_⟩
        rcases inside with inside | rfl
        · exact ih inside free.2
        · simp
      · exact ih later free

/-- Text without escapes and separators is one piece. -/
theorem split_of_free (noEscape : escape ∉ text) (noSeparator : separator ∉ text) :
    split escape separator text = [text] := by
  fun_induction split escape separator text with
  | case1 => rfl
  | case2 => simp at noEscape
  | case3 => simp at noSeparator
  | case4 => rfl
  | case5 => simp at noEscape
  | case6 => simp at noSeparator
  | case7 first second rest notEscape notSeparator ih =>
      rw [List.mem_cons, not_or] at noEscape noSeparator
      rw [ih noEscape.2 noSeparator.2]
      rfl

/-- A single piece is the whole text. -/
theorem eq_of_split_singleton {piece : List α}
    (single : split escape separator text = [piece]) : piece = text := by
  have pushed : ∀ {front piece : List α} {pieces : List (List α)}, pieces ≠ [] →
      push front pieces = [piece] → ∃ back, pieces = [back] ∧ piece = front ++ back := by
    intro front piece pieces some single
    cases pieces with
    | nil => exact (some rfl).elim
    | cons back pieces =>
        rcases List.cons.inj single with ⟨rfl, rfl⟩
        exact ⟨back, rfl, rfl⟩
  fun_induction split escape separator text generalizing piece with
  | case1 => exact (List.singleton_inj.mp single).symm
  | case2 => exact (List.singleton_inj.mp single).symm
  | case3 => cases single
  | case4 => exact (List.singleton_inj.mp single).symm
  | case5 second rest ih =>
      rcases pushed (split_ne_nil rest) single with ⟨back, only, rfl⟩
      rw [ih only]
      rfl
  | case6 second rest different ih =>
      exact (split_ne_nil _ (List.cons.inj single).2).elim
  | case7 first second rest notEscape notSeparator ih =>
      rcases pushed (split_ne_nil _) single with ⟨back, only, rfl⟩
      rw [ih only]
      rfl

/-- Such a text in front of a separator is the first piece. -/
theorem split_append (different : separator ≠ escape) (noEscape : escape ∉ text)
    (noSeparator : separator ∉ text) :
    split escape separator (text ++ separator :: rest) =
      text :: split escape separator rest := by
  induction text with
  | nil =>
      cases rest with
      | nil => simp [split, different]
      | cons second rest => simp [split, different]
  | cons first text ih =>
      rw [List.mem_cons, not_or] at noEscape noSeparator
      have behind := ih noEscape.2 noSeparator.2
      cases shape : text ++ separator :: rest with
      | nil => simp at shape
      | cons second others =>
          rw [shape] at behind
          rw [List.cons_append, shape, split, if_neg (Ne.symm noEscape.1),
            if_neg (Ne.symm noSeparator.1), behind]
          rfl

/-! ## Removing escapes -/

theorem length_unescape_le (text : List α) : (unescape escape text).length ≤ text.length := by
  fun_induction unescape escape text with
  | case1 => exact Nat.le_refl _
  | case2 => exact Nat.zero_le _
  | case3 => exact Nat.le_refl _
  | case4 second rest ih =>
      simp only [List.length_cons]
      omega
  | case5 first second rest notEscape ih =>
      simp only [List.length_cons] at ih ⊢
      omega

theorem unescape_of_free (free : escape ∉ text) : unescape escape text = text := by
  fun_induction unescape escape text with
  | case1 => rfl
  | case2 => simp at free
  | case3 => rfl
  | case4 => simp at free
  | case5 first second rest notEscape ih =>
      rw [ih (List.not_mem_of_not_mem_cons free)]

/-- Text that is as long without its escapes has none. -/
theorem escape_notMem_of_length (same : text.length ≤ (unescape escape text).length) :
    escape ∉ text := by
  fun_induction unescape escape text with
  | case1 => simp
  | case2 => simp at same
  | case3 last notEscape => simpa using Ne.symm notEscape
  | case4 second rest ih =>
      have shorter := @length_unescape_le α _ escape rest
      simp only [List.length_cons] at same
      omega
  | case5 first second rest notEscape ih =>
      rw [List.mem_cons, not_or]
      refine ⟨Ne.symm notEscape, ih ?_⟩
      simpa using same

/-- Three different pieces are no longer than the text, with a separator between them. -/
theorem three_pieces {first second third : List α}
    (inFirst : first ∈ split escape separator text)
    (inSecond : second ∈ split escape separator text)
    (inThird : third ∈ split escape separator text) (distinct : [first, second, third].Nodup) :
    first.length + second.length + third.length + 2 ≤ text.length := by
  have inside : List.Subperm [first, second, third] (split escape separator text) := by
    apply distinct.subperm
    intro piece member
    rcases List.mem_cons.mp member with rfl | member
    · exact inFirst
    · rcases List.mem_pair.mp member with rfl | rfl
      · exact inSecond
      · exact inThird
  have count := inside.length_le
  rcases inside with ⟨pieces, perm, sublist⟩
  have total : pieces.flatten.length = first.length + second.length + third.length := by
    rw [perm.flatten.length_eq]
    simp [Nat.add_assoc]
  have bound := sublist.flatten.length_le
  have whole := @length_flatten_split α _ escape separator text
  simp only [List.length_cons, List.length_nil] at count
  omega

end Escaped

import Mathlib.Data.List.Basic

/-!
# Basic regular expressions

Part of the basic regular expressions of POSIX, over bytes: ordinary and escaped
characters, the dot and the star, in expressions that are anchored at the start of the line
only. Expressions with anything else, such as a bracket expression, match nothing here.
-/

namespace Bre

/-- What one character of a line is matched against. -/
inductive Atom where
  | byte (byte : UInt8)
  | any
  deriving DecidableEq

inductive Token where
  | atom (atom : Atom)
  | star
  deriving DecidableEq

/-- The characters that a backslash takes their meaning from. -/
def escapable (byte : UInt8) : Bool :=
  byte = 91 || byte = 93 || byte = 92 || byte = 46 || byte = 42 || byte = 94 || byte = 36 ||
    byte = 47

/-- The tokens of an expression behind its anchor. -/
def tokens : List UInt8 → Option (List Token)
  | [] => some []
  | byte :: rest =>
      if byte = 92 then
        match rest with
        | [] => none
        | escaped :: rest =>
            if escapable escaped then
              (tokens rest).map fun later => .atom (.byte escaped) :: later
            else none
      else if byte = 91 ∨ byte = 36 ∧ rest = [] then none
      else if byte = 46 then (tokens rest).map fun later => .atom .any :: later
      else if byte = 42 then (tokens rest).map fun later => .star :: later
      else (tokens rest).map fun later => .atom (.byte byte) :: later

def Atom.accepts (byte : UInt8) : Atom → Bool
  | .byte expected => byte == expected
  | .any => true

/-- An atom, then what follows. -/
def once (atom : Atom) (rest : List UInt8 → Bool) : List UInt8 → Bool
  | [] => false
  | byte :: line => atom.accepts byte && rest line

/-- An atom any number of times, then what follows. -/
def often (atom : Atom) (rest : List UInt8 → Bool) : List UInt8 → Bool
  | [] => rest []
  | byte :: line => rest (byte :: line) || atom.accepts byte && often atom rest line

/-- Whether a line begins as the tokens say. -/
def begins : List Token → List UInt8 → Bool
  | [] => fun _ => true
  | .star :: later => begins later
  | .atom atom :: later =>
      if later.head? = some .star then often atom (begins later) else once atom (begins later)

/-- Whether a line matches an expression. -/
def accepts (expression line : List UInt8) : Bool :=
  match expression with
  | [] => false
  | anchor :: rest =>
      match anchor == 94, tokens rest with
      | true, some later => begins later line
      | _, _ => false

theorem accepts_anchored {rest : List UInt8} {later : List Token}
    (read : tokens rest = some later) (line : List UInt8) :
    accepts (94 :: rest) line = begins later line := by
  rw [accepts, read]
  rfl

/-! ## Ordinary characters -/

/-- A character that stands for itself. -/
def ordinary (byte : UInt8) : Bool :=
  byte ≠ 92 && byte ≠ 91 && byte ≠ 36 && byte ≠ 46 && byte ≠ 42

theorem tokens_cons {byte : UInt8} (self : ordinary byte = true) (rest : List UInt8) :
    tokens (byte :: rest) = (tokens rest).map fun later => .atom (.byte byte) :: later := by
  simp only [ordinary, Bool.and_eq_true, decide_eq_true_eq] at self
  rcases self with ⟨⟨⟨⟨backslash, bracket⟩, dollar⟩, dot⟩, star⟩
  rw [tokens.eq_def]
  simp [backslash, bracket, dollar, dot, star]

theorem tokens_append {text : List UInt8} (self : ∀ byte ∈ text, ordinary byte = true)
    (rest : List UInt8) :
    tokens (text ++ rest) =
      (tokens rest).map fun later => (text.map fun byte => Token.atom (.byte byte)) ++ later := by
  induction text with
  | nil => simp
  | cons byte text ih =>
      rw [List.cons_append, tokens_cons (self byte List.mem_cons_self),
        ih fun other member => self other (List.mem_cons_of_mem byte member), Option.map_map]
      rfl

theorem tokens_escape {escaped : UInt8} (escape : escapable escaped = true)
    (rest : List UInt8) :
    tokens (92 :: escaped :: rest) =
      (tokens rest).map fun later => .atom (.byte escaped) :: later := by
  rw [tokens.eq_def]
  simp [escape]

/-- Characters that stand for themselves are compared one by one. -/
theorem begins_bytes (text line : List UInt8) :
    begins (text.map fun byte => Token.atom (.byte byte)) line = text.isPrefixOf line := by
  induction text generalizing line with
  | nil => simp [begins]
  | cons byte text ih =>
      have single : (text.map fun byte => Token.atom (.byte byte)).head? ≠ some .star := by
        cases text <;> simp
      rw [List.map_cons, begins, if_neg single]
      cases line with
      | nil => rfl
      | cons first line =>
          rw [once, ih, Atom.accepts, List.isPrefixOf, Bool.beq_comm]

end Bre

import Caal.Lib.Decimal

/-!
# Text in columns

Fields of a line aligned with blanks and numbers filled up with zeros, as `printf` does both,
and how they are read again.
-/

namespace CMemory

/-! ## Fields -/

/-- `"%-*s"`. -/
def leftAligned (width : Nat) (text : Bytes) : Bytes :=
  text ++ List.replicate (width - text.length) 32

/-- The sign that `%d` puts in front of the digits. -/
def sign (value : Int) : Bytes :=
  if value < 0 then [45] else []

/-- `"%0*d"`: zeros between the sign and the digits. -/
def zeroFilled (width : Nat) (value : Int) : Bytes :=
  sign value ++ (List.replicate (width - (decimal value).length) 48 ++ digits value.natAbs)

/-! ## Reading -/

/-- The pieces between the bytes of a kind, without the empty ones. -/
def pieces (stop : UInt8) (text : Bytes) : List Bytes :=
  (text.splitOn stop).filter fun piece => !piece.isEmpty

def words (text : Bytes) : List Bytes :=
  pieces 32 text

def lines (text : Bytes) : List Bytes :=
  pieces 10 text

/-- The text before the first byte of a kind, and the text behind it. -/
def cut (stop : UInt8) (text : Bytes) : Bytes × Bytes :=
  (text.takeWhile (· != stop), (text.dropWhile (· != stop)).drop 1)

/-- The number that a sequence of decimal digits with a sign stands for. -/
def ofDecimal : Bytes → Int
  | 45 :: text => -ofDecimalDigits text
  | text => ofDecimalDigits text

section Pieces

variable {stop : UInt8}

theorem pieces_append (left right : Bytes) :
    pieces stop (left ++ stop :: right) = pieces stop left ++ pieces stop right := by
  rw [pieces, List.splitOn_append_cons_self, List.filter_append]
  rfl

theorem pieces_of_notMem {text : Bytes} (free : stop ∉ text) (nonempty : text ≠ []) :
    pieces stop text = [text] := by
  rw [pieces, List.splitOn_eq_singleton free]
  simp [nonempty]

theorem pieces_nil : pieces stop [] = [] := by
  simp [pieces]

theorem pieces_cons {text : Bytes} (free : stop ∉ text) (nonempty : text ≠ []) (rest : Bytes) :
    pieces stop (text ++ stop :: rest) = text :: pieces stop rest := by
  rw [pieces_append, pieces_of_notMem free nonempty]
  rfl

/-- More of the separating bytes change nothing. -/
theorem pieces_replicate (count : Nat) (rest : Bytes) :
    pieces stop (List.replicate count stop ++ rest) = pieces stop rest := by
  induction count with
  | zero => rfl
  | succ count ih =>
      have first := @pieces_append stop [] (List.replicate count stop ++ rest)
      rw [pieces_nil, List.nil_append, List.nil_append, ih] at first
      exact first

/-- Lines are what was written, each with its end. -/
theorem pieces_flatMap {texts : List Bytes} (free : ∀ text ∈ texts, stop ∉ text ∧ text ≠ []) :
    pieces stop (texts.flatMap fun text => text ++ [stop]) = texts := by
  induction texts with
  | nil => exact pieces_nil
  | cons text texts ih =>
      rcases free text List.mem_cons_self with ⟨first, nonempty⟩
      rw [List.flatMap_cons, List.append_assoc, List.singleton_append, pieces_cons first nonempty,
        ih fun other member => free other (List.mem_cons_of_mem _ member)]

theorem cut_append {left : Bytes} (free : stop ∉ left) (right : Bytes) :
    cut stop (left ++ stop :: right) = (left, right) := by
  have inside : ∀ byte ∈ left, (byte != stop) = true := by
    rintro byte member
    rw [bne_iff_ne]
    rintro rfl
    exact free member
  rw [cut, List.takeWhile_append_of_pos inside, List.dropWhile_append_of_pos inside,
    List.takeWhile_cons_of_neg (by simp), List.dropWhile_cons_of_neg (by simp), List.append_nil]
  rfl

end Pieces

/-- An aligned field is one word. -/
theorem words_leftAligned {text : Bytes} (blankless : 32 ∉ text) (nonempty : text ≠ [])
    (width : Nat) (rest : Bytes) :
    words (leftAligned width text ++ 32 :: rest) = text :: words rest := by
  have moved : leftAligned width text ++ 32 :: rest =
      text ++ 32 :: (List.replicate (width - text.length) 32 ++ rest) := by
    rw [leftAligned, List.append_assoc, ← List.singleton_append, ← List.append_assoc _ [32],
      ← List.replicate_succ', List.replicate_succ, List.cons_append]
  rw [moved, words, pieces_cons blankless nonempty, pieces_replicate]
  rfl

theorem notMem_leftAligned {stop : UInt8} {text : Bytes} (free : stop ∉ text) (other : stop ≠ 32)
    (width : Nat) : stop ∉ leftAligned width text := by
  intro member
  rcases List.mem_append.mp member with inside | blank
  · exact free inside
  · exact other (List.eq_of_mem_replicate blank)

/-! ## Numbers -/

theorem decimal_eq (value : Int) : decimal value = sign value ++ digits value.natAbs := by
  rw [decimal, sign]
  split <;> rfl

theorem ofDecimal_decimal (value : Int) : ofDecimal (decimal value) = value := by
  rw [decimal]
  split
  case isTrue negative =>
    rw [ofDecimal, ofDecimalDigits_digits]
    omega
  case isFalse nonnegative =>
    have unsigned : ofDecimal (digits value.natAbs) = ofDecimalDigits (digits value.natAbs) := by
      rw [ofDecimal.eq_def]
      split
      case h_1 text minus =>
        apply (minus_notMem_digits value.natAbs _).elim
        rw [minus]
        exact List.mem_cons_self
      case h_2 => rfl
    rw [unsigned, ofDecimalDigits_digits]
    omega

theorem blank_notMem_decimal (value : Int) : (32 : UInt8) ∉ decimal value := by
  intro member
  rcases mem_decimal member with minus | digit
  · cases minus
  · exact absurd digit (by decide)

theorem decimal_ne_nil (value : Int) : decimal value ≠ [] := by
  rw [decimal]
  split
  · exact List.cons_ne_nil _ _
  · exact digits_ne_nil _

theorem ofDecimalDigits_zeros (count value : Nat) :
    ofDecimalDigits (List.replicate count 48 ++ digits value) = value := by
  have restored := ofDecimalDigits_digits value
  rw [ofDecimalDigits] at restored ⊢
  rw [List.reverse_append, List.map_append, List.reverse_replicate, List.map_replicate]
  change Nat.ofDigits 10 (_ ++ List.replicate count 0) = value
  rw [Nat.ofDigits_append_replicate_zero]
  exact restored

/-- Leading zeros do not change a number. -/
theorem ofDecimalDigits_zeroFilled (width value : Nat) :
    ofDecimalDigits (zeroFilled width value) = value := by
  have unsigned : sign (value : Int) = [] := if_neg (Int.not_lt.mpr (Int.natCast_nonneg value))
  rw [zeroFilled, unsigned, List.nil_append, Int.natAbs_natCast]
  exact ofDecimalDigits_zeros _ value

theorem mem_zeroFilled {width : Nat} {value : Int} {byte : UInt8}
    (member : byte ∈ zeroFilled width value) :
    byte = 45 ∨ byte = 48 ∨ byte ∈ digits value.natAbs := by
  rcases List.mem_append.mp member with minus | filled
  · rw [sign] at minus
    split at minus
    · exact .inl (List.mem_singleton.mp minus)
    · cases minus
  · rcases List.mem_append.mp filled with zero | digit
    · exact .inr (.inl (List.eq_of_mem_replicate zero))
    · exact .inr (.inr digit)

theorem length_zeroFilled (width : Nat) (value : Int) :
    (zeroFilled width value).length = max width (decimal value).length := by
  rw [zeroFilled, decimal_eq, List.length_append, List.length_append, List.length_append,
    List.length_replicate]
  omega

end CMemory

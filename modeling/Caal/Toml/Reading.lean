import Caal.Toml.Append

/-!
# What a scan takes from the text

The text that a successful scan takes: no scan of a key takes a newline, and none finds
more in a string or a key than it takes. So a key or a string is the text it was scanned
from only if nothing in it was quoted, escaped or padded.
-/

namespace Caal.Toml

open CMemory

variable {text rest : Bytes}

/-- A scan takes some of the text, without a newline. -/
structure Took (text rest taken : Bytes) : Prop where
  split : text = taken ++ rest
  oneLine : 10 ∉ taken

theorem Took.nil : Took text text [] :=
  ⟨rfl, List.not_mem_nil⟩

theorem Took.cons {byte : UInt8} {taken : Bytes} (visible : byte ≠ 10)
    (took : Took text rest taken) : Took (byte :: text) rest (byte :: taken) where
  split := by rw [took.split, List.cons_append]
  oneLine := List.not_mem_cons_of_ne_of_not_mem (Ne.symm visible) took.oneLine

theorem Took.trans {middle first second : Bytes} (left : Took text middle first)
    (right : Took middle rest second) : Took text rest (first ++ second) where
  split := by rw [left.split, right.split, List.append_assoc]
  oneLine := fun member => (List.mem_append.mp member).elim left.oneLine right.oneLine

/-! ## Blanks -/

theorem skipComment_took (skipped : skipComment text = some rest) :
    ∃ taken, Took text rest taken := by
  induction text with
  | nil =>
      cases skipped
      exact ⟨[], .nil⟩
  | cons byte text ih =>
      rw [skipComment] at skipped
      split at skipped
      · cases skipped
        exact ⟨[], .nil⟩
      · rename_i inLine
        split at skipped
        · cases skipped
        · rcases ih skipped with ⟨taken, took⟩
          refine ⟨byte :: taken, took.cons ?_⟩
          rintro rfl
          exact inLine rfl

theorem skipBlank_took (skipped : skipBlank text = some rest) :
    ∃ taken, Took text rest taken := by
  induction text with
  | nil =>
      cases skipped
      exact ⟨[], .nil⟩
  | cons byte text ih =>
      rw [skipBlank] at skipped
      split at skipped
      · rename_i blank
        rcases ih skipped with ⟨taken, took⟩
        refine ⟨byte :: taken, took.cons ?_⟩
        rintro rfl
        exact absurd blank (by decide)
      · split at skipped
        · rename_i hash
          rcases skipComment_took skipped with ⟨taken, took⟩
          exact ⟨byte :: taken, took.cons (by rw [hash]; decide)⟩
        · cases skipped
          exact ⟨[], .nil⟩

/-! ## Strings -/

/-- A character that stands for itself in a string. -/
def PlainChar (byte : UInt8) : Prop :=
  (validChar byte = true ∨ byte = 9) ∧ byte ≠ 34 ∧ byte ≠ 92

instance : DecidablePred PlainChar := fun byte =>
  inferInstanceAs (Decidable ((validChar byte = true ∨ byte = 9) ∧ byte ≠ 34 ∧ byte ≠ 92))

theorem PlainChar.ne_newline {byte : UInt8} (plain : PlainChar byte) : byte ≠ 10 := by
  rintro rfl
  rcases plain.1 with valid | tab
  · cases valid
  · cases tab

theorem scanString_plain {plain : Bytes} (plainChars : ∀ byte ∈ plain, PlainChar byte) :
    scanString .text (plain ++ 34 :: rest) = some (plain, rest) := by
  induction plain with
  | nil => rfl
  | cons byte plain ih =>
      have first := plainChars byte (List.mem_cons_self)
      rw [List.cons_append, scanString, if_neg first.2.1, if_neg first.2.2, if_pos first.1,
        ih fun later member => plainChars later (List.mem_cons_of_mem _ member)]
      rfl

theorem ucsToUtf8_length {code digits : Nat} {char : Bytes} (found : ucsToUtf8 code = some char)
    (small : code < 16 ^ digits) (sized : digits ∈ [2, 4, 8]) : char.length ≤ digits := by
  rw [ucsToUtf8] at found
  simp only [List.mem_cons, List.not_mem_nil, or_false] at sized
  split_ifs at found with one two three four
  · cases found
    rw [List.length_singleton]
    omega
  · cases found
    change 2 ≤ digits
    omega
  · cases found
    change 3 ≤ digits
    rcases sized with rfl | rfl | rfl
    · omega
    · omega
    · omega
  · cases found
    change 4 ≤ digits
    rcases sized with rfl | rfl | rfl
    · omega
    · omega
    · omega

theorem hexValue_lt {byte : UInt8} {digit : Nat} (found : hexValue byte = some digit) :
    digit < 16 ∧ byte ≠ 10 := by
  rw [hexValue] at found
  simp only [UInt8.le_iff_toNat_le] at found
  constructor
  · split_ifs at found with decimal upper lower
    · cases found
      have bounds : byte.toNat ≤ 57 := decimal.2
      omega
    · cases found
      have bounds : byte.toNat ≤ 70 := upper.2
      omega
    · cases found
      have bounds : byte.toNat ≤ 102 := lower.2
      omega
  · rintro rfl
    cases found

/-- How much a scan takes for what it finds, by where it is inside the string. -/
def Economical : Inside → Bytes → Bytes → Prop
  | .text, scanned, taken =>
      scanned.length + 1 ≤ taken.length ∧
        (taken.length = scanned.length + 1 →
          taken = scanned ++ [34] ∧ ∀ byte ∈ scanned, PlainChar byte)
  | .escape, scanned, taken => scanned.length + 1 ≤ taken.length
  | .hex later value, scanned, taken =>
      ∀ read, value < 16 ^ read → read + later + 1 ∈ [2, 4, 8] →
        scanned.length + 1 ≤ taken.length + read

theorem Economical.short {char : UInt8} {scanned taken : Bytes}
    (text : Economical .text scanned taken) (byte : UInt8) :
    Economical .escape (char :: scanned) (byte :: taken) :=
  Nat.succ_le_succ text.1

/-- Behind a backslash more is taken than found. -/
theorem Economical.backslash {scanned taken : Bytes} (escape : Economical .escape scanned taken) :
    Economical .text scanned (92 :: taken) := by
  change scanned.length + 1 ≤ taken.length at escape
  constructor
  · exact Nat.le_succ_of_le escape
  · intro equal
    rw [List.length_cons] at equal
    omega

theorem Economical.plain {byte : UInt8} {scanned taken : Bytes}
    (text : Economical .text scanned taken) (isPlain : PlainChar byte) :
    Economical .text (byte :: scanned) (byte :: taken) := by
  constructor
  · exact Nat.succ_le_succ text.1
  · intro equal
    rcases text.2 (Nat.succ.inj equal) with ⟨rfl, plain⟩
    exact ⟨rfl, List.forall_mem_cons.mpr ⟨isPlain, plain⟩⟩

theorem Economical.digits {byte : UInt8} {scanned taken : Bytes} {count : Nat}
    (hex : Economical (.hex (count - 1) 0) scanned taken)
    (counted : hexDigits byte = some count) : Economical .escape scanned (byte :: taken) := by
  have sized : 0 + (count - 1) + 1 ∈ [2, 4, 8] := by
    rw [hexDigits] at counted
    split_ifs at counted
    · cases counted
      decide
    · cases counted
      decide
    · cases counted
      decide
  have bound := hex 0 (by decide) sized
  exact Nat.le_succ_of_le bound

theorem Economical.digit {byte : UInt8} {scanned taken : Bytes} {later value digit : Nat}
    (hex : Economical (.hex later (16 * value + digit)) scanned taken) (small : digit < 16) :
    Economical (.hex (later + 1) value) scanned (byte :: taken) := by
  intro read valueSmall sized
  have next : 16 * value + digit < 16 ^ (read + 1) := by
    rw [pow_succ]
    omega
  have bound := hex (read + 1) next (by
    rw [Nat.add_right_comm read 1 later]
    exact sized)
  rw [List.length_cons]
  omega

theorem Economical.lastDigit {byte : UInt8} {char scanned taken : Bytes} {value digit : Nat}
    (text : Economical .text scanned taken) (small : digit < 16)
    (found : hexEscape (16 * value + digit) = some char) :
    Economical (.hex 0 value) (char ++ scanned) (byte :: taken) := by
  intro read valueSmall sized
  have next : 16 * value + digit < 16 ^ (read + 1) := by
    rw [pow_succ]
    omega
  rw [hexEscape] at found
  split at found
  · cases found
  · have short := ucsToUtf8_length found next sized
    have bound := text.1
    rw [List.length_append, List.length_cons]
    omega

theorem shortEscape_newline : shortEscape 10 = none := rfl

theorem hexDigits_newline : hexDigits 10 = none := rfl

/-- A scanned string is shorter than the text it takes, and it is all of it but the quote
only if every character stands for itself. -/
theorem scanString_took {inside : Inside} {scanned : Bytes}
    (found : scanString inside text = some (scanned, rest)) :
    ∃ taken, Took text rest taken ∧ Economical inside scanned taken := by
  induction text generalizing inside scanned with
  | nil => cases found
  | cons byte text ih =>
      cases inside with
      | text =>
          rw [scanString] at found
          by_cases quote : byte = 34
          · rw [if_pos quote] at found
            cases found
            refine ⟨[byte], Took.nil.cons (by rw [quote]; decide), Nat.le_refl 1, fun _ => ?_⟩
            exact ⟨by rw [quote]; rfl, by simp⟩
          rw [if_neg quote] at found
          by_cases backslash : byte = 92
          · rw [if_pos backslash] at found
            rcases ih found with ⟨taken, took, economical⟩
            refine ⟨byte :: taken, took.cons (by rw [backslash]; decide), ?_⟩
            rw [backslash]
            exact economical.backslash
          rw [if_neg backslash] at found
          by_cases valid : validChar byte ∨ byte = 9
          · rw [if_pos valid] at found
            rcases Option.map_eq_some_iff.mp found with ⟨⟨tail, left⟩, tailFound, equal⟩
            cases equal
            rcases ih tailFound with ⟨taken, took, economical⟩
            have isPlain : PlainChar byte := ⟨valid, quote, backslash⟩
            exact ⟨byte :: taken, took.cons isPlain.ne_newline, economical.plain isPlain⟩
          · rw [if_neg valid] at found
            cases found
      | escape =>
          rw [scanString] at found
          have visible : byte ≠ 10 := by
            rintro rfl
            rw [shortEscape_newline, hexDigits_newline] at found
            cases found
          cases short : shortEscape byte with
          | some char =>
              rw [short] at found
              rcases Option.map_eq_some_iff.mp found with ⟨⟨tail, left⟩, tailFound, equal⟩
              cases equal
              rcases ih tailFound with ⟨taken, took, economical⟩
              exact ⟨byte :: taken, took.cons visible, economical.short byte⟩
          | none =>
              rw [short] at found
              cases counted : hexDigits byte with
              | none =>
                  rw [counted] at found
                  cases found
              | some count =>
                  rw [counted] at found
                  rcases ih found with ⟨taken, took, economical⟩
                  exact ⟨byte :: taken, took.cons visible, economical.digits counted⟩
      | hex later value =>
          rw [scanString] at found
          cases hex : hexValue byte with
          | none =>
              rw [hex] at found
              cases found
          | some digit =>
              rw [hex] at found
              rcases hexValue_lt hex with ⟨small, visible⟩
              cases later with
              | succ later =>
                  rcases ih found with ⟨taken, took, economical⟩
                  exact ⟨byte :: taken, took.cons visible, economical.digit small⟩
              | zero =>
                  dsimp only at found
                  cases escaped : hexEscape (16 * value + digit) with
                  | none =>
                      rw [escaped] at found
                      cases found
                  | some char =>
                      rw [escaped] at found
                      rcases Option.map_eq_some_iff.mp found with ⟨⟨tail, left⟩, tailFound, equal⟩
                      cases equal
                      rcases ih tailFound with ⟨taken, took, economical⟩
                      exact ⟨byte :: taken, took.cons visible,
                        economical.lastDigit small escaped⟩

theorem scanLitString_took {scanned : Bytes}
    (found : scanLitString text = some (scanned, rest)) :
    ∃ taken, Took text rest taken ∧ scanned.length + 1 ≤ taken.length := by
  induction text generalizing scanned with
  | nil => cases found
  | cons byte text ih =>
      rw [scanLitString] at found
      by_cases quote : byte = 39
      · rw [if_pos quote] at found
        cases found
        exact ⟨[byte], Took.nil.cons (by rw [quote]; decide), Nat.le_refl 1⟩
      rw [if_neg quote] at found
      by_cases valid : validChar byte ∨ byte = 9
      · rw [if_pos valid] at found
        rcases Option.map_eq_some_iff.mp found with ⟨⟨tail, left⟩, tailFound, equal⟩
        cases equal
        rcases ih tailFound with ⟨taken, took, bound⟩
        refine ⟨byte :: taken, took.cons ?_, Nat.succ_le_succ bound⟩
        rintro rfl
        exact absurd valid (by decide)
      · rw [if_neg valid] at found
        cases found

/-! ## Tokens and lines -/

/-- The text of a token, as far as it is told apart here. -/
def Token.Spells : Token → Bytes → Prop
  | .literal word, body => body = word ∧ ∀ byte ∈ word, bareChar byte = true
  | .string word, body | .litString word, body => word.length + 2 ≤ body.length
  | .dot, body => body = [46]
  | .rightBracket, body => body.length = 1
  | .rightBrackets, body => body.length = 2
  | _, _ => True

theorem simpleToken_spells {byte : UInt8} {token : Token}
    (simple : simpleToken byte = some token) : token.Spells [byte] ∧ byte ≠ 10 := by
  rw [simpleToken] at simple
  split_ifs at simple with dot equal comma left right
  · cases simple
    rw [dot]
    exact ⟨rfl, by decide⟩
  · cases simple
    exact ⟨trivial, by rw [equal]; decide⟩
  · cases simple
    exact ⟨trivial, by rw [comma]; decide⟩
  · cases simple
    exact ⟨trivial, by rw [left]; decide⟩
  · cases simple
    exact ⟨trivial, by rw [right]; decide⟩

theorem scanBracket_took {bracket : UInt8} {single double token : Token}
    (visible : bracket ≠ 10) (singleSpells : ∀ body, body.length = 1 → single.Spells body)
    (doubleSpells : ∀ body, body.length = 2 → double.Spells body)
    (found : scanBracket bracket single double text = (token, rest)) :
    ∃ body, Took (bracket :: text) rest body ∧ token.Spells body := by
  rw [scanBracket] at found
  split at found
  · rename_i another
    cases found
    rcases List.head?_eq_some_iff.mp another with ⟨behind, rfl⟩
    exact ⟨[bracket, bracket], (Took.nil.cons visible).cons visible, doubleSpells _ rfl⟩
  · cases found
    exact ⟨[bracket], Took.nil.cons visible, singleSpells _ rfl⟩

theorem quoted_took {quote : UInt8} {scan : Bytes → Option (Bytes × Bytes)}
    {make : Bytes → Token} {token : Token} (visible : quote ≠ 10)
    (takes : ∀ {scanned : Bytes}, scan text = some (scanned, rest) →
      ∃ taken, Took text rest taken ∧ scanned.length + 1 ≤ taken.length)
    (spells : ∀ word body, word.length + 2 ≤ body.length → (make word).Spells body)
    (found : (scan text).map (fun scanned => (make scanned.1, scanned.2)) = some (token, rest)) :
    ∃ body, Took (quote :: text) rest body ∧ token.Spells body := by
  rcases Option.map_eq_some_iff.mp found with ⟨⟨scanned, left⟩, scanFound, equal⟩
  cases equal
  rcases takes scanFound with ⟨taken, took, bound⟩
  exact ⟨quote :: taken, took.cons visible, spells _ _ (Nat.succ_le_succ bound)⟩

theorem scanToken_took {byte : UInt8} {token : Token}
    (found : scanToken byte text = some (token, rest)) (inLine : token ≠ .endl) :
    ∃ body, Took (byte :: text) rest body ∧ token.Spells body := by
  rw [scanToken] at found
  split at found
  · cases found
    exact (inLine rfl).elim
  rename_i newline
  cases simple : simpleToken byte with
  | some single =>
      rw [simple] at found
      cases found
      rcases simpleToken_spells simple with ⟨spells, visible⟩
      exact ⟨[byte], Took.nil.cons visible, spells⟩
  | none =>
      rw [simple] at found
      dsimp only at found
      split_ifs at found with left right quote lines single lines
      · rw [left]
        refine scanBracket_took (by decide) ?_ ?_ (Option.some.inj found)
        · exact fun _ _ => trivial
        · exact fun _ _ => trivial
      · rw [right]
        exact scanBracket_took (by decide) (fun _ => id) (fun _ => id) (Option.some.inj found)
      · rw [quote]
        refine quoted_took (by decide) ?_ (fun _ _ => id) found
        intro scanned scan
        rcases scanString_took scan with ⟨taken, took, economical⟩
        exact ⟨taken, took, economical.1⟩
      · rw [single]
        exact quoted_took (by decide) scanLitString_took (fun _ _ => id) found
      · cases found
        have bare : ∀ other ∈ (byte :: text).takeWhile bareChar, bareChar other = true := by
          intro other member
          exact List.mem_takeWhile_imp member
        refine ⟨(byte :: text).takeWhile bareChar, ⟨?_, ?_⟩, rfl, bare⟩
        · exact List.takeWhile_append_dropWhile.symm
        · intro member
          exact absurd (bare 10 member) (by decide)

theorem scanKey_took {token : Token} (found : scanKey text = some (token, rest))
    (inside : token ≠ .fin) (inLine : token ≠ .endl) :
    ∃ blanks body, Took text rest (blanks ++ body) ∧ token.Spells body := by
  rw [scanKey] at found
  cases blank : skipBlank text with
  | none =>
      rw [blank] at found
      cases found
  | some left =>
      rw [blank] at found
      rcases skipBlank_took blank with ⟨blanks, skipped⟩
      cases left with
      | nil =>
          cases found
          exact (inside rfl).elim
      | cons byte left =>
          rcases scanToken_took found inLine with ⟨body, took, spells⟩
          exact ⟨blanks, body, skipped.trans took, spells⟩

theorem afterNewline_spec {byte : UInt8} (newline : atNewline (byte :: text) = true) :
    ∃ half, byte :: text = half ++ 10 :: afterNewline (byte :: text) ∧ 10 ∉ half := by
  rw [afterNewline]
  by_cases feed : byte = 10
  · rw [if_pos feed, feed]
    exact ⟨[], rfl, List.not_mem_nil⟩
  · rw [if_neg feed]
    simp only [atNewline, Bool.or_eq_true, Bool.and_eq_true, beq_iff_eq, feed, false_or] at newline
    rcases List.head?_eq_some_iff.mp newline.2 with ⟨behind, rfl⟩
    exact ⟨[byte], rfl, by simp [Ne.symm feed]⟩

theorem scanToken_endl {byte : UInt8} (found : scanToken byte text = some (.endl, rest)) :
    atNewline (byte :: text) = true ∧ rest = afterNewline (byte :: text) := by
  have bracket {bracket : UInt8} {single double : Token}
      (proper : single ≠ .endl ∧ double ≠ .endl) :
      scanBracket bracket single double text ≠ (.endl, rest) := by
    intro equal
    rw [scanBracket] at equal
    split at equal
    · exact proper.2 (congrArg Prod.fst equal)
    · exact proper.1 (congrArg Prod.fst equal)
  rw [scanToken] at found
  split at found
  · rename_i newline
    cases found
    exact ⟨newline, rfl⟩
  cases simple : simpleToken byte with
  | some single =>
      rw [simple] at found
      cases found
      rw [simpleToken] at simple
      split_ifs at simple <;> cases simple
  | none =>
      rw [simple] at found
      dsimp only at found
      split_ifs at found
      · exact (bracket (by decide) (Option.some.inj found)).elim
      · exact (bracket (by decide) (Option.some.inj found)).elim
      · rcases Option.map_eq_some_iff.mp found with ⟨_, _, equal⟩
        cases equal
      · rcases Option.map_eq_some_iff.mp found with ⟨_, _, equal⟩
        cases equal
      · cases found

/-- What ends a line, or the text. -/
theorem scanEnd_spec {after : Bytes} (ended : scanEnd text = some after) :
    (∃ before, text = before ++ 10 :: after ∧ 10 ∉ before) ∨ 10 ∉ text := by
  rw [scanEnd, scanKey] at ended
  cases blank : skipBlank text with
  | none =>
      rw [blank] at ended
      cases ended
  | some left =>
      rw [blank] at ended
      rcases skipBlank_took blank with ⟨blanks, skipped⟩
      cases left with
      | nil =>
          right
          rw [skipped.split, List.append_nil]
          exact skipped.oneLine
      | cons byte left =>
          left
          dsimp only at ended
          cases scanned : scanToken byte left with
          | none =>
              rw [scanned] at ended
              cases ended
          | some pair =>
              rcases pair with ⟨token, behind⟩
              rw [scanned] at ended
              dsimp only at ended
              split at ended
              · rename_i ends
                cases ended
                rcases ends with rfl | rfl
                · exact (scanToken_ne_fin scanned rfl).elim
                · rcases scanToken_endl scanned with ⟨newline, rfl⟩
                  rcases afterNewline_spec newline with ⟨half, split, halfInLine⟩
                  refine ⟨blanks ++ half, ?_, ?_⟩
                  · rw [skipped.split, List.append_assoc]
                    exact congrArg (blanks ++ ·) split
                  · intro member
                    exact (List.mem_append.mp member).elim skipped.oneLine halfInLine
              · cases ended

/-- What has been taken from a line leaves the rest of it, and its end is the end found. -/
theorem Took.line_end {line more taken after : Bytes}
    (took : Took (line ++ 10 :: more) rest taken) (inLine : 10 ∉ line)
    (ended : scanEnd rest = some after) : taken.length ≤ line.length ∧ after = more := by
  have within : ∀ {front behind : Bytes}, line ++ 10 :: more = front ++ 10 :: behind →
      10 ∉ front → front = line ∧ behind = more := by
    intro front behind equal frontInLine
    have lines := congrArg (List.takeWhile fun byte => byte != 10) equal
    have plain {front behind : Bytes} (frontInLine : 10 ∉ front) :
        (front ++ 10 :: behind).takeWhile (fun byte => byte != 10) = front := by
      rw [List.takeWhile_append_of_pos]
      · simp
      · intro byte member
        rw [bne_iff_ne]
        rintro rfl
        exact frontInLine member
    rw [plain inLine, plain frontInLine] at lines
    subst lines
    exact ⟨rfl, (List.cons.inj (List.append_cancel_left equal)).2.symm⟩
  rcases scanEnd_spec ended with ⟨before, rfl, beforeInLine⟩ | nowhere
  · have whole := took.split
    rw [← List.append_assoc] at whole
    have both : 10 ∉ taken ++ before := fun member =>
      (List.mem_append.mp member).elim took.oneLine beforeInLine
    rcases within whole both with ⟨front, behind⟩
    refine ⟨?_, behind⟩
    rw [← front, List.length_append]
    exact Nat.le_add_right _ _
  · have here : (10 : UInt8) ∈ taken ++ rest := by
      rw [← took.split]
      simp
    exact ((List.mem_append.mp here).elim took.oneLine nowhere).elim

/-! ## Keys -/

/-- The parts of a key behind its first, each with its dot. -/
def dotted (parts : List Bytes) : Bytes :=
  parts.flatMap fun part => 46 :: part

/-- A part that can stand in a key without quotes. -/
def BarePart (part : Bytes) : Prop :=
  part ≠ [] ∧ ∀ byte ∈ part, bareChar byte = true

instance : DecidablePred BarePart := fun part =>
  decidable_of_iff (part ≠ [] ∧ part.all bareChar = true) (by rw [BarePart, List.all_eq_true])

theorem Token.spells_key {token : Token} {part body : Bytes} (isPart : token.key = some part)
    (spells : token.Spells body) :
    part.length ≤ body.length ∧
      (body.length ≤ part.length → token = .literal part ∧ body = part ∧
        ∀ byte ∈ part, bareChar byte = true) := by
  cases token with
  | literal word =>
      cases isPart
      exact ⟨spells.1 ▸ Nat.le_refl _, fun _ => ⟨rfl, spells⟩⟩
  | string word =>
      cases isPart
      change _ + 2 ≤ _ at spells
      exact ⟨by omega, fun short => by omega⟩
  | litString word =>
      cases isPart
      change _ + 2 ≤ _ at spells
      exact ⟨by omega, fun short => by omega⟩
  | _ => cases isPart

/-- The parts of a key take at least their own text, and just that only if all are bare. -/
theorem keyParts_took {left : Nat} {parts : List Bytes} {closing : Token} {after : Bytes}
    (found : keyParts left text = some (parts, rest))
    (closed : scanKey rest = some (closing, after)) (closes : Closes closing) :
    ∃ taken, Took text rest taken ∧ parts.length ≤ left ∧
      (dotted parts).length ≤ taken.length ∧
      (taken.length ≤ (dotted parts).length →
        taken = dotted parts ∧ ∀ part ∈ parts, BarePart part) := by
  fun_induction keyParts left text generalizing parts with
  | case1 left text scanned => cases found
  | case2 left text token behind scanned noDot =>
      cases found
      exact ⟨[], .nil, Nat.zero_le _, Nat.le_refl 0, fun _ => ⟨rfl, List.forall_mem_nil _⟩⟩
  | case3 text token behind scanned dot left next following second noKey => cases found
  | case4 text token behind scanned dot left next following second part isPart ih =>
      rcases Option.map_eq_some_iff.mp found with ⟨⟨later, leftAfter⟩, parsed, equal⟩
      cases equal
      dsimp only
      cases not_not.mp dot
      rcases scanKey_took scanned (by simp) (by simp) with ⟨blanks, dotBody, dotTook, rfl⟩
      have noEnd : next ≠ .endl := by
        rintro rfl
        cases isPart
      rcases scanKey_took second (Token.ne_fin_of_key isPart) noEnd with
        ⟨padding, body, partTook, spells⟩
      rcases ih parsed with ⟨taken, took, bound, lengths, tight⟩
      rcases Token.spells_key isPart spells with ⟨bodyLength, bodyTight⟩
      have whole := (dotTook.trans partTook).trans took
      have size : (blanks ++ [46] ++ (padding ++ body) ++ taken).length =
          blanks.length + 1 + (padding.length + body.length) + taken.length := by
        simp only [List.length_append, List.length_singleton]
      have text : (dotted (part :: later)).length = 1 + part.length + (dotted later).length := by
        simp only [dotted, List.flatMap_cons, List.length_append, List.length_cons]
        omega
      refine ⟨_, whole, Nat.succ_le_succ bound, by omega, ?_⟩
      intro short
      rcases bodyTight (by omega) with ⟨literal, rfl, bare⟩
      rcases tight (by omega) with ⟨rfl, laterBare⟩
      have noBlanks : blanks = [] := List.length_eq_zero_iff.mp (by omega)
      have noPadding : padding = [] := List.length_eq_zero_iff.mp (by omega)
      have nonempty : body ≠ [] := by
        rintro rfl
        subst literal
        have stuck := scanKey_stuck second
        rw [keyParts_done stuck (by simp)] at parsed
        cases parsed
        rw [stuck] at closed
        cases closed
        exact closes.1 rfl
      refine ⟨?_, List.forall_mem_cons.mpr ⟨⟨nonempty, bare⟩, laterBare⟩⟩
      simp [noBlanks, noPadding, dotted]
  | case5 left text token behind scanned dot none => cases found

/-- The text of a key. -/
def keyText : List Bytes → Bytes
  | [] => []
  | part :: parts => part ++ dotted parts

/-- A key that was read: its first token, its other parts, and what closed it. -/
theorem scanKeyUntil_eq_some {closing : Token} {key : List Bytes}
    (found : scanKeyUntil closing text = some (key, rest)) :
    ∃ token behind part parts left, scanKey text = some (token, behind) ∧
      token.key = some part ∧ keyParts laterParts behind = some (parts, left) ∧
      scanKey left = some (closing, rest) ∧ key = part :: parts := by
  rw [scanKeyUntil] at found
  cases scanned : scanKey text with
  | none =>
      rw [scanned] at found
      cases found
  | some pair =>
      rw [scanned] at found
      dsimp only at found
      rw [parseKeyUntil, parseKey] at found
      cases isPart : pair.1.key with
      | none =>
          rw [isPart] at found
          cases found
      | some part =>
          rw [isPart] at found
          cases parsed : keyParts laterParts pair.2 with
          | none =>
              rw [parsed] at found
              cases found
          | some more =>
              rw [parsed] at found
              dsimp only [Option.map_some] at found
              cases closed : scanKey more.2 with
              | none =>
                  rw [closed] at found
                  cases found
              | some last =>
                  rw [closed] at found
                  dsimp only at found
                  split at found
                  · rename_i isClosing
                    cases found
                    exact ⟨pair.1, pair.2, part, more.1, more.2, rfl, isPart, parsed,
                      isClosing ▸ closed, rfl⟩
                  · cases found

theorem scanKeyUntil_took {closing : Token} {key : List Bytes}
    (found : scanKeyUntil closing text = some (key, rest)) (closes : Closes closing)
    (closer : closing ≠ .endl) :
    ∃ taken between body, Took text rest (taken ++ (between ++ body)) ∧ closing.Spells body ∧
      key.length ≤ laterParts + 1 ∧ (keyText key).length ≤ taken.length ∧
      (taken.length ≤ (keyText key).length →
        taken = keyText key ∧ ∀ part ∈ key, BarePart part) := by
  rcases scanKeyUntil_eq_some found with
    ⟨token, behind, part, parts, left, scanned, isPart, parsed, closed, rfl⟩
  have noEnd : token ≠ .endl := by
    rintro rfl
    cases isPart
  rcases scanKey_took scanned (Token.ne_fin_of_key isPart) noEnd with
    ⟨padding, first, firstTook, spells⟩
  rcases keyParts_took parsed closed closes with ⟨taken, took, bound, lengths, tight⟩
  rcases scanKey_took closed closes.2 closer with ⟨between, body, closeTook, closeSpells⟩
  rcases Token.spells_key isPart spells with ⟨firstLength, firstTight⟩
  refine ⟨padding ++ first ++ taken, between, body, (firstTook.trans took).trans closeTook,
    closeSpells, Nat.succ_le_succ bound, ?_, ?_⟩
  · simp only [keyText, List.length_append]
    omega
  · intro short
    simp only [keyText, List.length_append] at short
    rcases firstTight (by omega) with ⟨literal, rfl, bare⟩
    rcases tight (by omega) with ⟨rfl, laterBare⟩
    have noPadding : padding = [] := List.length_eq_zero_iff.mp (by omega)
    have nonempty : first ≠ [] := by
      rintro rfl
      subst literal
      have stuck := scanKey_stuck scanned
      rw [keyParts_done stuck nofun] at parsed
      cases parsed
      rw [stuck] at closed
      cases closed
      exact closes.1 rfl
    refine ⟨?_, List.forall_mem_cons.mpr ⟨⟨nonempty, bare⟩, laterBare⟩⟩
    rw [noPadding, List.nil_append, keyText]

end Caal.Toml

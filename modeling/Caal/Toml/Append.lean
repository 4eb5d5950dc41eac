import Caal.Toml.Parser

/-!
# Text behind a document

A document that parses can be written on: behind a newline the parser goes on with the
tables it has made so far. No scan looks past the end of a line but inside a value that
is scanned elsewhere, of which the same is required.
-/

namespace Caal.Toml

open CMemory

variable {text rest more : Bytes}

/-! ## Blanks and comments -/

/-- A newline is where it was, unless the text ends in the first half of one. -/
theorem atNewline_append {byte : UInt8} (whole : byte = 13 → text ≠ []) :
    atNewline (byte :: (text ++ 10 :: more)) = atNewline (byte :: text) := by
  cases text with
  | nil =>
      have plain : byte ≠ 13 := fun half => whole half rfl
      simp [atNewline, plain]
  | cons next text => rfl

theorem afterNewline_append {byte : UInt8} (newline : atNewline (byte :: text) = true) :
    afterNewline (byte :: (text ++ 10 :: more)) = afterNewline (byte :: text) ++ 10 :: more := by
  rw [afterNewline, afterNewline]
  split
  · rfl
  · cases text with
    | nil =>
        rename_i other
        simp [atNewline, other] at newline
    | cons next text => rfl

theorem skipComment_append (skipped : skipComment text = some rest) :
    skipComment (text ++ 10 :: more) = some (rest ++ 10 :: more) := by
  induction text with
  | nil =>
      cases skipped
      rfl
  | cons byte text ih =>
      have whole : byte = 13 → text ≠ [] := by
        rintro rfl rfl
        cases skipped
      rw [skipComment] at skipped
      rw [List.cons_append, skipComment, atNewline_append whole]
      by_cases newline : atNewline (byte :: text) = true
      · rw [if_pos newline] at skipped ⊢
        cases skipped
        rfl
      · rw [if_neg newline] at skipped ⊢
        by_cases bad : badInComment byte = true
        · rw [if_pos bad] at skipped
          cases skipped
        · rw [if_neg bad] at skipped ⊢
          exact ih skipped

theorem skipBlank_append (skipped : skipBlank text = some rest) :
    skipBlank (text ++ 10 :: more) = some (rest ++ 10 :: more) := by
  induction text with
  | nil =>
      cases skipped
      rfl
  | cons byte text ih =>
      rw [skipBlank] at skipped
      rw [List.cons_append, skipBlank]
      by_cases blank : byte = 32 ∨ byte = 9
      · rw [if_pos blank] at skipped ⊢
        exact ih skipped
      · rw [if_neg blank] at skipped ⊢
        by_cases hash : byte = 35
        · rw [if_pos hash] at skipped ⊢
          exact skipComment_append skipped
        · rw [if_neg hash] at skipped ⊢
          cases skipped
          rfl

/-! ## Runs of characters -/

theorem takeWhile_append_newline {inRun : UInt8 → Bool} (ends : inRun 10 = false)
    (text : Bytes) :
    (text ++ 10 :: more).takeWhile inRun = text.takeWhile inRun := by
  induction text with
  | nil => simp [ends]
  | cons byte text ih =>
      rw [List.cons_append, List.takeWhile_cons, List.takeWhile_cons, ih]

theorem dropWhile_append_newline {inRun : UInt8 → Bool} (ends : inRun 10 = false)
    (text : Bytes) :
    (text ++ 10 :: more).dropWhile inRun = text.dropWhile inRun ++ 10 :: more := by
  induction text with
  | nil => simp [ends]
  | cons byte text ih =>
      rw [List.cons_append, List.dropWhile_cons, List.dropWhile_cons, ih]
      split
      · rfl
      · rfl

theorem isPrefixOf_append_newline {word : Bytes} (oneLine : 10 ∉ word) (text : Bytes) :
    word.isPrefixOf (text ++ 10 :: more) = word.isPrefixOf text := by
  induction word generalizing text with
  | nil => simp
  | cons byte word ih =>
      rw [List.mem_cons, not_or] at oneLine
      cases text with
      | nil => simp [List.isPrefixOf, Ne.symm oneLine.1]
      | cons next text =>
          rw [List.cons_append, List.isPrefixOf, List.isPrefixOf, ih oneLine.2]

theorem numberSpan_append (text : Bytes) :
    numberSpan (text ++ 10 :: more) = numberSpan text := by
  have bounded : ∀ (size : Nat) (text : Bytes),
      ((text ++ 10 :: more).take size).takeWhile numberChar =
        (text.take size).takeWhile numberChar := by
    intro size text
    induction text generalizing size with
    | nil =>
        cases size with
        | zero => rfl
        | succ size =>
            have ends : numberChar 10 = false := by decide
            simp [ends]
    | cons byte text ih =>
        cases size with
        | zero => rfl
        | succ size =>
            rw [List.cons_append, List.take_succ_cons, List.take_succ_cons,
              List.takeWhile_cons, List.takeWhile_cons, ih]
  exact bounded 49 text

/-! ## Strings -/

/-- What a scan finds behind the first characters of a string stays what it finds. -/
private theorem scanned_later {scan : Bytes → Option (Bytes × Bytes)} {suffix : Bytes}
    {front scanned : Bytes}
    (ih : ∀ {scanned : Bytes}, scan text = some (scanned, rest) →
      scan (text ++ suffix) = some (scanned, rest ++ suffix))
    (found : (scan text).map (prepend front) = some (scanned, rest)) :
    (scan (text ++ suffix)).map (prepend front) = some (scanned, rest ++ suffix) := by
  rcases Option.map_eq_some_iff.mp found with ⟨⟨tail, left⟩, tailFound, equal⟩
  cases equal
  rw [ih tailFound]
  rfl

theorem scanString_append {inside : Inside} {scanned : Bytes} (suffix : Bytes)
    (found : scanString inside text = some (scanned, rest)) :
    scanString inside (text ++ suffix) = some (scanned, rest ++ suffix) := by
  induction text generalizing inside scanned with
  | nil => cases found
  | cons byte text ih =>
      rw [List.cons_append]
      cases inside with
      | text =>
          rw [scanString] at found ⊢
          by_cases quote : byte = 34
          · rw [if_pos quote] at found ⊢
            cases found
            rfl
          · rw [if_neg quote] at found ⊢
            by_cases backslash : byte = 92
            · rw [if_pos backslash] at found ⊢
              exact ih found
            · rw [if_neg backslash] at found ⊢
              by_cases valid : validChar byte ∨ byte = 9
              · rw [if_pos valid] at found ⊢
                exact scanned_later ih found
              · rw [if_neg valid] at found
                cases found
      | escape =>
          rw [scanString] at found ⊢
          cases short : shortEscape byte with
          | some char =>
              rw [short] at found
              exact scanned_later ih found
          | none =>
              rw [short] at found
              cases digits : hexDigits byte with
              | none =>
                  rw [digits] at found
                  cases found
              | some count =>
                  rw [digits] at found
                  exact ih found
      | hex left value =>
          rw [scanString] at found ⊢
          cases digit : hexValue byte with
          | none =>
              rw [digit] at found
              cases found
          | some low =>
              rw [digit] at found
              cases left with
              | succ left => exact ih found
              | zero =>
                  dsimp only at found ⊢
                  cases char : hexEscape (16 * value + low) with
                  | none =>
                      rw [char] at found
                      cases found
                  | some bytes =>
                      rw [char] at found
                      exact scanned_later ih found

theorem scanLitString_append {scanned : Bytes} (suffix : Bytes)
    (found : scanLitString text = some (scanned, rest)) :
    scanLitString (text ++ suffix) = some (scanned, rest ++ suffix) := by
  induction text generalizing scanned with
  | nil => cases found
  | cons byte text ih =>
      rw [scanLitString] at found
      rw [List.cons_append, scanLitString]
      by_cases quote : byte = 39
      · rw [if_pos quote] at found ⊢
        cases found
        rfl
      · rw [if_neg quote] at found ⊢
        by_cases valid : validChar byte ∨ byte = 9
        · rw [if_pos valid] at found ⊢
          exact scanned_later ih found
        · rw [if_neg valid] at found
          cases found

theorem opensLines_append {quote : UInt8} (visible : quote ≠ 10) (text : Bytes) :
    opensLines quote (text ++ 10 :: more) = opensLines quote text := by
  rcases text with _ | ⟨first, _ | ⟨second, text⟩⟩
  · simp [opensLines, Ne.symm visible]
  · simp [opensLines, Ne.symm visible]
  · rfl

/-! ## Keys -/

theorem scanBracket_append {bracket : UInt8} {single double : Token} (visible : bracket ≠ 10)
    (text : Bytes) :
    scanBracket bracket single double (text ++ 10 :: more) =
      ((scanBracket bracket single double text).1,
        (scanBracket bracket single double text).2 ++ 10 :: more) := by
  cases text with
  | nil => simp [scanBracket, Ne.symm visible]
  | cons byte text =>
      rw [List.cons_append, scanBracket, scanBracket, List.head?_cons, List.head?_cons]
      split
      · rfl
      · rfl

private theorem scan_later {Made : Type} {scan : Bytes → Option (Bytes × Bytes)}
    {suffix : Bytes} {make : Bytes → Made} {made : Made}
    (found : (scan text).map (fun scanned => (make scanned.1, scanned.2)) = some (made, rest))
    (later : ∀ {scanned : Bytes}, scan text = some (scanned, rest) →
      scan (text ++ suffix) = some (scanned, rest ++ suffix)) :
    (scan (text ++ suffix)).map (fun scanned => (make scanned.1, scanned.2)) =
      some (made, rest ++ suffix) := by
  rcases Option.map_eq_some_iff.mp found with ⟨⟨scanned, left⟩, scanFound, equal⟩
  cases equal
  rw [later scanFound]
  rfl

/-- The end of the text is found at no character. -/
theorem scanToken_ne_fin {byte : UInt8} {token : Token}
    (found : scanToken byte text = some (token, rest)) : token ≠ .fin := by
  rintro rfl
  have simple : simpleToken byte ≠ some .fin := by
    rw [simpleToken]
    split_ifs <;> nofun
  have brackets {bracket : UInt8} {single double : Token} (proper : single ≠ .fin ∧ double ≠ .fin) :
      scanBracket bracket single double text ≠ (.fin, rest) := by
    intro equal
    rw [scanBracket] at equal
    split at equal
    · exact proper.2 (congrArg Prod.fst equal)
    · exact proper.1 (congrArg Prod.fst equal)
  rw [scanToken] at found
  split at found
  · cases found
  · cases single : simpleToken byte with
    | some token =>
        rw [single] at found
        cases found
        exact simple single
    | none =>
        rw [single] at found
        dsimp only at found
        split_ifs at found
        · exact brackets (by decide) (Option.some.inj found)
        · exact brackets (by decide) (Option.some.inj found)
        · rcases Option.map_eq_some_iff.mp found with ⟨_, _, equal⟩
          cases equal
        · rcases Option.map_eq_some_iff.mp found with ⟨_, _, equal⟩
          cases equal
        · cases found

/-- A token is the same with more text behind the line. The empty literal is what the
scanner makes of a character that starts no token, and of a lone `\r` at the end. -/
theorem scanToken_append {byte : UInt8} {token : Token}
    (found : scanToken byte text = some (token, rest)) (proper : token ≠ .literal []) :
    scanToken byte (text ++ 10 :: more) = some (token, rest ++ 10 :: more) := by
  have whole : byte = 13 → text ≠ [] := by
    rintro rfl rfl
    cases found
    exact proper rfl
  rw [scanToken] at found ⊢
  rw [atNewline_append whole]
  by_cases newline : atNewline (byte :: text) = true
  · rw [if_pos newline] at found ⊢
    cases found
    rw [afterNewline_append newline]
  rw [if_neg newline] at found ⊢
  cases simple : simpleToken byte with
  | some single =>
      rw [simple] at found
      cases found
      rfl
  | none =>
      rw [simple] at found
      dsimp only at found ⊢
      by_cases left : byte = 91
      · rw [if_pos left] at found ⊢
        rw [scanBracket_append (by decide), Option.some.inj found]
      rw [if_neg left] at found ⊢
      by_cases right : byte = 93
      · rw [if_pos right] at found ⊢
        rw [scanBracket_append (by decide), Option.some.inj found]
      rw [if_neg right] at found ⊢
      by_cases quote : byte = 34
      · rw [if_pos quote] at found ⊢
        rw [opensLines_append (by decide)]
        by_cases lines : opensLines 34 text = true
        · rw [if_pos lines] at found
          cases found
        · rw [if_neg lines] at found ⊢
          exact scan_later found fun scan => scanString_append _ scan
      rw [if_neg quote] at found ⊢
      by_cases single : byte = 39
      · rw [if_pos single] at found ⊢
        rw [opensLines_append (by decide)]
        by_cases lines : opensLines 39 text = true
        · rw [if_pos lines] at found
          cases found
        · rw [if_neg lines] at found ⊢
          exact scan_later found fun scan => scanLitString_append _ scan
      rw [if_neg single] at found ⊢
      cases found
      rw [← List.cons_append, takeWhile_append_newline (by decide),
        dropWhile_append_newline (by decide)]

/-- A failing scan, or one that reaches the end, is not what `scan_key` finds here. -/
theorem scanKey_append {token : Token} (found : scanKey text = some (token, rest))
    (proper : token ≠ .literal []) (inside : token ≠ .fin) :
    scanKey (text ++ 10 :: more) = some (token, rest ++ 10 :: more) := by
  rw [scanKey] at found ⊢
  cases blank : skipBlank text with
  | none =>
      rw [blank] at found
      cases found
  | some left =>
      rw [blank] at found
      rw [skipBlank_append blank]
      cases left with
      | nil =>
          cases found
          exact (inside rfl).elim
      | cons byte left => exact scanToken_append found proper

/-- Where the text ended, there is now the end of a line. -/
theorem scanKey_append_fin (found : scanKey text = some (.fin, rest)) :
    rest = [] ∧ scanKey (text ++ 10 :: more) = some (.endl, more) := by
  rw [scanKey] at found ⊢
  cases blank : skipBlank text with
  | none =>
      rw [blank] at found
      cases found
  | some left =>
      rw [blank] at found
      rw [skipBlank_append blank]
      cases left with
      | nil =>
          cases found
          exact ⟨rfl, rfl⟩
      | cons byte left => exact (scanToken_ne_fin found rfl).elim

/-! ### Keys of several parts -/

theorem skipComment_newline {byte : UInt8} (skipped : skipComment text = some (byte :: rest)) :
    atNewline (byte :: rest) = true := by
  induction text with
  | nil => cases skipped
  | cons first text ih =>
      rw [skipComment] at skipped
      split at skipped
      · rename_i newline
        cases skipped
        exact newline
      · split at skipped
        · cases skipped
        · exact ih skipped

theorem skipBlank_again {byte : UInt8} (skipped : skipBlank text = some (byte :: rest)) :
    skipBlank (byte :: rest) = some (byte :: rest) := by
  induction text with
  | nil => cases skipped
  | cons first text ih =>
      rw [skipBlank] at skipped
      split at skipped
      · exact ih skipped
      · rename_i visible
        split at skipped
        · have newline := skipComment_newline skipped
          have isNewline : byte = 10 ∨ byte = 13 := by
            simp only [atNewline, Bool.or_eq_true, Bool.and_eq_true, beq_iff_eq] at newline
            exact newline.imp_right And.left
          rcases isNewline with rfl | rfl
          · rfl
          · rfl
        · rename_i noComment
          cases skipped
          rw [skipBlank, if_neg visible, if_neg noComment]

theorem scanToken_literal {byte : UInt8} {word : Bytes}
    (found : scanToken byte text = some (.literal word, rest)) :
    word = (byte :: text).takeWhile bareChar ∧ rest = (byte :: text).dropWhile bareChar := by
  have simple (word : Bytes) : simpleToken byte ≠ some (.literal word) := by
    rw [simpleToken]
    split_ifs <;> nofun
  rw [scanToken] at found
  split at found
  · cases found
  · cases single : simpleToken byte with
    | some token =>
        rw [single] at found
        cases found
        exact (simple word single).elim
    | none =>
        rw [single] at found
        dsimp only at found
        split_ifs at found
        · rw [scanBracket] at found
          split at found <;> cases found
        · rw [scanBracket] at found
          split at found <;> cases found
        · rcases Option.map_eq_some_iff.mp found with ⟨_, _, equal⟩
          cases equal
        · rcases Option.map_eq_some_iff.mp found with ⟨_, _, equal⟩
          cases equal
        · cases found
          exact ⟨rfl, rfl⟩

/-- The empty literal takes nothing from the text, and is scanned again and again. -/
theorem scanKey_stuck (found : scanKey text = some (.literal [], rest)) :
    scanKey rest = some (.literal [], rest) := by
  rw [scanKey] at found
  cases blank : skipBlank text with
  | none =>
      rw [blank] at found
      cases found
  | some left =>
      rw [blank] at found
      cases left with
      | nil => cases found
      | cons byte left =>
          have literal := scanToken_literal found
          have halves := List.takeWhile_append_dropWhile (p := bareChar) (l := byte :: left)
          rw [← literal.1, ← literal.2, List.nil_append] at halves
          rw [halves, scanKey, skipBlank_again blank]
          exact halves ▸ found

/-- A token that can close a key. -/
def Closes (closing : Token) : Prop :=
  closing ≠ .literal [] ∧ closing ≠ .fin

theorem keyParts_done {left : Nat} {token : Token}
    (scanned : scanKey text = some (token, rest)) (noDot : token ≠ .dot) :
    keyParts left text = some ([], text) := by
  rw [keyParts, scanned]
  exact if_pos noDot

theorem keyParts_dot {left : Nat} {token : Token} {behind part : Bytes}
    (dot : scanKey text = some (.dot, behind)) (scanned : scanKey behind = some (token, rest))
    (isPart : token.key = some part) :
    keyParts (left + 1) text =
      (keyParts left rest).map fun parsed => (part :: parsed.1, parsed.2) := by
  rw [keyParts, dot]
  simp only [ne_eq, not_true_eq_false, if_false, scanned, isPart]

theorem Token.ne_fin_of_key {token : Token} {part : Bytes} (isPart : token.key = some part) :
    token ≠ .fin := by
  rintro rfl
  cases isPart

theorem keyParts_append {left : Nat} {parts : List Bytes} {closing : Token} {after : Bytes}
    (found : keyParts left text = some (parts, rest))
    (closed : scanKey rest = some (closing, after)) (closes : Closes closing) :
    keyParts left (text ++ 10 :: more) = some (parts, rest ++ 10 :: more) := by
  fun_induction keyParts left text generalizing parts with
  | case1 left text scanned => cases found
  | case2 left text token behind scanned noDot =>
      cases found
      rw [closed] at scanned
      cases scanned
      exact keyParts_done (scanKey_append closed closes.1 closes.2) noDot
  | case3 text token behind scanned dot left next following second noKey => cases found
  | case4 text token behind scanned dot left next following second part isPart ih =>
      rcases Option.map_eq_some_iff.mp found with ⟨⟨later, leftAfter⟩, parsed, equal⟩
      cases equal
      cases not_not.mp dot
      have proper : next ≠ .literal [] := by
        rintro rfl
        have stuck := scanKey_stuck second
        rw [keyParts_done stuck nofun] at parsed
        cases parsed
        rw [stuck] at closed
        cases closed
        exact closes.1 rfl
      rw [keyParts_dot (scanKey_append scanned nofun nofun)
        (scanKey_append second proper (Token.ne_fin_of_key isPart)) isPart, ih parsed]
      rfl
  | case5 left text token behind scanned dot none => cases found

theorem parseKeyUntil_append {closing token : Token} {key : List Bytes}
    (found : parseKeyUntil closing token text = some (key, rest)) (closes : Closes closing) :
    parseKeyUntil closing token (text ++ 10 :: more) = some (key, rest ++ 10 :: more) := by
  rw [parseKeyUntil, parseKey] at found ⊢
  cases first : token.key with
  | none =>
      rw [first] at found
      cases found
  | some part =>
      rw [first] at found
      dsimp only at found ⊢
      cases parsed : keyParts laterParts text with
      | none =>
          rw [parsed] at found
          cases found
      | some pair =>
          rcases pair with ⟨parts, behind⟩
          rw [parsed] at found
          dsimp only [Option.map_some] at found
          cases scanned : scanKey behind with
          | none =>
              rw [scanned] at found
              cases found
          | some pair =>
              rcases pair with ⟨closer, after⟩
              rw [scanned] at found
              dsimp only at found
              by_cases equal : closer = closing
              · rw [if_pos equal] at found
                cases found
                rw [equal] at scanned
                rw [keyParts_append parsed scanned closes]
                dsimp only [Option.map_some]
                rw [scanKey_append scanned closes.1 closes.2]
                exact if_pos rfl
              · rw [if_neg equal] at found
                cases found

/-- No key begins with a character that starts no token. -/
theorem parseKeyUntil_proper {closing token : Token} {key : List Bytes}
    {before : Bytes} (scanned : scanKey before = some (token, text))
    (found : parseKeyUntil closing token text = some (key, rest)) (closes : Closes closing) :
    token ≠ .literal [] ∧ token ≠ .fin := by
  constructor
  · rintro rfl
    have stuck := scanKey_stuck scanned
    rw [parseKeyUntil, parseKey] at found
    simp only [Token.key, keyParts_done stuck nofun, Option.map_some, stuck] at found
    split at found
    · rename_i equal
      exact closes.1 equal.symm
    · cases found
  · rintro rfl
    cases found

theorem scanKeyUntil_append {closing : Token} {key : List Bytes}
    (found : scanKeyUntil closing text = some (key, rest)) (closes : Closes closing) :
    scanKeyUntil closing (text ++ 10 :: more) = some (key, rest ++ 10 :: more) := by
  rw [scanKeyUntil] at found ⊢
  cases scanned : scanKey text with
  | none =>
      rw [scanned] at found
      cases found
  | some pair =>
      rcases pair with ⟨token, behind⟩
      rw [scanned] at found
      have proper := parseKeyUntil_proper scanned found closes
      rw [scanKey_append scanned proper.1 proper.2]
      exact parseKeyUntil_append found closes

/-- The end of the text becomes the end of a line, and another end of a line stays one. -/
theorem scanEnd_append (ended : scanEnd text = some rest) :
    (rest = [] ∧ scanEnd (text ++ 10 :: more) = some more) ∨
      scanEnd (text ++ 10 :: more) = some (rest ++ 10 :: more) := by
  rw [scanEnd] at ended
  cases scanned : scanKey text with
  | none =>
      rw [scanned] at ended
      cases ended
  | some pair =>
      rcases pair with ⟨token, behind⟩
      rw [scanned] at ended
      dsimp only at ended
      split at ended
      · rename_i ends
        cases ended
        rcases ends with rfl | rfl
        · left
          rcases @scanKey_append_fin _ _ more scanned with ⟨nothing, newline⟩
          refine ⟨nothing, ?_⟩
          rw [scanEnd, newline]
          rfl
        · right
          rw [scanEnd, scanKey_append scanned nofun nofun]
          rfl
      · cases ended

theorem parseStdTableExpr_append {parser next : Parser}
    (found : parseStdTableExpr parser text = some (next, rest)) :
    parseStdTableExpr parser (text ++ 10 :: more) = some (next, rest ++ 10 :: more) := by
  rw [parseStdTableExpr] at found ⊢
  cases keyed : scanKeyUntil .rightBracket text with
  | none =>
      rw [keyed] at found
      cases found
  | some pair =>
      rw [keyed] at found
      rw [scanKeyUntil_append keyed ⟨nofun, nofun⟩]
      rcases Option.map_eq_some_iff.mp found with ⟨toptab, opened, equal⟩
      cases equal
      dsimp only
      rw [opened]
      rfl

theorem parseArrayTableExpr_append {parser next : Parser}
    (found : parseArrayTableExpr parser text = some (next, rest)) :
    parseArrayTableExpr parser (text ++ 10 :: more) = some (next, rest ++ 10 :: more) := by
  rw [parseArrayTableExpr] at found ⊢
  cases keyed : scanKeyUntil .rightBrackets text with
  | none =>
      rw [keyed] at found
      cases found
  | some pair =>
      rw [keyed] at found
      rw [scanKeyUntil_append keyed ⟨nofun, nofun⟩]
      rcases Option.map_eq_some_iff.mp found with ⟨toptab, opened, equal⟩
      cases equal
      dsimp only
      rw [opened]
      rfl

/-! ## Values -/

theorem startsAs_append {tests : List (UInt8 → Bool)}
    (ends : (tests.any fun test => test 10) = false) (text : Bytes) :
    startsAs tests (text ++ 10 :: more) = startsAs tests text := by
  induction tests generalizing text with
  | nil => simp [startsAs]
  | cons test tests ih =>
      rw [List.any_cons, Bool.or_eq_false_iff] at ends
      cases text with
      | nil => simp [startsAs, ends.1]
      | cons byte text => rw [List.cons_append, startsAs, startsAs, ih ends.2]

theorem testNumber_append (text : Bytes) :
    testNumber (text ++ 10 :: more) = testNumber text := by
  have named : testNamed (text ++ 10 :: more) = testNamed text := by
    rw [testNamed, testNamed, isPrefixOf_append_newline (by decide),
      isPrefixOf_append_newline (by decide)]
  rw [testNumber, testNumber, named]
  cases text with
  | nil => rfl
  | cons byte text => rfl

theorem endsBool_append (text : Bytes) : endsBool (text ++ 10 :: more) = endsBool text := by
  cases text with
  | nil => rfl
  | cons byte text => rfl

theorem scanBool_append {value : Datum} (found : scanBool text = some (value, rest)) :
    scanBool (text ++ 10 :: more) = some (value, rest ++ 10 :: more) := by
  have behind {word : Bytes} (isPrefix : word.isPrefixOf text = true) :
      (text ++ 10 :: more).drop word.length = text.drop word.length ++ 10 :: more := by
    rw [List.drop_append_of_le_length (List.isPrefixOf_iff_prefix.mp isPrefix).length_le]
  rw [scanBool] at found ⊢
  rw [isPrefixOf_append_newline (by decide), isPrefixOf_append_newline (by decide)]
  by_cases isTrue : [116, 114, 117, 101].isPrefixOf text = true
  · have rest : (text ++ 10 :: more).drop 4 = text.drop 4 ++ 10 :: more := behind isTrue
    rw [if_pos isTrue] at found ⊢
    rw [rest, endsBool_append]
    by_cases ends : endsBool (text.drop 4) = true
    · rw [if_pos ends] at found ⊢
      cases found
      rfl
    · rw [if_neg ends] at found
      cases found
  rw [if_neg isTrue] at found ⊢
  by_cases isFalse : [102, 97, 108, 115, 101].isPrefixOf text = true
  · have rest : (text ++ 10 :: more).drop 5 = text.drop 5 ++ 10 :: more := behind isFalse
    rw [if_pos isFalse] at found ⊢
    rw [rest, endsBool_append]
    by_cases ends : endsBool (text.drop 5) = true
    · rw [if_pos ends] at found ⊢
      cases found
      rfl
    · rw [if_neg ends] at found
      cases found
  · rw [if_neg isFalse] at found
    cases found

section Other

variable {other : Bytes → Option (Datum × Bytes)}

/-- A value ends before the newline behind it, and is the same whatever follows. -/
def Continues (other : Bytes → Option (Datum × Bytes)) : Prop :=
  ∀ {text rest : Bytes} {value : Datum} (more : Bytes), other text = some (value, rest) →
    other (text ++ 10 :: more) = some (value, rest ++ 10 :: more)

variable (continues : Continues other)

include continues

theorem scanNumber_append {value : Datum} (found : scanNumber other text = some (value, rest)) :
    scanNumber other (text ++ 10 :: more) = some (value, rest ++ 10 :: more) := by
  have span : (numberSpan text).length ≤ text.length :=
    (List.takeWhile_prefix numberChar).length_le.trans (List.length_take_le' 49 text)
  have named : (text ++ 10 :: more).headD 0 ∈ ([105, 110] : Bytes) ↔
      text.headD 0 ∈ ([105, 110] : Bytes) := by
    cases text with
    | nil =>
        rw [List.nil_append, List.headD_cons]
        decide
    | cons byte text => exact Iff.rfl
  rw [scanNumber] at found ⊢
  rw [basePrefixed, startsAs_append (by decide), ← basePrefixed, numberSpan_append,
    List.drop_append_of_le_length span, decide_eq_decide.mpr named]
  split at found
  case isTrue elsewhere =>
    rw [if_pos elsewhere]
    exact continues more found
  case isFalse here =>
    rw [if_neg here]
    rcases Option.map_eq_some_iff.mp found with ⟨number, decimal, equal⟩
    cases equal
    rw [decimal]
    rfl

theorem scanNonstringLiteral_append {value : Datum}
    (found : scanNonstringLiteral other text = some (value, rest)) :
    scanNonstringLiteral other (text ++ 10 :: more) = some (value, rest ++ 10 :: more) := by
  cases text with
  | nil => cases found
  | cons byte text =>
      have time : testTime (byte :: text ++ 10 :: more) = testTime (byte :: text) :=
        startsAs_append (by decide) _
      have date : testDate (byte :: text ++ 10 :: more) = testDate (byte :: text) :=
        startsAs_append (by decide) _
      rw [scanNonstringLiteral] at found ⊢
      rw [time, date, testNumber_append]
      by_cases dated : (testTime (byte :: text) || testDate (byte :: text)) = true
      · rw [if_pos dated] at found ⊢
        exact continues more found
      rw [if_neg dated] at found ⊢
      by_cases bool : (byte :: text).headD 0 = 116 ∨ (byte :: text).headD 0 = 102
      · rw [if_pos bool] at found
        rw [if_pos (by exact bool)]
        exact scanBool_append found
      rw [if_neg bool] at found
      rw [if_neg (by exact bool)]
      by_cases number : testNumber (byte :: text) = true
      · rw [if_pos number] at found ⊢
        exact scanNumber_append continues found
      · rw [if_neg number] at found
        cases found

theorem scanDatum_append {byte : UInt8} {value : Datum}
    (found : scanDatum other byte text = some (value, rest)) :
    scanDatum other byte (text ++ 10 :: more) = some (value, rest ++ 10 :: more) := by
  have whole : byte = 13 → text ≠ [] := by
    rintro rfl rfl
    cases found
  rw [scanDatum] at found ⊢
  rw [atNewline_append whole, opensLines_append (by decide), opensLines_append (by decide)]
  by_cases valueless : (atNewline (byte :: text) || startsNoValue byte) = true
  · rw [if_pos valueless] at found
    cases found
  rw [if_neg valueless] at found ⊢
  by_cases string : byte = 34 ∧ (!opensLines 34 text) = true
  · rw [if_pos string] at found ⊢
    exact scan_later found fun scan => scanString_append _ scan
  rw [if_neg string] at found ⊢
  by_cases litString : byte = 39 ∧ (!opensLines 39 text) = true
  · rw [if_pos litString] at found ⊢
    exact scan_later found fun scan => scanLitString_append _ scan
  rw [if_neg litString] at found ⊢
  by_cases elsewhere : byte = 34 ∨ byte = 39 ∨ byte = 91 ∨ byte = 123
  · rw [if_pos elsewhere] at found ⊢
    exact continues more found
  · rw [if_neg elsewhere] at found ⊢
    exact scanNonstringLiteral_append continues found

theorem scanValue_append {value : Datum} (found : scanValue other text = some (value, rest)) :
    scanValue other (text ++ 10 :: more) = some (value, rest ++ 10 :: more) := by
  rw [scanValue] at found ⊢
  cases blank : skipBlank text with
  | none =>
      rw [blank] at found
      cases found
  | some left =>
      rw [blank] at found
      rw [skipBlank_append blank]
      cases left with
      | nil => cases found
      | cons byte left => exact scanDatum_append continues found

theorem parseKeyvalueExpr_append {parser next : Parser} {token : Token}
    (found : parseKeyvalueExpr other parser token text = some (next, rest)) :
    parseKeyvalueExpr other parser token (text ++ 10 :: more) =
      some (next, rest ++ 10 :: more) := by
  rw [parseKeyvalueExpr] at found ⊢
  cases keyed : parseKeyUntil .equal token text with
  | none =>
      rw [keyed] at found
      cases found
  | some pair =>
      rcases pair with ⟨key, behind⟩
      rw [keyed] at found
      rw [parseKeyUntil_append keyed ⟨nofun, nofun⟩]
      dsimp only at found ⊢
      cases valued : scanValue other behind with
      | none =>
          rw [valued] at found
          cases found
      | some pair =>
          rcases pair with ⟨value, after⟩
          rw [valued] at found
          rw [scanValue_append continues valued]
          dsimp only at found ⊢
          rcases Option.map_eq_some_iff.mp found with ⟨toptab, changed, equal⟩
          cases equal
          rw [changed]
          rfl

theorem parseExpression_append {parser next : Parser} {token : Token}
    (found : parseExpression other parser token text = some (next, rest)) :
    parseExpression other parser token (text ++ 10 :: more) =
      some (next, rest ++ 10 :: more) := by
  rw [parseExpression] at found ⊢
  by_cases table : token = .leftBracket
  · rw [if_pos table] at found ⊢
    exact parseStdTableExpr_append found
  rw [if_neg table] at found ⊢
  by_cases array : token = .leftBrackets
  · rw [if_pos array] at found ⊢
    exact parseArrayTableExpr_append found
  · rw [if_neg array] at found ⊢
    exact parseKeyvalueExpr_append continues found

omit continues in
/-- No expression begins with a character that starts no token. -/
theorem parseExpression_proper {parser next : Parser} {token : Token} {before : Bytes}
    (scanned : scanKey before = some (token, text))
    (found : parseExpression other parser token text = some (next, rest)) :
    token ≠ .literal [] := by
  rintro rfl
  have keyed : parseKeyvalueExpr other parser (.literal []) text = some (next, rest) := found
  rw [parseKeyvalueExpr] at keyed
  cases key : parseKeyUntil .equal (.literal []) text with
  | none =>
      rw [key] at keyed
      cases keyed
  | some pair => exact (parseKeyUntil_proper scanned key ⟨nofun, nofun⟩).1 rfl

omit continues in
theorem parseLoop_fin {passes : Nat} {parser : Parser}
    (scanned : scanKey text = some (.fin, rest)) :
    parseLoop other (passes + 1) parser text = some parser := by
  rw [parseLoop, scanned]
  exact if_pos rfl

omit continues in
theorem parseLoop_endl {passes : Nat} {parser : Parser}
    (scanned : scanKey text = some (.endl, rest)) :
    parseLoop other (passes + 1) parser text = parseLoop other passes parser rest := by
  rw [parseLoop, scanned]
  exact (if_neg nofun).trans (if_pos rfl)

omit continues in
theorem parseLoop_expression {passes : Nat} {parser : Parser} {token : Token} {behind : Bytes}
    (scanned : scanKey text = some (token, behind)) (inside : token ≠ .fin)
    (visible : token ≠ .endl) :
    parseLoop other (passes + 1) parser text =
      (parseExpression other parser token behind).bind fun parsed =>
        (scanEnd parsed.2).bind (parseLoop other passes parsed.1) := by
  rw [parseLoop, scanned]
  dsimp only
  rw [if_neg inside, if_neg visible]
  cases parseExpression other parser token behind <;> rfl

/-- The passes over a document that parses are the first passes over the text written on,
which goes on behind the newline. -/
theorem parseLoop_append {passes : Nat} {parser finish : Parser}
    (parsed : parseLoop other passes parser text = some finish) :
    ∃ used ≤ passes, ∀ later, parseLoop other (later + used) parser (text ++ 10 :: more) =
      parseLoop other later finish more := by
  induction passes generalizing parser text with
  | zero => cases parsed
  | succ passes ih =>
      cases scanned : scanKey text with
      | none =>
          rw [parseLoop, scanned] at parsed
          cases parsed
      | some pair =>
          rcases pair with ⟨token, behind⟩
          by_cases fin : token = .fin
          · subst fin
            rw [parseLoop_fin scanned] at parsed
            cases parsed
            exact ⟨1, by omega, fun later => parseLoop_endl (scanKey_append_fin scanned).2⟩
          by_cases endl : token = .endl
          · subst endl
            rw [parseLoop_endl scanned] at parsed
            rcases ih parsed with ⟨used, bound, same⟩
            refine ⟨used + 1, by omega, fun later => ?_⟩
            rw [← Nat.add_assoc, parseLoop_endl (scanKey_append scanned nofun nofun), same]
          rw [parseLoop_expression scanned fin endl] at parsed
          rcases Option.bind_eq_some_iff.mp parsed with ⟨⟨next, after⟩, expression, ended⟩
          rcases Option.bind_eq_some_iff.mp ended with ⟨rest, lineEnd, followed⟩
          have proper := parseExpression_proper scanned expression
          have step (passes : Nat) : parseLoop other (passes + 1) parser (text ++ 10 :: more) =
              (scanEnd (after ++ 10 :: more)).bind (parseLoop other passes next) := by
            rw [parseLoop_expression (scanKey_append scanned proper fin) fin endl,
              parseExpression_append continues expression]
            rfl
          rcases @scanEnd_append _ _ more lineEnd with atEnd | onward
          · rw [atEnd.1] at followed
            cases passes with
            | zero => cases followed
            | succ passes =>
                rw [parseLoop_fin rfl] at followed
                cases followed
                refine ⟨1, by omega, fun later => ?_⟩
                rw [step, atEnd.2]
                rfl
          · rcases ih followed with ⟨used, bound, same⟩
            refine ⟨used + 1, by omega, fun later => ?_⟩
            rw [← Nat.add_assoc, step, onward]
            exact same later

/-- A document that parses can be written on: what is behind the newline is parsed with the
tables of the document, and passes enough for all of it. -/
theorem tomlParse_append {toptab : Entries} (parsed : tomlParse other text = some toptab) :
    ∃ curtab passes, more.length < passes ∧
      tomlParse other (text ++ 10 :: more) =
        (parseLoop other passes ⟨toptab, curtab⟩ more).map Parser.toptab := by
  rcases Option.map_eq_some_iff.mp parsed with ⟨finish, looped, rfl⟩
  rcases parseLoop_append continues looped with ⟨used, bound, same⟩
  refine ⟨finish.curtab, text.length + more.length + 2 - used, by omega, ?_⟩
  have count : (text ++ 10 :: more).length + 1 =
      text.length + more.length + 2 - used + used := by
    rw [List.length_append, List.length_cons]
    omega
  rw [tomlParse, count, same]

end Other

end Caal.Toml

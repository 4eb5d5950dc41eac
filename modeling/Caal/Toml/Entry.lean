import Caal.Toml.Reading
import Caal.Toml.Tables

/-!
# Reading sections and settings

How the parser reads a line that opens a section, with any text between its brackets, and
lines that set a name to a string, a number or a boolean.
-/

namespace Caal.Toml

open CMemory

/-! ## Bare keys -/

theorem bareChar_ne {byte special : UInt8} (bare : bareChar byte = true)
    (notBare : bareChar special = false) : byte ≠ special := by
  rintro rfl
  rw [notBare] at bare
  cases bare

theorem BarePart.zero_notMem {part : Bytes} (bare : BarePart part) : 0 ∉ part := by
  intro member
  cases bare.2 0 member

/-- What follows a run of bare characters is no bare character. -/
def EndsBare (after : Bytes) : Prop :=
  ∀ byte ∈ after.head?, bareChar byte = false

theorem takeWhile_bare {word after : Bytes} (bare : ∀ byte ∈ word, bareChar byte = true)
    (ends : EndsBare after) :
    (word ++ after).takeWhile bareChar = word ∧ (word ++ after).dropWhile bareChar = after := by
  rw [List.takeWhile_append_of_pos bare, List.dropWhile_append_of_pos bare]
  cases after with
  | nil => exact ⟨List.append_nil word, rfl⟩
  | cons byte after =>
      have stops : bareChar byte = false := ends byte rfl
      simp [stops]

theorem scanKey_bare {word after : Bytes} (bare : BarePart word) (ends : EndsBare after) :
    scanKey (word ++ after) = some (.literal word, after) := by
  have whole := takeWhile_bare bare.2 ends
  cases word with
  | nil => exact (bare.1 rfl).elim
  | cons byte word =>
      have first : bareChar byte = true := bare.2 byte (List.mem_cons_self)
      have differs (special : UInt8) (notBare : bareChar special = false) : byte ≠ special :=
        bareChar_ne first notBare
      rw [List.cons_append] at whole ⊢
      have blank : skipBlank (byte :: (word ++ after)) = some (byte :: (word ++ after)) := by
        rw [skipBlank, if_neg, if_neg (differs 35 rfl)]
        exact not_or.mpr ⟨differs 32 rfl, differs 9 rfl⟩
      have newline : atNewline (byte :: (word ++ after)) = false := by
        simp [atNewline, differs 10 rfl, differs 13 rfl]
      have simple : simpleToken byte = none := by
        simp [simpleToken, differs 46 rfl, differs 61 rfl, differs 44 rfl, differs 123 rfl,
          differs 125 rfl]
      rw [scanKey, blank]
      dsimp only
      rw [scanToken, newline, if_neg Bool.false_ne_true, simple]
      dsimp only
      rw [if_neg (differs 91 rfl), if_neg (differs 93 rfl), if_neg (differs 34 rfl),
        if_neg (differs 39 rfl), whole.1, whole.2]

theorem scanKey_dot (text : Bytes) : scanKey (46 :: text) = some (.dot, text) := rfl

theorem EndsBare.dotted {parts : List Bytes} {after : Bytes} (ends : EndsBare after) :
    EndsBare (dotted parts ++ after) := by
  cases parts with
  | nil => exact ends
  | cons part parts =>
      intro byte head
      cases head
      rfl

/-- The parts of a key that needs no quotes are read as they are written. -/
theorem keyParts_bare {left : Nat} {parts : List Bytes} {rest after : Bytes} {closing : Token}
    (bare : ∀ part ∈ parts, BarePart part) (few : parts.length ≤ left)
    (closed : scanKey rest = some (closing, after)) (noDot : closing ≠ .dot)
    (ends : EndsBare rest) : keyParts left (dotted parts ++ rest) = some (parts, rest) := by
  induction parts generalizing left with
  | nil => exact keyParts_done closed noDot
  | cons part parts ih =>
      cases left with
      | zero => cases few
      | succ left =>
          have first : BarePart part := bare part (List.mem_cons_self)
          have text : dotted (part :: parts) ++ rest = 46 :: (part ++ (dotted parts ++ rest)) := by
            simp [dotted]
          have scanned := scanKey_bare first (@EndsBare.dotted parts _ ends)
          have others : ∀ part ∈ parts, BarePart part := fun part member =>
            bare part (List.mem_cons_of_mem _ member)
          rw [text, keyParts_dot (scanKey_dot _) scanned rfl,
            ih others (Nat.le_of_succ_le_succ few)]
          rfl

theorem scanKeyUntil_bare {key : List Bytes} {rest after : Bytes} {closing : Token}
    (bare : ∀ part ∈ key, BarePart part) (nonempty : key ≠ [])
    (few : key.length ≤ laterParts + 1) (closed : scanKey rest = some (closing, after))
    (noDot : closing ≠ .dot) (ends : EndsBare rest) :
    scanKeyUntil closing (keyText key ++ rest) = some (key, after) := by
  cases key with
  | nil => exact (nonempty rfl).elim
  | cons part parts =>
      have first : BarePart part := bare part (List.mem_cons_self)
      have others : ∀ part ∈ parts, BarePart part := fun part member =>
        bare part (List.mem_cons_of_mem _ member)
      have scanned := scanKey_bare first (@EndsBare.dotted parts _ ends)
      have parsed := keyParts_bare others (Nat.le_of_succ_le_succ few) closed noDot ends
      rw [keyText, List.append_assoc, scanKeyUntil, scanned]
      dsimp only
      rw [parseKeyUntil, parseKey]
      dsimp only [Token.key]
      rw [parsed]
      dsimp only [Option.map_some]
      rw [closed]
      exact if_pos rfl

/-! ## Names with dots -/

theorem dotParts_ne_nil (name : Bytes) : dotParts name ≠ [] := by
  cases name with
  | nil => nofun
  | cons byte name =>
      rw [dotParts]
      split
      · nofun
      · split <;> nofun

theorem keyText_dotParts (name : Bytes) : keyText (dotParts name) = name := by
  induction name with
  | nil => rfl
  | cons byte name ih =>
      cases parts : dotParts name with
      | nil => exact (dotParts_ne_nil name parts).elim
      | cons part later =>
          rw [parts] at ih
          rw [dotParts, parts]
          split
          · rename_i dot
            rw [← ih, dot]
            rfl
          · rw [← ih]
            rfl

/-- A name that can stand in a header without quotes. -/
def BareKey (name : Bytes) : Prop :=
  (dotParts name).length ≤ laterParts + 1 ∧ ∀ part ∈ dotParts name, BarePart part

instance : DecidablePred BareKey := fun name =>
  inferInstanceAs (Decidable ((dotParts name).length ≤ laterParts + 1 ∧
    ∀ part ∈ dotParts name, BarePart part))

theorem BareKey.plain {name : Bytes} (bare : BareKey name) :
    ∀ part ∈ dotParts name, cstr part = part := fun part member =>
  cstr_of_zero_free (bare.2 part member).zero_notMem

theorem BareKey.head_ne {name rest : Bytes} (bare : BareKey name) :
    (name ++ rest).head? ≠ some 91 := by
  have text := keyText_dotParts name
  cases parts : dotParts name with
  | nil => exact (dotParts_ne_nil name parts).elim
  | cons part later =>
      have first : BarePart part := bare.2 part (by rw [parts]; exact List.mem_cons_self)
      rw [parts, keyText] at text
      cases part with
      | nil => exact (first.1 rfl).elim
      | cons byte part =>
          rw [← text]
          intro head
          exact bareChar_ne (first.2 byte List.mem_cons_self) rfl (Option.some.inj head)

section Lines

variable {other : Bytes → Option (Datum × Bytes)} {passes : Nat} {parser finish : Parser}
  {name more : Bytes}

/-! ## Headers -/

/-- The line of a header, and what follows it. -/
def headerLine (name more : Bytes) : Bytes :=
  91 :: (name ++ 93 :: 10 :: more)

theorem scanEnd_newline (more : Bytes) : scanEnd (10 :: more) = some more := rfl

/-- The header of a name that needs no quotes opens the section at its parts. -/
theorem parseLoop_header (bare : BareKey name) :
    parseLoop other (passes + 1) parser (headerLine name more) =
      (openTable (dotParts name) .none parser.toptab).bind fun toptab =>
        parseLoop other passes ⟨toptab, dotParts name⟩ more := by
  have bracket : scanKey (headerLine name more) =
      some (.leftBracket, name ++ 93 :: 10 :: more) := by
    change some (scanBracket 91 .leftBracket .leftBrackets (name ++ 93 :: 10 :: more)) = _
    rw [scanBracket, if_neg bare.head_ne]
  have closed : scanKey (93 :: 10 :: more) = some (.rightBracket, 10 :: more) := rfl
  have ends : EndsBare (93 :: 10 :: more) := by
    intro byte head
    cases head
    rfl
  have key : scanKeyUntil .rightBracket (name ++ 93 :: 10 :: more) =
      some (dotParts name, 10 :: more) := by
    have found := scanKeyUntil_bare bare.2 (dotParts_ne_nil name) bare.1 closed (by simp) ends
    rw [keyText_dotParts] at found
    exact found
  rw [parseLoop_expression bracket (by simp) (by simp), parseExpression,
    if_pos rfl, parseStdTableExpr, key]
  dsimp only
  cases openTable (dotParts name) .none parser.toptab with
  | none => rfl
  | some toptab =>
      change (scanEnd (10 :: more)).bind (parseLoop other passes ⟨toptab, dotParts name⟩) = _
      rw [scanEnd_newline]
      rfl

/-- What a header has done that was written for a name: it has made no string, and if
lookups of the name lead to the section it opened, then the name needs no quotes. -/
structure Opened (name : Bytes) (before after : Entries) (key : List Bytes) : Prop where
  strings : ∀ looked text, seekFrom looked (.table .none after) = some (.string text) →
    seekFrom looked (.table .none before) = some (.string text)
  named : key.map cstr = dotParts name →
    BareKey name ∧ key = dotParts name ∧ openTable key .none before = some after

theorem length_keyText_cstr (key : List Bytes) :
    (keyText (key.map cstr)).length ≤ (keyText key).length := by
  have parts (later : List Bytes) :
      (dotted (later.map cstr)).length ≤ (dotted later).length := by
    induction later with
    | nil => exact Nat.le_refl 0
    | cons part later ih =>
        have short := length_cstr_le part
        simp only [dotted, List.map_cons, List.flatMap_cons, List.length_append,
          List.length_cons] at ih ⊢
        omega
  cases key with
  | nil => exact Nat.le_refl 0
  | cons part later =>
      have short := length_cstr_le part
      have rest := parts later
      simp only [keyText, List.map_cons, List.length_append]
      omega

theorem map_cstr_bare {key : List Bytes} (bare : ∀ part ∈ key, BarePart part) :
    key.map cstr = key := by
  have same : ∀ part ∈ key, cstr part = id part := fun part member =>
    cstr_of_zero_free (bare part member).zero_notMem
  rw [List.map_congr_left same, List.map_id]

/-- How much of its line a key between brackets takes. -/
theorem header_took {closing : Token} {width : Nat} {inner rest after : Bytes} {key : List Bytes}
    (found : scanKeyUntil closing (inner ++ 93 :: 10 :: more) = some (key, rest))
    (closes : Closes closing) (closer : closing ≠ .endl)
    (wide : ∀ body, closing.Spells body → body.length = width) (inLine : 10 ∉ inner)
    (ended : scanEnd rest = some after) :
    after = more ∧ key.length ≤ laterParts + 1 ∧
      ∃ size, size + width ≤ inner.length + 1 ∧ (keyText key).length ≤ size ∧
        (size ≤ (keyText key).length → ∀ part ∈ key, BarePart part) := by
  rcases scanKeyUntil_took found closes closer with
    ⟨taken, between, body, took, spells, few, lengths, tight⟩
  have line : inner ++ 93 :: 10 :: more = (inner ++ [93]) ++ 10 :: more := by simp
  have bracketInLine : 10 ∉ inner ++ [93] := by simp [inLine]
  have bodyWidth := wide body spells
  rw [line] at took
  rcases took.line_end bracketInLine ended with ⟨size, rfl⟩
  simp only [List.length_append, List.length_cons, List.length_nil] at size
  exact ⟨rfl, few, taken.length, by omega, lengths, fun short => (tight short).2⟩

/-- A header line that is read has opened a section or an array of them. -/
theorem parseLoop_header_eq_some (inLine : 10 ∉ name)
    (parsed : parseLoop other (passes + 1) parser (headerLine name more) = some finish) :
    ∃ key toptab, Opened name parser.toptab toptab key ∧
      parseLoop other passes ⟨toptab, key⟩ more = some finish := by
  by_cases double : name.head? = some 91
  · rcases List.head?_eq_some_iff.mp double with ⟨inner, rfl⟩
    have bracket : scanKey (headerLine (91 :: inner) more) =
        some (.leftBrackets, inner ++ 93 :: 10 :: more) := rfl
    rw [parseLoop_expression bracket (by simp) (by simp), parseExpression,
      if_neg (by simp), if_pos rfl, parseArrayTableExpr] at parsed
    cases found : scanKeyUntil .rightBrackets (inner ++ 93 :: 10 :: more) with
    | none =>
        rw [found] at parsed
        cases parsed
    | some pair =>
        rcases pair with ⟨key, rest⟩
        rw [found] at parsed
        rcases Option.bind_eq_some_iff.mp parsed with ⟨_, made, parsed⟩
        rcases Option.map_eq_some_iff.mp made with ⟨toptab, opens, rfl⟩
        rcases Option.bind_eq_some_iff.mp parsed with ⟨after, ended, parsed⟩
        have innerInLine : 10 ∉ inner := fun member => inLine (List.mem_cons_of_mem _ member)
        rcases header_took found ⟨by simp, by simp⟩ (by simp) (fun _ => id) innerInLine ended with
          ⟨rfl, _, size, width, lengths, _⟩
        refine ⟨key, toptab, ⟨fun looked text => openArray_strings opens, ?_⟩, parsed⟩
        intro named
        have short := length_keyText_cstr key
        rw [named, keyText_dotParts, List.length_cons] at short
        omega
  · have bracket : scanKey (headerLine name more) =
        some (.leftBracket, name ++ 93 :: 10 :: more) := by
      change some (scanBracket 91 .leftBracket .leftBrackets (name ++ 93 :: 10 :: more)) = _
      rw [scanBracket, if_neg]
      cases name with
      | nil => simp
      | cons byte name => exact double
    rw [parseLoop_expression bracket (by simp) (by simp), parseExpression, if_pos rfl,
      parseStdTableExpr] at parsed
    cases found : scanKeyUntil .rightBracket (name ++ 93 :: 10 :: more) with
    | none =>
        rw [found] at parsed
        cases parsed
    | some pair =>
        rcases pair with ⟨key, rest⟩
        rw [found] at parsed
        rcases Option.bind_eq_some_iff.mp parsed with ⟨_, made, parsed⟩
        rcases Option.map_eq_some_iff.mp made with ⟨toptab, opens, rfl⟩
        rcases Option.bind_eq_some_iff.mp parsed with ⟨after, ended, parsed⟩
        rcases header_took found ⟨by simp, by simp⟩ (by simp) (fun _ => id) inLine ended with
          ⟨rfl, few, size, width, lengths, tight⟩
        refine ⟨key, toptab, ⟨fun looked text => openTable_strings opens, ?_⟩, parsed⟩
        intro named
        have short := length_keyText_cstr key
        rw [named, keyText_dotParts] at short
        have bare := tight (by omega)
        rw [map_cstr_bare bare] at named
        exact ⟨⟨named ▸ few, named ▸ bare⟩, named, opens⟩

/-! ## Settings -/

/-- A value and the end of its line. -/
def scanLine (other : Bytes → Option (Datum × Bytes)) (text : Bytes) : Option (Datum × Bytes) :=
  (scanValue other text).bind fun found => (scanEnd found.2).map fun after => (found.1, after)

theorem scanLine_eq_some {text after : Bytes} {value : Datum} :
    scanLine other text = some (value, after) ↔
      ∃ rest, scanValue other text = some (value, rest) ∧ scanEnd rest = some after := by
  rw [scanLine, Option.bind_eq_some_iff]
  constructor
  · rintro ⟨⟨_, rest⟩, found, mapped⟩
    rcases Option.map_eq_some_iff.mp mapped with ⟨_, ended, equal⟩
    cases equal
    exact ⟨rest, found, ended⟩
  · rintro ⟨rest, found, ended⟩
    refine ⟨(value, rest), found, ?_⟩
    rw [ended]
    rfl

theorem skipBlank_spaces (count : Nat) (text : Bytes) :
    skipBlank (List.replicate count 32 ++ text) = skipBlank text := by
  induction count with
  | zero => rfl
  | succ count ih =>
      rw [List.replicate_succ, List.cons_append, skipBlank, if_pos (.inl rfl), ih]

/-- The line that sets a name, up to its value. -/
def settingLine (name : Bytes) (spaces : Nat) (text : Bytes) : Bytes :=
  name ++ (List.replicate (spaces + 1) 32 ++ 61 :: text)

/-- A line that sets a name which needs no quotes adds the value to the current table. -/
theorem parseLoop_setting (bare : BarePart name) (spaces : Nat) {text : Bytes} :
    parseLoop other (passes + 1) parser (settingLine name spaces text) =
      (scanLine other text).bind fun found =>
        (changeAt (addValue found.1 false [name]) parser.curtab .none parser.toptab).bind
          fun toptab => parseLoop other passes { parser with toptab := toptab } found.2 := by
  have ends : EndsBare (List.replicate (spaces + 1) 32 ++ 61 :: text) := by
    intro byte head
    cases head
    rfl
  have closed : scanKey (List.replicate (spaces + 1) 32 ++ 61 :: text) =
      some (.equal, text) := by
    rw [scanKey, skipBlank_spaces]
    rfl
  have key : parseKeyUntil .equal (.literal name)
      (List.replicate (spaces + 1) 32 ++ 61 :: text) = some ([name], text) := by
    rw [parseKeyUntil, parseKey]
    dsimp only [Token.key]
    rw [keyParts_done closed (by simp)]
    dsimp only [Option.map_some]
    rw [closed]
    exact if_pos rfl
  rw [settingLine, parseLoop_expression (scanKey_bare bare ends) (by simp) (by simp),
    parseExpression,
    if_neg (by simp), if_neg (by simp), parseKeyvalueExpr, key, scanLine]
  dsimp only
  cases scanValue other text with
  | none => rfl
  | some found =>
      cases changed :
        changeAt (addValue found.1 false [name]) parser.curtab .none parser.toptab with
      | none => cases ended : scanEnd found.2 <;> simp [ended, changed]
      | some toptab => cases ended : scanEnd found.2 <;> simp [ended, changed]

/-! ## Values on a line -/

theorem scanValue_space (text : Bytes) : scanValue other (32 :: text) = scanValue other text := by
  rw [scanValue, skipBlank, if_pos (.inl rfl), scanValue]

theorem scanLine_space (text : Bytes) : scanLine other (32 :: text) = scanLine other text := by
  rw [scanLine, scanValue_space, scanLine]

/-- Behind a quote that is not doubled, a string is scanned. -/
theorem scanValue_quoted {text : Bytes} (single : text.head? ≠ some 34) :
    scanValue other (34 :: text) =
      (scanString .text text).map fun scanned => (.string scanned.1, scanned.2) := by
  have oneLine : opensLines 34 text = false := by
    rw [opensLines, beq_eq_false_iff_ne.mpr single, Bool.false_and]
  change scanDatum other 34 text = _
  have starts : (atNewline (34 :: text) || startsNoValue 34) = false := rfl
  rw [scanDatum, starts, if_neg Bool.false_ne_true, if_pos]
  exact ⟨rfl, by rw [oneLine]; rfl⟩

/-- A string in quotes is read as it is written if every character stands for itself. -/
theorem scanLine_string {text : Bytes} (single : text.head? ≠ some 34) (nonempty : text ≠ [])
    (plain : ∀ byte ∈ text, PlainChar byte) :
    scanLine other (34 :: (text ++ 34 :: 10 :: more)) = some (.string text, more) := by
  rw [scanLine_eq_some]
  refine ⟨10 :: more, ?_, scanEnd_newline more⟩
  rw [scanValue_quoted, scanString_plain plain]
  · rfl
  · cases text with
    | nil => exact (nonempty rfl).elim
    | cons byte text => exact single

/-- What is read of a string in quotes is a string, and not the one that is written unless
every character stands for itself. -/
theorem scanLine_string_eq_some {text after : Bytes} {value : Datum}
    (single : text.head? ≠ some 34) (nonempty : text ≠ []) (inLine : 10 ∉ text)
    (found : scanLine other (34 :: (text ++ 34 :: 10 :: more)) = some (value, after)) :
    after = more ∧ ∃ read, value = .string read ∧
      (cstr read = text → ∀ byte ∈ text, PlainChar byte) := by
  rcases scanLine_eq_some.mp found with ⟨rest, valued, ended⟩
  rw [scanValue_quoted] at valued
  · rcases Option.map_eq_some_iff.mp valued with ⟨⟨read, left⟩, scanned, equal⟩
    cases equal
    rcases scanString_took scanned with ⟨taken, took, economical⟩
    have line : text ++ 34 :: 10 :: more = (text ++ [34]) ++ 10 :: more := by simp
    have quoteInLine : 10 ∉ text ++ [34] := by simp [inLine]
    rw [line] at took
    rcases took.line_end quoteInLine ended with ⟨size, rfl⟩
    refine ⟨rfl, read, rfl, fun same => ?_⟩
    have short := length_cstr_le read
    rw [same] at short
    rw [List.length_append, List.length_singleton] at size
    have least := economical.1
    have exactly : read = text := by
      rw [← same]
      exact ((List.takeWhile_sublist _).eq_of_length
        (by change (cstr read).length = _; rw [same]; omega)).symm
    rw [← exactly]
    exact (economical.2 (by omega)).2
  · cases text with
    | nil => exact (nonempty rfl).elim
    | cons byte text => exact single

theorem scanLine_true (more : Bytes) :
    scanLine other (116 :: 114 :: 117 :: 101 :: 10 :: more) = some (.boolean true, more) := rfl

theorem scanLine_false (more : Bytes) :
    scanLine other (102 :: 97 :: 108 :: 115 :: 101 :: 10 :: more) =
      some (.boolean false, more) := rfl

/-! ## Decimal integers -/

theorem isDigit_ne {byte special : UInt8} (digit : isDigit byte = true)
    (notDigit : isDigit special = false) : byte ≠ special := by
  rintro rfl
  rw [notDigit] at digit
  cases digit

theorem numberChar_of_isDigit {byte : UInt8} (digit : isDigit byte = true) :
    numberChar byte = true := by
  simp only [numberChar, digit, Bool.true_or]

/-- A text that starts with digits and a newline does not start with digits and another
character. -/
theorem startsAs_digits {special : UInt8} (count : Nat) {number : Bytes}
    (digits : ∀ byte ∈ number, isDigit byte = true) (notDigit : isDigit special = false)
    (visible : special ≠ 10) :
    startsAs (List.replicate count isDigit ++ [fun byte => byte == special])
      (number ++ 10 :: more) = false := by
  induction count generalizing number with
  | zero =>
      cases number with
      | nil =>
          change ((10 : UInt8) == special && _) = false
          rw [beq_eq_false_iff_ne.mpr (Ne.symm visible), Bool.false_and]
      | cons byte number =>
          have differs := isDigit_ne (digits byte List.mem_cons_self) notDigit
          change (byte == special && _) = false
          rw [beq_eq_false_iff_ne.mpr differs, Bool.false_and]
  | succ count ih =>
      cases number with
      | nil => rfl
      | cons byte number =>
          have rest := ih fun later member => digits later (List.mem_cons_of_mem _ member)
          rw [List.replicate_succ, List.cons_append, List.cons_append, startsAs, rest,
            Bool.and_false]

theorem basePrefixed_digits {number : Bytes} (digits : ∀ byte ∈ number, isDigit byte = true) :
    basePrefixed (number ++ 10 :: more) = false := by
  cases number with
  | nil => rfl
  | cons first number =>
      rw [basePrefixed, List.cons_append, startsAs]
      cases number with
      | nil => exact Bool.and_false _
      | cons second number =>
          have digit := digits second (List.mem_cons_of_mem _ List.mem_cons_self)
          rw [List.cons_append, startsAs, beq_eq_false_iff_ne.mpr (@isDigit_ne _ 120 digit rfl),
            beq_eq_false_iff_ne.mpr (@isDigit_ne _ 111 digit rfl),
            beq_eq_false_iff_ne.mpr (@isDigit_ne _ 98 digit rfl)]
          exact Bool.and_false _

theorem pow_le_ofDecimalDigits {byte : UInt8} {number : Bytes} (digit : isDigit byte = true)
    (leading : byte ≠ 48) : 10 ^ number.length ≤ ofDecimalDigits (byte :: number) := by
  have positive : 1 ≤ byte.toNat - 48 := by
    have differs : byte.toNat ≠ 48 := fun equal => leading (UInt8.toNat_inj.mp equal)
    have bound : 48 ≤ byte.toNat := by
      simp only [isDigit, Bool.and_eq_true, decide_eq_true_eq, UInt8.le_iff_toNat_le] at digit
      exact digit.1
    omega
  rw [ofDecimalDigits, List.reverse_cons, List.map_append, Nat.ofDigits_append, List.length_map,
    List.length_reverse, List.map_singleton, Nat.ofDigits_singleton]
  exact Nat.le_add_left_of_le (Nat.le_mul_of_pos_right _ positive)

/-- More digits than `strtoll` can take give no number. -/
theorem decimalValue_long {number : Bytes} (digits : ∀ byte ∈ number, isDigit byte = true)
    (long : 20 ≤ number.length) : decimalValue number = none := by
  cases number with
  | nil => cases long
  | cons byte number =>
      rw [decimalValue]
      by_cases zero : byte = 48
      · rw [if_pos]
        exact ⟨congrArg some zero, by omega⟩
      · have digit := digits byte List.mem_cons_self
        have least := @pow_le_ofDecimalDigits byte number digit zero
        have large : 10 ^ 19 ≤ 10 ^ number.length := by
          rw [List.length_cons] at long
          exact Nat.pow_le_pow_right (by decide) (by omega)
        rw [if_neg, if_neg (by omega)]
        rintro ⟨first, _⟩
        exact zero (Option.some.inj first)

/-- Decimal digits that stand for an integer: no leading zero, and in the range of
`int64_t`. -/
def Int64Digits (number : Bytes) : Prop :=
  ¬ (number.head? = some 48 ∧ 1 < number.length) ∧ ofDecimalDigits number < 2 ^ 63

theorem decimalValue_eq_some {number : Bytes} {value : Int} :
    decimalValue number = some value ↔ Int64Digits number ∧ value = ofDecimalDigits number := by
  rw [decimalValue, Int64Digits]
  by_cases leading : number.head? = some 48 ∧ 1 < number.length
  · rw [if_pos leading]
    exact iff_of_false nofun (fun both => both.1.1 leading)
  rw [if_neg leading, and_iff_right leading]
  by_cases bounded : ofDecimalDigits number < 2 ^ 63
  · rw [if_pos bounded, and_iff_right bounded, Option.some.injEq, eq_comm]
  · rw [if_neg bounded]
    exact iff_of_false nofun (fun both => bounded both.1)

theorem numberSpan_digits {number : Bytes} (digits : ∀ byte ∈ number, isDigit byte = true) :
    numberSpan (number ++ 10 :: more) = number.take 49 := by
  have kept : ∀ byte ∈ number.take 49, numberChar byte = true := fun byte member =>
    numberChar_of_isDigit (digits byte (List.mem_of_mem_take member))
  rw [numberSpan, List.take_append, List.takeWhile_append_of_pos kept]
  cases 49 - number.length with
  | zero => exact List.append_nil _
  | succ left => exact List.append_nil _

/-- A line of decimal digits is read as their value, if they have one. -/
theorem scanLine_digits {number : Bytes} (filled : number ≠ [])
    (digits : ∀ byte ∈ number, isDigit byte = true) :
    scanLine other (number ++ 10 :: more) =
      (decimalValue number).map fun value => (.int64 value, more) := by
  have span := @numberSpan_digits more _ digits
  have spanDigits : (number.take 49).all isDigit = true := by
    rw [List.all_eq_true]
    exact fun byte member => digits byte (List.mem_of_mem_take member)
  have scanned : scanNumber other (number ++ 10 :: more) =
      (decimalValue (number.take 49)).map fun value =>
        (.int64 value, (number ++ 10 :: more).drop (number.take 49).length) := by
    have unnamed : (number ++ 10 :: more).headD 0 ∉ ([105, 110] : Bytes) := by
      cases number with
      | nil => exact (filled rfl).elim
      | cons byte number =>
          have digit := digits byte List.mem_cons_self
          rw [List.cons_append, List.headD_cons, List.mem_pair, not_or]
          exact ⟨isDigit_ne digit rfl, isDigit_ne digit rfl⟩
    rw [scanNumber, basePrefixed_digits digits, span, spanDigits, decide_eq_false unnamed]
    exact if_neg Bool.false_ne_true
  have valued : scanValue other (number ++ 10 :: more) =
      scanNumber other (number ++ 10 :: more) := by
    cases number with
    | nil => exact (filled rfl).elim
    | cons byte number =>
        have digit := digits byte List.mem_cons_self
        have differs (special : UInt8) (notDigit : isDigit special = false) : byte ≠ special :=
          isDigit_ne digit notDigit
        have blank : skipBlank (byte :: (number ++ 10 :: more)) =
            some (byte :: (number ++ 10 :: more)) := by
          rw [skipBlank, if_neg, if_neg (differs 35 rfl)]
          exact not_or.mpr ⟨differs 32 rfl, differs 9 rfl⟩
        have noTime : testTime (byte :: (number ++ 10 :: more)) = false :=
          startsAs_digits 2 digits rfl (by decide)
        have noDate : testDate (byte :: (number ++ 10 :: more)) = false :=
          startsAs_digits 4 digits rfl (by decide)
        rw [List.cons_append, scanValue, blank]
        dsimp only
        rw [scanDatum, if_neg, if_neg, if_neg, if_neg, scanNonstringLiteral, noTime, noDate,
          Bool.or_false, if_neg Bool.false_ne_true, if_neg, if_pos]
        · simp [testNumber, digit]
        · exact not_or.mpr ⟨differs 116 rfl, differs 102 rfl⟩
        · simp [differs 34 rfl, differs 39 rfl, differs 91 rfl, differs 123 rfl]
        · exact fun both => differs 39 rfl both.1
        · exact fun both => differs 34 rfl both.1
        · simp [atNewline, startsNoValue, differs 10 rfl, differs 13 rfl, differs 46 rfl,
            differs 61 rfl, differs 44 rfl, differs 125 rfl, differs 93 rfl]
  rw [scanLine, valued, scanned]
  by_cases short : number.length ≤ 49
  · rw [List.take_of_length_le short]
    cases decimalValue number with
    | none => rfl
    | some value =>
        simp only [Option.map_some, Option.bind_some, List.drop_left, scanEnd_newline]
  · have long : 20 ≤ (number.take 49).length := by
      rw [List.length_take]
      omega
    rw [decimalValue_long digits (by omega),
      decimalValue_long (fun byte member => digits byte (List.mem_of_mem_take member)) long]
    rfl

/-- A line that sets a name to decimal digits adds their value. -/
theorem parseLoop_digits (bare : BarePart name) (spaces : Nat) {number : Bytes}
    (filled : number ≠ []) (digits : ∀ byte ∈ number, isDigit byte = true) :
    parseLoop other (passes + 1) parser
        (settingLine name spaces (32 :: (number ++ 10 :: more))) =
      (decimalValue number).bind fun value =>
        (changeAt (addValue (.int64 value) false [name]) parser.curtab .none parser.toptab).bind
          fun toptab => parseLoop other passes { parser with toptab := toptab } more := by
  rw [parseLoop_setting bare, scanLine_space, scanLine_digits filled digits]
  cases decimalValue number <;> rfl

end Lines

end Caal.Toml

import Caal.Lib.CMemory
import Caal.Lib.Decimal

/-!
# Scanning TOML

The scanner of the vendored `tomlc17.c`, on what is left of the text. Strings on one
line, decimal integers and booleans are scanned here; the other values (floats, dates,
arrays, inline tables and strings over several lines) are scanned by an argument.
A scan that fails gives nothing: no error text of the parser is ever read.
-/

namespace Caal.Toml

open CMemory

/-- `FLAG_INLINED`, `FLAG_STDEXPR` and `FLAG_EXPLICIT`. -/
structure Flags where
  inlined : Bool
  stdExpr : Bool
  explicit : Bool
  deriving DecidableEq

/-- `toml_datum_t`. Of floats and dates nothing is looked at. -/
inductive Datum where
  | string (text : Bytes)
  | int64 (value : Int)
  | boolean (value : Bool)
  | scalar
  | array (inlined : Bool) (elements : List Datum)
  | table (flags : Flags) (entries : List (Bytes × Datum))

/-- The entries of a table, in the order they were added. -/
abbrev Entries := List (Bytes × Datum)

/-! ## Blanks and comments -/

/-- `scan_match` for a newline, which `\r\n` is too. -/
def atNewline : Bytes → Bool
  | [] => false
  | byte :: rest => byte == 10 || (byte == 13 && rest.head? == some 10)

def afterNewline : Bytes → Bytes
  | [] => []
  | byte :: rest => if byte = 10 then rest else rest.tail

/-- A control character that a comment must not contain. -/
def badInComment (byte : UInt8) : Bool :=
  byte ≤ 8 || (10 ≤ byte && byte ≤ 31) || byte == 127

def skipComment : Bytes → Option Bytes
  | [] => some []
  | byte :: rest =>
      if atNewline (byte :: rest) then some (byte :: rest)
      else if badInComment byte then none
      else skipComment rest

/-- Spaces, tabs and a comment. -/
def skipBlank : Bytes → Option Bytes
  | [] => some []
  | byte :: rest =>
      if byte = 32 ∨ byte = 9 then skipBlank rest
      else if byte = 35 then skipComment rest
      else some (byte :: rest)

/-! ## Strings -/

/-- `is_valid_char`. -/
def validChar (byte : UInt8) : Bool :=
  (32 ≤ byte && byte ≤ 126) || 128 ≤ byte

/-- `ucs_to_utf8`. -/
def ucsToUtf8 (code : Nat) : Option Bytes :=
  if code ≤ 0x7F then some [UInt8.ofNat code]
  else if code ≤ 0x7FF then
    some [UInt8.ofNat (0xC0 + code / 64), UInt8.ofNat (0x80 + code % 64)]
  else if code ≤ 0xFFFF then
    some [UInt8.ofNat (0xE0 + code / 4096), UInt8.ofNat (0x80 + code / 64 % 64),
      UInt8.ofNat (0x80 + code % 64)]
  else if code ≤ 0x1FFFFF then
    some [UInt8.ofNat (0xF0 + code / 262144), UInt8.ofNat (0x80 + code / 4096 % 64),
      UInt8.ofNat (0x80 + code / 64 % 64), UInt8.ofNat (0x80 + code % 64)]
  else none

/-- The character a hexadecimal escape stands for, which must not be a surrogate. -/
def hexEscape (code : Nat) : Option Bytes :=
  if 0xD800 ≤ code ∧ code ≤ 0xDFFF then none else ucsToUtf8 code

/-- What stands behind the backslash of a short escape, and the character it gives. -/
def shortEscape (byte : UInt8) : Option UInt8 :=
  if byte = 98 then some 8
  else if byte = 116 then some 9
  else if byte = 110 then some 10
  else if byte = 102 then some 12
  else if byte = 114 then some 13
  else if byte = 101 then some 27
  else if byte = 34 then some 34
  else if byte = 92 then some 92
  else none

/-- How many hexadecimal digits follow `\x`, `\u` and `\U`. -/
def hexDigits (byte : UInt8) : Option Nat :=
  if byte = 120 then some 2
  else if byte = 117 then some 4
  else if byte = 85 then some 8
  else none

def hexValue (byte : UInt8) : Option Nat :=
  if 48 ≤ byte ∧ byte ≤ 57 then some (byte.toNat - 48)
  else if 65 ≤ byte ∧ byte ≤ 70 then some (byte.toNat - 55)
  else if 97 ≤ byte ∧ byte ≤ 102 then some (byte.toNat - 87)
  else none

/-- Where a scan is inside a string: in its text, behind a backslash, or in a
hexadecimal escape with digits still to come after the next one. -/
inductive Inside where
  | text
  | escape
  | hex (later value : Nat)

/-- Put characters in front of a scanned string. -/
def prepend (front : Bytes) (scanned : Bytes × Bytes) : Bytes × Bytes :=
  (front ++ scanned.1, scanned.2)

/-- `scan_string` behind the opening quote, with `parse_norm` of what it finds: the text
of the string, and what is left behind the closing quote. -/
def scanString : Inside → Bytes → Option (Bytes × Bytes)
  | _, [] => none
  | .text, byte :: rest =>
      if byte = 34 then some ([], rest)
      else if byte = 92 then scanString .escape rest
      else if validChar byte ∨ byte = 9 then (scanString .text rest).map (prepend [byte])
      else none
  | .escape, byte :: rest =>
      match shortEscape byte with
      | some char => (scanString .text rest).map (prepend [char])
      | none =>
          match hexDigits byte with
          | some digits => scanString (.hex (digits - 1) 0) rest
          | none => none
  | .hex later value, byte :: rest =>
      match hexValue byte with
      | none => none
      | some digit =>
          match later with
          | later + 1 => scanString (.hex later (16 * value + digit)) rest
          | 0 =>
              match hexEscape (16 * value + digit) with
              | some char => (scanString .text rest).map (prepend char)
              | none => none

/-- `scan_litstring` behind the opening quote. -/
def scanLitString : Bytes → Option (Bytes × Bytes)
  | [] => none
  | byte :: rest =>
      if byte = 39 then some ([], rest)
      else if validChar byte ∨ byte = 9 then (scanLitString rest).map (prepend [byte])
      else none

/-- Behind a quote, two more of it: a string over several lines. -/
def opensLines (quote : UInt8) (rest : Bytes) : Bool :=
  rest.head? == some quote && rest.tail.head? == some quote

/-! ## Keys -/

/-- What `scan_key` can return. -/
inductive Token where
  | fin
  | endl
  | dot
  | equal
  | comma
  | leftBracket
  | leftBrackets
  | rightBracket
  | rightBrackets
  | leftBrace
  | rightBrace
  | literal (text : Bytes)
  | string (text : Bytes)
  | litString (text : Bytes)
  deriving DecidableEq

/-- A character of a bare key. -/
def bareChar (byte : UInt8) : Bool :=
  (48 ≤ byte && byte ≤ 57) || (65 ≤ byte && byte ≤ 90) || (97 ≤ byte && byte ≤ 122) ||
    byte == 95 || byte == 45

/-- The characters that are a token by themselves: the `map` of `scan_next`. -/
def simpleToken (byte : UInt8) : Option Token :=
  if byte = 46 then some .dot
  else if byte = 61 then some .equal
  else if byte = 44 then some .comma
  else if byte = 123 then some .leftBrace
  else if byte = 125 then some .rightBrace
  else none

/-- A bracket, which is doubled if another one follows. -/
def scanBracket (bracket : UInt8) (single double : Token) (rest : Bytes) : Token × Bytes :=
  if rest.head? = some bracket then (double, rest.tail) else (single, rest)

/-- `scan_next` for a key, at a character that is not blank. No part of the parser takes a
string over several lines for a key, so such a string fails here. -/
def scanToken (byte : UInt8) (rest : Bytes) : Option (Token × Bytes) :=
  if atNewline (byte :: rest) then some (.endl, afterNewline (byte :: rest))
  else
    match simpleToken byte with
    | some token => some (token, rest)
    | none =>
        if byte = 91 then some (scanBracket 91 .leftBracket .leftBrackets rest)
        else if byte = 93 then some (scanBracket 93 .rightBracket .rightBrackets rest)
        else if byte = 34 then
          if opensLines 34 rest then none
          else (scanString .text rest).map fun scanned => (.string scanned.1, scanned.2)
        else if byte = 39 then
          if opensLines 39 rest then none
          else (scanLitString rest).map fun scanned => (.litString scanned.1, scanned.2)
        else
          some (.literal ((byte :: rest).takeWhile bareChar), (byte :: rest).dropWhile bareChar)

/-- `scan_key`. -/
def scanKey (text : Bytes) : Option (Token × Bytes) :=
  match skipBlank text with
  | none => none
  | some [] => some (.fin, [])
  | some (byte :: rest) => scanToken byte rest

/-! ## Values -/

def isDigit (byte : UInt8) : Bool :=
  48 ≤ byte && byte ≤ 57

/-- The first characters of a text, one test for each. -/
def startsAs : List (UInt8 → Bool) → Bytes → Bool
  | [], _ => true
  | _ :: _, [] => false
  | test :: tests, byte :: text => test byte && startsAs tests text

/-- `test_time`. -/
def testTime (text : Bytes) : Bool :=
  startsAs [isDigit, isDigit, fun byte => byte == 58] text

/-- `test_date`. -/
def testDate (text : Bytes) : Bool :=
  startsAs [isDigit, isDigit, isDigit, isDigit, fun byte => byte == 45] text

/-- `nan` or `inf`. -/
def testNamed (text : Bytes) : Bool :=
  [110, 97, 110].isPrefixOf text || [105, 110, 102].isPrefixOf text

/-- `test_number`. -/
def testNumber (text : Bytes) : Bool :=
  isDigit (text.headD 0) || text.headD 0 ∈ [43, 45, 46, 95] || testNamed text

/-- A character of a number without a base. -/
def numberChar (byte : UInt8) : Bool :=
  isDigit byte || byte == 95 || byte == 43 || byte == 45 || byte == 46 || byte == 101 ||
    byte == 69

/-- `0x`, `0o` or `0b`. -/
def basePrefixed (text : Bytes) : Bool :=
  startsAs [fun byte => byte == 48, fun byte => byte == 120 || byte == 111 || byte == 98] text

/-- The value of decimal digits: no leading zero, and in the range of `strtoll`. -/
def decimalValue (digits : Bytes) : Option Int :=
  if digits.head? = some 48 ∧ 1 < digits.length then none
  else if ofDecimalDigits digits < 2 ^ 63 then some (ofDecimalDigits digits)
  else none

/-- What may follow a boolean. -/
def endsBool (rest : Bytes) : Bool :=
  match rest with
  | [] => true
  | byte :: _ => byte ∈ [0, 35, 32, 13, 10, 9, 44, 125, 93]

/-- `scan_bool`. -/
def scanBool (text : Bytes) : Option (Datum × Bytes) :=
  if [116, 114, 117, 101].isPrefixOf text then
    if endsBool (text.drop 4) then some (.boolean true, text.drop 4) else none
  else if [102, 97, 108, 115, 101].isPrefixOf text then
    if endsBool (text.drop 5) then some (.boolean false, text.drop 5) else none
  else none

section Values

-- Scans the values that are not scanned here.
variable (other : Bytes → Option (Datum × Bytes))

/-- The characters of a number, as many as go into the buffer of `scan_number`. -/
def numberSpan (text : Bytes) : Bytes :=
  (text.take 49).takeWhile numberChar

/-- `scan_number`. Only decimal integers are read here: `inf` and `nan` are floats, with a sign
or without one. -/
def scanNumber (text : Bytes) : Option (Datum × Bytes) :=
  if basePrefixed text || text.headD 0 ∈ [105, 110] || !(numberSpan text).all isDigit then
    other text
  else
    (decimalValue (numberSpan text)).map fun value =>
      (.int64 value, text.drop (numberSpan text).length)

/-- `scan_nonstring_literal`. -/
def scanNonstringLiteral (text : Bytes) : Option (Datum × Bytes) :=
  if testTime text || testDate text then other text
  else if text.headD 0 = 116 ∨ text.headD 0 = 102 then scanBool text
  else if testNumber text then scanNumber other text
  else none

/-- A character whose token is no value. -/
def startsNoValue (byte : UInt8) : Bool :=
  byte ∈ [46, 61, 44, 125, 93]

/-- `scan_value` and `parse_val`, at a character that is not blank. -/
def scanDatum (byte : UInt8) (rest : Bytes) : Option (Datum × Bytes) :=
  if atNewline (byte :: rest) || startsNoValue byte then none
  else if byte = 34 ∧ !opensLines 34 rest then
    (scanString .text rest).map fun scanned => (.string scanned.1, scanned.2)
  else if byte = 39 ∧ !opensLines 39 rest then
    (scanLitString rest).map fun scanned => (.string scanned.1, scanned.2)
  else if byte = 34 ∨ byte = 39 ∨ byte = 91 ∨ byte = 123 then other (byte :: rest)
  else scanNonstringLiteral other (byte :: rest)

/-- `scan_value` and `parse_val`. -/
def scanValue (text : Bytes) : Option (Datum × Bytes) :=
  match skipBlank text with
  | some (byte :: rest) => scanDatum other byte rest
  | _ => none

end Values

end Caal.Toml

import Caal.Toml.Scanner

/-!
# Parsing TOML

The parser of the vendored `tomlc17.c`: keys, section headers and key-value lines, the
tables they build, the loop over a document, and the lookups `toml_get` and `toml_seek`.
The table that lines go into (`curtab`) is kept as the path to it. Memory does not run
out; the limits on keys, tables and arrays are those of the source.
-/

namespace Caal.Toml

open CMemory

/-- `TABLE_MAX`, and `ARRAY_MAX`, which is the same. -/
def tableMax : Nat := 16384

/-- The parts a key may have behind the first: `KEYPARTMAX - 1`. -/
def laterParts : Nat := 9

/-! ## Tables -/

/-- `tab_find`. -/
def tabFind (key : Bytes) : Entries → Option Datum
  | [] => none
  | (found, value) :: entries => if found = key then some value else tabFind key entries

/-- Put a value where `tab_find` finds one. -/
def tabSet (key : Bytes) (value : Datum) : Entries → Entries
  | [] => []
  | (found, old) :: entries =>
      if found = key then (found, value) :: entries else (found, old) :: tabSet key value entries

/-- `tab_add`. -/
def tabAdd (key : Bytes) (value : Datum) (entries : Entries) : Option Entries :=
  match tabFind key entries with
  | some _ => none
  | none => if entries.length < tableMax then some (entries ++ [(key, value)]) else none

/-- `mkdatum(TOML_TABLE)` with flags. -/
def newTable (flags : Flags) : Datum := .table flags []

def Flags.none : Flags := ⟨false, false, false⟩

/-- A table first named in a section header, on the way to another. -/
def Flags.passed : Flags := ⟨false, true, false⟩

/-- A table that a section header has opened. -/
def Flags.opened : Flags := ⟨false, true, true⟩

/-- The table that a path goes on with at a value: the value, or the last element of an
array. -/
def Datum.descend : Datum → Option (Flags × Entries × (Flags → Entries → Datum))
  | .table flags entries => some (flags, entries, .table)
  | .array inlined elements =>
      match elements.getLast? with
      | some (.table flags entries) =>
          some (flags, entries, fun flags entries =>
            .array inlined (elements.dropLast ++ [.table flags entries]))
      | _ => none
  | _ => none

/-- `parse_std_table_expr` behind the header: the table at the path is made or opened. -/
def openTable : List Bytes → Flags → Entries → Option Entries
  | [], _, _ => none
  | [last], flags, entries =>
      match tabFind last entries with
      | none => if flags.inlined then none else tabAdd last (newTable .opened) entries
      | some (.table found inner) =>
          if found.explicit || !found.stdExpr then none
          else some (tabSet last (.table { found with explicit := true } inner) entries)
      | some _ => none
  | key :: path, _, entries =>
      match tabFind key entries with
      | none =>
          (openTable path .passed []).bind fun inner => tabAdd key (.table .passed inner) entries
      | some value =>
          match value.descend with
          | some (found, inner, rebuild) =>
              (openTable path found inner).map fun inner =>
                tabSet key (rebuild found inner) entries
          | none => none

/-- `parse_array_table_expr` behind the header: a table is added to the array at the
path. -/
def openArray : List Bytes → Entries → Option Entries
  | [], _ => none
  | [last], entries =>
      match tabFind last entries with
      | none => tabAdd last (.array false [newTable .none]) entries
      | some (.array inlined elements) =>
          if inlined || tableMax ≤ elements.length then none
          else some (tabSet last (.array inlined (elements ++ [newTable .none])) entries)
      | some _ => none
  | key :: path, entries =>
      match tabFind key entries with
      | none => (openArray path []).bind fun inner => tabAdd key (.table .passed inner) entries
      | some (.array true _) => none
      | some value =>
          match value.descend with
          | some (found, inner, rebuild) =>
              (openArray path inner).map fun inner => tabSet key (rebuild found inner) entries
          | none => none

/-- `parse_keyvalue_expr` from the table the key starts in. A key of several parts makes
the tables on its way, but does not reach into one that a header has opened. -/
def addValue (value : Datum) : Bool → List Bytes → Flags → Entries → Option Entries
  | _, [], _, _ => none
  | dotted, [last], flags, entries =>
      if flags.inlined || (dotted && flags.explicit) then none else tabAdd last value entries
  | dotted, key :: path, flags, entries =>
      match tabFind key entries with
      | none =>
          if dotted && flags.explicit then none
          else
            (addValue value true path .none []).bind fun inner =>
              tabAdd key (.table .none inner) entries
      | some (.table found inner) =>
          (addValue value true path found inner).map fun inner =>
            tabSet key (.table found inner) entries
      | some _ => none

/-- Change the table at a path. -/
def changeAt (change : Flags → Entries → Option Entries) :
    List Bytes → Flags → Entries → Option Entries
  | [], flags, entries => change flags entries
  | key :: path, _, entries =>
      match (tabFind key entries).bind Datum.descend with
      | some (found, inner, rebuild) =>
          (changeAt change path found inner).map fun inner =>
            tabSet key (rebuild found inner) entries
      | none => none

/-! ## Expressions -/

/-- `parser_t`: the table at the top and the path to `curtab`. -/
structure Parser where
  toptab : Entries
  curtab : List Bytes

def Parser.start : Parser := ⟨[], []⟩

/-- The text of a token that can be part of a key. -/
def Token.key : Token → Option Bytes
  | .literal text | .string text | .litString text => some text
  | _ => none

/-- The parts of a key behind its first, as many as there may be. A token that is no dot
is left to be scanned again. -/
def keyParts (left : Nat) (text : Bytes) : Option (List Bytes × Bytes) :=
  match scanKey text with
  | none => none
  | some (token, rest) =>
      if token ≠ .dot then some ([], text)
      else
        match left, scanKey rest with
        | left + 1, some (token, rest) =>
            match token.key with
            | none => none
            | some part => (keyParts left rest).map fun parsed => (part :: parsed.1, parsed.2)
        | _, _ => none

/-- `parse_key`, with its first token scanned. -/
def parseKey (token : Token) (text : Bytes) : Option (List Bytes × Bytes) :=
  match token.key with
  | none => none
  | some part => (keyParts laterParts text).map fun parsed => (part :: parsed.1, parsed.2)

/-- A key and the token that closes it. -/
def parseKeyUntil (closing token : Token) (text : Bytes) : Option (List Bytes × Bytes) :=
  match parseKey token text with
  | none => none
  | some (key, rest) =>
      match scanKey rest with
      | none => none
      | some (found, rest) => if found = closing then some (key, rest) else none

/-- A key whose first token is still to be scanned, and the token that closes it. -/
def scanKeyUntil (closing : Token) (text : Bytes) : Option (List Bytes × Bytes) :=
  match scanKey text with
  | none => none
  | some (token, rest) => parseKeyUntil closing token rest

section Document

variable (other : Bytes → Option (Datum × Bytes))

/-- `parse_keyvalue_expr`. -/
def parseKeyvalueExpr (parser : Parser) (token : Token) (text : Bytes) :
    Option (Parser × Bytes) :=
  match parseKeyUntil .equal token text with
  | none => none
  | some (key, rest) =>
      match scanValue other rest with
      | none => none
      | some (value, rest) =>
          (changeAt (addValue value false key) parser.curtab .none parser.toptab).map
            fun toptab => ({ parser with toptab := toptab }, rest)

/-- `parse_std_table_expr`. -/
def parseStdTableExpr (parser : Parser) (text : Bytes) : Option (Parser × Bytes) :=
  match scanKeyUntil .rightBracket text with
  | none => none
  | some (path, rest) =>
      (openTable path .none parser.toptab).map fun toptab => (⟨toptab, path⟩, rest)

/-- `parse_array_table_expr`. -/
def parseArrayTableExpr (parser : Parser) (text : Bytes) : Option (Parser × Bytes) :=
  match scanKeyUntil .rightBrackets text with
  | none => none
  | some (path, rest) =>
      (openArray path parser.toptab).map fun toptab => (⟨toptab, path⟩, rest)

/-- One expression of the document, with its first token scanned. -/
def parseExpression (parser : Parser) (token : Token) (text : Bytes) :
    Option (Parser × Bytes) :=
  if token = .leftBracket then parseStdTableExpr parser text
  else if token = .leftBrackets then parseArrayTableExpr parser text
  else parseKeyvalueExpr other parser token text

/-- The end of the line behind an expression, or of the text. -/
def scanEnd (text : Bytes) : Option Bytes :=
  match scanKey text with
  | none => none
  | some (token, rest) => if token = .fin ∨ token = .endl then some rest else none

/-- The loop of `toml_parse`, for a number of passes. -/
def parseLoop : Nat → Parser → Bytes → Option Parser
  | 0, _, _ => none
  | passes + 1, parser, text =>
      match scanKey text with
      | none => none
      | some (token, rest) =>
          if token = .fin then some parser
          else if token = .endl then parseLoop passes parser rest
          else
            match parseExpression other parser token rest with
            | none => none
            | some (parser, rest) => (scanEnd rest).bind (parseLoop passes parser)

/-- `toml_parse`: the table at the top. Each pass but the last takes at least a character. -/
def tomlParse (text : Bytes) : Option Entries :=
  (parseLoop other (text.length + 1) .start text).map Parser.toptab

end Document

/-! ## Lookups -/

/-- `toml_get`, which compares keys as C strings. -/
def tomlGet (key : Bytes) : Entries → Option Datum
  | [] => none
  | (found, value) :: entries =>
      if cstr found = key then some value else tomlGet key entries

/-- The parts of a key between its dots. -/
def dotParts : Bytes → List Bytes
  | [] => [[]]
  | byte :: rest =>
      if byte = 46 then [] :: dotParts rest
      else
        match dotParts rest with
        | [] => [[byte]]
        | part :: parts => (byte :: part) :: parts

/-- The loop of `toml_seek` over the parts, which goes on from a table only. -/
def seekFrom : List Bytes → Datum → Option Datum
  | [], datum => some datum
  | key :: path, .table _ entries => (tomlGet key entries).bind (seekFrom path)
  | _ :: _, _ => none

/-- `toml_seek`, with a key that goes into its buffer. -/
def tomlSeek (multipartKey : Bytes) (toptab : Entries) : Option Datum :=
  seekFrom (dotParts multipartKey) (.table .none toptab)

end Caal.Toml

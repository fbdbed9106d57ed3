import ComponentCompiler.Json.Basic
import ComponentCompiler.Text.Hexadecimal

/-!
# Reading documents

A text is read into a value in one pass from the left. A text that is no document is refused with the
cause and the line of the place where reading stopped. Beyond the standard grammar the words `NaN`,
`Infinity` and `-Infinity` are numbers.

## Main definitions

* `Json.Fault`, `Json.Fault.message` — the causes why a text is refused
* `Json.read` — reads a text

## Main results

* `Json.skipSpace_length_le` — skipping space does not lengthen a text
-/

namespace ComponentCompiler.Json

open ComponentCompiler.Number

/-- Why a text is no document. -/
inductive Fault where
  | byteOrderMark
  | value
  | memberName
  | colon
  | comma
  | extraText
  | openString
  | controlCharacter
  | escape
  | codePoint
deriving DecidableEq, Repr

/-- The wording of a cause. -/
def Fault.message : Fault → String
  | .byteOrderMark => "Unexpected UTF-8 BOM (decode using utf-8-sig)"
  | .value => "Expecting value"
  | .memberName => "Expecting property name enclosed in double quotes"
  | .colon => "Expecting ':' delimiter"
  | .comma => "Expecting ',' delimiter"
  | .extraText => "Extra data"
  | .openString => "Unterminated string starting at"
  | .controlCharacter => "Invalid control character at"
  | .escape => "Invalid \\escape"
  | .codePoint => "Invalid \\uXXXX escape"

/-- A cause with the text that is left where it was found. -/
structure Refusal where
  fault : Fault
  rest : List Char

/-- Reading yields a value and the text behind it, or is refused. -/
abbrev Reading (α : Type) := Except Refusal (α × List Char)

/-- Refuses the text that is left. -/
def refuse {α : Type} (fault : Fault) (rest : List Char) : Reading α :=
  .error ⟨fault, rest⟩

/-- The characters that may stand between the tokens of a document. -/
def isSpace (c : Char) : Bool :=
  c == ' ' || c == '\t' || c == '\n' || c == '\r'

/-- The text without the space at its start. -/
def skipSpace (text : List Char) : List Char :=
  text.dropWhile isSpace

theorem skipSpace_length_le (text : List Char) : (skipSpace text).length ≤ text.length :=
  (List.dropWhile_sublist isSpace).length_le

/-! ### Strings -/

/-- The character that a short escape stands for. -/
def shortEscape? : Char → Option Char
  | '"' => some '"'
  | '\\' => some '\\'
  | '/' => some '/'
  | 'b' => some '\x08'
  | 'f' => some '\x0c'
  | 'n' => some '\n'
  | 'r' => some '\r'
  | 't' => some '\t'
  | _ => none

/-- The number with the given four hexadecimal digits. -/
def codeUnit? (a b c d : Char) : Option Nat := do
  let a ← Text.hexValue? a
  let b ← Text.hexValue? b
  let c ← Text.hexValue? c
  let d ← Text.hexValue? d
  return ((a * 16 + b) * 16 + c) * 16 + d

/-- Puts a code unit in front of those that were read. -/
def consUnit (unit : Nat) (reading : Reading (List Nat)) : Reading (List Nat) :=
  reading.map fun r => (unit :: r.1, r.2)

/-- Reads the rest of a string up to its closing quote into code units, where `opening` is the text
from the opening quote on. An escape of a code unit needs a character behind it. -/
def readUnits (opening : List Char) : List Char → Reading (List Nat)
  | [] => refuse .openString opening
  | '"' :: rest => .ok ([], rest)
  | ['\\'] => refuse .openString opening
  | '\\' :: 'u' :: a :: b :: c :: d :: rest =>
    match codeUnit? a b c d with
    | some unit =>
      if rest.isEmpty then refuse .codePoint ('\\' :: 'u' :: a :: b :: c :: d :: rest)
      else consUnit unit (readUnits opening rest)
    | none => refuse .codePoint ('\\' :: 'u' :: a :: b :: c :: d :: rest)
  | '\\' :: 'u' :: rest => refuse .codePoint ('\\' :: 'u' :: rest)
  | '\\' :: c :: rest =>
    match shortEscape? c with
    | some meant => consUnit meant.toNat (readUnits opening rest)
    | none => refuse .escape ('\\' :: c :: rest)
  | c :: rest =>
    if c.toNat < 0x20 then refuse .controlCharacter (c :: rest)
    else consUnit c.toNat (readUnits opening rest)

/-- Joins the two halves of a character beyond the first plane. -/
def joinUnits : List Nat → List Char
  | [] => []
  | [unit] => [Char.ofNat unit]
  | high :: low :: rest =>
    if 0xD800 ≤ high && high < 0xDC00 && 0xDC00 ≤ low && low < 0xE000 then
      Char.ofNat (0x10000 + (high - 0xD800) * 0x400 + (low - 0xDC00)) :: joinUnits rest
    else Char.ofNat high :: joinUnits (low :: rest)

/-- Reads the rest of a string behind its opening quote. -/
def readString (text : List Char) : Reading String :=
  (readUnits ('"' :: text) text).map fun r => (String.ofList (joinUnits r.1), r.2)

/-! ### Numbers -/

/-- The number that decimal digits stand for. -/
def natOfDigits (digits : List Char) : Nat :=
  digits.foldl (fun n c => n * 10 + (c.toNat - 0x30)) 0

/-- The digits at the start of a text, and the rest. -/
def spanDigits (text : List Char) : List Char × List Char :=
  text.span Char.isDigit

/-- The digits of the integer part: a zero stands alone. -/
def spanWhole : List Char → List Char × List Char
  | '0' :: rest => (['0'], rest)
  | text => spanDigits text

/-- The digits of the fraction, empty if there is no point with a digit behind it. -/
def spanFraction : List Char → List Char × List Char
  | '.' :: rest =>
    match spanDigits rest with
    | ([], _) => ([], '.' :: rest)
    | found => found
  | text => ([], text)

/-- The exponent behind its mark, with its sign. -/
def exponentOf? (text : List Char) : Option (Int × List Char) :=
  let signed : Bool × List Char :=
    match text with
    | '-' :: rest => (true, rest)
    | '+' :: rest => (false, rest)
    | rest => (false, rest)
  match spanDigits signed.2 with
  | ([], _) => none
  | (digits, rest) =>
    let magnitude : Int := natOfDigits digits
    some (if signed.1 then -magnitude else magnitude, rest)

/-- The exponent at the start of a text, if there is one. -/
def spanExponent? : List Char → Option (Int × List Char)
  | 'e' :: rest | 'E' :: rest => exponentOf? rest
  | _ => none

/-- Reads a number without its sign. -/
def readNumber (negative : Bool) (start text : List Char) : Reading Json :=
  match spanWhole text with
  | ([], _) => refuse .value start
  | (whole, afterWhole) =>
    let fraction := spanFraction afterWhole
    let exponent? := spanExponent? fraction.2
    if fraction.1.isEmpty && exponent?.isNone then
      let magnitude : Int := natOfDigits whole
      .ok (.int (if negative then -magnitude else magnitude), afterWhole)
    else
      let exponent := exponent?.getD (0, fraction.2)
      let digits := natOfDigits (whole ++ fraction.1)
      .ok (.float (Binary64.ofDecimal negative digits (exponent.1 - fraction.1.length)),
        exponent.2)

/-! ### Values -/

/-- The value that a word at the start of a text stands for. -/
def wordValues : List (String × Json) :=
  [("null", .null), ("true", .bool true), ("false", .bool false), ("NaN", .float .undefined),
    ("Infinity", .float (.infinite false)), ("-Infinity", .float (.infinite true))]

/-- Reads a word that stands for a value. -/
def readWord? (text : List Char) : Option (Json × List Char) :=
  wordValues.findSome? fun word =>
    if word.1.toList.isPrefixOf text then some (word.2, text.drop word.1.length) else none

/-- Reads a value that is neither a string nor nested. -/
def readScalar (text : List Char) : Reading Json :=
  match readWord? text with
  | some found => .ok found
  | none =>
    match text with
    | '-' :: rest => readNumber true text rest
    | _ => readNumber false text text

/-- Reads the name of a member and the colon behind it. -/
def readMemberName (text : List Char) : Except Refusal (String × List Char) :=
  match text with
  | '"' :: rest => do
    let (key, rest) ← readString rest
    match skipSpace rest with
    | ':' :: rest => .ok (key, skipSpace rest)
    | rest => refuse .colon rest
  | _ => refuse .memberName text

mutual

/-- Reads a value. Each character of a text leads to at most two nested calls. -/
def readValue : Nat → List Char → Except Refusal (Json × List Char)
  | 0, text => refuse .value text
  | fuel + 1, text =>
    match text with
    | '"' :: rest => (readString rest).map fun r => (.string r.1, r.2)
    | '{' :: rest =>
      match skipSpace rest with
      | '}' :: rest => .ok (.object [], rest)
      | rest => (readMembers fuel rest).map fun r => (Json.ofMembers r.1, r.2)
    | '[' :: rest =>
      match skipSpace rest with
      | ']' :: rest => .ok (.array [], rest)
      | rest => (readItems fuel rest).map fun r => (.array r.1, r.2)
    | _ => readScalar text

/-- Reads the members of an object up to the closing brace. -/
def readMembers : Nat → List Char → Except Refusal (List (String × Json) × List Char)
  | 0, text => refuse .memberName text
  | fuel + 1, text => do
    let (key, rest) ← readMemberName text
    let (value, rest) ← readValue fuel rest
    match skipSpace rest with
    | '}' :: rest => .ok ([(key, value)], rest)
    | ',' :: rest => do
      let (members, rest) ← readMembers fuel (skipSpace rest)
      .ok ((key, value) :: members, rest)
    | rest => refuse .comma rest

/-- Reads the items of an array up to the closing bracket. -/
def readItems : Nat → List Char → Except Refusal (List Json × List Char)
  | 0, text => refuse .value text
  | fuel + 1, text => do
    let (value, rest) ← readValue fuel text
    match skipSpace rest with
    | ']' :: rest => .ok ([value], rest)
    | ',' :: rest => do
      let (items, rest) ← readItems fuel (skipSpace rest)
      .ok (value :: items, rest)
    | rest => refuse .comma rest

end

/-- Reads a text that consists of one value. -/
def readAll (text : List Char) : Except Refusal Json :=
  match text with
  | '\uFEFF' :: _ => .error ⟨.byteOrderMark, text⟩
  | _ => do
    let (value, rest) ← readValue (2 * text.length + 2) (skipSpace text)
    match skipSpace rest with
    | [] => .ok value
    | rest => .error ⟨.extraText, rest⟩

/-- Why a text is no document, and in which line. -/
structure ReadError where
  fault : Fault
  line : Nat
deriving DecidableEq, Repr

/-- Reads a text that consists of one value. The line of a refusal counts the line feeds before the
place where reading stopped. -/
def read (text : String) : Except ReadError Json :=
  match readAll text.toList with
  | .ok value => .ok value
  | .error refusal =>
    let before := text.toList.take (text.toList.length - refusal.rest.length)
    .error ⟨refusal.fault, before.count '\n' + 1⟩

end ComponentCompiler.Json

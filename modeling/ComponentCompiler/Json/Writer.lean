import ComponentCompiler.Json.Basic
import ComponentCompiler.Number.Shortest
import ComponentCompiler.Text.Hexadecimal

/-!
# Writing documents

A value is written in ASCII characters only, either on one line or with one member a line. The
members of an object can be brought into the order of their names, so that the text depends on the
content of the objects alone.

## Main definitions

* `Json.quoteText` — a string in quotes with its escapes
* `Json.compact` — a value on one line
* `Json.pretty` — a value with its nesting shown by indentation
* `Json.sorted` — a value with the members of all objects in the order of their names

## Main results

* `Json.escapeCharacter_of_plain` — a plain character is written as it is
-/

namespace ComponentCompiler.Json

open ComponentCompiler.Number

/-- A number with a point in the layout of documents: positional from one ten-thousandth up to
below ten to the sixteenth, otherwise with an exponent of at least two digits. -/
def numberLayout : Layout where
  leastPoint := -4
  greatestPoint := 16
  exponentDigits := 2
  infinity := "Infinity"
  undefined := "NaN"

/-- A character that is written as it is. -/
def isPlainCharacter (c : Char) : Bool :=
  0x20 ≤ c.toNat && c.toNat ≤ 0x7E && c != '"' && c != '\\'

/-- The escape of a code unit. -/
def unitEscape (unit : Nat) : List Char :=
  '\\' :: 'u' :: Text.hexDigits 4 unit

/-- A character as it is written inside quotes. A character beyond the first plane is written as two
code units. -/
def escapeCharacter (c : Char) : List Char :=
  if isPlainCharacter c then [c]
  else
    match c with
    | '"' => ['\\', '"']
    | '\\' => ['\\', '\\']
    | '\n' => ['\\', 'n']
    | '\r' => ['\\', 'r']
    | '\t' => ['\\', 't']
    | '\x08' => ['\\', 'b']
    | '\x0c' => ['\\', 'f']
    | c =>
      if c.toNat < 0x10000 then unitEscape c.toNat
      else
        let above := c.toNat - 0x10000
        unitEscape (0xD800 + above / 0x400) ++ unitEscape (0xDC00 + above % 0x400)

theorem escapeCharacter_of_plain {c : Char} (plain : isPlainCharacter c = true) :
    escapeCharacter c = [c] := by
  simp [escapeCharacter, plain]

/-- A string in quotes with its escapes. -/
def quoteText (text : String) : String :=
  String.ofList ('"' :: (text.toList.flatMap escapeCharacter ++ ['"']))

/-- The text of a value that is not nested. -/
def scalarText : Json → String
  | .null => "null"
  | .bool value => if value then "true" else "false"
  | .int value => toString value
  | .float value => value.render numberLayout
  | .string value => quoteText value
  | .array _ => "[]"
  | .object _ => "\x7b\x7d"

mutual

/-- A value on one line. -/
def compact : Json → String
  | .array items => "[" ++ ", ".intercalate (compactItems items) ++ "]"
  | .object members => "\x7b" ++ ", ".intercalate (compactMembers members) ++ "\x7d"
  | .null => scalarText .null
  | .bool value => scalarText (.bool value)
  | .int value => scalarText (.int value)
  | .float value => scalarText (.float value)
  | .string value => scalarText (.string value)

/-- The items of an array, each on one line. -/
def compactItems : List Json → List String
  | [] => []
  | item :: rest => item.compact :: compactItems rest

/-- The members of an object, each on one line. -/
def compactMembers : List (String × Json) → List String
  | [] => []
  | (key, value) :: rest => (quoteText key ++ ": " ++ value.compact) :: compactMembers rest

end

/-- Two spaces for each level of nesting, on a new line. -/
def newLine (depth : Nat) : String :=
  "\n" ++ String.ofList (List.replicate (2 * depth) ' ')

mutual

/-- A value with its nesting shown by indentation, from the given depth on. -/
def prettyAt (depth : Nat) : Json → String
  | .array items =>
    if items.isEmpty then "[]"
    else
      let between := "," ++ newLine (depth + 1)
      "[" ++ newLine (depth + 1) ++ between.intercalate (prettyItems (depth + 1) items) ++
        newLine depth ++ "]"
  | .object members =>
    if members.isEmpty then "\x7b\x7d"
    else
      let between := "," ++ newLine (depth + 1)
      "\x7b" ++ newLine (depth + 1) ++ between.intercalate (prettyMembers (depth + 1) members) ++
        newLine depth ++ "\x7d"
  | .null => scalarText .null
  | .bool value => scalarText (.bool value)
  | .int value => scalarText (.int value)
  | .float value => scalarText (.float value)
  | .string value => scalarText (.string value)

/-- The items of an array at the given depth. -/
def prettyItems (depth : Nat) : List Json → List String
  | [] => []
  | item :: rest => prettyAt depth item :: prettyItems depth rest

/-- The members of an object at the given depth. -/
def prettyMembers (depth : Nat) : List (String × Json) → List String
  | [] => []
  | (key, value) :: rest =>
    (quoteText key ++ ": " ++ prettyAt depth value) :: prettyMembers depth rest

end

/-- A value with its nesting shown by indentation. -/
def pretty (value : Json) : String :=
  prettyAt 0 value

/-- Puts members in the order of their names, by code points. -/
def sortMembers (members : List (String × Json)) : List (String × Json) :=
  members.mergeSort fun a b => a.1 ≤ b.1

mutual

/-- A value with the members of all objects in the order of their names. -/
def sorted : Json → Json
  | .array items => .array (sortedItems items)
  | .object members => .object (sortMembers (sortedMembers members))
  | .null => .null
  | .bool value => .bool value
  | .int value => .int value
  | .float value => .float value
  | .string value => .string value

/-- The items of an array with sorted members. -/
def sortedItems : List Json → List Json
  | [] => []
  | item :: rest => item.sorted :: sortedItems rest

/-- The members of an object, each with sorted members. -/
def sortedMembers : List (String × Json) → List (String × Json)
  | [] => []
  | (key, value) :: rest => (key, value.sorted) :: sortedMembers rest

end

end ComponentCompiler.Json

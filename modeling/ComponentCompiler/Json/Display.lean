import ComponentCompiler.Json.Basic
import ComponentCompiler.Number.Shortest
import ComponentCompiler.Text.Quoted

/-!
# Values in texts

Where a text is wanted and a document gives another value, the value is shown: truth values and the
absent value are capitalised words, strings inside of values are quoted, and numbers are written in
full.

## Main definitions

* `Json.display` — a value as messages show it
* `Json.asText` — a value in the place of a text: a string as it is, others as shown
-/

namespace ComponentCompiler.Json

open ComponentCompiler.Number

/-- A number with a point in the layout of shown values: as in documents, with short words for the
values that are not finite. -/
def displayLayout : Layout where
  leastPoint := -4
  greatestPoint := 16
  exponentDigits := 2
  infinity := "inf"
  undefined := "nan"

mutual

/-- A value as messages show it. -/
def display : Json → String
  | .null => "None"
  | .bool value => if value then "True" else "False"
  | .int value => toString value
  | .float value => value.render displayLayout
  | .string value => Text.quote value
  | .array items => "[" ++ ", ".intercalate (displayItems items) ++ "]"
  | .object members => "\x7b" ++ ", ".intercalate (displayMembers members) ++ "\x7d"

/-- The items of an array as messages show them. -/
def displayItems : List Json → List String
  | [] => []
  | item :: rest => item.display :: displayItems rest

/-- The members of an object as messages show them. -/
def displayMembers : List (String × Json) → List String
  | [] => []
  | (key, value) :: rest => (Text.quote key ++ ": " ++ value.display) :: displayMembers rest

end

/-- A value in the place of a text. -/
def asText : Json → String
  | .string value => value
  | value => value.display

@[simp] theorem asText_string (value : String) : asText (.string value) = value := rfl

end ComponentCompiler.Json

import ComponentCompiler.Dictionary
import ComponentCompiler.Number.Binary64

/-!
# Values of documents

A component is exchanged as a document of nested values. Integers keep all their digits and are kept
apart from numbers with a point or an exponent. The members of an object are in the order of the
text.

## Main definitions

* `Json` — the values
* `Json.get?` — a member of an object
* `Json.isFalsy` — the values that count as absent where a section is optional
* `Json.typeName` — the name of the type of a value in messages
-/

namespace ComponentCompiler

/-- A value of a document. -/
inductive Json where
  | null
  | bool (value : Bool)
  | int (value : Int)
  | float (value : Number.Binary64)
  | string (value : String)
  | array (items : List Json)
  | object (members : List (String × Json))
deriving Repr, Inhabited

namespace Json

/-- Whether a value counts as absent in the place of an optional section. -/
def isFalsy : Json → Bool
  | .null => true
  | .bool value => !value
  | .int value => value == 0
  | .float value => value.isZero
  | .string value => value.isEmpty
  | .array items => items.isEmpty
  | .object members => members.isEmpty

/-- Whether a value is the absent one. -/
def isNull : Json → Bool
  | .null => true
  | _ => false

/-- The text of a string. -/
def string? : Json → Option String
  | .string value => some value
  | _ => none

/-- The name of the type of a value, as messages give it. -/
def typeName : Json → String
  | .null => "NoneType"
  | .bool _ => "bool"
  | .int _ => "int"
  | .float _ => "float"
  | .string _ => "str"
  | .array _ => "list"
  | .object _ => "dict"

/-- The member of an object with the given name. -/
def get? (value : Json) (key : String) : Option Json :=
  match value with
  | .object members => lookup? key members
  | _ => none

/-- An object with the given members; a repeated name keeps its first place and takes its last
value. -/
def ofMembers (members : List (String × Json)) : Json :=
  .object (Dictionary.ofList members).toList

end Json

end ComponentCompiler

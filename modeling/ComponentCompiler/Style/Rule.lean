import ComponentCompiler.Naming
import ComponentCompiler.Run

/-!
# Rules from style objects

A style object that holds known values only becomes a rule for its class, one declaration for each
entry. A style object that cannot be read becomes a comment that shows its source, with a warning.

## Main definitions

* `Style.declarations` — the declarations of a style object
* `Style.spaceClosers` — a text that cannot close a comment
* `Style.rule` — the rule of a class, or the comment in its place
* `Style.Collection`, `Style.collect` — the style objects by their classes, the first one winning
* `Style.rules` — the rules of a collection

## Main results

* `Style.spaceClosers_of_no_star` — a text without stars is kept
* `Style.collect_of_known`, `Style.collect_of_new` — what collecting a style object does
-/

namespace ComponentCompiler.Style

open Script (LiteralFault evaluateLiteral)

/-- A declaration on a line of its own. -/
def declaration (key value : String) : String :=
  "  " ++ Naming.hyphenate key ++ ": " ++ value ++ ";"

/-- The declarations of a style object, one on each line. -/
def declarations (code : String) : Except LiteralFault String :=
  (evaluateLiteral code.toList).map fun pairs =>
    "\n".intercalate (pairs.map fun (key, value) =>
      declaration (String.ofList key) (String.ofList value))

/-- Puts a space into each `*/`, so that the text cannot close a comment. -/
def spaceClosers : List Char → List Char
  | '*' :: '/' :: rest => '*' :: ' ' :: '/' :: spaceClosers rest
  | c :: rest => c :: spaceClosers rest
  | [] => []

theorem spaceClosers_of_no_star {text : List Char} (plain : '*' ∉ text) :
    spaceClosers text = text := by
  induction text with
  | nil => rfl
  | cons c rest ih =>
    simp only [List.mem_cons, not_or] at plain
    unfold spaceClosers
    split
    · simp_all
    · next d other _ same =>
      obtain ⟨rfl, rfl⟩ := List.cons.inj same
      rw [ih plain.2]
    · simp_all

/-- The comment in the place of a rule that cannot be written. -/
def ruleComment (className code : String) : String :=
  "/* ." ++ className ++ ": could not convert style object: " ++
    String.ofList (spaceClosers code.toList) ++ " */"

/-- The rule with the given declarations; there is none without declarations. -/
def ruleOf (className declarations : String) : String :=
  if declarations.isEmpty then ""
  else "." ++ className ++ " \x7b\n" ++ declarations ++ "\n\x7d"

/-- The rule of a class for a style object. -/
def rule (className code : String) : Run String :=
  match declarations code with
  | .ok text => pure (ruleOf className text)
  | .error fault => do
    Run.warn (.unreadableStyle className fault)
    return ruleComment className code

/-! ### Collecting style objects -/

/-- Style objects by their classes. -/
abbrev Collection := Entries String

/-- Adds the style object of a class, unless the class has one. -/
def collect (collection : Collection) (className code : String) : Collection :=
  if collection.contains className then collection else collection.put className code

theorem collect_of_known {collection : Collection} {className : String}
    (known : collection.contains className = true) (code : String) :
    collect collection className code = collection := by
  simp [collect, known]

theorem collect_of_new {collection : Collection} {className : String}
    (new : collection.contains className = false) (code : String) :
    collect collection className code = collection.put className code := by
  simp [collect, new]

/-- Adds style objects in order. -/
def collectAll (collection : Collection) (found : List (String × String)) : Collection :=
  found.foldl (fun collection pair => collect collection pair.1 pair.2) collection

/-- The rules of a list of classes, without the empty ones. -/
def rulesOf : List (String × String) → Run (List String)
  | [] => pure []
  | (className, code) :: rest => do
    let text ← rule className code
    let others ← rulesOf rest
    return if text.isEmpty then others else text :: others

/-- The rules of a collection, with an empty line between them. -/
def rules (collection : Collection) : Run String := do
  let texts ← rulesOf collection.toList
  return "\n\n".intercalate texts

end ComponentCompiler.Style

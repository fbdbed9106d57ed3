import ComponentCompiler.Naming
import ComponentCompiler.Run
import ComponentCompiler.Script.Reference

/-!
# Embedded code in its two contexts

The code of a component ends up in one of two contexts. The setup section declares the state as
local names and keeps the props in their container; in the markup the props are local names too.
Moreover an object literal in the markup gets the keys of its entries hyphenated.

## Main definitions

* `Context` — the two contexts
* `Embedded` — code for a context, with what happened to it
* `embed` — brings code into a context
* `embedCode` — the same as a step of a run, with a warning if something had to be mended

## Main results

* `code_embed_none` — missing code becomes empty code
* `outcome_embedCode` — bringing code into a context never fails
-/

namespace ComponentCompiler

open Script (Renaming renameKeys localizeReferences)

/-- Where embedded code ends up. -/
inductive Context where
  | setup | markup
deriving DecidableEq, Repr

/-- What happened to code. -/
inductive EmbedStatus where
  | changed
  | unchanged
  /-- Something was missing or could not be read, and the code is the best that can be given. -/
  | recovered
deriving DecidableEq, Repr

/-- The word for a status. -/
def EmbedStatus.name : EmbedStatus → String
  | .changed => "rewritten"
  | .unchanged => "unchanged"
  | .recovered => "recovered"

/-- What was missing or could not be read. -/
inductive Diagnostic where
  | missing
  | unreadable
deriving DecidableEq, Repr

/-- The wording of a diagnostic. -/
def Diagnostic.message : Diagnostic → String
  | .missing => "missing expression"
  | .unreadable => unreadableCode

/-- Code for a context, with what happened to it. -/
structure Embedded where
  code : String
  status : EmbedStatus
  diagnostic : Option Diagnostic := none
deriving DecidableEq, Repr

/-- The result of a change that turned the first code into the second. -/
def Embedded.ofChange (before after : String) : Embedded :=
  { code := after, status := if after = before then .unchanged else .changed }

/-- A key in small letters with hyphens. -/
def kebabKey (key : List Char) : List Char :=
  (Naming.kebabCase (String.ofList key)).toList

/-- Whether code looks like an object literal. -/
def opensBrace (code : List Char) : Bool :=
  (Text.trimStart code).head? == some '\x7b'

/-- Brings code into a context: references become the names they stand for there, and in the markup
the keys of an object literal are hyphenated. -/
def embedText (context : Context) (code : String) : Embedded :=
  let processed := localizeReferences (context == .setup) code.toList
  if context == .markup && opensBrace processed then
    match renameKeys kebabKey processed with
    | .unreadable =>
      { code := String.ofList processed, status := .recovered, diagnostic := some .unreadable }
    | .notAnObject => .ofChange code (String.ofList processed)
    | .renamed hyphenated => .ofChange code (String.ofList hyphenated)
  else .ofChange code (String.ofList processed)

/-- Brings code into a context. Missing code becomes empty code. -/
def embed (context : Context) : Option String → Embedded
  | none => { code := "", status := .recovered, diagnostic := some .missing }
  | some code => embedText context code

@[simp] theorem code_embed_none (context : Context) : (embed context none).code = "" := rfl

@[simp] theorem code_embed_some (context : Context) (code : String) :
    (embed context (some code)).code = (embedText context code).code := rfl

/-- The warning that a diagnostic about code gives. -/
def Diagnostic.warning (diagnostic : Diagnostic) (code : String) : Warning :=
  match diagnostic with
  | .missing => .missingCode
  | .unreadable => .unreadableKeys code

/-- Brings code into a context, with a warning if something had to be mended. -/
def embedCode (context : Context) (code : Option String) : Run String :=
  let embedded := embed context code
  match embedded.diagnostic with
  | none => pure embedded.code
  | some diagnostic => do
    Run.warn (diagnostic.warning (code.getD ""))
    return embedded.code

/-- Bringing code into a context never fails. -/
@[simp] theorem outcome_embedCode (context : Context) (code : Option String) :
    (embedCode context code).outcome = .ok (embed context code).code := by
  simp only [embedCode]
  split
  · rfl
  · rfl

/-- Bringing code into a context meets no style objects. -/
@[simp] theorem styles_embedCode (context : Context) (code : Option String) :
    (embedCode context code).styles = [] := by
  simp only [embedCode]
  split
  · rfl
  · rfl

end ComponentCompiler

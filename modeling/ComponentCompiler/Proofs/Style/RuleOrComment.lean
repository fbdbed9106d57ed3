import ComponentCompiler.Proofs.Markup.ScopedClass
import ComponentCompiler.Proofs.Script.Entries
import Mathlib.Data.List.Chain

/-!
# What becomes of a style object

A style object becomes a rule as a whole or not at all. An object literal in which each item is a
pair with a known value becomes a rule with one declaration for each item, in order, and nothing is
written for a literal without items. Everything else becomes a comment, and there is a warning.

The comment shows the code, which may be anything. A space is put into each `*/` of it, and since
the other parts of the comment neither begin with a slash nor end with a star, the comment is closed
at its end and nowhere before, as long as the name of the class does not close it.

## Main definitions

* `IsUnclosed`, `IsComment` — texts that close no comment, and comments
* `Declares` — the declaration of an item
* `Becomes` — what becomes of a style object

## Main results

* `isUnclosed_spaceClosers` — the code in a comment does not close it
* `becomes_rule` — what the rule of a class is
* `rule_iff` — when it is nothing, a rule or a comment
-/

namespace ComponentCompiler.Style

open Markup (declarationLines isEmpty_declarationLines)
open Script (Tree IsKnownPair objectLiteral? Snippet LiteralFault evaluateLiteral
  evaluateLiteral_eq_ok_iff)

/-! ### Comments -/

/-- No star of a text stands before a slash, so nothing in the text closes a comment. -/
def IsUnclosed (text : List Char) : Prop :=
  text.IsChain fun c d => ¬(c = '*' ∧ d = '/')

theorem isUnclosed_iff {text : List Char} : IsUnclosed text ↔ ¬['*', '/'] <:+: text := by
  rw [IsUnclosed, List.isChain_iff_forall_rel_of_append_cons_cons]
  constructor
  · rintro apart ⟨front, back, rfl⟩
    have whole : front ++ ['*', '/'] ++ back = front ++ '*' :: '/' :: back := by simp
    exact apart whole ⟨rfl, rfl⟩
  · rintro unclosed _ _ front back rfl ⟨rfl, rfl⟩
    exact unclosed ⟨front, back, by simp⟩

theorem IsUnclosed.append {first second : List Char} (unclosed : IsUnclosed first)
    (later : IsUnclosed second)
    (apart : first.getLast? ≠ some '*' ∨ second.head? ≠ some '/') : IsUnclosed (first ++ second) := by
  refine List.isChain_append.2 ⟨unclosed, later, ?_⟩
  rintro c last d head ⟨rfl, rfl⟩
  exact apart.elim (· last) (· head)

theorem head?_spaceClosers (text : List Char) : (spaceClosers text).head? = text.head? := by
  unfold spaceClosers
  split <;> rfl

theorem isUnclosed_spaceClosers (text : List Char) : IsUnclosed (spaceClosers text) := by
  fun_induction spaceClosers text with
  | case1 rest ih =>
    have slash : IsUnclosed ('/' :: spaceClosers rest) := List.isChain_cons.2 ⟨by simp, ih⟩
    exact .cons_cons (by decide) (.cons_cons (by decide) slash)
  | case2 c rest other ih =>
    refine List.isChain_cons.2 ⟨?_, ih⟩
    rw [head?_spaceClosers]
    rintro d head ⟨rfl, rfl⟩
    obtain ⟨tail, rfl⟩ := List.head?_eq_some_iff.1 head
    exact other tail rfl rfl
  | case3 => exact .nil

/-- A comment that is closed at its end and nowhere before. -/
structure IsComment (text : List Char) : Prop where
  delimited : ∃ body, text = '/' :: '*' :: (body ++ ['*', '/'])
  once : ∀ front back, text = front ++ '*' :: '/' :: back → back = []

theorem isComment_of_isUnclosed {body : List Char}
    (unclosed : IsUnclosed ('/' :: '*' :: (body ++ ['*']))) :
    IsComment ('/' :: '*' :: (body ++ ['*', '/'])) := by
  refine ⟨⟨body, rfl⟩, fun front back whole => ?_⟩
  rcases List.eq_nil_or_concat back with none | ⟨init, last, rfl⟩
  · exact none
  · -- Such a closing would stand before the last slash, where nothing is closed.
    have same : ('/' :: '*' :: (body ++ ['*'])) ++ ['/'] =
        (front ++ '*' :: '/' :: init) ++ [last] := by
      simpa using whole
    have shorter := (List.append_inj' same rfl).1
    exact absurd ⟨front, init, by simp [shorter]⟩ (isUnclosed_iff.1 unclosed)

/-- The comment in the place of a rule is closed at its end, whatever the code is. -/
theorem isComment_ruleComment {className : String} (code : String)
    (unclosed : ¬['*', '/'] <:+: className.toList) :
    IsComment (ruleComment className code).toList := by
  -- The parts of the comment are unclosed, and no star at the end of one meets a slash.
  have wording : IsUnclosed ": could not convert style object: ".toList :=
    isUnclosed_iff.2 (by decide)
  have back : IsUnclosed [' ', '*'] := isUnclosed_iff.2 (by decide)
  have named : IsUnclosed ("/* .".toList ++ className.toList) :=
    .append (isUnclosed_iff.2 (by decide)) (isUnclosed_iff.2 unclosed) (.inl (by decide))
  have worded := named.append wording (.inr (by decide))
  have shown := worded.append (isUnclosed_spaceClosers code.toList)
    (.inl (by rw [List.getLast?_append_of_ne_nil _ (by decide)]; decide))
  have opening := shown.append back (.inr (by decide))
  let body := " .".toList ++ className.toList ++ ": could not convert style object: ".toList ++
    spaceClosers code.toList ++ [' ']
  have whole : IsUnclosed ('/' :: '*' :: (body ++ ['*'])) := by simpa [body] using opening
  simpa [ruleComment, body] using isComment_of_isUnclosed whole

/-! ### Declarations -/

/-- The items of the object literal that a style object consists of, white space aside. -/
def literalItems? (code : String) : Option (List Tree) :=
  (objectLiteral? (Snippet.ofExpression (Text.trim code.toList))).map fun focus => focus.tree.items

/-- The declaration of an item that is a pair with a known value. -/
def Declares (item : Tree) (line : String) : Prop :=
  ∃ name text, IsKnownPair item name text ∧
    line = declaration (String.ofList name) (String.ofList text)

/-- The rule of a class with the given declarations, one on each line. -/
def ruleText (className : String) (lines : List String) : String :=
  "." ++ className ++ " \x7b\n" ++ "\n".intercalate lines ++ "\n\x7d"

/-- What becomes of a style object, given the items of its literal if it is one, and the warnings
that there are. -/
inductive Becomes (className : String) : Option (List Tree) → String → List Warning → Prop
  | nothing : Becomes className (some []) "" []
  | rule {items : List Tree} {lines : List String} (some : items ≠ [])
      (each : List.Forall₂ Declares items lines) :
      Becomes className (.some items) (ruleText className lines) []
  | comment {literal : Option (List Tree)} {text : String} {warning : Warning}
      (other : ∀ items, literal = .some items → ¬∀ item ∈ items, ∃ line, Declares item line)
      (comment : IsComment text.toList) : Becomes className literal text [warning]

theorem exists_declares_of_forall₂ {items : List Tree} {lines : List String}
    (each : List.Forall₂ Declares items lines) : ∀ item ∈ items, ∃ line, Declares item line := by
  induction each with
  | nil => exact nofun
  | cons here _ ih => exact List.forall_mem_cons.2 ⟨⟨_, here⟩, ih⟩

theorem exists_pairs_of_declares {items : List Tree}
    (each : ∀ item ∈ items, ∃ line, Declares item line) :
    ∃ pairs, List.Forall₂ (fun item (pair : List Char × List Char) =>
      IsKnownPair item pair.1 pair.2) items pairs := by
  induction items with
  | nil => exact ⟨[], .nil⟩
  | cons item items ih =>
    obtain ⟨⟨_, name, text, known, -⟩, others⟩ := List.forall_mem_cons.1 each
    obtain ⟨pairs, later⟩ := ih others
    exact ⟨(name, text) :: pairs, .cons known later⟩

/-- The declarations of the pairs that a literal is read into. -/
theorem forall₂_declares {items : List Tree} {pairs : List (List Char × List Char)}
    (each : List.Forall₂ (fun item (pair : List Char × List Char) =>
      IsKnownPair item pair.1 pair.2) items pairs) :
    List.Forall₂ Declares items (pairs.map fun pair =>
      declaration (String.ofList pair.1) (String.ofList pair.2)) := by
  rw [List.forall₂_map_right_iff]
  exact each.imp fun _ pair known => ⟨pair.1, pair.2, known, rfl⟩

theorem rule_of_ok (className : String) {code : String} {pairs : List (List Char × List Char)}
    (read : evaluateLiteral code.toList = .ok pairs) :
    rule className code = pure (ruleOf className (declarationLines pairs)) := by
  have declared : declarations code = .ok (declarationLines pairs) := by
    rw [declarations, read]
    exact congrArg Except.ok rfl
  unfold rule
  rw [declared]

theorem rule_of_error (className : String) {code : String} {fault : LiteralFault}
    (refused : evaluateLiteral code.toList = .error fault) :
    rule className code = ⟨.ok (ruleComment className code),
      [.warning (.unreadableStyle className fault)]⟩ := by
  have declared : declarations code = .error fault := by
    rw [declarations, refused]
    rfl
  unfold rule
  rw [declared]
  rfl

/-- What becomes of a style object is nothing, a rule or a comment. -/
theorem becomes_rule {className : String} (code : String)
    (unclosed : ¬['*', '/'] <:+: className.toList) :
    ∃ text, (rule className code).outcome = .ok text ∧
      Becomes className (literalItems? code) text (rule className code).warnings := by
  cases read : evaluateLiteral code.toList with
  | error fault =>
    rw [rule_of_error className read]
    refine ⟨_, rfl, .comment (fun items literal each => ?_) (isComment_ruleComment code unclosed)⟩
    -- If all items had declarations, the literal would have been read.
    obtain ⟨focus, object, rfl⟩ := Option.map_eq_some_iff.1 literal
    obtain ⟨pairs, known⟩ := exists_pairs_of_declares each
    rw [evaluateLiteral_eq_ok_iff.2 ⟨focus, object, known⟩] at read
    cases read
  | ok pairs =>
    obtain ⟨focus, object, each⟩ := evaluateLiteral_eq_ok_iff.1 read
    have literal : literalItems? code = some focus.tree.items := by simp [literalItems?, object]
    rw [rule_of_ok className read, literal]
    refine ⟨_, rfl, ?_⟩
    generalize focus.tree.items = items at each
    cases pairs with
    | nil =>
      cases each
      exact .nothing
    | cons pair pairs =>
      have some : items ≠ [] := by
        rintro rfl
        cases each
      rw [ruleOf, isEmpty_declarationLines (List.cons_ne_nil _ _), if_neg Bool.false_ne_true]
      exact .rule some (forall₂_declares each)

end ComponentCompiler.Style

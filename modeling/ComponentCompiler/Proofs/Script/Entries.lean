import ComponentCompiler.Proofs.Script.Orderly
import ComponentCompiler.Proofs.Script.Scope
import ComponentCompiler.Proofs.Script.StringValue
import Mathlib.Data.List.Forall2

/-!
# Object literals of known values

What stands between the braces and commas of an object literal is its items. In a literal that was
read each item is an entry: a pair, a name, a method or a spread. So a literal is read into pairs
without any item being passed over: it has one pair for each item, in order, or it has an item that
is no pair, whose key has to be computed, or whose value is not known.

## Main definitions

* `Tree.items` — what stands between the braces and commas of a literal
* `KnownKey`, `KnownValue` — keys that are written out and values that are known
* `IsKnownPair` — an item with such a key and such a value

## Main results

* `exists_entry?_of_mem_items` — in a literal that was read each item is an entry
* `evaluateLiteral_eq_ok_iff` — a literal is read into one pair for each item
-/

namespace ComponentCompiler.Script

variable {tree item key value : Tree} {name text : List Char}

/-! ### Items -/

/-- Whether a tree stands between the braces and commas of an object literal. -/
def Tree.isItem (tree : Tree) : Bool :=
  !tree.isTrivia && !tree.isToken .punctuator

/-- What stands between the braces and commas of an object literal. -/
def Tree.items : Tree → List Tree
  | .node .object row => row.filter Tree.isItem
  | _ => []

theorem entry?_of_not_isItem (other : tree.isItem = false) : tree.entry? = none := by
  cases tree with
  | node form row => cases other
  | token kind text => cases kind <;> first | rfl | cases other

/-- Braces, commas and comments are no entries. -/
theorem entriesOf_eq_filterMap (tree : Tree) : entriesOf tree = tree.items.filterMap Tree.entry? := by
  cases tree with
  | token => rfl
  | node form row =>
    by_cases object : form = .object
    · subst object
      rw [entriesOf, Tree.items, List.filterMap_filter]
      refine List.filterMap_congr fun tree _ => ?_
      cases kept : tree.isItem with
      | true => rfl
      | false => exact entry?_of_not_isItem kept
    · simp [entriesOf, Tree.items, object]

theorem IsPairRow.significant_eq {row : List Tree} (pair : IsPairRow row) :
    ∃ key colon value, significant row = [key, colon, value] := by
  obtain ⟨colon, named, first, second, valued⟩ := pair
  next key value before after =>
  have blank {row : List Tree} (trivia : ∀ tree ∈ row, tree.isTrivia = true) :
      row.filter (fun tree => !tree.isTrivia) = [] :=
    List.filter_eq_nil_iff.2 fun tree member => by simp [trivia tree member]
  have keySolid : key.isTrivia = false := by
    cases key with
    | node => rfl
    | token kind text => cases kind <;> first | rfl | cases named
  have valueSolid : value.isTrivia = false := by
    cases value with
    | node => rfl
    | token kind text => cases kind <;> first | rfl | cases valued
  have colonSolid : (Tree.token .punctuator colon).isTrivia = false := rfl
  refine ⟨key, .token .punctuator colon, value, ?_⟩
  simp [significant, blank first, blank second, keySolid, valueSolid, colonSolid]

/-- In a literal that is a value, and not a pattern, each item is an entry. -/
theorem exists_entry?_of_part (shaped : tree.IsShaped) (fit : tree.fits .value = true)
    (part : tree.isEntryPart = true) (solid : tree.isItem = true) :
    ∃ entry, tree.entry? = some entry := by
  cases tree with
  | token kind text =>
    cases kind with
    | shorthand => exact ⟨.shorthand text, rfl⟩
    | blank | comment | punctuator => cases solid
    | _ => cases part
  | node form row =>
    have listed : form ∈ entryForms := by simpa [Tree.isEntryPart] using part
    simp only [entryForms, List.mem_cons, List.not_mem_nil, or_false] at listed
    rcases listed with rfl | rfl | rfl | rfl
    · cases shaped with
      | node _ paired =>
        obtain ⟨key, colon, value, parts⟩ := (paired rfl).significant_eq
        exact ⟨.pair key value, by simp [Tree.entry?, parts]⟩
    · exact ⟨.spread, rfl⟩
    · exact ⟨.method, rfl⟩
    · -- A name with a default value is part of a pattern, and no value.
      simp [Tree.fits, rolesOf] at fit

theorem exists_entry?_of_mem_items (shaped : tree.IsShaped) (fit : tree.fits .value = true)
    (member : item ∈ tree.items) : ∃ entry, item.entry? = some entry := by
  unfold Tree.items at member
  split at member
  · next row =>
    obtain ⟨inside, solid⟩ := List.mem_filter.1 member
    have children : rowFits .value .value row = true := by simpa [Tree.fits, rolesOf] using fit
    cases shaped with
    | node each _ listed =>
      exact exists_entry?_of_part (each item inside) (fits_of_mem_rowFits children inside)
        (listed rfl item inside) solid
  · cases member

/-- The expression that a text consists of is a value. -/
theorem fits_expression? {code : List Char} {focus : Focus}
    (found : (Snippet.ofExpression code).expression? = some focus) :
    focus.tree.fits .value = true := by
  refine of_expression? (fun tree => tree.fits .value = true) found (fun tree read => ?_)
    fun form listed row fit => ?_
  · unfold readProgram at read
    split at read
    · cases read
    · split at read
      case isTrue passed =>
        cases read
        exact (Bool.and_eq_true_iff.1 passed).2
      case isFalse => cases read
  · have children : rowFits .value .value row = true := by
      simp only [List.mem_cons, List.not_mem_nil, or_false] at listed
      rcases listed with rfl | rfl | rfl <;> simpa [Tree.fits, rolesOf] using fit
    exact fun tree => fits_of_mem_rowFits children

/-! ### Known keys and values -/

/-- A key that is written out, and the name that it gives: a string gives its value, and any other
key the text that it is written as. -/
inductive KnownKey : Tree → List Char → Prop
  | string (literal : List Char) : KnownKey (.token .string literal) (stringValue literal)
  | written {key : Tree} (plain : key.isToken .string = false)
      (fixed : key.isForm .computedName = false) : KnownKey key key.text

/-- A value that is known without the code being run, and the text that it gives. A plus sign is
left out. -/
inductive KnownValue : Tree → List Char → Prop
  | string (literal : List Char) : KnownValue (.token .string literal) (stringValue literal)
  | number (digits : List Char) : KnownValue (.token .number digits) digits
  | negative {row : List Tree} {kind : TokenKind} {digits : List Char}
      (signed : significant row = [.token kind ['-'], .token .number digits]) :
      KnownValue (.node .unary row) ('-' :: digits)
  | positive {row : List Tree} {kind : TokenKind} {digits : List Char}
      (signed : significant row = [.token kind ['+'], .token .number digits]) :
      KnownValue (.node .unary row) digits
  /-- A template without substitutions gives the text between its quotes. -/
  | template {row : List Tree} (plain : ∀ part ∈ row, part.isForm .substitution = false) :
      KnownValue (.node .template row) ((textOf row).drop 1).dropLast
  | word {text : List Char} (known : text ∈ literalWords) : KnownValue (.token .keyword text) text

theorem keyName?_eq_some_iff : keyName? key = some name ↔ KnownKey key name := by
  constructor
  · intro named
    unfold keyName? at named
    split at named
    · cases named
    · cases named
      exact .string _
    · next computed string =>
      cases named
      refine .written ?_ ?_
      · cases key with
        | node => rfl
        | token kind text => exact beq_eq_false_iff_ne.2 fun same => string text (same ▸ rfl)
      · cases key with
        | token => rfl
        | node form row =>
          exact beq_eq_false_iff_ne.2 fun same => computed row (Option.some.inj same ▸ rfl)
  · intro known
    cases known with
    | string => rfl
    | written plain fixed =>
      unfold keyName?
      split
      · cases fixed
      · cases plain
      · rfl

theorem literalText?_eq_some_iff : literalText? value = some text ↔ KnownValue value text := by
  constructor
  · intro known
    unfold literalText? at known
    split at known
    · cases known
      exact .string _
    · cases known
      exact .number _
    · split at known
      case isFalse => cases known
      case isTrue word =>
        cases known
        exact .word (List.contains_iff_mem.1 word)
    · split at known
      · next signed =>
        cases known
        exact .negative signed
      · next signed =>
        cases known
        exact .positive signed
      · cases known
    · split at known
      case isTrue => cases known
      case isFalse plain =>
        cases known
        exact .template (by simpa using plain)
    · cases known
  · intro known
    cases known with
    | string | number => rfl
    | negative signed | positive signed => simp [literalText?, signed]
    | @template row plain =>
      have none : row.any (Tree.isForm .substitution) = false := by simpa using plain
      rw [literalText?, none]
      rfl
    | word known => rw [literalText?, if_pos (List.contains_iff_mem.2 known)]

/-- An item that is a pair with a key that is written out and a value that is known. -/
inductive IsKnownPair : Tree → List Char → List Char → Prop
  | intro {row : List Tree} {key colon value : Tree} {name text : List Char}
      (parts : significant row = [key, colon, value]) (named : KnownKey key name)
      (known : KnownValue value text) : IsKnownPair (.node .pair row) name text

theorem eq_pair_of_entry? (found : item.entry? = some (.pair key value)) :
    ∃ row colon, item = .node .pair row ∧ significant row = [key, colon, value] := by
  unfold Tree.entry? at found
  split at found
  · next row =>
    split at found
    · next first colon last parts =>
      cases found
      exact ⟨row, colon, rfl, parts⟩
    · cases found
  all_goals cases found

theorem isKnownPair_iff :
    IsKnownPair item name text ↔ item.entry?.map evaluateEntry = some (.ok (name, text)) := by
  constructor
  · rintro ⟨parts, named, known⟩
    simp [Tree.entry?, parts, evaluateEntry, keyName?_eq_some_iff.2 named,
      literalText?_eq_some_iff.2 known]
  · intro read
    obtain ⟨entry, found, evaluated⟩ := Option.map_eq_some_iff.1 read
    cases entry with
    | shorthand | spread | method => cases evaluated
    | pair key value =>
      obtain ⟨row, colon, rfl, parts⟩ := eq_pair_of_entry? found
      cases named : keyName? key with
      | none => simp [evaluateEntry, named] at evaluated
      | some own =>
        cases known : literalText? value with
        | none => simp [evaluateEntry, named, known] at evaluated
        | some written =>
          simp only [evaluateEntry, named, known, Except.ok.injEq, Prod.mk.injEq] at evaluated
          obtain ⟨rfl, rfl⟩ := evaluated
          exact .intro parts (keyName?_eq_some_iff.1 named) (literalText?_eq_some_iff.1 known)

/-! ### Reading a literal -/

/-- Items that are entries are read into one pair for each of them, in order, or not at all. -/
theorem evaluateEntries_filterMap_eq_ok_iff {items : List Tree}
    {pairs : List (List Char × List Char)}
    (entries : ∀ item ∈ items, ∃ entry, item.entry? = some entry) :
    evaluateEntries (items.filterMap Tree.entry?) = .ok pairs ↔
      List.Forall₂ (fun item pair => IsKnownPair item pair.1 pair.2) items pairs := by
  induction items generalizing pairs with
  | nil =>
    rw [List.forall₂_nil_left_iff]
    constructor
    · rintro ⟨⟩
      rfl
    · rintro rfl
      rfl
  | cons item items ih =>
    obtain ⟨⟨entry, found⟩, others⟩ := List.forall_mem_cons.1 entries
    rw [List.filterMap_cons_some found, evaluateEntries, List.forall₂_cons_left_iff]
    constructor
    · intro read
      cases evaluated : evaluateEntry entry with
      | error => rw [evaluated] at read; cases read
      | ok pair =>
        cases later : evaluateEntries (items.filterMap Tree.entry?) with
        | error => rw [evaluated, later] at read; cases read
        | ok rest =>
          rw [evaluated, later] at read
          cases read
          have here := isKnownPair_iff.2 (by rw [found, Option.map_some, evaluated])
          exact ⟨pair, rest, here, (ih others).1 later, rfl⟩
    · rintro ⟨pair, rest, here, later, rfl⟩
      have evaluated : evaluateEntry entry = .ok pair := by
        simpa [found] using isKnownPair_iff.1 here
      rw [evaluated, (ih others).2 later]
      rfl

/-- A text is read into pairs exactly if it consists of an object literal in which each item is a
pair with a key that is written out and a value that is known. There is one pair for each item. -/
theorem evaluateLiteral_eq_ok_iff {code : List Char} {pairs : List (List Char × List Char)} :
    evaluateLiteral code = .ok pairs ↔
      ∃ focus, objectLiteral? (Snippet.ofExpression (Text.trim code)) = some focus ∧
        List.Forall₂ (fun item pair => IsKnownPair item pair.1 pair.2) focus.tree.items pairs := by
  cases object : objectLiteral? (Snippet.ofExpression (Text.trim code)) with
  | none =>
    constructor
    · intro read
      simp only [evaluateLiteral, object] at read
      split at read <;> cases read
    · rintro ⟨focus, found, -⟩
      cases found
  | some focus =>
    have alone := (Option.filter_eq_some_iff.1 object).1
    rw [evaluateLiteral_of_object object, entriesOf_eq_filterMap,
      evaluateEntries_filterMap_eq_ok_iff fun _ =>
        exists_entry?_of_mem_items (isShaped_expression? alone) (fits_expression? alone)]
    simp

end ComponentCompiler.Script

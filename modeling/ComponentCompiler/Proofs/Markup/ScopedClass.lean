import ComponentCompiler.Proofs.Markup.EmbeddedCode
import ComponentCompiler.Proofs.Markup.StyleTrail
import ComponentCompiler.Proofs.Script.StringValue
import Mathlib.Data.List.Forall2

/-!
# The classes of style objects

The style object of an element becomes a rule for a class that is made from the name of the element
and a hash of the code. The class is written twice: behind a point, as the selector of the rule, and
among the classes of the element. The two are read by different grammars. In a list of classes a
class is any text without white space; in a selector a name has letters, digits, hyphens and
underscores only, unless they are written as escapes, and the class is not escaped. So the rule
applies to the element exactly if the name of the element can stand in a selector as it is.

## Main definitions

* `Style.NamesFrom`, `Style.IsClassSelector` — names and class selectors in style sheets
* `Markup.HasClass` — a class in a list of classes
* `Markup.GivesClass` — a class attribute gives an element a class

## Main results

* `Style.namesFrom_self_iff` — the texts that are their own name
* `Markup.denotes_quoteText` — a quoted class is a literal that denotes the class
* `Markup.givesClass_joinClasses` — the last class of an attribute is given to the element
* `Markup.scopedRule_applies_iff` — when the rule of a style object applies to its element
* `Markup.misses_member` — an element to which the rule does not apply
-/

namespace ComponentCompiler

/-! ### Names in style sheets -/

namespace Style

/-- The line ends of style sheets. -/
def isNewline (c : Char) : Bool :=
  c == '\n' || c == '\r' || c == '\x0c'

/-- The white space of style sheets, and of lists of classes. -/
def isWhite (c : Char) : Bool :=
  isNewline c || c == ' ' || c == '\t'

/-- A character with which a name may start. -/
def isNameStart (c : Char) : Bool :=
  c.isAlpha || c == '_' || 0x80 ≤ c.toNat

/-- A character of a name. -/
def isNamePart (c : Char) : Bool :=
  isNameStart c || c.isDigit || c == '-'

/-- Whether a text starts with an escape. -/
def startsEscape : List Char → Bool
  | ['\\'] => true
  | '\\' :: c :: _ => !isNewline c
  | _ => false

/-- Whether a text starts with a name: a hyphen alone is none, and neither is one before a digit. -/
def startsName : List Char → Bool
  | '-' :: rest =>
    startsEscape rest ||
      match rest with
      | c :: _ => isNameStart c || c == '-'
      | [] => false
  | c :: rest => isNameStart c || startsEscape (c :: rest)
  | [] => false

/-- What stands behind a backslash in a name, given the text behind it, and the character that it
stands for. -/
inductive Escaped (behind : List Char) : List Char → Char → Prop
  | itself {c : Char} (other : Script.isHexDigit c = false) (sameLine : isNewline c = false) :
      Escaped behind [c] c
  /-- Up to six digits are taken, with one white space behind them. -/
  | point {digits space : List Char} {number : Nat} (some : digits ≠ [])
      (value : Script.hexNumber? digits = .some number) (few : digits.length ≤ 6)
      (longest : digits.length < 6 → ∀ c, (space ++ behind).head? = .some c →
        Script.isHexDigit c = false)
      (closing : (∃ c, space = [c] ∧ isWhite c = true) ∨
        space = [] ∧ ∀ c, behind.head? = .some c → isWhite c = false) :
      Escaped behind (digits ++ space)
        (if number = 0 ∨ ¬number.isValidChar then '\uFFFD' else Char.ofNat number)
  /-- At the end of a style sheet a backslash stands for a character that is missing. -/
  | missing (last : behind = []) : Escaped behind [] '\uFFFD'

/-- A text that is one name as a whole, with the name that it stands for. -/
inductive NamesFrom : List Char → List Char → Prop
  | nil : NamesFrom [] []
  | plain {c : Char} {text name : List Char} (part : isNamePart c = true)
      (rest : NamesFrom text name) : NamesFrom (c :: text) (c :: name)
  | escape {c : Char} {written text name : List Char} (escaped : Escaped text written c)
      (rest : NamesFrom text name) : NamesFrom ('\\' :: (written ++ text)) (c :: name)

/-- A text is the selector of one class. -/
def IsClassSelector (text name : List Char) : Prop :=
  ∃ behind, text = '.' :: behind ∧ startsName behind = true ∧ NamesFrom behind name

theorem NamesFrom.length_le {text name : List Char} (reads : NamesFrom text name) :
    name.length ≤ text.length := by
  induction reads with
  | nil => exact Nat.le_refl 0
  | plain _ _ ih => exact Nat.succ_le_succ ih
  | escape _ _ ih =>
    rw [List.length_cons, List.length_cons, List.length_append]
    omega

/-- Escapes make a text longer than the name, so only a text without escapes is its own name. -/
theorem namesFrom_self_iff {text : List Char} :
    NamesFrom text text ↔ ∀ c ∈ text, isNamePart c = true := by
  have plain {text name : List Char} (reads : NamesFrom text name) (same : name = text) :
      ∀ c ∈ text, isNamePart c = true := by
    induction reads with
    | nil => exact List.forall_mem_nil _
    | plain part _ ih =>
      obtain ⟨-, others⟩ := List.cons.inj same
      exact List.forall_mem_cons.2 ⟨part, ih others⟩
    | @escape c written text name escaped rest =>
      obtain ⟨backslash, others⟩ := List.cons.inj same
      have short := rest.length_le
      rw [others, List.length_append] at short
      have none : written = [] := List.length_eq_zero_iff.1 (by omega)
      cases escaped with
      | itself => cases none
      | point some => exact absurd (List.append_eq_nil_iff.1 none).1 some
      | missing => exact absurd backslash (by decide)
  constructor
  · intro reads
    exact plain reads rfl
  · intro parts
    induction text with
    | nil => exact .nil
    | cons c text ih =>
      obtain ⟨part, others⟩ := List.forall_mem_cons.1 parts
      exact .plain part (ih others)

theorem isClassSelector_self_iff {name : List Char} :
    IsClassSelector ('.' :: name) name ↔
      (∀ c ∈ name, isNamePart c = true) ∧ startsName name = true := by
  constructor
  · rintro ⟨behind, same, starts, reads⟩
    obtain ⟨-, rfl⟩ := List.cons.inj same
    exact ⟨namesFrom_self_iff.1 reads, starts⟩
  · rintro ⟨parts, starts⟩
    exact ⟨name, rfl, starts, namesFrom_self_iff.2 parts⟩

theorem isNamePart_hexDigit {value : Nat} (small : value < 16) :
    isNamePart (Text.hexDigit value) = true := by
  have table : ∀ v, v < 16 → isNamePart (Text.hexDigit v) = true := by decide
  exact table value small

theorem isNamePart_of_mem_hexDigits {count n : Nat} {c : Char}
    (member : c ∈ Text.hexDigits count n) : isNamePart c = true := by
  induction count generalizing n with
  | zero => cases member
  | succ count ih =>
    rcases List.mem_append.1 member with earlier | last
    · exact ih earlier
    · rw [List.mem_singleton.1 last]
      exact isNamePart_hexDigit (Nat.mod_lt _ (by decide))

theorem isNamePart_of_mem_shortHash {text : String} {c : Char}
    (member : c ∈ (Digest.shortHash text).toList) : isNamePart c = true := by
  rw [Digest.shortHash, String.toList_ofList] at member
  obtain ⟨byte, -, digit⟩ := List.mem_flatMap.1 (List.mem_of_mem_take member)
  exact isNamePart_of_mem_hexDigits digit

/-- The characters of names have no meaning in attributes and lists of classes. -/
theorem plain_of_isNamePart {c : Char} (part : isNamePart c = true) :
    isWhite c = false ∧ c ≠ '"' ∧ c ≠ '&' := by
  have other (d : Char) (none : isNamePart d = false) : c ≠ d := by
    rintro rfl
    rw [none] at part
    cases part
  have white : isWhite c = false := by
    simp [isWhite, isNewline, other '\n' rfl, other '\r' rfl, other '\x0c' rfl, other ' ' rfl,
      other '\t' rfl]
  exact ⟨white, other '"' rfl, other '&' rfl⟩

end Style

/-! ### Classes in attributes -/

namespace Markup

open Script (Denotes Escape pointUnits unitsOf hexNumber?)
open Style (isWhite isNamePart startsName IsClassSelector)

/-- A class in a list of classes: a text between white space, or at an end of the list. -/
def HasClass (classes name : List Char) : Prop :=
  name ≠ [] ∧ (∀ c ∈ name, isWhite c = false) ∧
    ∃ front back, classes = front ++ name ++ back ∧
      (∀ c, front.getLast? = some c → isWhite c = true) ∧
      (∀ c, back.head? = some c → isWhite c = true)

/-- What an item of a list in the embedded language can stand for when the page is made: a literal
stands for the text that it denotes, and other code for anything. -/
def ItemShows (item : String) (value : List Char) : Prop :=
  ∀ body units, item.toList = '"' :: (body ++ ['"']) → Denotes '"' body units →
    unitsOf value = units

/-- A class attribute gives an element a class. -/
inductive GivesClass (name : List Char) : String → Prop
  /-- Text without quotes and references stands for itself. -/
  | quoted {body : String} (plain : ∀ c ∈ body.toList, c ≠ '"' ∧ c ≠ '&')
      (has : HasClass body.toList name) : GivesClass name ("class=\"" ++ body ++ "\"")
  /-- The texts of the items, without the empty ones, are joined by spaces. -/
  | joined {items : List String}
      (has : ∀ values, List.Forall₂ ItemShows items values →
        HasClass (Text.joinWith ' ' (values.filter (· ≠ []))) name) :
      GivesClass name ("class=\x7b[" ++ ", ".intercalate items ++ "].filter(Boolean).join(' ')\x7d")

/-! ### Quoted classes -/

theorem escape_hexDigits {unit : Nat} (small : unit < 0x10000) (behind : List Char) :
    Escape behind ('u' :: Text.hexDigits 4 unit) [unit] := by
  have digits : Text.hexDigits 4 unit = [Text.hexDigit (unit / 16 / 16 / 16 % 16),
      Text.hexDigit (unit / 16 / 16 % 16), Text.hexDigit (unit / 16 % 16),
      Text.hexDigit (unit % 16)] := rfl
  have read (n : Nat) : Text.hexValue? (Text.hexDigit (n % 16)) = some (n % 16) :=
    Text.hexValue?_hexDigit (Nat.mod_lt n (by decide))
  rw [digits]
  refine .unit ?_
  rw [← Script.codeUnit?_eq]
  simp only [Json.codeUnit?, read, Option.bind_eq_bind, Option.bind_some, Option.pure_def,
    Option.some.injEq]
  omega

theorem denotes_unitEscape {unit : Nat} (small : unit < 0x10000) {text : List Char}
    {units : List Nat} (rest : Denotes '"' text units) :
    Denotes '"' (Json.unitEscape unit ++ text) (unit :: units) :=
  .escape (escape_hexDigits small text) rest

/-- A character of a quoted text is written as a character or an escape that denotes it. -/
theorem denotes_escapeCharacter (c : Char) {text : List Char} {units : List Nat}
    (rest : Denotes '"' text units) :
    Denotes '"' (Json.escapeCharacter c ++ text) (pointUnits c.toNat ++ units) := by
  unfold Json.escapeCharacter
  split
  case isTrue plain =>
    simp only [Json.isPlainCharacter, Bool.and_eq_true, decide_eq_true_eq, bne_iff_ne] at plain
    obtain ⟨⟨⟨printable, -⟩, notQuote⟩, notBackslash⟩ := plain
    refine .plain ⟨notQuote, notBackslash, ?_, ?_⟩ rest
    · rintro rfl
      exact absurd printable (by decide)
    · rintro rfl
      exact absurd printable (by decide)
  case isFalse =>
    split
    · exact .escape (.itself rfl rfl rfl (by decide)) rest
    · exact .escape (.itself rfl rfl rfl (by decide)) rest
    · exact .escape (.control rfl) rest
    · exact .escape (.control rfl) rest
    · exact .escape (.control rfl) rest
    · exact .escape (.control rfl) rest
    · exact .escape (.control rfl) rest
    · have bound := Script.toNat_lt c
      unfold pointUnits
      split
      case isTrue small => exact denotes_unitEscape small rest
      case isFalse large =>
        -- The two halves of a character beyond the first plane.
        have lowSmall : 0xDC00 + (c.toNat - 0x10000) % 0x400 < 0x10000 := by omega
        have highSmall : 0xD800 + (c.toNat - 0x10000) / 0x400 < 0x10000 := by omega
        have both := denotes_unitEscape highSmall (denotes_unitEscape lowSmall rest)
        simpa using both

/-- A text in quotes is a literal that denotes the text. -/
theorem denotes_quoteText (text : String) :
    ∃ body, (Json.quoteText text).toList = '"' :: (body ++ ['"']) ∧
      Denotes '"' body (unitsOf text.toList) := by
  refine ⟨text.toList.flatMap Json.escapeCharacter, by simp [Json.quoteText], ?_⟩
  induction text.toList with
  | nil => exact .nil
  | cons c rest ih => exact denotes_escapeCharacter c ih

theorem eq_of_itemShows {text : String} {value : List Char}
    (stands : ItemShows (Json.quoteText text) value) : value = text.toList := by
  obtain ⟨body, written, denotes⟩ := denotes_quoteText text
  exact Script.unitsOf_injective (stands body _ written denotes)

/-! ### The last class of an attribute -/

theorem joinWith_concat (separator : Char) {parts : List (List Char)} (some : parts ≠ [])
    (last : List Char) :
    Text.joinWith separator (parts ++ [last]) =
      Text.joinWith separator parts ++ separator :: last := by
  induction parts with
  | nil => exact absurd rfl some
  | cons first rest ih =>
    cases rest with
    | nil => rfl
    | cons next rest =>
      have later := ih (List.cons_ne_nil _ _)
      simp only [List.cons_append] at later
      simp [Text.joinWith, later]

/-- Joined by spaces, a text without white space is a class. -/
theorem hasClass_joinWith {name : List Char} (some : name ≠ [])
    (solid : ∀ c ∈ name, isWhite c = false) (others : List (List Char)) :
    HasClass (Text.joinWith ' ' (others ++ [name])) name := by
  refine ⟨some, solid, ?_⟩
  by_cases none : others = []
  · subst none
    exact ⟨[], [], by simp [Text.joinWith], by simp, by simp⟩
  · refine ⟨Text.joinWith ' ' others ++ [' '], [], ?_, ?_, by simp⟩
    · rw [joinWith_concat ' ' none]
      simp
    · intro c last
      rw [List.getLast?_concat] at last
      obtain rfl := Option.some.inj last
      rfl

/-- The last of the values belongs to the last of the items. -/
theorem exists_last_value {items : List String} {item : String} {values : List (List Char)}
    (each : List.Forall₂ ItemShows (items ++ [item]) values) :
    ∃ others value, values = others ++ [value] ∧ ItemShows item value := by
  induction items generalizing values with
  | nil =>
    cases each with
    | cons stands rest =>
      cases rest
      exact ⟨[], _, rfl, stands⟩
  | cons first items ih =>
    cases each with
    | cons stands rest =>
      obtain ⟨others, value, rfl, last⟩ := ih rest
      exact ⟨_ :: others, value, rfl, last⟩

/-- The last class of an attribute is given to the element, whatever stands before it. -/
theorem givesClass_joinClasses {name : String} (some : name.toList ≠ [])
    (parts : ∀ c ∈ name.toList, isNamePart c = true) (sources : List ClassSource) :
    GivesClass name.toList (joinClasses (sources ++ [.literal name])) := by
  have plain : ∀ c ∈ name.toList, isWhite c = false ∧ c ≠ '"' ∧ c ≠ '&' :=
    fun c member => Style.plain_of_isNamePart (parts c member)
  have solid : ∀ c ∈ name.toList, isWhite c = false := fun c member => (plain c member).1
  cases sources with
  | nil =>
    have kept : escapeQuotes name = name :=
      escapeQuotes_of_no_quote fun member => (plain _ member).2.1 rfl
    have written : joinClasses ([] ++ [.literal name]) = "class=\"" ++ name ++ "\"" := by
      rw [List.nil_append, joinClasses, kept]
    rw [written]
    refine .quoted (fun c member => (plain c member).2) ?_
    exact hasClass_joinWith some solid []
  | cons first rest =>
    have written : joinClasses (first :: rest ++ [.literal name]) =
        "class=\x7b[" ++ ", ".intercalate ((first :: rest).map ClassSource.item ++
          [Json.quoteText name]) ++ "].filter(Boolean).join(' ')\x7d" := by
      cases rest <;> simp [joinClasses, ClassSource.item]
    rw [written]
    refine .joined fun values each => ?_
    obtain ⟨others, value, rfl, last⟩ := exists_last_value each
    obtain rfl := eq_of_itemShows last
    rw [List.filter_append, List.filter_singleton, decide_eq_true some]
    exact hasClass_joinWith some solid _

/-! ### Rules and elements -/

/-- The declarations of entries, one on each line. -/
def declarationLines (pairs : List (List Char × List Char)) : String :=
  "\n".intercalate (pairs.map fun (key, value) =>
    Style.declaration (String.ofList key) (String.ofList value))

theorem isEmpty_declarationLines {pairs : List (List Char × List Char)} (some : pairs ≠ []) :
    (declarationLines pairs).isEmpty = false := by
  obtain ⟨⟨key, value⟩, rest, rfl⟩ := List.exists_cons_of_ne_nil some
  have indented : ∃ tail, (declarationLines ((key, value) :: rest)).toList = ' ' :: tail := by
    cases rest with
    | nil => simp [declarationLines, Style.declaration]
    | cons next others =>
      simp [declarationLines, Style.declaration, String.intercalate_cons_cons]
  obtain ⟨tail, letters⟩ := indented
  rw [← Bool.not_eq_true, String.isEmpty_iff]
  intro none
  rw [none] at letters
  cases letters

/-- The rule of a style object with entries starts with its class. -/
theorem outcome_rule {className code : String} {pairs : List (List Char × List Char)}
    (object : Script.evaluateLiteral code.toList = .ok pairs) (some : pairs ≠ []) :
    (Style.rule className code).outcome =
      .ok ("." ++ className ++ " \x7b\n" ++ declarationLines pairs ++ "\n\x7d") := by
  have read : Style.declarations code = .ok (declarationLines pairs) := by
    rw [Style.declarations, object]
    exact congrArg Except.ok rfl
  have written : Style.ruleOf className (declarationLines pairs) =
      "." ++ className ++ " \x7b\n" ++ declarationLines pairs ++ "\n\x7d" := by
    rw [Style.ruleOf, isEmpty_declarationLines some]
    exact if_neg Bool.false_ne_true
  have done : Style.rule className code =
      pure (Style.ruleOf className (declarationLines pairs)) := by
    unfold Style.rule
    rw [read]
  rw [done, written, Run.outcome_pure]

theorem toList_scopedClass (name code : String) :
    (scopedClass name code).toList =
      name.toList ++ '-' :: (Digest.shortHash code).toList := by
  simp [scopedClass]

theorem isNamePart_scopedClass_iff {name code : String} :
    (∀ c ∈ (scopedClass name code).toList, isNamePart c = true) ↔
      ∀ c ∈ name.toList, isNamePart c = true := by
  rw [toList_scopedClass, List.forall_mem_append, List.forall_mem_cons]
  constructor
  · exact And.left
  · intro parts
    exact ⟨parts, rfl, fun c member => Style.isNamePart_of_mem_shortHash member⟩

/-- The selector of the class of a style object is read as that class exactly if the name of the
element needs no escapes and the class does not start as a number does. -/
theorem isClassSelector_scopedClass_iff {name code : String} :
    IsClassSelector ('.' :: (scopedClass name code).toList) (scopedClass name code).toList ↔
      (∀ c ∈ name.toList, isNamePart c = true) ∧
        startsName (scopedClass name code).toList = true := by
  rw [Style.isClassSelector_self_iff, isNamePart_scopedClass_iff]

/-- The class attribute of an element with a style object ends with the class of the object, and a
collection gets the object under that class. -/
theorem gather_classAttribute {node : Node} {code : String} (isElement : node.kind = .element)
    (styled : node.activeCode? styleKey = some code) :
    ∃ sources, ∀ collection, (classAttribute node).gather collection =
      (.ok (joinClasses (sources ++ [.literal (scopedClass node.name code)])),
        Style.collect collection (scopedClass node.name code) code) := by
  obtain ⟨bound, boundWritten, -⟩ := outcome_boundClasses node classKeys
  have met := (meets_classAttribute isElement).2
  have own : ownStyle? node = some (scopedClass node.name code, code) := by
    rw [ownStyle?, if_pos isElement, styled]
    rfl
  have written : (styleClass node).outcome = .ok [.literal (scopedClass node.name code)] := by
    rw [styleClass, styled]
    rfl
  refine ⟨literalClasses node ++ bound, fun collection => ?_⟩
  rw [Run.gather, met, own]
  simp only [classAttribute, Run.outcome_bind_ok boundWritten, Run.outcome_bind_ok written,
    Run.outcome_pure]
  rfl

/-- The rule of a style object applies to its element exactly if the name of the element can stand
in a selector as it is. -/
theorem scopedRule_applies_iff {node : Node} {code : String} {pairs : List (List Char × List Char)}
    (isElement : node.kind = .element) (styled : node.activeCode? styleKey = some code)
    (object : Script.evaluateLiteral code.toList = .ok pairs) (some : pairs ≠ []) :
    ∃ classText declarations,
      (∀ collection, (classAttribute node).gather collection =
        (.ok classText, Style.collect collection (scopedClass node.name code) code)) ∧
      (Style.rule (scopedClass node.name code) code).outcome =
        .ok ("." ++ scopedClass node.name code ++ " \x7b\n" ++ declarations ++ "\n\x7d") ∧
      (IsClassSelector ('.' :: (scopedClass node.name code).toList)
          (scopedClass node.name code).toList ∧
          GivesClass (scopedClass node.name code).toList classText ↔
        (∀ c ∈ node.name.toList, isNamePart c = true) ∧
          startsName (scopedClass node.name code).toList = true) := by
  obtain ⟨sources, gathered⟩ := gather_classAttribute isElement styled
  refine ⟨_, declarationLines pairs, gathered, outcome_rule object some, ?_⟩
  rw [isClassSelector_scopedClass_iff, and_iff_left_iff_imp]
  rintro ⟨parts, -⟩
  apply givesClass_joinClasses
  · rw [toList_scopedClass]
    simp
  · exact isNamePart_scopedClass_iff.2 parts

theorem evaluateLiteral_margin :
    Script.evaluateLiteral "\x7bmargin: 0\x7d".toList = .ok [("margin".toList, "0".toList)] := by
  decide +kernel

/-- The rule of a paragraph applies to it. -/
theorem scopedRule_applies_paragraph :
    ∃ classText declarations,
      (classAttribute (styled "p" "\x7bmargin: 0\x7d" [])).outcome = .ok classText ∧
      (Style.rule "p-e251ce75" "\x7bmargin: 0\x7d").outcome =
        .ok (".p-e251ce75 \x7b\n" ++ declarations ++ "\n\x7d") ∧
      IsClassSelector ".p-e251ce75".toList "p-e251ce75".toList ∧
      GivesClass "p-e251ce75".toList classText := by
  let paragraph := styled "p" "\x7bmargin: 0\x7d" []
  have isElement : paragraph.kind = .element := rfl
  have active : paragraph.activeCode? styleKey = some "\x7bmargin: 0\x7d" := by decide +kernel
  have name : scopedClass paragraph.name "\x7bmargin: 0\x7d" = "p-e251ce75" := by decide +kernel
  obtain ⟨classText, declarations, gathered, rule, applies⟩ :=
    scopedRule_applies_iff isElement active evaluateLiteral_margin (List.cons_ne_nil _ _)
  rw [name] at rule applies
  have written : (classAttribute paragraph).outcome = .ok classText :=
    congrArg Prod.fst (gathered ∅)
  have parts : ∀ c ∈ paragraph.name.toList, isNamePart c = true := by
    simp [paragraph, styled, isNamePart, Style.isNameStart]
  obtain ⟨selects, given⟩ := applies.2 ⟨parts, by decide +kernel⟩
  exact ⟨classText, declarations, written, rule, selects, given⟩

/-- The class of an element whose name has a point in it is read as two classes. -/
theorem misses_member :
    (∃ declarations, (Style.rule (scopedClass "Card.Title" "\x7bmargin: 0\x7d")
        "\x7bmargin: 0\x7d").outcome =
      .ok (".Card.Title-e251ce75 \x7b\n" ++ declarations ++ "\n\x7d")) ∧
      ¬IsClassSelector ".Card.Title-e251ce75".toList "Card.Title-e251ce75".toList := by
  have name : scopedClass "Card.Title" "\x7bmargin: 0\x7d" = "Card.Title-e251ce75" := by
    decide +kernel
  constructor
  · rw [name]
    exact ⟨_, outcome_rule evaluateLiteral_margin (List.cons_ne_nil _ _)⟩
  · have selects := @isClassSelector_scopedClass_iff "Card.Title" "\x7bmargin: 0\x7d"
    rw [name] at selects
    intro selector
    have point := (selects.1 selector).1 '.' (by decide)
    exact absurd point (by decide)

end Markup

end ComponentCompiler

import ComponentCompiler.Proofs.Format.Lines
import ComponentCompiler.Proofs.Style.Regions

/-!
# The rules of a style sheet

A style sheet in which braces only surround blocks and commas only separate selectors is a sequence of
style rules, of at-rules with a block, and of at-rules that a semicolon ends. Scoping is meant to put
the attribute on each selector of each style rule and to leave everything else alone.

The scan looks for braces only, so an at-rule without a block is part of the lead of the next block. If
that block is the one of a style rule, then the lead starts with an at sign and is kept, and the
selectors of the rule do not get the attribute. This is the only way to miss one: a style sheet is
scoped as it is meant to be just if no style rule stands directly behind an at-rule without a block.

## Main definitions

* `Style.StyleRule`, `Style.Item`, `Style.Sheet` — a style sheet as a sequence of rules
* `Style.Sheet.confined` — the style sheet with the attribute on each selector
* `Style.scanned` — what the scan makes of a sequence of rules
* `Style.Sheet.IsReached` — no style rule stands directly behind an at-rule without a block

## Main results

* `Style.scopeFrom_items` — the scan goes through a style sheet rule by rule
* `Style.scope_sheet_iff` — the style sheets in which each selector gets the attribute
* `Style.not_scope_imported` — a style sheet in which one does not
-/

namespace ComponentCompiler.Style

/-! ### Texts without braces, and texts that start with an at sign -/

/-- There is no brace in the text. -/
def IsFlat (text : List Char) : Prop :=
  ∀ c ∈ text, c ≠ '\x7b' ∧ c ≠ '\x7d'

-- The characters are finitely many, so the instance has to say that only those of the text are tried.
instance : DecidablePred IsFlat := fun text =>
  List.decidableBAll (fun c => c ≠ '\x7b' ∧ c ≠ '\x7d') text

namespace IsFlat

variable {text rest : List Char}

theorem append (first : IsFlat text) (second : IsFlat rest) : IsFlat (text ++ rest) :=
  List.forall_mem_append.2 ⟨first, second⟩

theorem cons {c : Char} (plain : c ≠ '\x7b' ∧ c ≠ '\x7d') (flat : IsFlat text) : IsFlat (c :: text) :=
  List.forall_mem_cons.2 ⟨plain, flat⟩

theorem of_blank (blank : Text.isBlankText text = true) : IsFlat text := by
  intro c member
  have white : Text.isBlank c = true := List.all_eq_true.1 blank c member
  constructor <;>
  · rintro rfl
    exact absurd white (by decide)

theorem opensNone (flat : IsFlat text) : Lacks '\x7b' text :=
  lacks_of_not_mem fun member => (flat _ member).1 rfl

theorem depthOf_eq_zero (flat : IsFlat text) : depthOf text = 0 := by
  induction text with
  | nil => rfl
  | cons c rest ih =>
    obtain ⟨plain, flatRest⟩ := List.forall_mem_cons.1 flat
    rw [depthOf_cons, ih flatRest, braceStep, if_neg plain.1, if_neg plain.2]
    rfl

end IsFlat

/-- Behind white space the text starts with an at sign. -/
def StartsWithAt (text : List Char) : Prop :=
  (Text.trimStart text).head? = some '@'

instance : DecidablePred StartsWithAt := fun text =>
  inferInstanceAs (Decidable ((Text.trimStart text).head? = some '@'))

theorem trimStart_ne_nil {text : List Char} (solid : Text.isBlankText text = false) :
    Text.trimStart text ≠ [] := by
  intro empty
  have blank : Text.isBlankText text = true :=
    List.all_eq_true.2 (List.dropWhile_eq_nil_iff.1 empty)
  rw [solid] at blank
  cases blank

/-- What follows a text that is not blank makes no difference. -/
theorem startsWithAt_append_iff {text : List Char} (some : Text.trimStart text ≠ [])
    (rest : List Char) : StartsWithAt (text ++ rest) ↔ StartsWithAt text := by
  have kept : Text.trimStart (text ++ rest) = Text.trimStart text ++ rest := by
    rw [Text.trimStart, List.dropWhile_append, if_neg]
    · rfl
    · exact fun empty => some (List.isEmpty_iff.1 empty)
  rw [StartsWithAt, StartsWithAt, kept, List.head?_append_of_ne_nil _ some]

theorem startsWithAt_append {text : List Char} (starts : StartsWithAt text) (rest : List Char) :
    StartsWithAt (text ++ rest) := by
  refine (startsWithAt_append_iff ?_ rest).2 starts
  intro empty
  simp [StartsWithAt, empty] at starts

theorem startsWithAt_of_margin {margin : List Char} (blank : Text.isBlankText margin = true)
    (rest : List Char) : StartsWithAt (margin ++ '@' :: rest) := by
  rw [StartsWithAt, Text.trimStart_append_of_blank _ blank]
  rfl

theorem scopeSelectors_of_at {mark text : List Char} (starts : StartsWithAt text) :
    scopeSelectors mark text = text := by
  rw [scopeSelectors, if_pos]
  exact beq_iff_eq.2 starts

/-! ### Rules -/

/-- A style rule. Its selectors are given as they stand between the commas, with the white space around
them. -/
structure StyleRule where
  selectors : List (List Char)
  block : Block
  some : selectors ≠ []
  solid : ∀ selector ∈ selectors, Text.isBlankText selector = false
  single : ∀ selector ∈ selectors, ',' ∉ selector
  flat : ∀ selector ∈ selectors, IsFlat selector
  ordinary : ∀ selector ∈ selectors, ¬StartsWithAt selector

namespace StyleRule

/-- The list of selectors. -/
def lead (rule : StyleRule) : List Char :=
  Text.joinWith ',' rule.selectors

/-- The text of a style rule. -/
def text (rule : StyleRule) : List Char :=
  rule.lead ++ rule.block.text

/-- The text of a style rule with the attribute behind each selector. The selectors are then separated
by a comma and a space, and a space stands before the block. -/
def confined (mark : List Char) (rule : StyleRule) : List Char :=
  rule.lead.takeWhile Text.isBlank ++
    [',', ' '].intercalate (rule.selectors.map (scopeSelector mark)) ++ ' ' :: rule.block.text

end StyleRule

/-- An item of a style sheet, with the white space before it. -/
inductive Item where
  | styleRule (own : StyleRule)
  /-- An at-rule with a block. -/
  | atBlock (margin prelude : List Char) (block : Block) (blank : Text.isBlankText margin = true)
    (flat : IsFlat prelude)
  /-- An at-rule that a semicolon ends. -/
  | atStatement (margin prelude : List Char) (blank : Text.isBlankText margin = true)
    (flat : IsFlat prelude)

namespace Item

/-- The text of an item. -/
def text : Item → List Char
  | styleRule own => own.text
  | atBlock margin prelude block _ _ => margin ++ '@' :: (prelude ++ block.text)
  | atStatement margin prelude _ _ => margin ++ '@' :: (prelude ++ [';'])

/-- The text of an item with the attribute on its selectors, if it is a style rule. -/
def confined (mark : List Char) : Item → List Char
  | styleRule own => own.confined mark
  | other => other.text

/-- Whether an item is a style rule. -/
def isRule : Item → Bool
  | styleRule _ => true
  | _ => false

/-- Whether an item is an at-rule without a block. -/
def isStatement : Item → Bool
  | atStatement .. => true
  | _ => false

end Item

/-- A style sheet as a sequence of items, with the white space behind the last one. -/
structure Sheet where
  items : List Item
  rest : List Char
  blank : Text.isBlankText rest = true

namespace Sheet

/-- The text of a style sheet. -/
def text (sheet : Sheet) : List Char :=
  sheet.items.flatMap Item.text ++ sheet.rest

/-- The text of a style sheet with the attribute on each selector of each style rule. -/
def confined (mark : List Char) (sheet : Sheet) : List Char :=
  sheet.items.flatMap (Item.confined mark) ++ sheet.rest

/-- No style rule stands directly behind an at-rule without a block. -/
def IsReached (sheet : Sheet) : Prop :=
  sheet.items.IsChain fun item next => ¬(item.isStatement = true ∧ next.isRule = true)

end Sheet

/-! ### A single style rule -/

namespace StyleRule

variable (rule : StyleRule)

theorem flat_lead : IsFlat rule.lead := by
  have joined : ∀ parts : List (List Char), (∀ part ∈ parts, IsFlat part) →
      IsFlat (Text.joinWith ',' parts) := by
    intro parts flat
    induction parts with
    | nil => nofun
    | cons part rest ih =>
      rw [List.forall_mem_cons] at flat
      cases rest with
      | nil => exact flat.1
      | cons next others => exact flat.1.append (.cons (by decide) (ih flat.2))
  exact joined rule.selectors rule.flat

/-- The first selector, with the white space around it. -/
def first : List Char :=
  rule.selectors.head rule.some

theorem solid_first : Text.isBlankText rule.first = false :=
  rule.solid _ (List.head_mem rule.some)

/-- A list of selectors starts with the first one, behind which a comma or nothing stands. -/
theorem exists_lead : ∃ following, rule.lead = rule.first ++ following ∧
    (following = [] ∨ ∃ rest, following = ',' :: rest) := by
  obtain ⟨selectors, block, some, solid, single, flat, ordinary⟩ := rule
  obtain ⟨selector, others, rfl⟩ := List.exists_cons_of_ne_nil some
  cases others with
  | nil => exact ⟨[], (List.append_nil selector).symm, .inl rfl⟩
  | cons next more => exact ⟨_, rfl, .inr ⟨_, rfl⟩⟩

theorem takeWhile_lead :
    rule.lead.takeWhile Text.isBlank = rule.first.takeWhile Text.isBlank := by
  obtain ⟨following, joined, -⟩ := rule.exists_lead
  have short : ¬(rule.first.takeWhile Text.isBlank).length = rule.first.length := by
    intro all
    apply trimStart_ne_nil rule.solid_first
    exact List.dropWhile_eq_nil_iff.2
      (List.takeWhile_eq_self_iff.1 ((List.takeWhile_prefix Text.isBlank).eq_of_length all))
  rw [joined, List.takeWhile_append, if_neg short]

/-- Behind the first selector the list goes on with white space, a comma or the block. -/
theorem exists_text : ∃ c rest, c ≠ '[' ∧ rule.text =
    rule.first.takeWhile Text.isBlank ++ (Text.trim rule.first ++ c :: rest) := by
  obtain ⟨following, joined, next⟩ := rule.exists_lead
  obtain ⟨d, more, other, going⟩ :
      ∃ d more, d ≠ '[' ∧ following ++ rule.block.text = d :: more := by
    rcases next with rfl | ⟨rest, rfl⟩
    · exact ⟨'\x7b', _, by decide, rfl⟩
    · exact ⟨',', _, by decide, rfl⟩
  have written : rule.text = rule.first.takeWhile Text.isBlank ++ (Text.trim rule.first ++
      ((Text.trimStart rule.first).rtakeWhile Text.isBlank ++ d :: more)) := by
    rw [text, joined, List.append_assoc, going]
    conv_lhs => rw [← trim_surrounded rule.first]
    simp only [List.append_assoc]
  cases trail : (Text.trimStart rule.first).rtakeWhile Text.isBlank with
  | nil => exact ⟨d, more, other, by rw [written, trail]; rfl⟩
  | cons c rest =>
    have blank : Text.isBlank c = true :=
      List.mem_rtakeWhile_imp (trail ▸ List.mem_cons_self)
    refine ⟨c, rest ++ d :: more, ?_, by rw [written, trail]; rfl⟩
    rintro rfl
    exact absurd blank (by decide)

/-- Behind the first selector the attribute stands. -/
theorem exists_confined (mark : List Char) : ∃ rest, rule.confined mark =
    rule.first.takeWhile Text.isBlank ++ (Text.trim rule.first ++ '[' :: rest) := by
  have kept := rule.takeWhile_lead
  obtain ⟨selectors, block, some, solid, single, flat, ordinary⟩ := rule
  obtain ⟨selector, others, rfl⟩ := List.exists_cons_of_ne_nil some
  rw [confined, kept]
  cases others with
  | nil => exact ⟨_, by simp [first, scopeSelector]; rfl⟩
  | cons next more => exact ⟨_, by simp [first, scopeSelector]; rfl⟩

/-- A rule whose selectors do not get the attribute is not what it is meant to be, whatever follows. -/
theorem text_append_ne (mark rest others : List Char) :
    rule.text ++ rest ≠ rule.confined mark ++ others := by
  obtain ⟨c, behind, other, written⟩ := rule.exists_text
  obtain ⟨more, marked⟩ := rule.exists_confined mark
  rw [written, marked]
  intro same
  simp only [List.append_assoc, List.append_cancel_left_eq, List.cons_append] at same
  exact other (List.cons.inj same).1

/-- A list of selectors is no at-rule. -/
theorem not_startsWithAt_lead : ¬StartsWithAt rule.lead := by
  obtain ⟨following, joined, -⟩ := rule.exists_lead
  rw [joined, startsWithAt_append_iff (trimStart_ne_nil rule.solid_first)]
  exact rule.ordinary _ (List.head_mem rule.some)

/-- The scan puts the attribute on the selectors of a rule if nothing else is in its lead. -/
theorem scopeSelectors_lead (mark : List Char) :
    scopeSelectors mark rule.lead ++ rule.block.text = rule.confined mark := by
  have parts : scopedList mark rule.lead = rule.selectors.map (scopeSelector mark) := by
    rw [scopedList, lead, Text.splitAt_joinWith rule.some rule.single, List.filter_eq_self.2]
    intro selector member
    rw [rule.solid selector member, Bool.not_false]
  rw [scopeSelectors, if_neg fun starts => rule.not_startsWithAt_lead (beq_iff_eq.1 starts), parts,
    confined]
  simp only [List.append_assoc, List.singleton_append]

end StyleRule

/-! ### The scan -/

/-- What the scan makes of a sequence of items. It passes over the selectors of a rule that stands behind
an at-rule without a block. -/
def scanned (mark : List Char) (behind : Bool) : List Item → List Char
  | [] => []
  | item :: rest =>
    (if behind then item.text else item.confined mark) ++ scanned mark item.isStatement rest

theorem Item.confined_of_other {item : Item} (other : item.isRule = false) (mark : List Char) :
    item.confined mark = item.text := by
  cases item with
  | styleRule own => cases other
  | atBlock | atStatement => rfl

/-- A block ends what is pending. -/
theorem scopeFrom_flat_block {mark pending lead : List Char} (flat : IsFlat lead) (block : Block)
    (rest : List Char) :
    scopeFrom mark 0 pending (lead ++ (block.text ++ rest)) =
      scopeSelectors mark (pending.reverse ++ lead) ++ (block.text ++ scopeFrom mark 0 [] rest) := by
  rw [scopeFrom_pass flat.opensNone, flat.depthOf_eq_zero, scopeFrom_block]
  simp only [List.reverse_append, List.reverse_reverse, List.append_assoc]

/-- The scan goes through a style sheet rule by rule. What is pending is empty, or it consists of
at-rules without a block. -/
theorem scopeFrom_items {mark rest : List Char} (flat : IsFlat rest) (items : List Item)
    {pending : List Char} {behind : Bool} (empty : behind = false → pending = [])
    (starts : behind = true → StartsWithAt pending.reverse) :
    scopeFrom mark 0 pending (items.flatMap Item.text ++ rest) =
      pending.reverse ++ (scanned mark behind items ++ rest) := by
  induction items generalizing pending behind with
  | nil =>
    rw [List.flatMap_nil, List.nil_append, scopeFrom_of_no_brace flat]
    rfl
  | cons item items ih =>
    -- Behind a block nothing is pending.
    have onward : scopeFrom mark 0 [] (items.flatMap Item.text ++ rest) =
        scanned mark false items ++ rest := ih (fun _ => rfl) nofun
    -- An at-rule makes what is pending start with an at sign, if it does not already.
    have atFirst {margin : List Char} (blank : Text.isBlankText margin = true)
        (prelude : List Char) : StartsWithAt (pending.reverse ++ (margin ++ '@' :: prelude)) := by
      cases behind with
      | false =>
        rw [empty rfl]
        exact startsWithAt_of_margin blank prelude
      | true => exact startsWithAt_append (starts rfl) _
    rw [List.flatMap_cons, List.append_assoc, scanned]
    cases item with
    | styleRule own =>
      rw [Item.text, StyleRule.text, List.append_assoc, scopeFrom_flat_block own.flat_lead, onward]
      cases behind with
      | false =>
        rw [empty rfl, List.reverse_nil, List.nil_append, ← List.append_assoc,
          own.scopeSelectors_lead, if_neg Bool.false_ne_true, List.append_assoc]
        rfl
      | true =>
        rw [scopeSelectors_of_at (startsWithAt_append (starts rfl) _), if_pos rfl]
        simp only [List.append_assoc]
        rfl
    | atBlock margin prelude block blank flatPrelude =>
      have flatLead : IsFlat (margin ++ '@' :: prelude) :=
        (IsFlat.of_blank blank).append (flatPrelude.cons (by decide))
      have written : (Item.atBlock margin prelude block blank flatPrelude).text =
          (margin ++ '@' :: prelude) ++ block.text := by
        simp [Item.text]
      rw [Item.confined_of_other rfl, ite_self, written, List.append_assoc,
        scopeFrom_flat_block flatLead, onward, scopeSelectors_of_at (atFirst blank prelude)]
      simp only [List.append_assoc]
      rfl
    | atStatement margin prelude blank flatPrelude =>
      have flatText : IsFlat (Item.atStatement margin prelude blank flatPrelude).text :=
        (IsFlat.of_blank blank).append
          ((flatPrelude.append (by decide)).cons (by decide))
      rw [Item.confined_of_other rfl, ite_self, scopeFrom_pass flatText.opensNone,
        flatText.depthOf_eq_zero, @ih _ true nofun]
      · simp only [List.reverse_append, List.reverse_reverse, List.append_assoc]
        rfl
      · intro _
        rw [List.reverse_append, List.reverse_reverse]
        exact atFirst blank _

/-- The scan makes of items what they are meant to be just if it passes over no rule. -/
theorem scanned_eq_iff {mark : List Char} {behind : Bool} {items : List Item} (rest : List Char) :
    scanned mark behind items ++ rest = items.flatMap (Item.confined mark) ++ rest ↔
      (∀ next ∈ items.head?, ¬(behind = true ∧ next.isRule = true)) ∧
        items.IsChain fun item next => ¬(item.isStatement = true ∧ next.isRule = true) := by
  induction items generalizing behind with
  | nil => simp [scanned]
  | cons item items ih =>
    rw [scanned, List.flatMap_cons, List.isChain_cons, List.head?_cons, List.append_assoc,
      List.append_assoc]
    by_cases missed : behind = true ∧ item.isRule = true
    · obtain ⟨rfl, isRule⟩ := missed
      refine iff_of_false ?_ fun reached => reached.1 item rfl ⟨rfl, isRule⟩
      cases item with
      | styleRule own => exact own.text_append_ne mark _ _
      | atBlock | atStatement => cases isRule
    · have same : (if behind then item.text else item.confined mark) = item.confined mark := by
        cases behind with
        | false => rfl
        | true =>
          have other : item.isRule = false := by
            rw [← Bool.not_eq_true]
            exact fun isRule => missed ⟨rfl, isRule⟩
          exact (item.confined_of_other other mark).symm
      rw [same, List.append_cancel_left_eq, ih]
      refine (and_iff_right ?_).symm
      rintro next ⟨⟩
      exact missed

/-- The items of a style sheet are scanned one by one. The result has the attribute on each selector of
each style rule, and differs from the style sheet in nothing else but the white space between selectors,
just if no style rule stands directly behind an at-rule without a block. -/
theorem scope_sheet_iff (mark : String) (sheet : Sheet) :
    (scope mark (String.ofList sheet.text)).toList =
      scanned mark.toList false sheet.items ++ sheet.rest ∧
    ((scope mark (String.ofList sheet.text)).toList = sheet.confined mark.toList ↔
      sheet.IsReached) := by
  have flat : IsFlat sheet.rest := .of_blank sheet.blank
  have done : (scope mark (String.ofList sheet.text)).toList =
      scanned mark.toList false sheet.items ++ sheet.rest := by
    rw [scope, String.toList_ofList, String.toList_ofList]
    apply scopeFrom_items flat sheet.items
    · intro _
      rfl
    · intro behind
      cases behind
  refine ⟨done, ?_⟩
  rw [done, Sheet.confined, scanned_eq_iff]
  exact and_iff_right fun _ _ both => Bool.false_ne_true both.1

/-- A style sheet that takes another one in before its only rule. -/
def imported : Sheet where
  items :=
    [.atStatement [] "import 'base.css'".toList rfl (by decide),
      .styleRule {
        selectors := ["\n.a ".toList, " p > b ".toList]
        block := ⟨" margin: 0; ".toList, rfl, lacks_of_not_mem (by decide)⟩
        some := by decide
        solid := by decide
        single := by decide
        flat := by decide
        ordinary := by decide }]
  rest := []
  blank := rfl

/-- The two selectors behind the at-rule do not get the attribute. -/
theorem not_scope_imported :
    imported.text = "@import 'base.css';\n.a , p > b { margin: 0; }".toList ∧
      imported.confined "data-x".toList =
        "@import 'base.css';\n.a[data-x], p > b[data-x] { margin: 0; }".toList ∧
      scope "data-x" "@import 'base.css';\n.a , p > b { margin: 0; }" =
        "@import 'base.css';\n.a , p > b { margin: 0; }" ∧
      (scope "data-x" (String.ofList imported.text)).toList ≠ imported.confined "data-x".toList := by
  decide +kernel

end ComponentCompiler.Style

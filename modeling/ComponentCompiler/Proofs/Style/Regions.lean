import ComponentCompiler.Style.Sheet
import Mathlib.Data.List.DropRight

/-!
# The regions of a style sheet

Scoping goes through a style sheet once and counts braces. The count may become negative, when more
braces are closed than were opened, and a brace that is opened then brings it back to zero without
starting anything. A block starts with a brace that is opened at depth zero, and it ends with the brace
that brings the depth back to zero. So any text, whether or not its braces match, is a row of regions,
each with a lead before its block, and a tail in which no further block is closed.

Blocks are kept, and so is the tail, unless a block is opened in it. Every other lead is taken for a
list of selectors. Only its white space and its commas can change, apart from the attributes.

## Main definitions

* `Style.depthOf` — the count of opening braces less that of closing ones
* `Style.Lacks` — a brace is nowhere met at the depth at which a text starts
* `Style.Block`, `Style.Region`, `Style.Tail`, `Style.Division` — a style sheet in its regions
* `Style.Respelled` — a text with other white space and commas, and with attributes

## Main results

* `Style.scopeFrom_pass`, `Style.scopeFrom_within` — what a scan passes over
* `Style.exists_division` — every text has a division
* `Style.scopeFrom_division` — a style sheet is scoped region by region
* `Style.scope_divides` — what scoping keeps of a style sheet, and what it changes
-/

namespace ComponentCompiler.Style

/-! ### Depth -/

/-- How a character changes the depth. -/
def braceStep (c : Char) : Int :=
  if c = '\x7b' then 1 else if c = '\x7d' then -1 else 0

/-- The count of opening braces of a text less that of closing ones. -/
def depthOf : List Char → Int
  | [] => 0
  | c :: rest => braceStep c + depthOf rest

@[simp] theorem depthOf_nil : depthOf [] = 0 := rfl

@[simp] theorem depthOf_cons (c : Char) (text : List Char) :
    depthOf (c :: text) = braceStep c + depthOf text := rfl

@[simp] theorem depthOf_append (text rest : List Char) :
    depthOf (text ++ rest) = depthOf text + depthOf rest := by
  induction text with
  | nil => simp
  | cons c text ih => rw [List.cons_append, depthOf_cons, depthOf_cons, ih, Int.add_assoc]

/-- The brace is nowhere met in the text at the depth at which the text starts. -/
def Lacks (brace : Char) (text : List Char) : Prop :=
  ∀ front rest, text = front ++ brace :: rest → depthOf front ≠ 0

theorem lacks_nil (brace : Char) : Lacks brace [] := by
  intro front rest cut
  simp at cut

theorem lacks_concat {brace c : Char} {text : List Char} :
    Lacks brace (text ++ [c]) ↔ Lacks brace text ∧ (c = brace → depthOf text ≠ 0) := by
  constructor
  · intro lacks
    refine ⟨fun front rest cut => lacks front (rest ++ [c]) (by simp [cut]), ?_⟩
    rintro rfl
    exact lacks text [] rfl
  · rintro ⟨lacks, last⟩ front rest cut
    -- The brace is the last character, or it stands in the text before it.
    rcases List.eq_nil_or_concat rest with rfl | ⟨rest, other, rfl⟩
    · obtain ⟨rfl, same⟩ := List.append_inj' cut rfl
      exact last (List.cons.inj same).1
    · rw [List.concat_eq_append, ← List.cons_append, ← List.append_assoc] at cut
      exact lacks front rest (List.append_inj' cut rfl).1

theorem lacks_of_not_mem {brace : Char} {text : List Char} (absent : brace ∉ text) :
    Lacks brace text := by
  rintro front rest rfl
  exact absurd (List.mem_append_right front List.mem_cons_self) absent

/-- Where no block is opened the depth does not rise above where it starts. -/
theorem depthOf_nonpos {text : List Char} (lacks : Lacks '\x7b' text) : depthOf text ≤ 0 := by
  induction text using List.reverseRecOn with
  | nil => exact Int.le_refl 0
  | append_singleton text c ih =>
    obtain ⟨before, last⟩ := lacks_concat.1 lacks
    have bound := ih before
    rw [depthOf_append, depthOf_cons, depthOf_nil, braceStep]
    by_cases opens : c = '\x7b'
    · have below := last opens
      rw [if_pos opens]
      omega
    · rw [if_neg opens]
      split <;> omega

/-- Where no block is closed the depth does not fall below where it starts. -/
theorem depthOf_nonneg {text : List Char} (lacks : Lacks '\x7d' text) : 0 ≤ depthOf text := by
  induction text using List.reverseRecOn with
  | nil => exact Int.le_refl 0
  | append_singleton text c ih =>
    obtain ⟨before, last⟩ := lacks_concat.1 lacks
    have bound := ih before
    rw [depthOf_append, depthOf_cons, depthOf_nil, braceStep]
    by_cases closes : c = '\x7d'
    · have above := last closes
      rw [if_neg (by rw [closes]; decide), if_pos closes]
      omega
    · rw [if_neg closes]
      split <;> omega

/-- A text that has the brace at the depth at which it starts has a first one there. -/
theorem exists_first_of_not_lacks {brace : Char} {text : List Char} (has : ¬Lacks brace text) :
    ∃ front rest, text = front ++ brace :: rest ∧ depthOf front = 0 ∧ Lacks brace front := by
  induction text using List.reverseRecOn with
  | nil => exact absurd (lacks_nil brace) has
  | append_singleton text c ih =>
    by_cases before : Lacks brace text
    · have last : c = brace ∧ depthOf text = 0 := by
        by_contra other
        exact has (lacks_concat.2 ⟨before, fun same level => other ⟨same, level⟩⟩)
      exact ⟨text, [], by rw [last.1], last.2, before⟩
    · obtain ⟨front, rest, rfl, level, first⟩ := ih before
      exact ⟨front, rest ++ [c], by simp, level, first⟩

/-! ### Regions -/

/-- A block: it ends with the brace that brings the depth back to where the block starts. -/
structure Block where
  inner : List Char
  level : depthOf inner = 0
  closesNone : Lacks '\x7d' inner

namespace Block

/-- The text of a block, with its braces. -/
def text (block : Block) : List Char :=
  '\x7b' :: (block.inner ++ ['\x7d'])

end Block

/-- A block and what stands before it, back to the end of the block before. -/
structure Region where
  lead : List Char
  block : Block
  level : depthOf lead = 0
  opensNone : Lacks '\x7b' lead

namespace Region

/-- The text of a region. -/
def text (region : Region) : List Char :=
  region.lead ++ region.block.text

/-- The text of a region with the attribute on the selectors of its lead. -/
def confined (mark : List Char) (region : Region) : List Char :=
  scopeSelectors mark region.lead ++ region.block.text

end Region

/-- What stands behind the last block that is closed. -/
inductive Tail where
  /-- No block is opened. -/
  | plain (text : List Char) (opensNone : Lacks '\x7b' text)
  /-- A block is opened and never closed. -/
  | unclosed (lead inside : List Char) (level : depthOf lead = 0) (opensNone : Lacks '\x7b' lead)
    (closesNone : Lacks '\x7d' inside)

namespace Tail

/-- The text of a tail. -/
def text : Tail → List Char
  | plain text _ => text
  | unclosed lead inside _ _ _ => lead ++ '\x7b' :: inside

/-- The text of a tail with the attribute on the selectors before a block that is never closed. -/
def confined (mark : List Char) : Tail → List Char
  | plain text _ => text
  | unclosed lead inside _ _ _ => scopeSelectors mark lead ++ '\x7b' :: inside

end Tail

/-- A style sheet in its regions. -/
structure Division where
  regions : List Region
  tail : Tail

namespace Division

/-- The text of a style sheet. -/
def text (division : Division) : List Char :=
  division.regions.flatMap Region.text ++ division.tail.text

/-- The text of a style sheet with the attribute on the selectors of its leads. -/
def confined (mark : List Char) (division : Division) : List Char :=
  division.regions.flatMap (Region.confined mark) ++ division.tail.confined mark

end Division

/-- Every text has a division, whether or not its braces match. -/
theorem exists_division (text : List Char) : ∃ division : Division, division.text = text := by
  induction length : text.length using Nat.strongRecOn generalizing text with
  | ind size ih =>
    by_cases opensNone : Lacks '\x7b' text
    · exact ⟨⟨[], .plain text opensNone⟩, rfl⟩
    · obtain ⟨lead, after, rfl, level, first⟩ := exists_first_of_not_lacks opensNone
      by_cases closesNone : Lacks '\x7d' after
      · exact ⟨⟨[], .unclosed lead after level first closesNone⟩, rfl⟩
      · obtain ⟨inner, rest, rfl, innerLevel, innerFirst⟩ := exists_first_of_not_lacks closesNone
        have shorter : rest.length < size := by
          rw [← length]
          simp only [List.length_append, List.length_cons]
          omega
        obtain ⟨⟨regions, tail⟩, same⟩ := ih rest.length shorter rest rfl
        let region : Region := ⟨lead, ⟨inner, innerLevel, innerFirst⟩, level, first⟩
        refine ⟨⟨region :: regions, tail⟩, ?_⟩
        rw [← same]
        simp [Division.text, Region.text, Block.text, region]

/-! ### Scanning -/

section Scanning

variable {mark pending text rest : List Char}

/-- A character that neither opens a block at the top level nor closes one there is only noted. -/
theorem scopeFrom_cons {depth : Int} {c : Char} (opensNone : c = '\x7b' → depth ≠ 0)
    (closesNone : c = '\x7d' → depth ≠ 1) :
    scopeFrom mark depth pending (c :: rest) =
      scopeFrom mark (depth + braceStep c) (c :: pending) rest := by
  by_cases opens : c = '\x7b'
  · subst opens
    rw [scopeFrom, if_neg (opensNone rfl)]
    rfl
  · by_cases closes : c = '\x7d'
    · subst closes
      rw [scopeFrom, if_neg (closesNone rfl)]
      rfl
    · rw [scopeFrom, braceStep, if_neg opens, if_neg closes, Int.add_zero]
      · exact opens
      · exact closes

/-- A text that opens no block is only noted. -/
theorem scopeFrom_pass (opensNone : Lacks '\x7b' text) (rest : List Char) :
    scopeFrom mark 0 pending (text ++ rest) =
      scopeFrom mark (depthOf text) (text.reverse ++ pending) rest := by
  induction text using List.reverseRecOn generalizing rest with
  | nil => rfl
  | append_singleton text c ih =>
    obtain ⟨before, last⟩ := lacks_concat.1 opensNone
    have low := depthOf_nonpos before
    rw [List.append_assoc, ih before, List.singleton_append, scopeFrom_cons last fun _ => by omega,
      depthOf_append, depthOf_cons, depthOf_nil, Int.add_zero, List.reverse_concat]
    rfl

/-- A text inside a block is only noted if it does not close it. -/
theorem scopeFrom_within (closesNone : Lacks '\x7d' text) (rest : List Char) :
    scopeFrom mark 1 pending (text ++ rest) =
      scopeFrom mark (1 + depthOf text) (text.reverse ++ pending) rest := by
  induction text using List.reverseRecOn generalizing rest with
  | nil => rfl
  | append_singleton text c ih =>
    obtain ⟨before, last⟩ := lacks_concat.1 closesNone
    have high := depthOf_nonneg before
    rw [List.append_assoc, ih before, List.singleton_append,
      scopeFrom_cons (fun _ => by omega) fun closes => by have := last closes; omega,
      depthOf_append, depthOf_cons, depthOf_nil, Int.add_zero, Int.add_assoc, List.reverse_concat]
    rfl

/-- A block ends what is pending, and is kept. -/
theorem scopeFrom_block (block : Block) (rest : List Char) :
    scopeFrom mark 0 pending (block.text ++ rest) =
      scopeSelectors mark pending.reverse ++ block.text ++ scopeFrom mark 0 [] rest := by
  obtain ⟨inner, level, closesNone⟩ := block
  rw [Block.text, List.cons_append, List.append_assoc, scopeFrom, if_pos rfl,
    scopeFrom_within closesNone, level, List.singleton_append, Int.add_zero, scopeFrom, if_pos rfl]
  simp

theorem scopeFrom_region (region : Region) (rest : List Char) :
    scopeFrom mark 0 [] (region.text ++ rest) = region.confined mark ++ scopeFrom mark 0 [] rest := by
  rw [Region.text, List.append_assoc, scopeFrom_pass region.opensNone, region.level, scopeFrom_block,
    List.append_nil, List.reverse_reverse, Region.confined]

theorem scopeFrom_tail (tail : Tail) : scopeFrom mark 0 [] tail.text = tail.confined mark := by
  cases tail with
  | plain text opensNone =>
    have passed : scopeFrom mark 0 [] (text ++ []) =
        scopeFrom mark (depthOf text) (text.reverse ++ []) [] := scopeFrom_pass opensNone []
    simpa [Tail.text, Tail.confined, scopeFrom] using passed
  | unclosed lead inside level opensNone closesNone =>
    have within : scopeFrom mark 1 ['\x7b'] (inside ++ []) =
        scopeFrom mark (1 + depthOf inside) (inside.reverse ++ ['\x7b']) [] :=
      scopeFrom_within closesNone []
    rw [List.append_nil, scopeFrom] at within
    rw [Tail.text, scopeFrom_pass opensNone, level, scopeFrom, if_pos rfl, within]
    simp [Tail.confined]

/-- A style sheet is scoped region by region. -/
theorem scopeFrom_division (division : Division) :
    scopeFrom mark 0 [] division.text = division.confined mark := by
  obtain ⟨regions, tail⟩ := division
  induction regions with
  | nil => exact scopeFrom_tail tail
  | cons region regions ih =>
    simp only [Division.text, Division.confined, List.flatMap_cons, List.append_assoc] at ih ⊢
    rw [scopeFrom_region, ih]

end Scanning

/-! ### What changes in a lead -/

/-- White space or a comma. -/
def IsSpacing (c : Char) : Prop :=
  Text.isBlank c = true ∨ c = ','

/-- A text with attributes added to it, in which white space and commas come and go. -/
inductive Respelled (mark : List Char) : List Char → List Char → Prop
  | nil : Respelled mark [] []
  | keep (c : Char) {text new : List Char} (rest : Respelled mark text new) :
    Respelled mark (c :: text) (c :: new)
  | drop {c : Char} {text new : List Char} (spacing : IsSpacing c) (rest : Respelled mark text new) :
    Respelled mark (c :: text) new
  | add {c : Char} {text new : List Char} (spacing : IsSpacing c) (rest : Respelled mark text new) :
    Respelled mark text (c :: new)
  | marked {text new : List Char} (rest : Respelled mark text new) :
    Respelled mark text ('[' :: (mark ++ [']']) ++ new)

namespace Respelled

variable {mark text new others more : List Char}

theorem refl (text : List Char) : Respelled mark text text := by
  induction text with
  | nil => exact nil
  | cons c rest ih => exact keep c ih

theorem append (first : Respelled mark text new) (second : Respelled mark others more) :
    Respelled mark (text ++ others) (new ++ more) := by
  induction first with
  | nil => exact second
  | keep c _ ih => exact keep c ih
  | drop spacing _ ih => exact drop spacing ih
  | add spacing _ ih => exact add spacing ih
  | marked _ ih =>
    rw [List.append_assoc]
    exact marked ih

theorem dropped (spacing : ∀ c ∈ text, IsSpacing c) : Respelled mark text [] := by
  induction text with
  | nil => exact nil
  | cons c rest ih =>
    rw [List.forall_mem_cons] at spacing
    exact drop spacing.1 (ih spacing.2)

theorem added (spacing : ∀ c ∈ new, IsSpacing c) : Respelled mark [] new := by
  induction new with
  | nil => exact nil
  | cons c rest ih =>
    rw [List.forall_mem_cons] at spacing
    exact add spacing.1 (ih spacing.2)

end Respelled

theorem isSpacing_of_blank {text : List Char} (blank : Text.isBlankText text = true) :
    ∀ c ∈ text, IsSpacing c :=
  fun c member => .inl (List.all_eq_true.1 blank c member)

/-- A text is what is left of it when it is trimmed, between the white space at its ends. -/
theorem trim_surrounded (text : List Char) :
    text.takeWhile Text.isBlank ++
      (Text.trim text ++ (Text.trimStart text).rtakeWhile Text.isBlank) = text := by
  have last : Text.trim text ++ (Text.trimStart text).rtakeWhile Text.isBlank =
      Text.trimStart text := List.rdropWhile_append_rtakeWhile
  rw [last]
  exact List.takeWhile_append_dropWhile

/-- A selector loses the white space at its ends and gets the attribute. -/
theorem respelled_scopeSelector (mark selector : List Char) :
    Respelled mark selector (scopeSelector mark selector) := by
  have front : Respelled mark (selector.takeWhile Text.isBlank) [] :=
    .dropped fun c member => .inl (List.mem_takeWhile_imp member)
  have back : Respelled mark ((Text.trimStart selector).rtakeWhile Text.isBlank) [] :=
    .dropped fun c member => .inl (List.mem_rtakeWhile_imp member)
  have kept := front.append ((Respelled.refl (Text.trim selector)).append (.marked back))
  rwa [trim_surrounded, List.nil_append, List.append_nil] at kept

/-- The parts of a list of selectors, put together in another way. -/
theorem respelled_parts (mark : List Char) (parts : List (List Char)) :
    Respelled mark (Text.joinWith ',' parts)
      ([',', ' '].intercalate ((parts.filter (!Text.isBlankText ·)).map (scopeSelector mark))) := by
  have comma : Respelled mark [','] [] := .drop (.inr rfl) .nil
  have commaAndSpace : Respelled mark [','] [',', ' '] := .keep ',' (.add (.inl (by decide)) .nil)
  induction parts with
  | nil => exact .nil
  | cons part rest ih =>
    cases rest with
    | nil =>
      cases blank : Text.isBlankText part with
      | true => simpa [blank, Text.joinWith] using Respelled.dropped (isSpacing_of_blank blank)
      | false => simpa [blank, Text.joinWith] using respelled_scopeSelector mark part
    | cons next others =>
      have joined : Text.joinWith ',' (part :: next :: others) =
          part ++ ([','] ++ Text.joinWith ',' (next :: others)) := rfl
      rw [joined]
      cases blank : Text.isBlankText part with
      | true =>
        have gone : Respelled mark part [] := .dropped (isSpacing_of_blank blank)
        have all := gone.append (comma.append ih)
        rwa [List.filter_cons_of_neg (by simp [blank])]
      | false =>
        have here := respelled_scopeSelector mark part
        rw [List.filter_cons_of_pos (by simp [blank]), List.map_cons]
        cases later : ((next :: others).filter (!Text.isBlankText ·)).map (scopeSelector mark) with
        | nil =>
          rw [later] at ih
          simpa using here.append (comma.append ih)
        | cons second more =>
          rw [later] at ih
          have all := here.append (commaAndSpace.append ih)
          simpa using all

/-- Apart from attributes only the white space and the commas of a lead change. -/
theorem respelled_scopeSelectors (mark lead : List Char) :
    Respelled mark lead (scopeSelectors mark lead) := by
  rw [scopeSelectors]
  split
  · exact .refl lead
  · have margin : Respelled mark [] (lead.takeWhile Text.isBlank) :=
      .added fun c member => .inl (List.mem_takeWhile_imp member)
    have parts := respelled_parts mark (Text.splitAt ',' lead)
    rw [Text.joinWith_splitAt] at parts
    have space : Respelled mark [] [' '] := .added fun c member => by
      rw [List.mem_singleton.1 member]
      exact .inl (by decide)
    simpa [scopedList] using (margin.append parts).append space

/-- A style sheet is a row of regions with a tail. Scoping keeps the blocks and changes the leads, each
on its own; in the tail it changes the lead of a block that is never closed. Only the white space and
the commas of a lead change, apart from attributes that are added. -/
theorem scope_divides (mark sheet : String) :
    ∃ division : Division, sheet.toList = division.text ∧
      (scope mark sheet).toList = division.confined mark.toList ∧
      ∀ lead, Respelled mark.toList lead (scopeSelectors mark.toList lead) := by
  obtain ⟨division, same⟩ := exists_division sheet.toList
  refine ⟨division, same.symm, ?_, respelled_scopeSelectors mark.toList⟩
  rw [scope, String.toList_ofList, ← same, scopeFrom_division]

-- A stray brace takes the depth below zero, so the next block is opened at minus one.
example : scope "x" "p,, q\x7br\x7d\x7d s \x7bt" = "p[x], q[x] \x7br\x7d\x7d s \x7bt" := by
  decide +kernel

end ComponentCompiler.Style

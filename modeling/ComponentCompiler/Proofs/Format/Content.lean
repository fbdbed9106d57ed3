import ComponentCompiler.Proofs.Format.NormalForm

/-!
# What tidying keeps

Tidying refuses a page just if its first fence is never closed. From any other page nothing is lost
but white space: the lines that are not blank stay, in order and up to the white space at their ends,
and two of them that follow each other are apart in the tidied page just if they were apart before.
How many blank lines stood between them does not matter, nor do blank lines before the first or after
the last of them.

The lines of a page go through four steps, and each of them is looked at on its own: line feeds are
taken from the two ends, the lines are trimmed, runs of blank lines are thinned, and a line feed closes
the page.

## Main definitions

* `solidLines` — the lines that are not blank
* `GapAfter` — a blank line stands behind a number of lines that are not
* `OpensFence` — the first fence of a page is never closed
* `KeepsLines` — a text has the lines of a page, and is parted where the page is

## Main results

* `Text.splitAt_append_separator` — lines on both sides of a line feed
* `exists_lines_stripBreaks` — the line feeds at the ends of a page are blank lines of it
* `leavesFenceOpen_iff` — when a page is refused
* `keepsLines_of_tidy` — what is kept in a page that is not
-/

namespace ComponentCompiler

open Text (splitAt joinWith trimEnd isBlankText)

/-- A text with a separator in it is taken apart on both sides of it. -/
theorem Text.splitAt_append_separator (separator : Char) (front back : List Char) :
    splitAt separator (front ++ separator :: back) =
      splitAt separator front ++ splitAt separator back := by
  induction front with
  | nil => simp [splitAt]
  | cons c rest ih =>
    rw [List.cons_append, splitAt, splitAt]
    by_cases same : c = separator
    · rw [if_pos same, if_pos same, ih, List.cons_append]
    · -- The character goes to the first line, which is part of the front.
      rw [if_neg same, if_neg same, ih]
      cases parts : splitAt separator rest with
      | nil => exact absurd parts (splitAt_ne_nil separator rest)
      | cons part more => rfl

/-! ### Lines that are not blank, and gaps between them -/

/-- The lines of a text. -/
def linesOf (text : String) : List (List Char) :=
  splitAt '\n' text.toList

/-- The lines that are not blank. -/
def solidLines (lines : List (List Char)) : List (List Char) :=
  lines.filter fun line => !isBlankText line

/-- A blank line stands behind the given number of lines that are not blank, and before the next such
line if there is one. -/
def GapAfter (count : Nat) (lines : List (List Char)) : Prop :=
  ∃ before blank after, lines = before ++ blank :: after ∧ isBlankText blank = true ∧
    (solidLines before).length = count

@[simp] theorem solidLines_nil : solidLines [] = [] := rfl

theorem solidLines_append (lines others : List (List Char)) :
    solidLines (lines ++ others) = solidLines lines ++ solidLines others :=
  List.filter_append lines others

theorem solidLines_cons_of_blank {line : List Char} (blank : isBlankText line = true)
    (rest : List (List Char)) : solidLines (line :: rest) = solidLines rest := by
  simp [solidLines, blank]

theorem solidLines_cons_of_solid {line : List Char} (solid : isBlankText line = false)
    (rest : List (List Char)) : solidLines (line :: rest) = line :: solidLines rest := by
  simp [solidLines, solid]

theorem solidLines_replicate_nil (count : Nat) : solidLines (List.replicate count []) = [] := by
  simp [solidLines, isBlankText]

theorem not_gapAfter_nil (count : Nat) : ¬GapAfter count [] := by
  rintro ⟨before, blank, after, cut, -⟩
  simp at cut

/-- A gap in lines that are put together is a gap in the first or in the second ones of them. All other
facts about gaps come from this one. -/
theorem gapAfter_append {count : Nat} {lines others : List (List Char)} :
    GapAfter count (lines ++ others) ↔
      GapAfter count lines ∨
        ∃ more, (solidLines lines).length + more = count ∧ GapAfter more others := by
  constructor
  · rintro ⟨before, blank, after, cut, white, rfl⟩
    rcases List.append_eq_append_iff.1 cut.symm with ⟨rest, rfl, later⟩ | ⟨rest, rfl, later⟩
    · cases rest with
      | nil =>
        refine .inr ⟨0, by simp, [], blank, after, ?_, white, rfl⟩
        simpa using later.symm
      | cons line rest =>
        obtain ⟨rfl, -⟩ := List.cons.inj later
        exact .inl ⟨before, blank, rest, rfl, white, rfl⟩
    · refine .inr ⟨(solidLines rest).length, ?_, rest, blank, after, later, white, rfl⟩
      rw [solidLines_append, List.length_append]
  · rintro (⟨before, blank, after, rfl, white, rfl⟩ | ⟨more, rfl, before, blank, after, rfl, white, rfl⟩)
    · exact ⟨before, blank, after ++ others, by simp, white, rfl⟩
    · refine ⟨lines ++ before, blank, after, by simp, white, ?_⟩
      rw [solidLines_append, List.length_append]

theorem gapAfter_singleton {count : Nat} {line : List Char} :
    GapAfter count [line] ↔ count = 0 ∧ isBlankText line = true := by
  constructor
  · rintro ⟨before, blank, after, cut, white, rfl⟩
    obtain ⟨rfl, rfl, rfl⟩ : before = [] ∧ blank = line ∧ after = [] := by
      cases before <;> simp_all
    exact ⟨rfl, white⟩
  · rintro ⟨rfl, white⟩
    exact ⟨[], line, [], rfl, white, rfl⟩

theorem gapAfter_cons_of_blank {count : Nat} {line : List Char} (blank : isBlankText line = true)
    (rest : List (List Char)) : GapAfter count (line :: rest) ↔ count = 0 ∨ GapAfter count rest := by
  rw [← List.singleton_append, gapAfter_append, gapAfter_singleton]
  simp [solidLines, blank]

theorem gapAfter_cons_of_solid {count : Nat} {line : List Char} (solid : isBlankText line = false)
    (rest : List (List Char)) :
    GapAfter count (line :: rest) ↔ ∃ fewer, fewer + 1 = count ∧ GapAfter fewer rest := by
  rw [← List.singleton_append, gapAfter_append, gapAfter_singleton]
  simp [solidLines, solid, Nat.add_comm]

/-- Gaps behind a line depend on what follows it. -/
theorem gapAfter_cons_congr {count : Nat} {lines others : List (List Char)} (line : List Char)
    (same : ∀ fewer, GapAfter fewer lines ↔ GapAfter fewer others) :
    GapAfter count (line :: lines) ↔ GapAfter count (line :: others) := by
  change GapAfter count ([line] ++ lines) ↔ GapAfter count ([line] ++ others)
  rw [gapAfter_append, gapAfter_append]
  simp only [same]

theorem solidLines_cons_congr {lines others : List (List Char)} (line : List Char)
    (same : solidLines lines = solidLines others) :
    solidLines (line :: lines) = solidLines (line :: others) := by
  change solidLines ([line] ++ lines) = solidLines ([line] ++ others)
  rw [solidLines_append, solidLines_append, same]

/-- Blank lines alone have a gap before any line that is not blank, at most. -/
theorem eq_zero_of_gapAfter_replicate {count amount : Nat}
    (gap : GapAfter count (List.replicate amount [])) : count = 0 := by
  induction amount with
  | zero => exact absurd gap (not_gapAfter_nil count)
  | succ amount ih =>
    rw [List.replicate_succ, gapAfter_cons_of_blank rfl] at gap
    exact gap.elim id ih

/-! ### The four steps -/

/-- Blank lines around some lines part none of them. -/
theorem gapAfter_surrounded {count front back : Nat} {lines : List (List Char)} (some : 0 < count)
    (within : count < (solidLines lines).length) :
    GapAfter count (List.replicate front [] ++ lines ++ List.replicate back []) ↔
      GapAfter count lines := by
  rw [gapAfter_append, gapAfter_append, solidLines_append, solidLines_replicate_nil]
  constructor
  · rintro ((before | ⟨same, rfl, gap⟩) | ⟨more, rfl, behind⟩)
    · have none := eq_zero_of_gapAfter_replicate before
      omega
    · simpa using gap
    · simp only [List.nil_append] at within
      omega
  · intro gap
    exact .inl (.inr ⟨count, by simp, gap⟩)

/-- Line feeds at the start of a text are blank lines of it. -/
theorem exists_lines_dropWhile (text : List Char) :
    ∃ front, splitAt '\n' text =
      List.replicate front [] ++ splitAt '\n' (text.dropWhile (· == '\n')) := by
  induction text with
  | nil => exact ⟨0, rfl⟩
  | cons c rest ih =>
    obtain rfl | other := eq_or_ne c '\n'
    · obtain ⟨front, lines⟩ := ih
      refine ⟨front + 1, ?_⟩
      rw [splitAt, if_pos rfl, lines, List.replicate_succ, List.dropWhile_cons_of_pos rfl]
      rfl
    · refine ⟨0, ?_⟩
      have solid : ¬(c == '\n') = true := fun same => other (beq_iff_eq.1 same)
      rw [List.dropWhile_cons_of_neg (p := (· == '\n')) solid, List.replicate_zero, List.nil_append]

/-- Line feeds at the end of a text are blank lines of it. -/
theorem exists_lines_rdropWhile (text : List Char) :
    ∃ back, splitAt '\n' text =
      splitAt '\n' (text.rdropWhile (· == '\n')) ++ List.replicate back [] := by
  induction text using List.reverseRecOn with
  | nil => exact ⟨0, rfl⟩
  | append_singleton body c ih =>
    obtain rfl | other := eq_or_ne c '\n'
    · obtain ⟨back, lines⟩ := ih
      refine ⟨back + 1, ?_⟩
      rw [List.rdropWhile_concat_pos (· == '\n') _ _ rfl, Text.splitAt_append_separator, lines,
        List.replicate_succ', ← List.append_assoc]
      rfl
    · refine ⟨0, ?_⟩
      have solid : ¬(c == '\n') = true := fun same => other (beq_iff_eq.1 same)
      rw [List.rdropWhile_concat_neg (· == '\n') _ _ solid, List.replicate_zero, List.append_nil]

/-- The line feeds at the ends of a text are blank lines of it. -/
theorem exists_lines_stripBreaks (text : List Char) :
    ∃ front back, splitAt '\n' text =
      List.replicate front [] ++ splitAt '\n' (stripBreaks text) ++ List.replicate back [] := by
  obtain ⟨front, before⟩ := exists_lines_dropWhile text
  obtain ⟨back, behind⟩ := exists_lines_rdropWhile (text.dropWhile (· == '\n'))
  refine ⟨front, back, ?_⟩
  rw [before, behind, List.append_assoc]
  rfl

theorem isBlankText_trimEnd (line : List Char) : isBlankText (trimEnd line) = isBlankText line := by
  rw [Bool.eq_iff_iff, ← trimEnd_eq_nil_iff, ← trimEnd_eq_nil_iff, trimEnd_trimEnd]

/-- Trimming changes no line into a blank one. -/
theorem solidLines_map_trimEnd (lines : List (List Char)) :
    solidLines (lines.map trimEnd) = (solidLines lines).map trimEnd := by
  induction lines with
  | nil => rfl
  | cons line rest ih =>
    have kept := isBlankText_trimEnd line
    cases blank : isBlankText line with
    | true =>
      rw [List.map_cons, solidLines_cons_of_blank (kept.trans blank), solidLines_cons_of_blank blank, ih]
    | false =>
      rw [List.map_cons, solidLines_cons_of_solid (kept.trans blank), solidLines_cons_of_solid blank, ih,
        List.map_cons]

theorem gapAfter_map_trimEnd {count : Nat} {lines : List (List Char)} :
    GapAfter count (lines.map trimEnd) ↔ GapAfter count lines := by
  induction lines generalizing count with
  | nil => exact Iff.rfl
  | cons line rest ih =>
    have kept := isBlankText_trimEnd line
    cases blank : isBlankText line with
    | true =>
      rw [List.map_cons, gapAfter_cons_of_blank (kept.trans blank), gapAfter_cons_of_blank blank, ih]
    | false =>
      rw [List.map_cons, gapAfter_cons_of_solid (kept.trans blank), gapAfter_cons_of_solid blank]
      simp only [ih]

/-- A line that is dropped is empty, and an empty line follows it. -/
theorem exists_of_drops {line : List Char} {rest : List (List Char)}
    (drops : (line.isEmpty && startsWithBlank rest) = true) :
    line = [] ∧ ∃ later, rest = [] :: later := by
  rw [Bool.and_eq_true, List.isEmpty_iff, startsWithBlank_iff] at drops
  obtain ⟨empty, next, more, starts⟩ := drops
  exact ⟨empty, next :: more, starts⟩

/-- Thinning drops blank lines only. -/
theorem solidLines_thinLater (lines : List (List Char)) :
    solidLines (thinLater lines) = solidLines lines := by
  induction lines with
  | nil => rfl
  | cons line rest ih =>
    rw [thinLater]
    split
    · next drops =>
      obtain ⟨rfl, -⟩ := exists_of_drops drops
      rw [ih, solidLines_cons_of_blank rfl]
    · exact solidLines_cons_congr line ih

/-- Where a blank line is dropped another one stays, so that no gap closes. -/
theorem gapAfter_thinLater {count : Nat} {lines : List (List Char)} :
    GapAfter count (thinLater lines) ↔ GapAfter count lines := by
  induction lines generalizing count with
  | nil => exact Iff.rfl
  | cons line rest ih =>
    rw [thinLater]
    split
    · next drops =>
      obtain ⟨rfl, later, rfl⟩ := exists_of_drops drops
      rw [ih, gapAfter_cons_of_blank rfl ([] :: later), gapAfter_cons_of_blank rfl later, or_self_left]
    · exact gapAfter_cons_congr line fun _ => ih

theorem solidLines_thinLines (lines : List (List Char)) :
    solidLines (thinLines lines) = solidLines lines := by
  cases lines with
  | nil => rfl
  | cons first rest => exact solidLines_cons_congr first (solidLines_thinLater rest)

theorem gapAfter_thinLines {count : Nat} {lines : List (List Char)} :
    GapAfter count (thinLines lines) ↔ GapAfter count lines := by
  cases lines with
  | nil => exact Iff.rfl
  | cons first rest => exact gapAfter_cons_congr first fun _ => gapAfter_thinLater

/-! ### Tidied pages -/

/-- Between the line feeds at its ends, the page starts with a fence, and no later line is a fence. White
space at the ends of the lines does not count. -/
def OpensFence (page : String) : Prop :=
  ∃ first later, splitAt '\n' (stripBreaks page.toList) = first :: later ∧ trimEnd first = fence ∧
    ∀ line ∈ later, trimEnd line ≠ fence

/-- A text has the lines of a page that are not blank, up to white space at their ends, and two of them
in a row have a blank line between them just if they have in the page. -/
structure KeepsLines (page text : String) : Prop where
  lines : solidLines (linesOf text) = (solidLines (linesOf page)).map trimEnd
  gaps : ∀ count, 0 < count → count < (solidLines (linesOf page)).length →
    (GapAfter count (linesOf text) ↔ GapAfter count (linesOf page))

theorem leavesFenceOpen_iff {page : String} :
    leavesFenceOpen (trimmedLines page.toList) = true ↔ OpensFence page := by
  unfold OpensFence trimmedLines
  cases splitAt '\n' (stripBreaks page.toList) with
  | nil => simp [leavesFenceOpen]
  | cons first later =>
    simp only [List.map_cons, leavesFenceOpen, Bool.and_eq_true, beq_iff_eq, Bool.not_eq_true',
      ← Bool.not_eq_true, List.contains_iff_mem, List.mem_map, not_exists, not_and]
    constructor
    · rintro ⟨opening, unclosed⟩
      exact ⟨first, later, rfl, opening, unclosed⟩
    · rintro ⟨_, _, same, opening, unclosed⟩
      obtain ⟨rfl, rfl⟩ := List.cons.inj same
      exact ⟨opening, unclosed⟩

/-- A page whose first fence is never closed is refused. -/
theorem tidy_of_opensFence {page : String} (opens : OpensFence page) :
    tidy page = .error openFence := by
  rw [tidy, (tidy_eq_none_iff _).2 (leavesFenceOpen_iff.2 opens)]

/-- Any other page is tidied. -/
theorem exists_tidy {page : String} (closed : ¬OpensFence page) : ∃ text, tidy page = .ok text := by
  have fenced : leavesFenceOpen (trimmedLines page.toList) = false := by
    rw [← Bool.not_eq_true, leavesFenceOpen_iff]
    exact closed
  refine ⟨String.ofList (joinWith '\n' (thinLines (trimmedLines page.toList)) ++ ['\n']), ?_⟩
  rw [tidy_eq_ok_iff, tidyText_eq_some_iff, String.toList_ofList]
  exact ⟨fenced, rfl⟩

/-- The lines of a tidied page, of which the last one is empty. -/
theorem linesOf_of_tidy {page text : String} (done : tidy page = .ok text) :
    linesOf text = thinLines (trimmedLines page.toList) ++ [[]] := by
  obtain ⟨-, made⟩ := tidyText_eq_some_iff.1 (tidy_eq_ok_iff.1 done)
  have kept := (thinLines_sublist (trimmedLines page.toList)).subset
  rw [linesOf, made, Text.splitAt_append_separator, Text.splitAt_joinWith
    (thinLines_ne_nil (trimmedLines_ne_nil page.toList)) fun line member =>
      not_mem_trimmedLines (kept member)]
  rfl

/-- A tidied page keeps the lines that are not blank, and keeps them apart. -/
theorem keepsLines_of_tidy {page text : String} (done : tidy page = .ok text) :
    KeepsLines page text := by
  obtain ⟨front, back, lines⟩ := exists_lines_stripBreaks page.toList
  have written := linesOf_of_tidy done
  have same : solidLines (linesOf page) = solidLines (splitAt '\n' (stripBreaks page.toList)) := by
    rw [linesOf, lines, solidLines_append, solidLines_append, solidLines_replicate_nil,
      solidLines_replicate_nil, List.append_nil, List.nil_append]
  constructor
  case lines =>
    rw [written, solidLines_append, solidLines_thinLines, trimmedLines, solidLines_map_trimEnd, same]
    exact List.append_nil _
  case gaps =>
    intro count some within
    -- The line that closes the page is like a line feed behind it.
    have thinned : count < (solidLines (thinLines (trimmedLines page.toList))).length := by
      rwa [solidLines_thinLines, trimmedLines, solidLines_map_trimEnd, List.length_map, ← same]
    have closing : GapAfter count (thinLines (trimmedLines page.toList) ++ [[]]) ↔
        GapAfter count (thinLines (trimmedLines page.toList)) :=
      @gapAfter_surrounded count 0 1 _ some thinned
    rw [written, linesOf, lines, gapAfter_surrounded some (same ▸ within), closing]
    exact gapAfter_thinLines.trans gapAfter_map_trimEnd

end ComponentCompiler

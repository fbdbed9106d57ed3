import ComponentCompiler.Proofs.Format.Lines

/-!
# The normal form of a page

A tidy page has no white space at the ends of its lines and no two blank lines together. One line
feed closes it, behind a line that is not blank, and tidying it once more changes nothing.

Line feeds are taken from the ends of a page before its lines are trimmed. A line of white space at
either end holds them there, and becomes a blank line afterwards. So a page is tidied into a tidy one
just if no such line stands at its ends. A page of a single line is no exception to that if the line
is blank: nothing of it is left, and a lone line feed is tidy.

## Main definitions

* `IsTidy` — the normal form
* `IsFlush` — pages without a line of white space at their ends

## Main results

* `length_le_of_tidyText` — tidying never makes a page longer than its text and one line feed
* `tidyText_joinWith` — lines in normal form are left alone
* `isTidy_iff_isFlush` — the pages that are tidied into tidy ones
* `not_isTidy_openEnded` — a page that is not
-/

namespace ComponentCompiler

open Text (splitAt joinWith trimEnd isBlank isBlankText)

/-- The lines of a page that a line feed closes. -/
def pageLines (page : String) : List (List Char) :=
  splitAt '\n' page.toList.dropLast

/-- A page in its normal form. -/
structure IsTidy (page : String) : Prop where
  /-- A single line feed ends the page. -/
  closed : ∃ body, page.toList = body ++ ['\n'] ∧ body.getLast? ≠ some '\n'
  /-- No line ends with white space. -/
  trimmed : ∀ line ∈ pageLines page, ∀ c, line.getLast? = some c → isBlank c = false
  /-- No blank line follows another. -/
  spaced : (pageLines page).IsChain fun line next =>
    ¬(isBlankText line = true ∧ isBlankText next = true)
  /-- The page can be tidied again and stays as it is. -/
  settled : tidy page = .ok page

/-- Between the line feeds at its ends, the page is a single line, or its first and its last line
are not blank. -/
def IsFlush (page : String) : Prop :=
  let lines := splitAt '\n' (stripBreaks page.toList)
  lines.length = 1 ∨
    ∀ line, lines.head? = some line ∨ lines.getLast? = some line → isBlankText line = false

/-! ### Trimmed lines -/

theorem trimEnd_trimEnd (line : List Char) : trimEnd (trimEnd line) = trimEnd line :=
  List.rdropWhile_idempotent isBlank line

theorem trimEnd_eq_nil_iff {line : List Char} : trimEnd line = [] ↔ isBlankText line = true := by
  rw [isBlankText, List.all_eq_true]
  exact List.rdropWhile_eq_nil_iff

theorem length_trimEnd_le (line : List Char) : (trimEnd line).length ≤ line.length :=
  (List.rdropWhile_prefix isBlank line).length_le

theorem trimEnd_subset (line : List Char) : trimEnd line ⊆ line :=
  (List.rdropWhile_prefix isBlank line).subset

theorem isBlank_of_getLast?_trimEnd {line : List Char} {c : Char}
    (last : (trimEnd line).getLast? = some c) : isBlank c = false := by
  have some : trimEnd line ≠ [] := by
    intro empty
    simp [empty] at last
  have solid := List.rdropWhile_last_not isBlank line some
  rw [List.getLast?_eq_some_getLast some, Option.some.injEq] at last
  change ¬isBlank ((trimEnd line).getLast some) = true at solid
  rwa [last, Bool.not_eq_true] at solid

theorem trimmedLines_ne_nil (page : List Char) : trimmedLines page ≠ [] := by
  simpa [trimmedLines] using Text.splitAt_ne_nil '\n' (stripBreaks page)

theorem not_mem_trimmedLines {page line : List Char} (member : line ∈ trimmedLines page) :
    '\n' ∉ line := by
  obtain ⟨whole, part, rfl⟩ := List.mem_map.1 member
  exact fun inside => Text.not_mem_of_mem_splitAt part (trimEnd_subset whole inside)

theorem trimEnd_of_mem_trimmedLines {page line : List Char} (member : line ∈ trimmedLines page) :
    trimEnd line = line := by
  obtain ⟨whole, -, rfl⟩ := List.mem_map.1 member
  exact trimEnd_trimEnd whole

/-- What a page is tidied into. -/
theorem tidyText_eq_some_iff {page text : List Char} :
    tidyText page = some text ↔ leavesFenceOpen (trimmedLines page) = false ∧
      text = joinWith '\n' (thinLines (trimmedLines page)) ++ ['\n'] := by
  rw [tidyText, collapseBreaks_joinWith fun line => not_mem_trimmedLines]
  cases leavesFenceOpen (trimmedLines page) <;> simp [eq_comm]

theorem tidy_eq_ok_iff {page text : String} :
    tidy page = .ok text ↔ tidyText page.toList = some text.toList := by
  rw [tidy]
  cases tidyText page.toList with
  | none => simp
  | some tidied => simp [String.ext_iff]

/-! ### Lengths -/

theorem length_collapseBreaks_le (text : List Char) :
    (collapseBreaks text).length ≤ text.length := by
  induction text with
  | nil => exact Nat.le_refl _
  | cons c rest ih =>
    rw [collapseBreaks]
    split <;> simp only [List.length_cons] <;> omega

theorem length_joinWith_map_trimEnd_le (lines : List (List Char)) :
    (joinWith '\n' (lines.map trimEnd)).length ≤ (joinWith '\n' lines).length := by
  induction lines with
  | nil => exact Nat.le_refl _
  | cons line rest ih =>
    have shorter := length_trimEnd_le line
    cases rest with
    | nil => simpa [joinWith] using shorter
    | cons next others =>
      rw [List.map_cons, Text.joinWith_cons (by simp), Text.joinWith_cons (by simp)]
      simp only [List.length_append, List.length_cons]
      omega

/-- Tidying adds one line feed, and nothing else. -/
theorem length_le_of_tidyText {page text : List Char} (done : tidyText page = some text) :
    text.length ≤ (stripBreaks page).length + 1 := by
  have whole := Text.joinWith_splitAt '\n' (stripBreaks page)
  have trimmed := length_joinWith_map_trimEnd_le (splitAt '\n' (stripBreaks page))
  have collapsed := length_collapseBreaks_le (joinWith '\n' (trimmedLines page))
  rw [collapseBreaks_joinWith fun line => not_mem_trimmedLines] at collapsed
  rw [whole] at trimmed
  rw [(tidyText_eq_some_iff.1 done).2, List.length_append, List.length_singleton]
  exact Nat.add_le_add_right (collapsed.trans trimmed) 1

/-- The line feeds at the two ends of a page are both taken. -/
theorem length_stripBreaks_le (text : List Char) :
    (stripBreaks ('\n' :: (text ++ ['\n']))).length ≤ text.length := by
  have unwrapped : stripBreaks ('\n' :: (text ++ ['\n'])) =
      ((text ++ ['\n']).dropWhile (· == '\n')).rdropWhile (· == '\n') := rfl
  have shorter := (List.rdropWhile_prefix (· == '\n') (text.dropWhile (· == '\n'))).length_le
  have front := (List.dropWhile_suffix (l := text) (· == '\n')).length_le
  rw [unwrapped, List.dropWhile_append]
  split
  · simp
  · rw [List.rdropWhile_concat_pos _ _ _ rfl]
    exact shorter.trans front

/-- A text that neither starts nor ends with a line feed is what is left of it with one. -/
theorem stripBreaks_append {text : List Char} (first : text.head? ≠ some '\n')
    (last : text.getLast? ≠ some '\n') : stripBreaks (text ++ ['\n']) = text := by
  have unwrapped : stripBreaks (text ++ ['\n']) =
      ((text ++ ['\n']).dropWhile (· == '\n')).rdropWhile (· == '\n') := rfl
  rw [unwrapped]
  cases text with
  | nil => rfl
  | cons c rest =>
    have front : (c :: rest ++ ['\n']).dropWhile (· == '\n') = c :: rest ++ ['\n'] := by
      have other : c ≠ '\n' := fun same => first (congrArg some same)
      simp [other]
    rw [front, List.rdropWhile_concat_pos _ _ _ rfl, List.rdropWhile_eq_self_iff]
    intro some ends
    rw [List.getLast?_eq_some_getLast some] at last
    exact last (congrArg _ (beq_iff_eq.1 ends))

/-! ### Lines in normal form -/

theorem head?_joinWith_ne {lines : List (List Char)} (clean : ∀ line ∈ lines, '\n' ∉ line)
    (solid : lines = [[]] ∨ lines.head? ≠ some []) : (joinWith '\n' lines).head? ≠ some '\n' := by
  rcases solid with rfl | solid
  · nofun
  · cases lines with
    | nil => nofun
    | cons line rest =>
      have some : line ≠ [] := fun empty => solid (congrArg _ empty)
      rw [Text.head?_joinWith some]
      exact fun starts => clean line List.mem_cons_self (List.mem_of_head? starts)

theorem getLast?_joinWith_ne {lines : List (List Char)} (clean : ∀ line ∈ lines, '\n' ∉ line)
    (solid : lines = [[]] ∨ lines.getLast? ≠ some []) :
    (joinWith '\n' lines).getLast? ≠ some '\n' := by
  rcases solid with rfl | solid
  · nofun
  · cases last : lines.getLast? with
    | none =>
      rw [List.getLast?_eq_none_iff.1 last]
      nofun
    | some line =>
      have some : line ≠ [] := fun empty => solid (last.trans (congrArg _ empty))
      rw [Text.getLast?_joinWith last some]
      exact fun ends => clean line (List.mem_of_getLast? last) (List.mem_of_getLast? ends)

/-- Lines that are trimmed, of which no two blank ones stand together and none is blank at the ends,
are left alone. -/
theorem tidyText_joinWith {lines : List (List Char)} (present : lines ≠ [])
    (clean : ∀ line ∈ lines, '\n' ∉ line) (trimmed : ∀ line ∈ lines, trimEnd line = line)
    (apart : lines.IsChain Apart) (first : lines = [[]] ∨ lines.head? ≠ some [])
    (last : lines = [[]] ∨ lines.getLast? ≠ some []) (fenced : leavesFenceOpen lines = false) :
    tidyText (joinWith '\n' lines ++ ['\n']) = some (joinWith '\n' lines ++ ['\n']) := by
  have same : trimmedLines (joinWith '\n' lines ++ ['\n']) = lines := by
    rw [trimmedLines, stripBreaks_append (head?_joinWith_ne clean first)
      (getLast?_joinWith_ne clean last), Text.splitAt_joinWith present clean]
    exact (List.map_congr_left trimmed).trans (List.map_id lines)
  rw [tidyText_eq_some_iff, same, thinLines_of_isChain apart]
  exact ⟨fenced, rfl⟩

/-- Thinning keeps the fences. -/
theorem leavesFenceOpen_thinLines (lines : List (List Char)) :
    leavesFenceOpen (thinLines lines) = leavesFenceOpen lines := by
  cases lines with
  | nil => rfl
  | cons first rest =>
    have kept : (thinLater rest).contains fence = rest.contains fence := by
      rw [Bool.eq_iff_iff, List.contains_iff_mem, List.contains_iff_mem]
      exact mem_thinLater_iff (List.cons_ne_nil _ _)
    rw [thinLines, leavesFenceOpen, leavesFenceOpen, kept]

/-! ### Pages in normal form -/

/-- The condition on a page, said of its trimmed lines. -/
theorem isFlush_iff {page : String} :
    IsFlush page ↔ (trimmedLines page.toList).length = 1 ∨
      (trimmedLines page.toList).head? ≠ some [] ∧
        (trimmedLines page.toList).getLast? ≠ some [] := by
  have blank {line : Option (List Char)} :
      line.map trimEnd = some [] ↔ ∃ whole, line = some whole ∧ isBlankText whole = true := by
    simp [trimEnd_eq_nil_iff]
  simp only [IsFlush, trimmedLines, List.length_map, List.head?_map, List.getLast?_map, ne_eq, blank]
  refine or_congr_right ⟨fun solid => ⟨?_, ?_⟩, fun ⟨front, back⟩ line => ?_⟩
  · rintro ⟨line, starts, white⟩
    exact Bool.false_ne_true ((solid line (.inl starts)).symm.trans white)
  · rintro ⟨line, ends, white⟩
    exact Bool.false_ne_true ((solid line (.inr ends)).symm.trans white)
  · rw [← Bool.not_eq_true]
    rintro (starts | ends) white
    · exact front ⟨line, starts, white⟩
    · exact back ⟨line, ends, white⟩

theorem pageLines_of_eq {page : String} {lines : List (List Char)}
    (made : page.toList = joinWith '\n' lines ++ ['\n']) (present : lines ≠ [])
    (clean : ∀ line ∈ lines, '\n' ∉ line) : pageLines page = lines := by
  rw [pageLines, made, List.dropLast_concat, Text.splitAt_joinWith present clean]

section Thinned

variable {lines : List (List Char)}

/-- Behind a blank first line the page starts and ends with a line feed. Both are taken when it is
tidied again, and one of them comes back. -/
theorem tidyText_ne_of_blank_first (blank : lines.head? = some []) (several : lines.length ≠ 1) :
    tidyText (joinWith '\n' (thinLines lines) ++ ['\n']) ≠
      some (joinWith '\n' (thinLines lines) ++ ['\n']) := by
  intro settled
  obtain ⟨next, rest, rfl⟩ : ∃ next rest, lines = [] :: next :: rest := by
    match lines, blank, several with
    | [] :: next :: rest, _, _ => exact ⟨next, rest, rfl⟩
  rw [thinLines, Text.joinWith_cons (thinLater_ne_nil (List.cons_ne_nil _ _))] at settled
  have again := length_le_of_tidyText settled
  have stripped := length_stripBreaks_le (joinWith '\n' (thinLater (next :: rest)))
  simp only [List.nil_append, List.cons_append, List.length_cons, List.length_append,
    List.length_nil] at again
  omega

/-- Before a blank last line the page ends with a line feed of its own. -/
theorem getLast?_of_blank_last (blank : lines.getLast? = some []) (several : lines.length ≠ 1) :
    (joinWith '\n' (thinLines lines)).getLast? = some '\n' := by
  refine Text.getLast?_joinWith_of_empty ((getLast?_thinLines lines).trans blank) ?_
  match lines, several with
  | [], _ => exact Nat.zero_ne_one
  | _ :: next :: rest, _ =>
    have more := List.length_pos_iff.2 (thinLater_ne_nil (List.cons_ne_nil next rest))
    rw [thinLines, List.length_cons]
    omega

/-- What is left of lines that are flush is flush, and no two blank lines stand together in it. -/
theorem thinLines_of_flush
    (flush : lines.length = 1 ∨ lines.head? ≠ some [] ∧ lines.getLast? ≠ some []) :
    (thinLines lines).IsChain Apart ∧
      (thinLines lines = [[]] ∨ (thinLines lines).head? ≠ some []) ∧
      (thinLines lines = [[]] ∨ (thinLines lines).getLast? ≠ some []) := by
  rcases flush with single | ⟨front, back⟩
  · obtain ⟨line, rfl⟩ := List.length_eq_one_iff.1 single
    refine ⟨List.isChain_singleton _, ?_⟩
    cases line <;> simp [thinLines, thinLater]
  · refine ⟨isChain_thinLines front back, .inr ?_, .inr (getLast?_thinLines lines ▸ back)⟩
    cases lines <;> exact front

end Thinned

/-- A page that can be tidied becomes tidy just if no line of white space stands at its ends. -/
theorem isTidy_iff_isFlush {page text : String} (done : tidy page = .ok text) :
    IsTidy text ↔ IsFlush page := by
  obtain ⟨fenced, made⟩ := tidyText_eq_some_iff.1 (tidy_eq_ok_iff.1 done)
  have kept := (thinLines_sublist (trimmedLines page.toList)).subset
  have present := thinLines_ne_nil (trimmedLines_ne_nil page.toList)
  have clean : ∀ line ∈ thinLines (trimmedLines page.toList), '\n' ∉ line :=
    fun line member => not_mem_trimmedLines (kept member)
  have trimmed : ∀ line ∈ thinLines (trimmedLines page.toList), trimEnd line = line :=
    fun line member => trimEnd_of_mem_trimmedLines (kept member)
  rw [isFlush_iff]
  constructor
  · intro normal
    by_contra ragged
    rw [not_or, not_and_or, not_ne_iff, not_ne_iff] at ragged
    obtain ⟨several, blank | blank⟩ := ragged
    · refine tidyText_ne_of_blank_first blank several ?_
      rw [← made]
      exact tidy_eq_ok_iff.1 normal.settled
    · obtain ⟨body, whole, solid⟩ := normal.closed
      obtain rfl := List.append_cancel_right (made.symm.trans whole)
      exact solid (getLast?_of_blank_last blank several)
  · intro flush
    obtain ⟨apart, first, last⟩ := thinLines_of_flush flush
    have own := pageLines_of_eq made present clean
    refine ⟨⟨_, made, getLast?_joinWith_ne clean last⟩, ?_, ?_, ?_⟩
    · rw [own]
      intro line member c ends
      rw [← trimmed line member] at ends
      exact isBlank_of_getLast?_trimEnd ends
    · rw [own]
      refine apart.imp_of_mem_imp fun line next inside beside together blank => together ?_
      simpa [← trimEnd_eq_nil_iff, trimmed line inside, trimmed next beside] using blank
    · rw [tidy_eq_ok_iff, made]
      exact tidyText_joinWith present clean trimmed apart first last
        ((leavesFenceOpen_thinLines _).trans fenced)

/-- The white space is cut, the blank lines in the middle become one, and those at the ends go. -/
theorem isTidy_article :
    tidy "\n---\nlet a = 1;  \n---\n \n\t\n\n<p>\n</p>\n\n" =
        .ok "---\nlet a = 1;\n---\n\n<p>\n</p>\n" ∧
      IsFlush "\n---\nlet a = 1;  \n---\n \n\t\n\n<p>\n</p>\n\n" ∧
      IsTidy "---\nlet a = 1;\n---\n\n<p>\n</p>\n" := by
  have done : tidy "\n---\nlet a = 1;  \n---\n \n\t\n\n<p>\n</p>\n\n" =
      .ok "---\nlet a = 1;\n---\n\n<p>\n</p>\n" := by
    decide +kernel
  have flush : IsFlush "\n---\nlet a = 1;  \n---\n \n\t\n\n<p>\n</p>\n\n" :=
    isFlush_iff.2 (.inr (by decide +kernel))
  exact ⟨done, flush, (isTidy_iff_isFlush done).2 flush⟩

/-- The blank at the end of the page holds a line feed there. -/
theorem not_isTidy_openEnded : tidy "a\n " = .ok "a\n\n" ∧ ¬IsTidy "a\n\n" := by
  refine ⟨by decide +kernel, fun normal => ?_⟩
  have again : tidy "a\n\n" = .ok "a\n" := by decide +kernel
  have same := Except.ok.inj (normal.settled.symm.trans again)
  exact absurd same (by decide)

end ComponentCompiler

import ComponentCompiler.Proofs.Format.Content
import ComponentCompiler.Proofs.Page.Draft

/-!
# Tidying the pages of components

Only a page that starts with a fence and never closes it cannot be tidied. The compiler writes both
fences around a setup section, so a page with a setup section is tidied whatever stands in it and in
the markup: a further fence there does no harm, since one that closes the first is all that is asked
for. A page without a setup section starts with markup, which may happen to look like a fence.

## Main results

* `Page.not_opensFence_assemble` — the fence before a setup section is closed
* `Page.tidy_loses_nothing` — which pages are tidied, and what is kept in them
-/

namespace ComponentCompiler

open Text (splitAt trimEnd)

namespace Page

/-! ### Fences -/

/-- The lines of a page with a setup section: the section stands between two fences. -/
theorem linesOf_assemble {setup : String} (some : Text.trimmed setup ≠ "")
    (markup script style : String) :
    ∃ inside behind, linesOf (assemble setup markup script style) =
      fence :: (inside ++ fence :: behind) := by
  have present : (Text.trimmed setup).isEmpty = false := by
    rw [← Bool.not_eq_true, String.isEmpty_iff]
    exact some
  refine ⟨splitAt '\n' (Text.trimmed setup).toList,
    splitAt '\n' ('\n' :: (markup ++ onNewLine script ++ onNewLine style).toList), ?_⟩
  have written : (assemble setup markup script style).toList =
      fence ++ '\n' :: ((Text.trimmed setup).toList ++ '\n' ::
        (fence ++ '\n' :: '\n' :: (markup ++ onNewLine script ++ onNewLine style).toList)) := by
    simp [assemble, fenced, present, fence]
  have clean : '\n' ∉ fence := by decide
  rw [linesOf, written, Text.splitAt_append clean, Text.splitAt_append_separator,
    Text.splitAt_append clean]

/-- The fence before a setup section is closed. The line feeds that are taken from the ends of the page
are not those between its lines. -/
theorem not_opensFence_assemble {setup : String} (some : Text.trimmed setup ≠ "")
    (markup script style : String) : ¬OpensFence (assemble setup markup script style) := by
  rintro ⟨first, later, stripped, -, unclosed⟩
  obtain ⟨inside, behind, lines⟩ := linesOf_assemble some markup script style
  obtain ⟨front, back, cut⟩ :=
    exists_lines_stripBreaks (assemble setup markup script style).toList
  rw [stripped] at cut
  replace cut := lines.symm.trans cut
  cases front with
  | succ front =>
    rw [List.replicate_succ] at cut
    exact absurd (List.cons.inj cut).1 (by decide)
  | zero =>
    have rest : inside ++ fence :: behind = later ++ List.replicate back [] := (List.cons.inj cut).2
    have closing : fence ∈ later ++ List.replicate back [] := by
      rw [← rest]
      exact List.mem_append_right inside List.mem_cons_self
    rcases List.mem_append.1 closing with member | member
    · exact unclosed fence member (by decide)
    · exact absurd (List.eq_of_mem_replicate member) (by decide)

/-! ### Pages that are tidied -/

/-- A page is refused just if its first fence is never closed. From any other page nothing is lost but
white space. The untidied page of a component that is compiled without plugins is never refused if its
setup section is not blank; it is tidied, unless something else is asked for. -/
theorem tidy_loses_nothing :
    (∀ page, (OpensFence page → tidy page = .error openFence) ∧
      (¬OpensFence page → ∃ text, tidy page = .ok text ∧ KeepsLines page text)) ∧
    ∀ (options : Options) (component : Component), options.plugins = [] →
      ∃ written drafted compilation,
        (ownSetup options component).outcome = .ok written ∧
        (draft options (prepare component) component.strip).outcome = .ok drafted ∧
        (compile options component).outcome = .ok compilation ∧
        (Text.trimmed written ≠ "" → ∃ text, tidy drafted.1 = .ok text ∧
          (options.tidied.isFalsy = false → options.formatter = none → compilation.code = text)) := by
  constructor
  · intro page
    refine ⟨tidy_of_opensFence, fun closed => ?_⟩
    obtain ⟨text, done⟩ := exists_tidy closed
    exact ⟨text, done, keepsLines_of_tidy done⟩
  · intro options component plain
    obtain ⟨drafted, page, made, pageTidied, compiled⟩ := outcome_compile_of_plain plain component
    obtain ⟨written, text, script, style, setupWritten, -, assembled⟩ := exists_parts_of_draft made
    refine ⟨written, drafted, _, setupWritten, made, compiled, fun some => ?_⟩
    have closed := not_opensFence_assemble some text script style
    rw [← assembled] at closed
    obtain ⟨done, tidies⟩ := exists_tidy closed
    refine ⟨done, tidies, fun wanted usual => ?_⟩
    -- The formatter of the compilation is the one that tidies.
    unfold tidied at pageTidied
    rw [wanted, usual, Option.getD_none, tidies] at pageTidied
    exact (Except.ok.inj pageTidied).symm

/-- A component with a title and, in its text, two things that look like fences. -/
def banner : Component where
  name := "Banner"
  props := Dictionary.ofList [("title", none)]
  children := [⟨"div", Dictionary.ofList [(textKey, "---\n\n \nTitle\n---")], ∅, [], none, ∅, ∅, .text⟩]

/-- A fence that is never closed is refused; in any other page, and in the page of a component with a
prop, the lines stay and keep apart. -/
theorem tidy_banner :
    tidy "\n--- \nlet a = 1;\n" = .error openFence ∧
    (∃ text, tidy "\n---\nlet a = 1; \n\n\n\n---\n" = .ok text ∧
      KeepsLines "\n---\nlet a = 1; \n\n\n\n---\n" text) ∧
    ∃ drafted text compilation,
      (draft {} (prepare banner) banner.strip).outcome = .ok drafted ∧ tidy drafted.1 = .ok text ∧
      (compile {} banner).outcome = .ok compilation ∧ compilation.code = text := by
  have opens : OpensFence "\n--- \nlet a = 1;\n" := leavesFenceOpen_iff.1 (by decide +kernel)
  have closed : ¬OpensFence "\n---\nlet a = 1; \n\n\n\n---\n" := fun opens =>
    absurd (leavesFenceOpen_iff.2 opens) (by decide +kernel)
  obtain ⟨written, drafted, compilation, setupWritten, made, compiled, tidies⟩ :=
    tidy_loses_nothing.2 {} banner rfl
  have some : Text.trimmed written ≠ "" := by
    have stands : (ownSetup {} banner).outcome.toOption.map Text.trimmed ≠ some "" := by
      decide +kernel
    rw [setupWritten] at stands
    exact fun blank => stands (congrArg Option.some blank)
  obtain ⟨text, done, same⟩ := tidies some
  exact ⟨(tidy_loses_nothing.1 _).1 opens, (tidy_loses_nothing.1 _).2 closed,
    drafted, text, compilation, made, done, compiled, same rfl rfl⟩

end Page

end ComponentCompiler

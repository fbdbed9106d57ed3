import ComponentCompiler.Format
import Mathlib.Data.List.Chain
import Mathlib.Data.List.DropRight

/-!
# The lines of a tidied page

Tidying works on the characters of a page: it drops a line feed that two others follow. Seen by its
lines, a page loses blank lines and keeps everything else. A blank line goes if a blank line follows
it and is not the last one, and something stands before it. So a run of blank lines shrinks to one
between two lines that are not blank, and to two at either end of the page.

## Main definitions

* `thinLines` — the lines that are left

## Main results

* `Text.splitAt_joinWith` — lines are read back from the text that they make up
* `collapseBreaks_joinWith` — shrinking runs of line feeds leaves these lines
* `mem_thinLines_iff`, `getLast?_thinLines` — what is kept
* `isChain_thinLines` — no two blank lines are left together between lines that are not blank
-/

namespace ComponentCompiler

namespace Text

variable {separator : Char} {line : List Char} {lines : List (List Char)}

theorem joinWith_cons (some : lines ≠ []) :
    joinWith separator (line :: lines) = line ++ separator :: joinWith separator lines := by
  cases lines with
  | nil => exact absurd rfl some
  | cons next rest => rfl

theorem splitAt_of_not_mem (clean : separator ∉ line) : splitAt separator line = [line] := by
  induction line with
  | nil => rfl
  | cons c rest ih =>
    have other : c ≠ separator := fun same => clean (same ▸ List.mem_cons_self)
    rw [splitAt, if_neg other, ih fun inside => clean (List.mem_cons_of_mem _ inside)]

theorem splitAt_append (clean : separator ∉ line) (rest : List Char) :
    splitAt separator (line ++ separator :: rest) = line :: splitAt separator rest := by
  induction line with
  | nil => simp [splitAt]
  | cons c line ih =>
    have other : c ≠ separator := fun same => clean (same ▸ List.mem_cons_self)
    rw [List.cons_append, splitAt, if_neg other,
      ih fun inside => clean (List.mem_cons_of_mem _ inside)]

/-- Lines are read back from the text that they make up. -/
theorem splitAt_joinWith (some : lines ≠ []) (clean : ∀ line ∈ lines, separator ∉ line) :
    splitAt separator (joinWith separator lines) = lines := by
  induction lines with
  | nil => exact absurd rfl some
  | cons line rest ih =>
    rw [List.forall_mem_cons] at clean
    cases rest with
    | nil => exact splitAt_of_not_mem clean.1
    | cons next others =>
      rw [joinWith_cons (List.cons_ne_nil _ _), splitAt_append clean.1,
        ih (List.cons_ne_nil _ _) clean.2]

theorem not_mem_of_mem_splitAt {text : List Char} (member : line ∈ splitAt separator text) :
    separator ∉ line := by
  induction text generalizing line with
  | nil =>
    rw [splitAt, List.mem_singleton] at member
    simp [member]
  | cons c rest ih =>
    rw [splitAt] at member
    split at member
    · rcases List.mem_cons.1 member with rfl | later
      · simp
      · exact ih later
    · next other =>
      cases parts : splitAt separator rest with
      | nil => exact absurd parts (splitAt_ne_nil separator rest)
      | cons part more =>
        simp only [parts] at member
        rw [parts] at ih
        rcases List.mem_cons.1 member with rfl | later
        · have clean := ih List.mem_cons_self
          simp [clean, Ne.symm other]
        · exact ih (List.mem_cons_of_mem _ later)

/-- A text starts like its first line, unless that is empty. -/
theorem head?_joinWith (some : line ≠ []) :
    (joinWith separator (line :: lines)).head? = line.head? := by
  obtain ⟨c, rest, rfl⟩ := List.exists_cons_of_ne_nil some
  cases lines <;> rfl

/-- A text ends like its last line, unless that is empty. -/
theorem getLast?_joinWith (last : lines.getLast? = some line) (some : line ≠ []) :
    (joinWith separator lines).getLast? = line.getLast? := by
  induction lines with
  | nil => cases last
  | cons first rest ih =>
    cases rest with
    | nil =>
      obtain rfl := Option.some.inj last
      rfl
    | cons next others =>
      have ends := ih (by simpa using last)
      have present : joinWith separator (next :: others) ≠ [] := by
        intro empty
        rw [empty] at ends
        exact some (List.getLast?_eq_none_iff.1 ends.symm)
      rw [joinWith_cons (List.cons_ne_nil _ _), List.getLast?_append_of_ne_nil _
        (List.cons_ne_nil _ _), List.getLast?_cons_of_ne_nil present, ends]

/-- A text whose last line is empty ends with a separator, if there are other lines. -/
theorem getLast?_joinWith_of_empty (last : lines.getLast? = some []) (several : lines.length ≠ 1) :
    (joinWith separator lines).getLast? = some separator := by
  induction lines with
  | nil => cases last
  | cons first rest ih =>
    cases rest with
    | nil => exact absurd rfl several
    | cons next others =>
      rw [joinWith_cons (List.cons_ne_nil _ _), List.getLast?_append_of_ne_nil _
        (List.cons_ne_nil _ _)]
      cases others with
      | nil =>
        obtain rfl : next = [] := by simpa using last
        rfl
      | cons third more =>
        have ends := ih (by simpa using last) (by simp)
        have present : joinWith separator (next :: third :: more) ≠ [] := by
          intro empty
          rw [empty] at ends
          cases ends
        rw [List.getLast?_cons_of_ne_nil present, ends]

end Text

/-! ### Thinning -/

/-- Whether a blank line comes first and is not the last one. -/
def startsWithBlank : List (List Char) → Bool
  | [] :: _ :: _ => true
  | _ => false

theorem startsWithBlank_iff {lines : List (List Char)} :
    startsWithBlank lines = true ↔ ∃ next rest, lines = [] :: next :: rest := by
  match lines with
  | [] | [_] | (_ :: _) :: _ :: _ => simp [startsWithBlank]
  | [] :: next :: rest => simp [startsWithBlank]

/-- The lines that are left of those after the first one. -/
def thinLater : List (List Char) → List (List Char)
  | [] => []
  | line :: rest =>
    if line.isEmpty && startsWithBlank rest then thinLater rest else line :: thinLater rest

/-- The lines that are left of a page. The first one always is. -/
def thinLines : List (List Char) → List (List Char)
  | [] => []
  | first :: rest => first :: thinLater rest

variable {line : List Char} {lines : List (List Char)}

theorem thinLater_ne_nil (some : lines ≠ []) : thinLater lines ≠ [] := by
  induction lines with
  | nil => exact absurd rfl some
  | cons line rest ih =>
    rw [thinLater]
    split
    · next drops =>
      refine ih ?_
      rintro rfl
      simp [startsWithBlank] at drops
    · exact List.cons_ne_nil _ _

theorem collapseBreaks_append (clean : '\n' ∉ line) (rest : List Char) :
    collapseBreaks (line ++ rest) = line ++ collapseBreaks rest := by
  induction line with
  | nil => rfl
  | cons c line ih =>
    have other : c ≠ '\n' := fun same => clean (same ▸ List.mem_cons_self)
    rw [List.cons_append, collapseBreaks, ih fun inside => clean (List.mem_cons_of_mem _ inside)]
    simp [other]

/-- Two line feeds come first just if two empty lines do, the second of which is not the last. -/
theorem startsWithGap_joinWith (clean : '\n' ∉ line) (others : ∀ next ∈ lines, '\n' ∉ next) :
    startsWithGap (Text.joinWith '\n' (line :: lines)) = (line.isEmpty && startsWithBlank lines) := by
  have plain {c : Char} {text : List Char} (free : '\n' ∉ c :: text) : c ≠ '\n' :=
    fun same => free (same ▸ List.mem_cons_self)
  cases line with
  | cons c text =>
    have other := plain clean
    cases lines <;> simp [Text.joinWith, startsWithGap, other]
  | nil =>
    rcases lines with _ | ⟨_ | ⟨c, text⟩, more⟩
    · rfl
    · cases more <;> rfl
    · have other := plain (others _ List.mem_cons_self)
      cases more <;> simp [Text.joinWith, startsWithGap, startsWithBlank, other]

theorem collapseBreaks_break (some : lines ≠ []) (clean : ∀ line ∈ lines, '\n' ∉ line) :
    collapseBreaks ('\n' :: Text.joinWith '\n' lines) =
      '\n' :: Text.joinWith '\n' (thinLater lines) := by
  induction lines with
  | nil => exact absurd rfl some
  | cons line rest ih =>
    rw [List.forall_mem_cons] at clean
    rw [collapseBreaks, startsWithGap_joinWith clean.1 clean.2, thinLater]
    -- What follows the line is the same in either case.
    have later : rest ≠ [] → collapseBreaks (Text.joinWith '\n' (line :: rest)) =
        line ++ '\n' :: Text.joinWith '\n' (thinLater rest) := fun more => by
      rw [Text.joinWith_cons more, collapseBreaks_append clean.1, ih more clean.2]
    cases drops : line.isEmpty && startsWithBlank rest with
    | true =>
      have more : rest ≠ [] := by
        rintro rfl
        simp [startsWithBlank] at drops
      obtain rfl : line = [] := by
        rw [Bool.and_eq_true] at drops
        exact List.isEmpty_iff.1 drops.1
      simpa using later more
    | false =>
      cases rest with
      | nil =>
        have alone := collapseBreaks_append clean.1 []
        simp only [List.append_nil, collapseBreaks] at alone
        simp [Text.joinWith, thinLater, alone]
      | cons next others =>
        have more := List.cons_ne_nil next others
        simp [later more, Text.joinWith_cons (thinLater_ne_nil more)]

/-- Shrinking runs of line feeds leaves the lines that are left after thinning. -/
theorem collapseBreaks_joinWith (clean : ∀ line ∈ lines, '\n' ∉ line) :
    collapseBreaks (Text.joinWith '\n' lines) = Text.joinWith '\n' (thinLines lines) := by
  cases lines with
  | nil => rfl
  | cons first rest =>
    rw [List.forall_mem_cons] at clean
    cases rest with
    | nil => simpa [Text.joinWith, thinLines, thinLater, collapseBreaks] using
        collapseBreaks_append clean.1 []
    | cons next others =>
      have more := List.cons_ne_nil next others
      rw [Text.joinWith_cons more, collapseBreaks_append clean.1, collapseBreaks_break more clean.2,
        thinLines, Text.joinWith_cons (thinLater_ne_nil more)]

/-! ### What is kept -/

theorem thinLater_sublist (lines : List (List Char)) : (thinLater lines).Sublist lines := by
  induction lines with
  | nil => exact .slnil
  | cons line rest ih =>
    rw [thinLater]
    split
    · exact ih.cons line
    · exact ih.cons_cons line

theorem thinLines_sublist (lines : List (List Char)) : (thinLines lines).Sublist lines := by
  cases lines with
  | nil => exact .slnil
  | cons first rest => exact (thinLater_sublist rest).cons_cons first

theorem thinLines_ne_nil (some : lines ≠ []) : thinLines lines ≠ [] := by
  cases lines with
  | nil => exact absurd rfl some
  | cons first rest => exact List.cons_ne_nil _ _

/-- A line that is not blank is kept. -/
theorem mem_thinLater_iff (present : line ≠ []) : line ∈ thinLater lines ↔ line ∈ lines := by
  refine ⟨fun kept => (thinLater_sublist lines).subset kept, fun member => ?_⟩
  induction lines with
  | nil => exact member
  | cons first rest ih =>
    rw [thinLater]
    rcases List.mem_cons.1 member with rfl | later
    · simp [present]
    · split
      · exact ih later
      · exact List.mem_cons_of_mem _ (ih later)

theorem getLast?_thinLater (lines : List (List Char)) :
    (thinLater lines).getLast? = lines.getLast? := by
  induction lines with
  | nil => rfl
  | cons line rest ih =>
    cases rest with
    | nil => simp [thinLater, startsWithBlank]
    | cons next others =>
      have more := List.cons_ne_nil next others
      rw [thinLater, List.getLast?_cons_of_ne_nil more, ← ih]
      split
      · rfl
      · exact List.getLast?_cons_of_ne_nil (thinLater_ne_nil more)

theorem getLast?_thinLines (lines : List (List Char)) :
    (thinLines lines).getLast? = lines.getLast? := by
  cases lines with
  | nil => rfl
  | cons first rest =>
    cases rest with
    | nil => rfl
    | cons next others =>
      have more := List.cons_ne_nil next others
      rw [thinLines, List.getLast?_cons_of_ne_nil (thinLater_ne_nil more), getLast?_thinLater,
        List.getLast?_cons_of_ne_nil more]

/-! ### Runs of blank lines -/

/-- Two lines that are not both blank. -/
def Apart (line next : List Char) : Prop :=
  ¬(line = [] ∧ next = [])

/-- If the last line is not blank, then no two blank lines are left together. -/
theorem isChain_thinLater (present : lines.getLast? ≠ some []) : (thinLater lines).IsChain Apart := by
  induction lines with
  | nil => exact .nil
  | cons line rest ih =>
    cases rest with
    | nil => simp [thinLater, startsWithBlank]
    | cons next others =>
      have later := ih (by rwa [List.getLast?_cons_of_ne_nil (List.cons_ne_nil next others)] at present)
      rw [thinLater]
      split
      · exact later
      · next keeps =>
        refine List.isChain_cons.2 ⟨fun following starts => ?_, later⟩
        rintro ⟨rfl, rfl⟩
        -- A blank line that is kept is followed by no blank one, unless that is the last.
        cases next with
        | cons c text =>
          rw [thinLater] at starts
          simp at starts
        | nil =>
          cases others with
          | nil => exact present rfl
          | cons third more => simp [startsWithBlank] at keeps

/-- Between a first and a last line that are not blank no two blank lines are left together. -/
theorem isChain_thinLines (first : lines.head? ≠ some []) (last : lines.getLast? ≠ some []) :
    (thinLines lines).IsChain Apart := by
  cases lines with
  | nil => exact .nil
  | cons line rest =>
    cases rest with
    | nil => exact List.isChain_singleton _
    | cons next others =>
      rw [List.getLast?_cons_of_ne_nil (List.cons_ne_nil next others)] at last
      refine List.isChain_cons.2 ⟨fun following _ => ?_, isChain_thinLater last⟩
      rintro ⟨rfl, -⟩
      exact first rfl

theorem thinLater_of_isChain (apart : lines.IsChain Apart) : thinLater lines = lines := by
  induction lines with
  | nil => rfl
  | cons line rest ih =>
    rw [List.isChain_cons] at apart
    rw [thinLater, ih apart.2, if_neg]
    intro drops
    rw [Bool.and_eq_true, List.isEmpty_iff, startsWithBlank_iff] at drops
    obtain ⟨empty, third, more, rfl⟩ := drops
    exact apart.1 [] rfl ⟨empty, rfl⟩

/-- Where no two blank lines stand together nothing goes. -/
theorem thinLines_of_isChain (apart : lines.IsChain Apart) : thinLines lines = lines := by
  cases lines with
  | nil => rfl
  | cons first rest => rw [thinLines, thinLater_of_isChain (List.isChain_cons.1 apart).2]

end ComponentCompiler

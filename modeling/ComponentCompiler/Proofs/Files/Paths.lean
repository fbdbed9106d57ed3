import ComponentCompiler.Files.Path
import Mathlib.Data.List.Basic
import Mathlib.Data.String.Basic

/-!
# The order and the texts of paths

Paths are ordered name by name. This is a linear order, so a list of paths can be sorted in one way
only. A path whose names are names of files is written with slashes and read back as it was.

## Main definitions

* `Files.IsFileName` — a name that a file can have

## Main results

* `Path.pathBefore_trans`, `Path.pathBefore_total`, `Path.pathBefore_antisymm` — the order
* `below?_eq_some_iff` — the part of a path below another one
* `resolve_intercalate` — a path is read back from its text
-/

namespace ComponentCompiler.Files

namespace Path

/-! ### The order -/

theorem pathBefore_trans (first second third : Path) (one : pathBefore first second = true)
    (two : pathBefore second third = true) : pathBefore first third = true := by
  induction first generalizing second third with
  | nil => rfl
  | cons a as ih =>
    cases second with
    | nil => cases one
    | cons b bs =>
      cases third with
      | nil => cases two
      | cons c cs =>
        by_cases ab : a = b
        · subst ab
          by_cases ac : a = c
          · subst ac
            simp only [pathBefore, if_true] at one two ⊢
            exact ih bs cs one two
          · simpa [pathBefore, ac] using two
        · have before : a < b := by simpa [pathBefore, ab] using one
          by_cases bc : b = c
          · subst bc
            simp [pathBefore, ab, before]
          · have after : b < c := by simpa [pathBefore, bc] using two
            have both : a < c := before.trans after
            simp [pathBefore, both.ne, both]

theorem pathBefore_total (first second : Path) :
    (pathBefore first second || pathBefore second first) = true := by
  induction first generalizing second with
  | nil => rfl
  | cons a as ih =>
    cases second with
    | nil => rfl
    | cons b bs =>
      rcases lt_trichotomy a b with before | rfl | after
      · simp [pathBefore, before.ne, before]
      · simpa [pathBefore] using ih bs
      · simp [pathBefore, after.ne, after]

theorem pathBefore_antisymm {first second : Path} (one : pathBefore first second = true)
    (two : pathBefore second first = true) : first = second := by
  induction first generalizing second with
  | nil =>
    cases second with
    | nil => rfl
    | cons b bs => cases two
  | cons a as ih =>
    cases second with
    | nil => cases one
    | cons b bs =>
      by_cases same : a = b
      · subst same
        simp only [pathBefore, if_true] at one two
        rw [ih one two]
      · have before : a < b := by simpa [pathBefore, same] using one
        have after : b < a := by simpa [pathBefore, Ne.symm same] using two
        exact absurd after before.asymm

/-- Of two names in the same directory the smaller one comes first. -/
theorem pathBefore_append_of_lt (directory : Path) {name other : String} (less : name < other) :
    pathBefore (directory ++ [name]) (directory ++ [other]) = true := by
  induction directory with
  | nil => simp [pathBefore, less.ne, less]
  | cons first rest ih => simpa [pathBefore] using ih

/-! ### Places below another one -/

theorem isWithin_iff {outer path : Path} : isWithin outer path = true ↔ outer <+: path :=
  List.isPrefixOf_iff_prefix

theorem below?_eq_some_iff {outer path place : Path} :
    below? outer path = some place ↔ path = outer ++ place := by
  unfold below?
  constructor
  · intro found
    split at found
    · next inside =>
      obtain ⟨rest, rfl⟩ := List.isPrefixOf_iff_prefix.1 inside
      simp only [List.drop_left, Option.some.injEq] at found
      rw [found]
    · cases found
  · rintro rfl
    simp

end Path

/-! ### Texts -/

/-- A name that a file can have: it is not empty, holds no slash and does not lead elsewhere. -/
def IsFileName (name : String) : Prop :=
  name ≠ "" ∧ name ≠ "." ∧ name ≠ ".." ∧ '/' ∉ name.toList

instance : DecidablePred IsFileName := fun name =>
  inferInstanceAs (Decidable (name ≠ "" ∧ name ≠ "." ∧ name ≠ ".." ∧ '/' ∉ name.toList))

theorem splitAt_of_not_mem {separator : Char} {text : List Char} (absent : separator ∉ text) :
    Text.splitAt separator text = [text] := by
  induction text with
  | nil => rfl
  | cons c rest ih =>
    simp only [List.mem_cons, not_or] at absent
    simp [Text.splitAt, Ne.symm absent.1, ih absent.2]

theorem splitAt_append {separator : Char} {part : List Char} (absent : separator ∉ part)
    (rest : List Char) :
    Text.splitAt separator (part ++ separator :: rest) = part :: Text.splitAt separator rest := by
  induction part with
  | nil => simp [Text.splitAt]
  | cons c others ih =>
    simp only [List.mem_cons, not_or] at absent
    simp [Text.splitAt, Ne.symm absent.1, ih absent.2]

/-- Names without slashes are read back from the text of a path. -/
theorem rawNames_intercalate {names : List String} (some : names ≠ [])
    (plain : ∀ name ∈ names, '/' ∉ name.toList) : rawNames ("/".intercalate names) = names := by
  induction names with
  | nil => exact absurd rfl some
  | cons name rest ih =>
    have here := plain name List.mem_cons_self
    cases rest with
    | nil => simp [rawNames, splitAt_of_not_mem here]
    | cons next others =>
      have later := ih (by simp) fun other member => plain other (List.mem_cons_of_mem _ member)
      rw [String.intercalate_cons_cons, rawNames]
      simp only [String.toList_append, List.append_assoc]
      rw [show "/".toList = ['/'] from rfl, List.singleton_append, splitAt_append here, List.map_cons,
        String.ofList_toList]
      rw [rawNames] at later
      rw [later]

/-- Two paths with the same text are the same, if no name holds a slash. -/
theorem intercalate_inj {names others : List String} (some : names ≠ []) (someOther : others ≠ [])
    (plain : ∀ name ∈ names, '/' ∉ name.toList) (plainOther : ∀ name ∈ others, '/' ∉ name.toList)
    (same : "/".intercalate names = "/".intercalate others) : names = others := by
  rw [← rawNames_intercalate some plain, same, rawNames_intercalate someOther plainOther]

theorem toList_intercalate_cons (name : String) (rest : List String) :
    ∃ tail, ("/".intercalate (name :: rest)).toList = name.toList ++ tail := by
  cases rest with
  | nil => exact ⟨[], by simp⟩
  | cons next others =>
    exact ⟨"/".toList ++ ("/".intercalate (next :: others)).toList, by
      rw [String.intercalate_cons_cons]; simp⟩

/-- A path whose names are names of files leads from a working directory straight down. -/
theorem resolve_intercalate {names : List String} (some : names ≠ [])
    (proper : ∀ name ∈ names, IsFileName name) (working : Path) :
    (PathText.ofString ("/".intercalate names)).resolve working = working ++ names := by
  have read := rawNames_intercalate some fun name member => (proper name member).2.2.2
  have kept : (rawNames ("/".intercalate names)).filter (fun name => name != "" && name != ".") =
      names := by
    rw [read, List.filter_eq_self]
    intro name member
    simp [(proper name member).1, (proper name member).2.1]
  have relative : (PathText.ofString ("/".intercalate names)).absolute = false := by
    obtain ⟨name, rest, rfl⟩ := List.exists_cons_of_ne_nil some
    obtain ⟨notEmpty, -, -, noSlash⟩ := proper name List.mem_cons_self
    obtain ⟨tail, starts⟩ := toList_intercalate_cons name rest
    obtain ⟨c, others, letters⟩ := List.exists_cons_of_ne_nil (mt String.toList_eq_nil_iff.1 notEmpty)
    have plain : c ≠ '/' := fun slash => noSlash (by simp [letters, slash])
    simp [PathText.ofString, starts, letters, plain]
  have straight : ".." ∉ names := fun member => (proper _ member).2.2.1 rfl
  rw [PathText.resolve, relative]
  show climb working ((rawNames ("/".intercalate names)).filter _) = _
  rw [kept, climb_of_plain straight]

end ComponentCompiler.Files

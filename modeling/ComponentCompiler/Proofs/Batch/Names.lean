import ComponentCompiler.Batch
import ComponentCompiler.Proofs.Files.Paths

/-!
# The names of artifacts

A document gives its artifact its own name, with another ending and without the mark of component
sources. Two documents can therefore meet in one artifact, but only if they lie in the same
directory and differ in that mark.

## Main definitions

* `Batch.IsTwin` — the document of the same name with the mark of component sources

## Main results

* `Batch.artifactPath_eq_iff` — which documents share an artifact
* `Batch.IsTwin.pathBefore` — a document comes before its twin
* `Batch.resolve_artifactPath` — the text of the artifact in the manifest leads to the artifact
-/

namespace ComponentCompiler.Batch

open Files (Path PathText IsFileName)

variable {source out place other : Path} {stem : String}

/-! ### Stems -/

theorem stemBefore?_eq_some_iff {ending text stem : List Char} :
    Import.stemBefore? ending text = some stem ↔ text = stem ++ ending := by
  unfold Import.stemBefore?
  constructor
  · intro found
    split at found
    · next ends =>
      obtain ⟨front, rfl⟩ := List.isSuffixOf_iff_suffix.1 ends
      simp only [List.length_append, Nat.add_sub_cancel, List.take_left', Option.some.injEq] at found
      rw [found]
    · cases found
  · rintro rfl
    simp

/-- The stem of a document without the mark of component sources. -/
def bareStem (stem : List Char) : List Char :=
  (Import.stemBefore? sourceEnding stem).getD stem

theorem bareStem_append (stem : List Char) : bareStem (stem ++ sourceEnding) = stem := by
  rw [bareStem, stemBefore?_eq_some_iff.2 rfl, Option.getD_some]

theorem bareStem_of_unmarked {stem : List Char} (unmarked : ¬ sourceEnding <:+ stem) :
    bareStem stem = stem := by
  cases found : Import.stemBefore? sourceEnding stem with
  | none => rw [bareStem, found, Option.getD_none]
  | some front => exact absurd ⟨front, (stemBefore?_eq_some_iff.1 found).symm⟩ unmarked

theorem nameStem_append {stem : List Char} (some : stem ≠ []) :
    nameStem (stem ++ documentEnding) = stem := by
  simp [nameStem, documentEnding, some]

/-- A document is named with a stem that is not empty. -/
theorem exists_stem_of_isDocument (named : isDocument source out place = true) :
    ∃ directory stem, place = directory ++ [stem ++ ".json"] ∧ stem ≠ "" := by
  simp only [isDocument, Bool.and_eq_true, Bool.not_eq_true', List.any_eq_false] at named
  obtain ⟨⟨ends, shown⟩, -⟩ := named
  cases last : place.getLast? with
  | none => simp [last] at ends
  | some name =>
    obtain ⟨directory, rfl⟩ := List.getLast?_eq_some_iff.1 last
    simp only [last, Option.map_some, Option.getD_some, isDocumentName] at ends
    obtain ⟨front, whole⟩ := List.isSuffixOf_iff_suffix.1 ends
    obtain rfl : String.ofList front ++ ".json" = name :=
      String.toList_injective (by simpa [documentEnding] using whole)
    refine ⟨directory, String.ofList front, rfl, fun empty => ?_⟩
    have visible := shown (String.ofList front ++ ".json") (by simp)
    rw [empty] at visible
    exact visible (by decide)

theorem artifactName_append (some : stem ≠ "") :
    artifactName (stem ++ ".json") = String.ofList (bareStem stem.toList ++ ".astro".toList) := by
  have split : (stem ++ ".json").toList = stem.toList ++ documentEnding := by simp [documentEnding]
  simp only [artifactName, split, nameStem_append (mt String.toList_eq_nil_iff.1 some)]
  rfl

theorem artifactPath_append (directory : Path) (some : stem ≠ "") :
    artifactPath (directory ++ [stem ++ ".json"]) =
      directory ++ [String.ofList (bareStem stem.toList ++ ".astro".toList)] := by
  simp [artifactPath, artifactName_append some]

/-! ### Twins -/

/-- Two documents in one directory have the same name, but for the mark of component sources on the
second one. -/
def IsTwin (place twin : Path) : Prop :=
  ∃ directory stem, place = directory ++ [stem ++ ".json"] ∧
    twin = directory ++ [stem ++ ".lite" ++ ".json"] ∧ ¬ sourceEnding <:+ stem.toList

theorem bareStem_eq_iff {stem other : List Char} :
    bareStem stem = bareStem other ↔
      stem = other ∨ (other = stem ++ sourceEnding ∧ ¬ sourceEnding <:+ stem) ∨
        (stem = other ++ sourceEnding ∧ ¬ sourceEnding <:+ other) := by
  constructor
  · intro same
    by_cases marked : sourceEnding <:+ stem <;> by_cases markedOther : sourceEnding <:+ other
    · obtain ⟨front, rfl⟩ := marked
      obtain ⟨frontOther, rfl⟩ := markedOther
      rw [bareStem_append, bareStem_append] at same
      exact .inl (by rw [same])
    · obtain ⟨front, rfl⟩ := marked
      rw [bareStem_append, bareStem_of_unmarked markedOther] at same
      exact .inr (.inr ⟨by rw [same], markedOther⟩)
    · obtain ⟨frontOther, rfl⟩ := markedOther
      rw [bareStem_append, bareStem_of_unmarked marked] at same
      exact .inr (.inl ⟨by rw [same], marked⟩)
    · rw [bareStem_of_unmarked marked, bareStem_of_unmarked markedOther] at same
      exact .inl same
  · rintro (rfl | ⟨rfl, unmarked⟩ | ⟨rfl, unmarked⟩)
    · rfl
    · rw [bareStem_append, bareStem_of_unmarked unmarked]
    · rw [bareStem_append, bareStem_of_unmarked unmarked]

theorem append_json_inj {stem other : String} : stem ++ ".json" = other ++ ".json" ↔ stem = other := by
  rw [← String.toList_inj, String.toList_append, String.toList_append, List.append_cancel_right_eq,
    String.toList_inj]

theorem isTwin_append {directory directoryOther : Path} {stem other : String} :
    IsTwin (directory ++ [stem ++ ".json"]) (directoryOther ++ [other ++ ".json"]) ↔
      directory = directoryOther ∧ other.toList = stem.toList ++ sourceEnding ∧
        ¬ sourceEnding <:+ stem.toList := by
  constructor
  · rintro ⟨shared, front, one, two, unmarked⟩
    obtain ⟨rfl, name⟩ := List.append_singleton_inj.1 one
    obtain ⟨rfl, nameOther⟩ := List.append_singleton_inj.1 two
    obtain rfl := append_json_inj.1 name
    obtain rfl := append_json_inj.1 nameOther
    exact ⟨rfl, String.toList_append, unmarked⟩
  · rintro ⟨rfl, marked, unmarked⟩
    have same : other = stem ++ ".lite" := String.toList_injective (by simpa [sourceEnding] using marked)
    exact ⟨directory, stem, rfl, by rw [same], unmarked⟩

/-- Two documents share an artifact if and only if they are the same or twins. -/
theorem artifactPath_eq_iff (named : isDocument source out place = true)
    (namedOther : isDocument source out other = true) :
    artifactPath place = artifactPath other ↔
      place = other ∨ IsTwin place other ∨ IsTwin other place := by
  obtain ⟨directory, stem, rfl, some⟩ := exists_stem_of_isDocument named
  obtain ⟨directoryOther, stemOther, rfl, someOther⟩ := exists_stem_of_isDocument namedOther
  rw [artifactPath_append directory some, artifactPath_append directoryOther someOther,
    isTwin_append, isTwin_append, List.append_singleton_inj, List.append_singleton_inj,
    append_json_inj, String.ofList_inj, List.append_cancel_right_eq, bareStem_eq_iff,
    String.toList_inj, @eq_comm _ directoryOther directory]
  tauto

/-- A document comes before its twin. -/
theorem IsTwin.pathBefore {twin : Path} (twins : IsTwin place twin) :
    Path.pathBefore place twin = true := by
  obtain ⟨directory, stem, rfl, rfl, -⟩ := twins
  refine Path.pathBefore_append_of_lt directory ?_
  rw [String.lt_iff_toList_lt, String.append_assoc, String.toList_append, String.toList_append]
  exact List.append_left_lt (by decide)

/-- A twin has no twin itself. -/
theorem IsTwin.not_isTwin {twin : Path} (twins : IsTwin place twin) : ¬ IsTwin twin other := by
  obtain ⟨directory, stem, -, rfl, -⟩ := twins
  rintro ⟨directoryOther, front, same, -, unmarked⟩
  obtain ⟨-, name⟩ := List.append_singleton_inj.1 same
  obtain rfl := append_json_inj.1 name
  exact unmarked ⟨stem.toList, by simp [sourceEnding]⟩

/-! ### Artifacts below the output directory -/

theorem artifactPath_ne_manifest (named : isDocument source out place = true) :
    artifactPath place ≠ [manifestName] := by
  obtain ⟨directory, stem, rfl, some⟩ := exists_stem_of_isDocument named
  rw [artifactPath_append directory some]
  intro same
  have name : String.ofList (bareStem stem.toList ++ ".astro".toList) = manifestName :=
    (List.append_singleton_inj.1 (same.trans (List.nil_append _).symm)).2
  have letters := congrArg (fun name => name.toList.getLast?) name
  simp [manifestName] at letters

theorem mem_bareStem {stem : List Char} {c : Char} (member : c ∈ bareStem stem) : c ∈ stem := by
  by_cases marked : sourceEnding <:+ stem
  · obtain ⟨front, rfl⟩ := marked
    rw [bareStem_append] at member
    exact List.mem_append_left _ member
  · rwa [bareStem_of_unmarked marked] at member

theorem isFileName_artifact {stem : String} (proper : IsFileName (stem ++ ".json")) :
    IsFileName (String.ofList (bareStem stem.toList ++ ".astro".toList)) := by
  have length : 6 ≤ (String.ofList (bareStem stem.toList ++ ".astro".toList)).toList.length := by
    simp
  have longer (short : String) (few : short.toList.length < 6) :
      String.ofList (bareStem stem.toList ++ ".astro".toList) ≠ short := by
    rintro rfl
    omega
  refine ⟨longer "" (by decide), longer "." (by decide), longer ".." (by decide), ?_⟩
  rw [String.toList_ofList, List.mem_append]
  rintro (slash | slash)
  · exact proper.2.2.2 (by simp [mem_bareStem slash])
  · revert slash
    decide

/-- The text of an artifact in the manifest, read from the output directory, leads to the artifact. -/
theorem resolve_artifactPath (named : isDocument source out place = true)
    (proper : ∀ name ∈ place, IsFileName name) :
    (PathText.ofString ("/".intercalate (artifactPath place))).resolve out =
      out ++ artifactPath place := by
  obtain ⟨directory, stem, rfl, some⟩ := exists_stem_of_isDocument named
  rw [artifactPath_append directory some]
  refine Files.resolve_intercalate (by simp) (fun name member => ?_) out
  rcases List.mem_append.1 member with above | here
  · exact proper name (List.mem_append_left _ above)
  · obtain rfl := List.mem_singleton.1 here
    exact isFileName_artifact (proper _ (by simp))

end ComponentCompiler.Batch

import ComponentCompiler.Proofs.Batch.Names
import ComponentCompiler.Proofs.Batch.Steps
import ComponentCompiler.Proofs.Page.Annotations

/-!
# The manifest and the artifacts

A line of the manifest names an artifact. At the end of a batch the artifact holds the code of the
last compiled document that shares it. That is the document of the line, unless it has a twin that
is compiled as well: then the twin has written over it.

## Main definitions

* `Batch.Makes`, `Batch.IsCompiled` — a document of a batch is compiled
* `Batch.Agrees` — the manifest and the artifacts after some of the documents

## Main results

* `Batch.Agrees.onward` — every step keeps the manifest and the artifacts in agreement
* `Batch.manifest_of_build` — what the artifact of a line of the manifest holds at the end
-/

namespace ComponentCompiler.Batch

open Files (FileTree Path PathText IsFileName)

variable {options : Options} {source out place path : Path} {tree : FileTree}
  {bytes : List UInt8} {component : Component} {compilation : Compilation}

/-! ### Compiled documents -/

/-- A document of a batch is compiled. -/
structure Makes (options : Options) (source out : Path) (tree : FileTree) (place : Path)
    (bytes : List UInt8) (component : Component) (compilation : Compilation) : Prop where
  named : isDocument source out place = true
  compiles : Compiles options tree (source ++ place) bytes component compilation

/-- A document of a batch is compiled to something. -/
def IsCompiled (options : Options) (source out : Path) (tree : FileTree) (place : Path) : Prop :=
  ∃ bytes component compilation, Makes options source out tree place bytes component compilation

/-! ### The invariant -/

/-- The manifest and the artifacts when some documents are done: the lines are those of compiled
documents, and each artifact holds the code of the last one that shares it. -/
structure Agrees (options : Options) (source out : Path) (tree : FileTree) (done : List Path)
    (progress : Progress) : Prop where
  files : ∀ path, ¬ out <+: path → ∀ bytes,
    FileTree.read progress.tree path = .ok bytes ↔ FileTree.read tree path = .ok bytes
  lines : ∀ name line, (name, line) ∈ progress.entries.toList →
    ∃ place bytes component compilation,
      Makes options source out tree place bytes component compilation ∧
        name = "/".intercalate place ∧ line = manifestEntry place bytes component compilation
  artifacts : ∀ {place bytes component compilation}, place ∈ done →
    Makes options source out tree place bytes component compilation →
    (∀ other ∈ done, IsCompiled options source out tree other →
      artifactPath other = artifactPath place → Path.pathBefore other place = true) →
    FileTree.read progress.tree (out ++ artifactPath place) =
      .ok (Files.encodeText compilation.code)

variable {done : List Path} {progress next : Progress}

theorem Agrees.start {grown : FileTree} (made : FileTree.makeDirectory tree out = .ok grown) :
    Agrees options source out tree [] { tree := grown } where
  files := fun _ _ _ => FileTree.read_makeAlong made
  lines := fun _ _ member => (nomatch member)
  artifacts := fun member => (nomatch member)

/-- Every step keeps the manifest and the artifacts in agreement. -/
theorem Agrees.onward (held : Agrees options source out tree done progress)
    (named : isDocument source out place = true)
    (last : ∀ other ∈ done, Path.pathBefore other place = true ∧ other ≠ place)
    (stepped : StepsTo options source out progress place next) :
    Agrees options source out tree (done ++ [place]) next := by
  have file := held.files (source ++ place) (not_prefix_of_isDocument named)
  cases stepped with
  | refused loaded failed told =>
    have notMade : ¬ IsCompiled options source out tree place := by
      rintro ⟨bytes, component, compilation, -, made⟩
      have found := loaded.symm.trans (made.congr file).loaded
      cases found
      rw [compileDocument_of_compiled made.compiled] at failed
      cases failed
    refine ⟨held.files, held.lines, fun member made latest => ?_⟩
    rcases List.mem_append.1 member with earlier | here
    · exact held.artifacts earlier made fun other listed =>
        latest other (List.mem_append_left _ listed)
    · obtain rfl := List.mem_singleton.1 here
      exact absurd ⟨_, _, _, made⟩ notMade
  | @compiled bytes component compilation grown compiles saved =>
    have made : Makes options source out tree place bytes component compilation :=
      ⟨named, compiles.congr fun bytes => (file bytes).symm⟩
    refine ⟨fun path outside bytes => ?_, fun name line member => ?_,
      fun {shown} {_ _ _} member madeShown latest => ?_⟩
    · have other : path ≠ out ++ artifactPath place := by
        rintro rfl
        exact outside (List.prefix_append _ _)
      exact (saved.read_other other).trans (held.files path outside bytes)
    · rcases Dictionary.mem_putPair member with new | old
      · cases new
        exact ⟨place, bytes, component, compilation, made, rfl, rfl⟩
      · exact held.lines name line old
    · by_cases same : artifactPath shown = artifactPath place
      · -- The artifact is the one just written, so the document is the last one that shares it.
        have this : shown = place := by
          rcases List.mem_append.1 member with earlier | here
          · have after := latest place (by simp) ⟨_, _, _, made⟩ same.symm
            exact Path.pathBefore_antisymm (last shown earlier).1 after
          · exact List.mem_singleton.1 here
        subst this
        rw [saved.read_self, made.compiles.compilation_eq madeShown.compiles]
      · have other : out ++ artifactPath shown ≠ out ++ artifactPath place := by
          rwa [Ne, List.append_cancel_left_eq]
        have earlier : shown ∈ done := by
          rcases List.mem_append.1 member with earlier | here
          · exact earlier
          · exact absurd (by rw [List.mem_singleton.1 here]) same
        exact (saved.read_other other).2 <| held.artifacts earlier madeShown fun other listed =>
          latest other (List.mem_append_left _ listed)

/-! ### The end of a batch -/

variable {summary : Summary}

theorem Makes.read (made : Makes options source out tree place bytes component compilation) :
    FileTree.read tree (source ++ place) = .ok bytes := by
  obtain ⟨kept, text, read, -, found⟩ := load_eq_ok_iff.1 made.compiles.loaded
  obtain ⟨rfl, -⟩ := Prod.mk.inj found
  exact read

/-- When a batch has completed, the manifest and the artifacts are in agreement. -/
theorem agrees_of_build (completed : (build options source out tree).1 = .ok summary) :
    ∃ done final, Agrees options source out tree done final ∧
      (∀ place, IsCompiled options source out tree place → place ∈ done) ∧
      FileTree.write final.tree (out ++ [manifestName])
          (Files.encodeText (manifest source final.entries).pretty) =
        .ok (build options source out tree).2 := by
  obtain ⟨grown, final, directory, ran, written⟩ := exists_steps_of_build completed
  refine ⟨documents grown source out, final, ?_, ?_, written⟩
  · refine steps_invariant (motive := Agrees options source out tree) (Agrees.start directory) ?_ ran
    intro before place after reached next split held stepped
    have listed : place ∈ documents grown source out := by simp [split]
    have sorted := split ▸ pairwise_documents
    have distinct : (before ++ place :: after).Nodup := split ▸ nodup_documents
    exact held.onward (mem_documents.1 listed).2
      (fun other earlier =>
        ⟨(List.pairwise_append.1 sorted).2.2 other earlier place List.mem_cons_self,
          (List.nodup_append.1 distinct).2.2 other earlier place List.mem_cons_self⟩) stepped
  · rintro place ⟨bytes, component, compilation, made⟩
    have there := (FileTree.read_makeAlong directory).2 made.read
    exact mem_documents.2 ⟨FileTree.mem_keys_of_read there, made.named⟩

/-- The artifact of a document without a compiled twin holds the code of the document. -/
theorem artifact_of_build (completed : (build options source out tree).1 = .ok summary)
    (made : Makes options source out tree place bytes component compilation)
    (alone : ∀ twin, IsTwin place twin → ¬ IsCompiled options source out tree twin) :
    FileTree.read (build options source out tree).2 (out ++ artifactPath place) =
      .ok (Files.encodeText compilation.code) := by
  obtain ⟨done, final, agreed, listed, written⟩ := agrees_of_build completed
  have distinct : out ++ artifactPath place ≠ out ++ [manifestName] := by
    rw [Ne, List.append_cancel_left_eq]
    exact artifactPath_ne_manifest made.named
  rw [FileTree.read_write_other written distinct]
  refine agreed.artifacts (listed place ⟨_, _, _, made⟩) made ?_
  rintro other - ⟨_, _, _, madeOther⟩ shared
  obtain rfl | twins | twins := (artifactPath_eq_iff madeOther.named made.named).1 shared
  · simpa using Path.pathBefore_total other other
  · exact twins.pathBefore
  · exact absurd ⟨_, _, _, madeOther⟩ (alone other twins)

/-- A line of the manifest belongs to a compiled document, and the artifact that it names holds the
code of this document, or the code of its twin if the twin is compiled as well. -/
def LineHolds (options : Options) (source out : Path) (tree final : FileTree) (name : String)
    (line : Json) : Prop :=
  ∃ place bytes component compilation members artifact,
    Makes options source out tree place bytes component compilation ∧
    name = "/".intercalate place ∧ line = manifestEntry place bytes component compilation ∧
    line = .object members ∧ lookup? "artifact" members = some (.string artifact) ∧
    ((∀ twin, IsTwin place twin → ¬ IsCompiled options source out tree twin) →
      FileTree.read final ((PathText.ofString artifact).resolve out) =
        .ok (Files.encodeText compilation.code)) ∧
    ∀ twin twinBytes twinComponent twinCompilation, IsTwin place twin →
      Makes options source out tree twin twinBytes twinComponent twinCompilation →
      FileTree.read final ((PathText.ofString artifact).resolve out) =
        .ok (Files.encodeText twinCompilation.code)

/-- Every line of the manifest holds, and no two compiled documents share an artifact unless they
are twins. -/
theorem manifest_of_build (proper : ∀ path ∈ tree.keys, ∀ name ∈ path, IsFileName name)
    (completed : (build options source out tree).1 = .ok summary) :
    (∃ entries : Entries Json,
      FileTree.read (build options source out tree).2 (out ++ [manifestName]) =
        .ok (Files.encodeText (manifest source entries).pretty) ∧
      ∀ name line, (name, line) ∈ entries.toList →
        LineHolds options source out tree (build options source out tree).2 name line) ∧
    ∀ place other, IsCompiled options source out tree place →
      IsCompiled options source out tree other → artifactPath place = artifactPath other →
      place = other ∨ IsTwin place other ∨ IsTwin other place := by
  obtain ⟨done, final, agreed, -, written⟩ := agrees_of_build completed
  refine ⟨⟨final.entries, FileTree.read_write_self written, ?_⟩, ?_⟩
  · intro name line member
    obtain ⟨place, bytes, component, compilation, made, named, same⟩ :=
      agreed.lines name line member
    have names : ∀ name ∈ place, IsFileName name := fun name member =>
      proper _ (FileTree.mem_keys_of_read made.read) name (List.mem_append_right _ member)
    refine ⟨place, bytes, component, compilation, _, "/".intercalate (artifactPath place), made,
      named, same, same, rfl, ?_, ?_⟩
    · intro alone
      rw [resolve_artifactPath made.named names]
      exact artifact_of_build completed made alone
    · intro twin _ _ _ twins madeTwin
      rw [resolve_artifactPath made.named names,
        (artifactPath_eq_iff made.named madeTwin.named).2 (.inr (.inl twins))]
      exact artifact_of_build completed madeTwin fun _ further => absurd further twins.not_isTwin
  · rintro place other ⟨_, _, _, made⟩ ⟨_, _, _, madeOther⟩ shared
    exact (artifactPath_eq_iff made.named madeOther.named).1 shared

/-! ### Two documents with one artifact -/

/-- A source directory with two documents of one name, the second one marked as the source of a
component, and an empty output directory. -/
def twins (first second : List UInt8) : FileTree :=
  Dictionary.ofList [(["src"], .directory), (["src", "A.json"], .file first),
    (["src", "A.lite.json"], .file second), (["out"], .directory)]

variable {first second : List UInt8}

theorem keys_twins : (twins first second).keys =
    [["src"], ["src", "A.json"], ["src", "A.lite.json"], ["out"]] := rfl

theorem documents_twins :
    documents (twins first second) ["src"] ["out"] = [["A.json"], ["A.lite.json"]] := by
  have there : (FileTree.placesBelow (twins first second) ["src"]).filter
      (isDocument ["src"] ["out"]) = [["A.json"], ["A.lite.json"]] := rfl
  rw [documents, there]
  exact List.mergeSort_of_pairwise (by decide)

/-- The batch compiles both documents, and the manifest lists both with the same artifact. -/
theorem build_twins {component other : Component} {compilation otherCompilation : Compilation}
    (one : Makes options ["src"] ["out"] (twins first second) ["A.json"] first component compilation)
    (two : Makes options ["src"] ["out"] (twins first second) ["A.lite.json"] second other
      otherCompilation) :
    ∃ summary, (build options ["src"] ["out"] (twins first second)).1 = .ok summary ∧
      summary.components = 2 ∧
      ∃ entries : Entries Json,
        FileTree.read (build options ["src"] ["out"] (twins first second)).2
            (["out"] ++ [manifestName]) =
          .ok (Files.encodeText (manifest ["src"] entries).pretty) ∧
        entries.toList =
          [("A.json", manifestEntry ["A.json"] first component compilation),
            ("A.lite.json", manifestEntry ["A.lite.json"] second other otherCompilation)] := by
  have directory : FileTree.makeDirectory (twins first second) ["out"] = .ok (twins first second) :=
    rfl
  let between := (twins first second).put ["out", "A.astro"]
    (.file (Files.encodeText compilation.code))
  have twoThere : Compiles options between (["src"] ++ ["A.lite.json"]) second other
      otherCompilation := two.compiles.congr fun _ => Iff.rfl
  let final := between.put ["out", "A.astro"] (.file (Files.encodeText otherCompilation.code))
  have savedOne : FileTree.Saves (twins first second) (["out"] ++ artifactPath ["A.json"])
      (Files.encodeText compilation.code) between := ⟨twins first second, rfl, rfl⟩
  have savedTwo : FileTree.Saves between (["out"] ++ artifactPath ["A.lite.json"])
      (Files.encodeText otherCompilation.code) final := ⟨between, rfl, rfl⟩
  rw [build_eq_finish directory, documents_twins, steps_of_stepsTo (.compiled one.compiles savedOne),
    steps_of_stepsTo (.compiled twoThere savedTwo)]
  have written (text : List UInt8) : FileTree.write final (["out"] ++ [manifestName]) text =
    .ok (final.put (["out"] ++ [manifestName]) (.file text)) := rfl
  simp only [steps, finish, written]
  refine ⟨_, rfl, rfl, _, FileTree.read_write_self (written _), rfl⟩

/-! ### Documents with a single element -/

theorem eq_ok_of_toOption {ε α : Type} {result : Except ε α} {value : α}
    (yields : result.toOption = some value) : result = .ok value := by
  cases result with
  | error fault => cases yields
  | ok other => exact congrArg Except.ok (Option.some.inj yields)

/-- The text of a document with a single element. -/
def elementText (tag : String) : String :=
  "\x7b\"children\":[\x7b\"name\":\"" ++ tag ++ "\"\x7d]\x7d"

/-- The file of a document with a single element. -/
def elementFile (tag : String) : List UInt8 :=
  (elementText tag).toList.map fun c => UInt8.ofNat c.toNat

/-- The component with a single element, as it is read from a file. -/
def element (file tag : String) : Component :=
  (loadText file (elementText tag)).toOption.getD default

theorem load_element {tag : String} (held : FileTree.read tree path = .ok (elementFile tag))
    (decoded : (Files.decodeText (elementFile tag)).toOption = some (elementText tag))
    (described : (loadText (Path.toString path) (elementText tag)).toOption.isSome = true) :
    load tree path = .ok (elementFile tag, .ok (element (Path.toString path) tag)) := by
  obtain ⟨component, yields⟩ := Option.isSome_iff_exists.1 described
  refine load_eq_ok_iff.2 ⟨_, elementText tag, held, eq_ok_of_toOption decoded, ?_⟩
  rw [element, yields, Option.getD_some, eq_ok_of_toOption yields]

theorem makes_paragraph : ∃ compilation,
    Makes {} ["src"] ["out"] (twins (elementFile "p") second) ["A.json"] (elementFile "p")
      (element "/src/A.json" "p") compilation ∧ compilation.code = "<p></p>\n" := by
  have held : FileTree.read (twins (elementFile "p") second) (["src"] ++ ["A.json"]) =
      .ok (elementFile "p") := rfl
  have loaded := load_element held (by decide +kernel) (by decide +kernel)
  have plain : ({} : Options).plugins = [] := rfl
  have unstyled : Page.IsUnstyled (element "/src/A.json" "p") := by decide +kernel
  obtain ⟨compilation, compiled, code⟩ := Page.code_of_unstyled plain unstyled "<p></p>"
    "<p></p>\n" (by decide +kernel) (by decide +kernel)
  exact ⟨compilation, ⟨by decide, loaded, compiled⟩, code⟩

theorem makes_bold : ∃ compilation,
    Makes {} ["src"] ["out"] (twins first (elementFile "b")) ["A.lite.json"] (elementFile "b")
      (element "/src/A.lite.json" "b") compilation ∧ compilation.code = "<b></b>\n" := by
  have held : FileTree.read (twins first (elementFile "b")) (["src"] ++ ["A.lite.json"]) =
      .ok (elementFile "b") := rfl
  have loaded := load_element held (by decide +kernel) (by decide +kernel)
  have plain : ({} : Options).plugins = [] := rfl
  have unstyled : Page.IsUnstyled (element "/src/A.lite.json" "b") := by decide +kernel
  obtain ⟨compilation, compiled, code⟩ := Page.code_of_unstyled plain unstyled "<b></b>"
    "<b></b>\n" (by decide +kernel) (by decide +kernel)
  exact ⟨compilation, ⟨by decide, loaded, compiled⟩, code⟩

/-- A paragraph and its twin, a bold text: the lines of the manifest hold. -/
theorem manifest_twins :
    (∀ path ∈ (twins (elementFile "p") (elementFile "b")).keys, ∀ name ∈ path, IsFileName name) ∧
    ∃ summary, (build {} ["src"] ["out"] (twins (elementFile "p") (elementFile "b"))).1 =
        .ok summary ∧
      ∃ entries : Entries Json,
        FileTree.read (build {} ["src"] ["out"] (twins (elementFile "p") (elementFile "b"))).2
            (["out"] ++ [manifestName]) =
          .ok (Files.encodeText (manifest ["src"] entries).pretty) ∧
        ∀ name line, (name, line) ∈ entries.toList →
          LineHolds {} ["src"] ["out"] (twins (elementFile "p") (elementFile "b"))
            (build {} ["src"] ["out"] (twins (elementFile "p") (elementFile "b"))).2 name line := by
  have proper : ∀ path ∈ (twins (elementFile "p") (elementFile "b")).keys,
      ∀ name ∈ path, IsFileName name := by
    rw [keys_twins]
    decide
  obtain ⟨one, madeOne, -⟩ := makes_paragraph
  obtain ⟨two, madeTwo, -⟩ := makes_bold
  obtain ⟨summary, completed, -⟩ := build_twins madeOne madeTwo
  exact ⟨proper, summary, completed, (manifest_of_build proper completed).1⟩

/-- The manifest lists the paragraph with an artifact that holds the code of its twin. -/
theorem artifact_of_twins :
    ∃ summary entries component compilation,
      (build {} ["src"] ["out"] (twins (elementFile "p") (elementFile "b"))).1 = .ok summary ∧
      FileTree.read (build {} ["src"] ["out"] (twins (elementFile "p") (elementFile "b"))).2
          ["out", "manifest.json"] =
        .ok (Files.encodeText (manifest ["src"] entries).pretty) ∧
      Makes {} ["src"] ["out"] (twins (elementFile "p") (elementFile "b")) ["A.json"]
        (elementFile "p") component compilation ∧
      ("A.json", manifestEntry ["A.json"] (elementFile "p") component compilation) ∈
        entries.toList ∧
      artifactPath ["A.json"] = ["A.astro"] ∧ compilation.code = "<p></p>\n" ∧
      FileTree.read (build {} ["src"] ["out"] (twins (elementFile "p") (elementFile "b"))).2
          ["out", "A.astro"] = .ok (Files.encodeText "<b></b>\n") ∧
      Files.encodeText "<b></b>\n" ≠ Files.encodeText compilation.code := by
  obtain ⟨one, madeOne, codeOne⟩ := makes_paragraph
  obtain ⟨two, madeTwo, codeTwo⟩ := makes_bold
  obtain ⟨summary, completed, -, entries, listed, lines⟩ := build_twins madeOne madeTwo
  have alone (twin : Path) (twins : IsTwin ["A.lite.json"] twin) : False := by
    have marked : IsTwin ["A.json"] ["A.lite.json"] := ⟨[], "A", rfl, rfl, by decide⟩
    exact marked.not_isTwin twins
  have held := artifact_of_build completed madeTwo fun twin twins => (alone twin twins).elim
  rw [codeTwo] at held
  refine ⟨summary, entries, _, one, completed, listed, madeOne, ?_, rfl, codeOne, held, ?_⟩
  · rw [lines]
    exact List.mem_cons_self
  · rw [codeOne]
    decide +kernel

end ComponentCompiler.Batch

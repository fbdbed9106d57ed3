import ComponentCompiler.Proofs.Batch.Accounts
import ComponentCompiler.Proofs.Files.Kinds

/-!
# Building a batch again

A batch writes below its output directory only. Its documents lie outside of it, so a second batch
over the same directories has the same documents, and finds them as they were. It meets its own
artifacts where it writes them, and leaves the tree as the first batch did, also where several
documents share an artifact.

## Main definitions

* `Batch.IsPrepared` — the output directory is there, and all that a batch writes can be written over

## Main results

* `Batch.item?_outside_of_build` — outside the output directory a batch makes the directories that
  lead there, and nothing else
* `Batch.exists_steps_of_prepared` — steps that write over what is there are not stopped
* `Batch.rebuild_eq` — the second batch has the same summary and leaves the same tree
-/

namespace ComponentCompiler.Batch

open Files (FileTree Path)

variable {options : Options} {source out place path : Path} {tree grown : FileTree}
  {summary : Summary} {progress next final : Progress} {places : List Path}

/-! ### Outside of the output directory -/

theorem StepsTo.keepsKinds (stepped : StepsTo options source out progress place next) :
    FileTree.KeepsKinds progress.tree next.tree := by
  cases stepped with
  | refused => exact .refl _
  | compiled made saved => exact saved.keepsKinds

theorem keepsKinds_steps (ran : (steps options source out progress places).1 = .ok final) :
    FileTree.KeepsKinds progress.tree final.tree := by
  refine steps_invariant (motive := fun _ reached => FileTree.KeepsKinds progress.tree reached.tree)
    (.refl _) ?_ ran
  intro _ _ _ _ _ _ held stepped
  exact held.trans stepped.keepsKinds

/-- A step changes nothing outside the output directory. -/
theorem StepsTo.item?_outside (stepped : StepsTo options source out progress place next)
    (ways : ∀ way, way <+: out → FileTree.item? progress.tree way = some .directory)
    (outside : ¬ out <+: path) :
    FileTree.item? next.tree path = FileTree.item? progress.tree path := by
  cases stepped with
  | refused => rfl
  | compiled made saved => exact saved.item?_outside ways outside

/-- Outside the output directory a batch makes the directories that lead there, and nothing else. -/
theorem item?_outside_of_build (completed : (build options source out tree).1 = .ok summary)
    (outside : ¬ out <+: path) :
    FileTree.item? (build options source out tree).2 path = FileTree.item? tree path ∨
      path <+: out ∧ FileTree.item? tree path = none ∧
        FileTree.item? (build options source out tree).2 path = some .directory := by
  obtain ⟨grown, final, made, ran, written⟩ := exists_steps_of_build completed
  have ways (way : Path) (along : way <+: out) : FileTree.item? grown way = some .directory :=
    FileTree.item?_of_makeDirectory made along
  have stepwise : FileTree.item? final.tree path = FileTree.item? grown path := by
    refine (steps_invariant (motive := fun _ reached => FileTree.KeepsKinds grown reached.tree ∧
      FileTree.item? reached.tree path = FileTree.item? grown path) ⟨.refl _, rfl⟩ ?_ ran).2
    rintro _ _ _ reached next _ ⟨kept, same⟩ stepped
    have there (way : Path) (along : way <+: out) :
        FileTree.item? reached.tree way = some .directory :=
      FileTree.isFile?_eq_false_iff.1
        (kept way false (FileTree.isFile?_eq_false_iff.2 (ways way along)))
    exact ⟨kept.trans stepped.keepsKinds, (stepped.item?_outside there outside).trans same⟩
  have other : path ≠ out ++ [manifestName] := by
    rintro rfl
    exact outside (List.prefix_append _ _)
  rw [FileTree.item?_write written, if_neg other, stepwise]
  exact FileTree.item?_makeDirectory made path

theorem read_outside_of_build (completed : (build options source out tree).1 = .ok summary)
    (outside : ¬ out <+: path) (bytes : List UInt8) :
    FileTree.read (build options source out tree).2 path = .ok bytes ↔
      FileTree.read tree path = .ok bytes := by
  rw [FileTree.read_eq_ok_iff, FileTree.read_eq_ok_iff]
  obtain same | ⟨-, free, directory⟩ := item?_outside_of_build completed outside
  · rw [same]
  · rw [free, directory]
    simp

/-- A batch has the same documents when it is built again: what it has written is none of them. -/
theorem documents_again (completed : (build options source out tree).1 = .ok summary) :
    documents (build options source out tree).2 source out = documents tree source out := by
  obtain ⟨grown, final, made, -, -⟩ := exists_steps_of_build completed
  refine documents_eq pairwise_documents nodup_documents fun place => ?_
  rw [mem_documents]
  refine and_congr_left fun named => ?_
  have lower : source ++ place ≠ [] := by simp [ne_nil_of_isDocument named]
  rw [FileTree.mem_keys_iff_item? lower, FileTree.mem_keys_iff_item? lower]
  obtain same | ⟨along, free, -⟩ :=
    item?_outside_of_build completed (not_prefix_of_isDocument named)
  · rw [same]
  · -- A directory on the way to the output directory would have been a document of the first batch.
    have directory := FileTree.item?_of_makeDirectory made along
    have listed : place ∈ documents grown source out :=
      mem_documents.2 ⟨(FileTree.mem_keys_iff_item? lower).2 ⟨_, directory⟩, named⟩
    rw [documents_of_build completed made, mem_documents,
      FileTree.mem_keys_iff_item? lower, free] at listed
    simp at listed

/-! ### Writing over what is there -/

/-- The artifact of a compiled document can be written over after the steps of a batch. -/
theorem isRewritable_of_steps (outside : ∀ place ∈ places, ¬ out <+: source ++ place)
    (ran : (steps options source out progress places).1 = .ok final) {bytes : List UInt8}
    {component : Component} {compilation : Compilation} (member : place ∈ places)
    (made : Compiles options progress.tree (source ++ place) bytes component compilation) :
    FileTree.IsRewritable final.tree (out ++ artifactPath place) := by
  refine steps_invariant_outside (motive := fun done reached => place ∈ done →
    FileTree.IsRewritable reached.tree (out ++ artifactPath place))
    (fun none => absurd none List.not_mem_nil) ?_ ran member
  intro before here after reached next _ files held stepped done
  rcases List.mem_append.1 done with earlier | last
  · exact (held earlier).mono stepped.keepsKinds
  · obtain rfl := List.mem_singleton.1 last
    have madeHere := made.congr (files _ (outside place member))
    cases stepped with
    | refused loaded failed told =>
      exact absurd ⟨_, _, loaded, failed, told⟩ (Verdict.not_refuses_of_compiles madeHere)
    | compiled _ saved => exact saved.isRewritable

/-- A document has its verdict, and its artifact can be written over if it is compiled. -/
structure IsPrepared (options : Options) (source out : Path) (tree : FileTree) (place : Path) :
    Prop where
  outside : ¬ out <+: source ++ place
  settled : ∃ verdict : Verdict, verdict.Holds options tree (source ++ place) ∧
    (verdict.isCompiled = true → FileTree.IsRewritable tree (out ++ artifactPath place))

/-- The step of a prepared document writes over what is there. -/
theorem IsPrepared.exists_stepsTo (prepared : IsPrepared options source out progress.tree place) :
    ∃ next, StepsTo options source out progress place next ∧
      FileTree.SameKinds progress.tree next.tree := by
  obtain ⟨verdict, holds, rewritable⟩ := prepared.settled
  cases verdict with
  | refused failure =>
    obtain ⟨bytes, component, loaded, failed, told⟩ := holds
    exact ⟨_, .refused loaded failed told, fun _ => rfl⟩
  | compiled bytes component compilation =>
    obtain ⟨grown, written, same⟩ :=
      (rewritable rfl).exists_write (Files.encodeText compilation.code)
    exact ⟨_, .compiled holds ⟨_, (rewritable rfl).makeDirectory, written⟩, same⟩

/-- The step of one document leaves the others prepared. -/
theorem IsPrepared.onward {other : Path} (prepared : IsPrepared options source out progress.tree other)
    (stepped : StepsTo options source out progress place next) :
    IsPrepared options source out next.tree other := by
  refine ⟨prepared.outside, ?_⟩
  obtain ⟨verdict, holds, rewritable⟩ := prepared.settled
  refine ⟨verdict, holds.congr fun bytes => stepped.read_other ?_,
    fun compiled => (rewritable compiled).mono stepped.keepsKinds⟩
  intro same
  exact prepared.outside (same ▸ List.prefix_append _ _)

variable (progress) in
/-- Steps over prepared documents are not stopped, and make nothing new. -/
theorem exists_steps_of_prepared
    (prepared : ∀ place ∈ places, IsPrepared options source out progress.tree place) :
    ∃ final, (steps options source out progress places).1 = .ok final ∧
      FileTree.SameKinds progress.tree final.tree := by
  induction places generalizing progress with
  | nil => exact ⟨progress, rfl, fun _ => rfl⟩
  | cons place rest ih =>
    obtain ⟨next, stepped, same⟩ := (prepared place List.mem_cons_self).exists_stepsTo
    rw [steps_of_stepsTo stepped]
    obtain ⟨final, ran, onward⟩ := ih next fun other member =>
      (prepared other (List.mem_cons_of_mem _ member)).onward stepped
    exact ⟨final, ran, same.trans onward⟩

/-! ### The second batch -/

/-- The output directory and the manifest are there after a batch. -/
theorem isRewritable_manifest (completed : (build options source out tree).1 = .ok summary) :
    (∀ way, way <+: out →
      FileTree.item? (build options source out tree).2 way = some .directory) ∧
    FileTree.IsRewritable (build options source out tree).2 (out ++ [manifestName]) := by
  obtain ⟨grown, final, made, ran, written⟩ := exists_steps_of_build completed
  have kept := (keepsKinds_steps ran).trans (FileTree.keepsKinds_write written)
  have ways (way : Path) (along : way <+: out) :
      FileTree.isFile? (build options source out tree).2 way = some false :=
    kept way false (FileTree.isFile?_eq_false_iff.2 (FileTree.item?_of_makeDirectory made along))
  refine ⟨fun way along => FileTree.isFile?_eq_false_iff.1 (ways way along), ?_, ?_⟩
  · rwa [List.dropLast_concat]
  · rw [FileTree.isFile?_write written, if_pos rfl]

/-- The documents of a batch are prepared for the next one. -/
theorem isPrepared_again (completed : (build options source out tree).1 = .ok summary)
    (member : place ∈ documents (build options source out tree).2 source out) :
    IsPrepared options source out (build options source out tree).2 place := by
  obtain ⟨grown, final, made, ran, written⟩ := exists_steps_of_build completed
  have outside (other : Path) (listed : other ∈ documents grown source out) :
      ¬ out <+: source ++ other := not_prefix_of_isDocument (mem_documents.1 listed).2
  rw [documents_again completed, ← documents_of_build completed made] at member
  obtain ⟨rows, listed, holds, -⟩ := exists_rows_of_steps outside ran
  obtain ⟨row, inside, rfl⟩ := List.mem_map.1 (listed ▸ member)
  have same (bytes : List UInt8) :
      FileTree.read (build options source out tree).2 (source ++ row.1) = .ok bytes ↔
        FileTree.read grown (source ++ row.1) = .ok bytes :=
    (read_outside_of_build completed (outside _ member) bytes).trans
      (FileTree.read_makeAlong made).symm
  refine ⟨outside _ member, row.2, (holds row inside).congr same, fun compiled => ?_⟩
  have held := holds row inside
  cases verdict : row.2 with
  | refused failure => simp [verdict] at compiled
  | compiled bytes component compilation =>
    rw [verdict] at held
    exact (isRewritable_of_steps outside ran member held).mono (FileTree.keepsKinds_write written)

theorem makes_again (completed : (build options source out tree).1 = .ok summary)
    {bytes : List UInt8} {component : Component} {compilation : Compilation} :
    Makes options source out (build options source out tree).2 place bytes component compilation ↔
      Makes options source out tree place bytes component compilation := by
  constructor
  · rintro ⟨named, compiles⟩
    have outside := not_prefix_of_isDocument named
    exact ⟨named, compiles.congr fun kept => (read_outside_of_build completed outside kept).symm⟩
  · rintro ⟨named, compiles⟩
    have outside := not_prefix_of_isDocument named
    exact ⟨named, compiles.congr fun kept => read_outside_of_build completed outside kept⟩

/-- The second batch leaves in an artifact what the first one has left there. -/
theorem artifact_again (completed : (build options source out tree).1 = .ok summary)
    {again : Summary}
    (completedAgain : (build options source out (build options source out tree).2).1 = .ok again)
    (isCompiled : IsCompiled options source out tree place) :
    FileTree.read (build options source out (build options source out tree).2).2
        (out ++ artifactPath place) =
      FileTree.read (build options source out tree).2 (out ++ artifactPath place) := by
  have alone {last : Path} (compiled : IsCompiled options source out tree last)
      (none : ∀ twin, IsTwin last twin → ¬ IsCompiled options source out tree twin) :
      FileTree.read (build options source out (build options source out tree).2).2
          (out ++ artifactPath last) =
        FileTree.read (build options source out tree).2 (out ++ artifactPath last) := by
    obtain ⟨bytes, component, compilation, made⟩ := compiled
    rw [artifact_of_build completed made none,
      artifact_of_build completedAgain ((makes_again completed).2 made)]
    rintro twin twins ⟨_, _, _, madeTwin⟩
    exact none twin twins ⟨_, _, _, (makes_again completed).1 madeTwin⟩
  -- The artifact that twins share is that of the later twin, which has no twin after it.
  by_cases shared : ∃ twin, IsTwin place twin ∧ IsCompiled options source out tree twin
  · obtain ⟨twin, twins, compiled⟩ := shared
    obtain ⟨_, _, _, made⟩ := isCompiled
    obtain ⟨_, _, _, madeTwin⟩ := id compiled
    rw [(artifactPath_eq_iff made.named madeTwin.named).2 (.inr (.inl twins))]
    exact alone compiled fun _ further => absurd further twins.not_isTwin
  · exact alone isCompiled fun twin twins compiled => shared ⟨twin, twins, compiled⟩

/-- A file that is no artifact of a compiled document is as it was before the steps. -/
theorem read_steps_of_free (outside : ∀ place ∈ places, ¬ out <+: source ++ place)
    (ran : (steps options source out progress places).1 = .ok final)
    (free : ∀ place ∈ places, ∀ bytes component compilation,
      Compiles options progress.tree (source ++ place) bytes component compilation →
      path ≠ out ++ artifactPath place) (bytes : List UInt8) :
    FileTree.read final.tree path = .ok bytes ↔ FileTree.read progress.tree path = .ok bytes := by
  refine steps_invariant_outside (motive := fun _ reached =>
    FileTree.read reached.tree path = .ok bytes ↔ FileTree.read progress.tree path = .ok bytes)
    Iff.rfl ?_ ran
  intro before place after reached next split files held stepped
  cases stepped with
  | refused => exact held
  | compiled made saved =>
    have member : place ∈ places := by simp [split]
    have atStart := made.congr fun kept => (files _ (outside place member) kept).symm
    exact (saved.read_other (free place member _ _ _ atStart)).trans held

/-- The second batch takes the same steps as the first one, and they make nothing new. -/
theorem exists_steps_again (completed : (build options source out tree).1 = .ok summary)
    (made : FileTree.makeDirectory tree out = .ok grown)
    (ran : (steps options source out { tree := grown } (documents grown source out)).1 = .ok final) :
    ∃ last, (steps options source out { tree := (build options source out tree).2 }
        (documents (build options source out tree).2 source out)).1 =
          .ok { final with tree := last } ∧
      FileTree.SameKinds (build options source out tree).2 last := by
  have listings := (documents_again completed).trans (documents_of_build completed made).symm
  have outside (other : Path) (listed : other ∈ documents grown source out) :
      ¬ out <+: source ++ other := not_prefix_of_isDocument (mem_documents.1 listed).2
  obtain ⟨last, ranAgain, same⟩ := exists_steps_of_prepared
    { tree := (build options source out tree).2 }
    fun place member => isPrepared_again completed member
  obtain ⟨rows, listed, holds, added⟩ := exists_rows_of_steps outside ran
  obtain ⟨others, listedAgain, holdsAgain, addedAgain⟩ :=
    exists_rows_of_steps (listings ▸ outside) ranAgain
  -- The documents are the same and their files are the same, so the accounts are the same.
  obtain rfl : rows = others := by
    refine rows_unique (listed.trans (listings.symm.trans listedAgain.symm)) holds ?_
    intro row member
    have there : row.1 ∈ documents grown source out :=
      listings ▸ listedAgain ▸ List.mem_map_of_mem member
    exact (holdsAgain row member).congr fun bytes =>
      (FileTree.read_makeAlong made).trans
        (read_outside_of_build completed (outside _ there) bytes).symm
  have restarted : ({ tree := (build options source out tree).2 } : Progress) =
      { ({ tree := grown } : Progress) with tree := (build options source out tree).2 } := rfl
  rw [restarted, foldl_record_withTree] at addedAgain
  have fields : last = { final with tree := last.tree } := by rw [added]; exact addedAgain
  exact ⟨last.tree, fields ▸ ranAgain, same⟩

theorem build_of_steps {last : FileTree} (made : FileTree.makeDirectory tree out = .ok grown)
    (ran : (steps options source out { tree := grown } (documents grown source out)).1 = .ok final)
    (written : FileTree.write final.tree (out ++ [manifestName])
      (Files.encodeText (manifest source final.entries).pretty) = .ok last) :
    build options source out tree =
      (.ok
        { components := final.components
          hydrated := final.hydrated
          failed := final.errors.length
          out := out
          errors := final.errors }, last) := by
  rw [build_eq_finish made, Prod.ext (y := (.ok final, final.tree)) ran (tree_of_steps ran)]
  simp only [finish, written]

/-- The second batch completes with the same summary, and leaves every place as it was. -/
theorem build_again (completed : (build options source out tree).1 = .ok summary) :
    (build options source out (build options source out tree).2).1 = .ok summary ∧
      ∀ path, FileTree.item? (build options source out (build options source out tree).2).2 path =
        FileTree.item? (build options source out tree).2 path := by
  obtain ⟨grown, final, made, ran, written⟩ := exists_steps_of_build completed
  obtain ⟨ways, manifestThere⟩ := isRewritable_manifest completed
  obtain ⟨last, ranAgain, same⟩ := exists_steps_again completed made ran
  obtain ⟨rebuilt, writtenAgain, sameManifest⟩ := (manifestThere.mono same.keepsKinds).exists_write
    (Files.encodeText (manifest source final.entries).pretty)
  have again := build_of_steps (FileTree.makeDirectory_of_directories ways) ranAgain writtenAgain
  have total := summary_of_build completed made ran
  have completedAgain :
      (build options source out (build options source out tree).2).1 = .ok summary := by
    rw [again, total]
  have result : (build options source out (build options source out tree).2).2 = rebuilt := by
    rw [again]
  refine ⟨completedAgain, fun path => FileTree.item?_eq_of_sameKinds ?_ fun bytes => ?_⟩
  · rw [result]
    exact same.trans sameManifest
  · -- A file is the manifest, or the artifact of a compiled document, or it is not written at all.
    by_cases isManifest : path = out ++ [manifestName]
    · subst isManifest
      rw [result, FileTree.read_write_self writtenAgain, FileTree.read_write_self written]
    by_cases isArtifact : ∃ place, IsCompiled options source out tree place ∧
        path = out ++ artifactPath place
    · obtain ⟨place, compiled, rfl⟩ := isArtifact
      rw [artifact_again completed completedAgain compiled]
    · rw [result, FileTree.read_write_other writtenAgain isManifest]
      have outside (place : Path)
          (listed : place ∈ documents (build options source out tree).2 source out) :
          ¬ out <+: source ++ place := not_prefix_of_isDocument (mem_documents.1 listed).2
      refine read_steps_of_free outside ranAgain ?_ bytes
      intro place listed kept component compilation made here
      have named := (mem_documents.1 listed).2
      exact isArtifact
        ⟨place, ⟨_, _, _, (makes_again completed).1 ⟨named, made⟩⟩, here⟩

/-- A batch that completes changes nothing outside the output directory but for directories that lead
there. When it is built again it has the same documents, completes with the same summary, and leaves
every place as it was. -/
theorem rebuild_eq (completed : (build options source out tree).1 = .ok summary) :
    (∀ path, ¬ out <+: path →
      FileTree.item? (build options source out tree).2 path = FileTree.item? tree path ∨
        path <+: out ∧ FileTree.item? tree path = none ∧
          FileTree.item? (build options source out tree).2 path = some .directory) ∧
    documents (build options source out tree).2 source out = documents tree source out ∧
    (build options source out (build options source out tree).2).1 = .ok summary ∧
    ∀ path, FileTree.item? (build options source out (build options source out tree).2).2 path =
      FileTree.item? (build options source out tree).2 path := by
  obtain ⟨completedAgain, left⟩ := build_again completed
  exact ⟨fun path outside => item?_outside_of_build completed outside, documents_again completed,
    completedAgain, left⟩

/-- A paragraph and its twin, a bold text, share an artifact: the first batch leaves the bold text in
it, and so does the second one. -/
theorem rebuild_twins :
    ∃ summary, (build {} ["src"] ["out"] (twins (elementFile "p") (elementFile "b"))).1 =
        .ok summary ∧
      (build {} ["src"] ["out"]
        (build {} ["src"] ["out"] (twins (elementFile "p") (elementFile "b"))).2).1 = .ok summary ∧
      FileTree.read (build {} ["src"] ["out"]
        (build {} ["src"] ["out"] (twins (elementFile "p") (elementFile "b"))).2).2
          ["out", "A.astro"] = .ok (Files.encodeText "<b></b>\n") := by
  obtain ⟨one, madeOne, -⟩ := makes_paragraph
  obtain ⟨two, madeTwo, code⟩ := makes_bold
  obtain ⟨summary, completed, -⟩ := build_twins madeOne madeTwo
  obtain ⟨-, -, completedAgain, left⟩ := rebuild_eq completed
  have marked : IsTwin ["A.json"] ["A.lite.json"] := ⟨[], "A", rfl, rfl, by decide⟩
  have first := artifact_of_build completed madeTwo fun _ further => absurd further marked.not_isTwin
  refine ⟨summary, completed, completedAgain, ?_⟩
  rw [FileTree.read_eq_ok_iff, left, ← FileTree.read_eq_ok_iff, ← code]
  exact first

end ComponentCompiler.Batch

import ComponentCompiler.Batch
import ComponentCompiler.Proofs.Files.Paths
import ComponentCompiler.Proofs.Files.Writing
import Mathlib.Data.List.Nodup
import Mathlib.Data.List.Sort

/-!
# The steps of a batch

The documents of a batch are determined by which of them are there, and every step either keeps the
message of a refused document or writes one artifact. No step changes a file outside the output
directory.

## Main definitions

* `Batch.Compiles`, `Batch.Refuses` — a document is read and compiled, or refused with a message
* `Batch.StepsTo` — what a step leads to, with one case for a refusal and one for an artifact
* `Batch.finish` — the end of a batch, after its steps

## Main results

* `Batch.documents_eq` — the documents as the one sorted list of them
* `Batch.stepsTo_of_step`, `Batch.step_of_stepsTo` — every step that does not stop the batch is one
  of the two
* `Batch.steps_invariant` — what every step keeps is kept to the end
* `Batch.read_steps` — the files outside the output directory stay the same
* `Batch.exists_steps_of_build` — what a batch that completes has done
-/

namespace ComponentCompiler.Batch

open Files (FileTree Path)

variable {options : Options} {source out place path : Path} {tree : FileTree}

/-! ### Documents -/

theorem mem_placesBelow :
    place ∈ FileTree.placesBelow tree path ↔ path ++ place ∈ tree.keys ∧ place ≠ [] := by
  simp [FileTree.placesBelow, Path.below?_eq_some_iff]

theorem ne_nil_of_isDocument (named : isDocument source out place = true) : place ≠ [] := by
  rintro rfl
  simp [isDocument] at named

/-- No document lies in the output directory. -/
theorem not_prefix_of_isDocument (named : isDocument source out place = true) :
    ¬ out <+: source ++ place := by
  simp only [isDocument, Bool.and_eq_true, Bool.not_eq_true'] at named
  rw [← Path.isWithin_iff]
  simp [named.2]

theorem mem_documents :
    place ∈ documents tree source out ↔
      source ++ place ∈ tree.keys ∧ isDocument source out place = true := by
  rw [documents, List.mem_mergeSort, List.mem_filter, mem_placesBelow]
  constructor
  · rintro ⟨⟨there, -⟩, named⟩
    exact ⟨there, named⟩
  · rintro ⟨there, named⟩
    exact ⟨⟨there, ne_nil_of_isDocument named⟩, named⟩

theorem nodup_documents : (documents tree source out).Nodup := by
  refine ((List.Nodup.filterMap ?_ tree.distinct).filter _ |>.filter _).perm
    (List.mergeSort_perm _ _).symm
  intro first second place one two
  rw [Option.mem_def, Path.below?_eq_some_iff] at one two
  rw [one, two]

theorem pairwise_documents :
    (documents tree source out).Pairwise fun first second => Path.pathBefore first second = true :=
  List.pairwise_mergeSort Path.pathBefore_trans Path.pathBefore_total _

/-- A sorted list without repetitions that holds the documents is the list of documents. -/
theorem documents_eq {places : List Path}
    (sorted : places.Pairwise fun first second => Path.pathBefore first second = true)
    (distinct : places.Nodup)
    (members : ∀ place, place ∈ places ↔
      source ++ place ∈ tree.keys ∧ isDocument source out place = true) :
    documents tree source out = places := by
  have same : (documents tree source out).Perm places :=
    (List.perm_ext_iff_of_nodup nodup_documents distinct).2 fun place => by
      rw [mem_documents, members]
  exact same.eq_of_pairwise (fun _ _ _ _ one two => Path.pathBefore_antisymm one two)
    pairwise_documents sorted

/-- Without one of the documents all others are left. -/
theorem documents_erase {before after : List Path}
    (split : documents tree source out = before ++ place :: after) :
    documents (tree.erase (source ++ place)) source out = before ++ after := by
  have kept : (before ++ after).Sublist (documents tree source out) := by
    rw [split]
    exact (List.sublist_cons_self place after).append_left before
  have distinct : (before ++ place :: after).Nodup := split ▸ nodup_documents
  refine documents_eq (pairwise_documents.sublist kept) (nodup_documents.sublist kept) ?_
  intro other
  have listed : other ∈ documents tree source out ↔ other = place ∨ other ∈ before ++ after := by
    rw [split, List.mem_append, List.mem_cons, List.mem_append]
    exact or_left_comm
  have absent : place ∉ before ++ after := (List.nodup_middle.1 distinct).notMem
  rw [Dictionary.mem_keys_erase, and_right_comm, ← mem_documents, listed, Ne,
    List.append_cancel_left_eq]
  constructor
  · intro member
    exact ⟨.inr member, fun same => absent (same ▸ member)⟩
  · rintro ⟨rfl | member, different⟩
    · exact absurd rfl different
    · exact member

/-! ### One step -/

theorem load_eq_ok_iff {result : List UInt8 × Except Failure Component} :
    load tree path = .ok result ↔
      ∃ bytes text, FileTree.read tree path = .ok bytes ∧ Files.decodeText bytes = .ok text ∧
        result = (bytes, loadText path.toString text) := by
  unfold load
  cases FileTree.read tree path with
  | error fault => simp [Except.mapError, bind, Except.bind]
  | ok bytes =>
    cases decoded : Files.decodeText bytes with
    | error fault => simp [decoded, Except.mapError, bind, Except.bind]
    | ok text => simp [decoded, Except.mapError, bind, Except.bind, pure, Except.pure, eq_comm]

/-- What is loaded depends on the file only. -/
theorem load_congr {first second : FileTree} {result : List UInt8 × Except Failure Component}
    (same : ∀ bytes, FileTree.read first path = .ok bytes ↔ FileTree.read second path = .ok bytes) :
    load first path = .ok result ↔ load second path = .ok result := by
  simp only [load_eq_ok_iff, same]

/-- A document is read and compiled. -/
structure Compiles (options : Options) (tree : FileTree) (path : Path) (bytes : List UInt8)
    (component : Component) (compilation : Compilation) : Prop where
  loaded : load tree path = .ok (bytes, .ok component)
  compiled : (compile options component).outcome = .ok compilation

/-- What a document is compiled to depends on its file only. -/
theorem Compiles.congr {first second : FileTree} {bytes : List UInt8} {component : Component}
    {compilation : Compilation} (made : Compiles options first path bytes component compilation)
    (same : ∀ bytes, FileTree.read second path = .ok bytes ↔ FileTree.read first path = .ok bytes) :
    Compiles options second path bytes component compilation :=
  ⟨(load_congr same).2 made.loaded, made.compiled⟩

theorem Compiles.compilation_eq {bytes otherBytes : List UInt8} {component other : Component}
    {compilation otherCompilation : Compilation}
    (one : Compiles options tree path bytes component compilation)
    (two : Compiles options tree path otherBytes other otherCompilation) :
    compilation = otherCompilation := by
  have loaded := one.loaded.symm.trans two.loaded
  cases loaded
  exact Except.ok.inj (one.compiled.symm.trans two.compiled)

/-- A document is refused with a message. -/
def Refuses (options : Options) (tree : FileTree) (path : Path) (failure : Failure) : Prop :=
  ∃ bytes component, load tree path = .ok (bytes, component) ∧
    compileDocument options component = .error failure ∧ failure.isReported = true

/-- Whether a document is refused depends on its file only. -/
theorem Refuses.congr {first second : FileTree} {failure : Failure}
    (refused : Refuses options first path failure)
    (same : ∀ bytes, FileTree.read second path = .ok bytes ↔ FileTree.read first path = .ok bytes) :
    Refuses options second path failure := by
  obtain ⟨bytes, component, loaded, failed, told⟩ := refused
  exact ⟨bytes, component, (load_congr same).2 loaded, failed, told⟩

/-- What a step leads to. -/
inductive StepsTo (options : Options) (source out : Path) (progress : Progress) (place : Path) :
    Progress → Prop
  /-- The message of a refused document is kept. -/
  | refused {bytes : List UInt8} {component : Except Failure Component} {failure : Failure}
      (loaded : load progress.tree (source ++ place) = .ok (bytes, component))
      (failed : compileDocument options component = .error failure)
      (told : failure.isReported = true) :
      StepsTo options source out progress place
        { progress with errors := progress.errors ++ [failure.message] }
  /-- The code of a document is written, and the manifest gets a line. -/
  | compiled {bytes : List UInt8} {component : Component} {compilation : Compilation}
      {grown : FileTree}
      (made : Compiles options progress.tree (source ++ place) bytes component compilation)
      (saved : FileTree.Saves progress.tree (out ++ artifactPath place)
        (Files.encodeText compilation.code) grown) :
      StepsTo options source out progress place
        { progress with
          tree := grown
          entries := progress.entries.put ("/".intercalate place)
            (manifestEntry place bytes component compilation)
          components := progress.components + 1
          hydrated := progress.hydrated + if compilation.hydration.needed then 1 else 0 }

theorem compileDocument_eq_ok {loaded : Except Failure Component} {component : Component}
    {compilation : Compilation}
    (compiled : compileDocument options loaded = .ok (component, compilation)) :
    loaded = .ok component ∧ (compile options component).outcome = .ok compilation := by
  cases loaded with
  | error failure => cases compiled
  | ok document =>
    cases made : (compile options document).outcome with
    | error failure => simp [compileDocument, made, bind, Except.bind] at compiled
    | ok result =>
      simp only [compileDocument, made, bind, Except.bind, pure, Except.pure, Except.ok.injEq,
        Prod.mk.injEq] at compiled
      obtain ⟨rfl, rfl⟩ := compiled
      exact ⟨rfl, made⟩

theorem compileDocument_of_compiled {component : Component} {compilation : Compilation}
    (compiled : (compile options component).outcome = .ok compilation) :
    compileDocument options (.ok component) = .ok (component, compilation) := by
  simp [compileDocument, compiled, bind, Except.bind, pure, Except.pure]

variable {progress next final : Progress} {grown : FileTree}

/-- A step that does not stop the batch refuses a document or writes its artifact. -/
theorem stepsTo_of_step
    (ran : step options source out progress place = (.ok next, grown)) :
    StepsTo options source out progress place next ∧ grown = next.tree := by
  unfold step at ran
  split at ran
  · cases ran
  · next bytes loaded found =>
    split at ran
    · next failure failed =>
      split at ran
      · next told =>
        cases ran
        exact ⟨.refused found failed told, rfl⟩
      · cases ran
    · next component compilation succeeded =>
      obtain ⟨rfl, compiled⟩ := compileDocument_eq_ok succeeded
      dsimp only at ran
      split at ran
      · cases ran
      · next between made =>
        split at ran
        · cases ran
        · next grown written =>
          cases ran
          exact ⟨.compiled ⟨found, compiled⟩ ⟨between, made, written⟩, rfl⟩

/-- What a step leads to is its result. -/
theorem step_of_stepsTo (stepped : StepsTo options source out progress place next) :
    step options source out progress place = (.ok next, next.tree) := by
  cases stepped with
  | refused loaded failed told => simp [step, loaded, failed, told]
  | compiled made saved =>
    obtain ⟨between, directory, written⟩ := saved
    have compiled := compileDocument_of_compiled made.compiled
    simp [step, made.loaded, compiled, directory, written]

/-- A step changes no file but the artifact of its document. -/
theorem StepsTo.read_other (ran : StepsTo options source out progress place next)
    (other : path ≠ out ++ artifactPath place) {bytes : List UInt8} :
    FileTree.read next.tree path = .ok bytes ↔ FileTree.read progress.tree path = .ok bytes := by
  cases ran with
  | refused => exact Iff.rfl
  | compiled made saved => exact saved.read_other other

/-! ### All steps -/

variable {places before after : List Path}

theorem steps_cons_ok
    (ran : (steps options source out progress (place :: places)).1 = .ok final) :
    ∃ next, StepsTo options source out progress place next ∧
      steps options source out progress (place :: places) =
        steps options source out next places := by
  rw [steps] at ran ⊢
  split at ran
  · next reached grown stepped => exact ⟨reached, (stepsTo_of_step stepped).1, rfl⟩
  · cases ran

theorem steps_of_stepsTo (stepped : StepsTo options source out progress place next) :
    steps options source out progress (place :: places) = steps options source out next places := by
  rw [steps, step_of_stepsTo stepped]

theorem steps_append :
    steps options source out progress (before ++ after) =
      match steps options source out progress before with
      | (.ok progress, _) => steps options source out progress after
      | (.error stop, tree) => (.error stop, tree) := by
  induction before generalizing progress with
  | nil => rfl
  | cons place rest ih =>
    rw [List.cons_append, steps, steps]
    split
    · exact ih
    · rfl

/-- What holds at the start and is kept by every step holds at the end. -/
theorem steps_invariant {motive : List Path → Progress → Prop} (start : motive [] progress)
    (onward : ∀ {before place after reached next}, places = before ++ place :: after →
      motive before reached → StepsTo options source out reached place next →
      motive (before ++ [place]) next)
    (ran : (steps options source out progress places).1 = .ok final) : motive places final := by
  -- The induction is on the documents that are left, beside those that are done.
  suffices general : ∀ (rest before : List Path) (reached : Progress), places = before ++ rest →
      motive before reached → (steps options source out reached rest).1 = .ok final →
      motive places final from general places [] progress rfl start ran
  intro rest
  induction rest with
  | nil =>
    intro before reached split held ended
    cases ended
    rw [split, List.append_nil]
    exact held
  | cons place rest ih =>
    intro before reached split held ended
    obtain ⟨next, stepped, same⟩ := steps_cons_ok ended
    exact ih (before ++ [place]) next (by rw [split, List.append_assoc, List.singleton_append])
      (onward split held stepped) (same ▸ ended)

/-- The tree of a batch that did not stop is that of its progress. -/
theorem tree_of_steps (ran : (steps options source out progress places).1 = .ok final) :
    (steps options source out progress places).2 = final.tree := by
  induction places generalizing progress with
  | nil =>
    cases ran
    rfl
  | cons place rest ih =>
    obtain ⟨next, -, same⟩ := steps_cons_ok ran
    rw [same] at ran ⊢
    exact ih ran

/-- The files outside the output directory stay the same. -/
theorem read_steps (ran : (steps options source out progress places).1 = .ok final)
    (outside : ¬ out <+: path) {bytes : List UInt8} :
    FileTree.read final.tree path = .ok bytes ↔ FileTree.read progress.tree path = .ok bytes := by
  refine steps_invariant (motive := fun _ reached =>
    FileTree.read reached.tree path = .ok bytes ↔ FileTree.read progress.tree path = .ok bytes)
    Iff.rfl ?_ ran
  intro _ place _ reached next _ held stepped
  have other : path ≠ out ++ artifactPath place := by
    rintro rfl
    exact outside (List.prefix_append _ _)
  exact (stepped.read_other other).trans held

/-- What holds at the start and is kept by every step holds at the end, where every step finds the
files outside the output directory as they were at the start. -/
theorem steps_invariant_outside {motive : List Path → Progress → Prop} (start : motive [] progress)
    (onward : ∀ {before place after reached next}, places = before ++ place :: after →
      (∀ path, ¬ out <+: path → ∀ bytes, FileTree.read reached.tree path = .ok bytes ↔
        FileTree.read progress.tree path = .ok bytes) →
      motive before reached → StepsTo options source out reached place next →
      motive (before ++ [place]) next)
    (ran : (steps options source out progress places).1 = .ok final) : motive places final := by
  let both (done : List Path) (reached : Progress) : Prop :=
    (∀ path, ¬ out <+: path → ∀ bytes, FileTree.read reached.tree path = .ok bytes ↔
      FileTree.read progress.tree path = .ok bytes) ∧ motive done reached
  have atStart : both [] progress := ⟨fun _ _ _ => Iff.rfl, start⟩
  refine (steps_invariant (motive := both) atStart ?_ ran).2
  rintro before place after reached next split ⟨files, held⟩ stepped
  refine ⟨fun path outside bytes => ?_, onward split files held stepped⟩
  have other : path ≠ out ++ artifactPath place := by
    rintro rfl
    exact outside (List.prefix_append _ _)
  exact (stepped.read_other other).trans (files path outside bytes)

/-- In a batch that did not stop every document had its step, with its file as it was at the
start. -/
theorem exists_step (ran : (steps options source out progress places).1 = .ok final)
    (member : place ∈ places) :
    ∃ reached next, StepsTo options source out reached place next ∧
      ∀ path, ¬ out <+: path → ∀ bytes,
        FileTree.read reached.tree path = .ok bytes ↔
          FileTree.read progress.tree path = .ok bytes := by
  obtain ⟨before, after, rfl⟩ := List.append_of_mem member
  rw [steps_append] at ran
  split at ran
  · next reached grown ranBefore =>
    obtain ⟨next, stepped, -⟩ := steps_cons_ok ran
    exact ⟨reached, next, stepped, fun path outside _ =>
      read_steps (congrArg Prod.fst ranBefore) outside⟩
  · cases ran

/-! ### The end of a batch -/

/-- Writes the manifest when all steps are done. -/
def finish (source out : Path) : Except Stop Progress × FileTree → Except Stop Summary × FileTree
  | (.error stop, tree) => (.error stop, tree)
  | (.ok progress, tree) =>
    let text := (manifest source progress.entries).pretty
    match FileTree.write tree (out ++ [manifestName]) (Files.encodeText text) with
    | .error fault => (.error (.file fault), tree)
    | .ok tree =>
      (.ok
        { components := progress.components
          hydrated := progress.hydrated
          failed := progress.errors.length
          out := out
          errors := progress.errors },
        tree)

theorem build_eq_finish (made : FileTree.makeDirectory tree out = .ok grown) :
    build options source out tree =
      finish source out (steps options source out { tree := grown } (documents grown source out)) := by
  unfold build
  rw [made]
  dsimp only
  generalize steps options source out { tree := grown } (documents grown source out) = result
  obtain ⟨_ | _, _⟩ := result <;> rfl

variable {summary : Summary}

/-- A batch that completes took all its steps and then wrote the manifest. -/
theorem exists_steps_of_build (completed : (build options source out tree).1 = .ok summary) :
    ∃ grown final, FileTree.makeDirectory tree out = .ok grown ∧
      (steps options source out { tree := grown } (documents grown source out)).1 = .ok final ∧
      FileTree.write final.tree (out ++ [manifestName])
          (Files.encodeText (manifest source final.entries).pretty) =
        .ok (build options source out tree).2 := by
  cases made : FileTree.makeDirectory tree out with
  | error fault => simp [build, made] at completed
  | ok grown =>
    rw [build_eq_finish made] at completed ⊢
    cases ran : steps options source out { tree := grown } (documents grown source out) with
    | mk outcome reached =>
      rw [ran] at completed
      cases outcome with
      | error stop => cases completed
      | ok final =>
        have same : reached = final.tree := by
          have trees := tree_of_steps (congrArg Prod.fst ran)
          rwa [ran] at trees
        refine ⟨grown, final, rfl, congrArg Prod.fst ran, ?_⟩
        rw [← same]
        simp only [finish] at completed ⊢
        split at completed
        · cases completed
        · next written => rw [written]

/-- In a batch that completes every document had its step, with its file as it was at the start. -/
theorem exists_step_of_build (completed : (build options source out tree).1 = .ok summary)
    (named : isDocument source out place = true) {bytes : List UInt8}
    (held : FileTree.read tree (source ++ place) = .ok bytes) :
    ∃ reached next, StepsTo options source out reached place next ∧
      ∀ kept, FileTree.read reached.tree (source ++ place) = .ok kept ↔
        FileTree.read tree (source ++ place) = .ok kept := by
  obtain ⟨grown, final, made, ran, -⟩ := exists_steps_of_build completed
  have listed : place ∈ documents grown source out :=
    mem_documents.2 ⟨FileTree.mem_keys_of_read ((FileTree.read_makeAlong made).2 held), named⟩
  obtain ⟨reached, next, stepped, same⟩ := exists_step ran listed
  exact ⟨reached, next, stepped, fun kept =>
    (same _ (not_prefix_of_isDocument named) kept).trans (FileTree.read_makeAlong made)⟩

end ComponentCompiler.Batch

import ComponentCompiler.Proofs.Batch.Artifacts

/-!
# The accounts of a batch

Every document of a batch is either compiled or refused with a message. The accounts of the batch
have one row for each document, in the order of the documents, and all that the batch reports can be
read off from them: the counts, the messages, and the lines of the manifest.

## Main definitions

* `Batch.Verdict` — what becomes of a document
* `Batch.Progress.record` — what a step adds to the progress, apart from the tree
* `Batch.IsListing` — the documents below a directory, in order

## Main results

* `Batch.exists_rows_of_steps` — steps that do not stop the batch add up the rows of its accounts
* `Batch.documents_of_build` — making the output directory adds no document to a batch that completes
* `Batch.accounts_of_build` — the summary and the manifest of a batch, from its accounts
-/

namespace ComponentCompiler.Batch

open Files (FileTree Path IsFileName)

variable {options : Options} {source out place path : Path} {tree grown : FileTree}

/-! ### What becomes of a document -/

/-- What becomes of a document: it is compiled, with its bytes, or refused. -/
inductive Verdict where
  | compiled (bytes : List UInt8) (component : Component) (compilation : Compilation)
  | refused (failure : Failure)

namespace Verdict

/-- What becomes of the document at a place. -/
def Holds (options : Options) (tree : FileTree) (path : Path) : Verdict → Prop
  | compiled bytes component compilation => Compiles options tree path bytes component compilation
  | refused failure => Refuses options tree path failure

/-- Whether a document is compiled. -/
def isCompiled : Verdict → Bool
  | compiled _ _ _ => true
  | refused _ => false

/-- Whether a document is compiled to a page that has to be made live. -/
def isLive : Verdict → Bool
  | compiled _ _ compilation => compilation.hydration.needed
  | refused _ => false

/-- The message about a document that is refused. -/
def message? : Verdict → Option String
  | compiled _ _ _ => none
  | refused failure => some failure.message

/-- The line in the manifest of a document that is compiled, after its name. -/
def line? (place : Path) : Verdict → Option (String × Json)
  | compiled bytes component compilation =>
    some ("/".intercalate place, manifestEntry place bytes component compilation)
  | refused _ => none

section

variable {bytes : List UInt8} {component : Component} {compilation : Compilation} {failure : Failure}

@[simp] theorem isCompiled_compiled : (compiled bytes component compilation).isCompiled = true := rfl

@[simp] theorem isCompiled_refused : (refused failure).isCompiled = false := rfl

@[simp] theorem isLive_compiled :
    (compiled bytes component compilation).isLive = compilation.hydration.needed := rfl

@[simp] theorem isLive_refused : (refused failure).isLive = false := rfl

@[simp] theorem message?_compiled : (compiled bytes component compilation).message? = none := rfl

@[simp] theorem message?_refused : (refused failure).message? = some failure.message := rfl

@[simp] theorem line?_compiled : (compiled bytes component compilation).line? place =
    some ("/".intercalate place, manifestEntry place bytes component compilation) := rfl

@[simp] theorem line?_refused : (refused failure).line? place = none := rfl

end

theorem Holds.congr {verdict : Verdict} {first second : FileTree}
    (holds : verdict.Holds options first path)
    (same : ∀ bytes, FileTree.read second path = .ok bytes ↔ FileTree.read first path = .ok bytes) :
    verdict.Holds options second path := by
  cases verdict with
  | compiled bytes component compilation => exact Compiles.congr holds same
  | refused failure => exact Refuses.congr holds same

/-- A document that is compiled is not refused. -/
theorem not_refuses_of_compiles {bytes : List UInt8} {component : Component}
    {compilation : Compilation} {failure : Failure}
    (made : Compiles options tree path bytes component compilation) :
    ¬ Refuses options tree path failure := by
  rintro ⟨kept, loaded, found, failed, -⟩
  cases made.loaded.symm.trans found
  rw [compileDocument_of_compiled made.compiled] at failed
  cases failed

/-- Only one thing becomes of a document. -/
theorem Holds.unique {first second : Verdict} (one : first.Holds options tree path)
    (two : second.Holds options tree path) : first = second := by
  cases first with
  | compiled bytes component compilation =>
    cases second with
    | compiled otherBytes other otherCompilation =>
      obtain rfl := Compiles.compilation_eq one two
      cases one.loaded.symm.trans two.loaded
      rfl
    | refused failure => exact absurd two (not_refuses_of_compiles one)
  | refused failure =>
    cases second with
    | compiled bytes component compilation => exact absurd one (not_refuses_of_compiles two)
    | refused other =>
      obtain ⟨bytes, loaded, found, failed, -⟩ := one
      obtain ⟨otherBytes, otherLoaded, otherFound, otherFailed, -⟩ := two
      cases found.symm.trans otherFound
      cases failed.symm.trans otherFailed
      rfl

end Verdict

/-! ### Rows -/

/-- The progress with one more document accounted for. -/
def Progress.record (progress : Progress) (row : Path × Verdict) : Progress :=
  match row.2 with
  | .refused failure => { progress with errors := progress.errors ++ [failure.message] }
  | .compiled bytes component compilation =>
    { progress with
      entries := progress.entries.put ("/".intercalate row.1)
        (manifestEntry row.1 bytes component compilation)
      components := progress.components + 1
      hydrated := progress.hydrated + if compilation.hydration.needed then 1 else 0 }

theorem Progress.record_withTree (progress : Progress) (tree : FileTree) (row : Path × Verdict) :
    ({ progress with tree := tree } : Progress).record row =
      { progress.record row with tree := tree } := by
  obtain ⟨place, verdict⟩ := row
  cases verdict <;> rfl

variable {progress next final : Progress} {places : List Path} {rows : List (Path × Verdict)}

/-- A step accounts for its document. -/
theorem StepsTo.exists_verdict (stepped : StepsTo options source out progress place next) :
    ∃ verdict : Verdict, verdict.Holds options progress.tree (source ++ place) ∧
      next = { progress.record (place, verdict) with tree := next.tree } := by
  cases stepped with
  | @refused bytes component failure loaded failed told =>
    exact ⟨.refused failure, ⟨bytes, component, loaded, failed, told⟩, rfl⟩
  | @compiled bytes component compilation grown made saved =>
    exact ⟨.compiled bytes component compilation, made, rfl⟩

/-- Steps that do not stop the batch add up one row for each document. -/
theorem exists_rows_of_steps (outside : ∀ place ∈ places, ¬ out <+: source ++ place)
    (ran : (steps options source out progress places).1 = .ok final) :
    ∃ rows : List (Path × Verdict), rows.map Prod.fst = places ∧
      (∀ row ∈ rows, row.2.Holds options progress.tree (source ++ row.1)) ∧
      final = { rows.foldl Progress.record progress with tree := final.tree } := by
  refine steps_invariant_outside (motive := fun done reached =>
    ∃ rows : List (Path × Verdict), rows.map Prod.fst = done ∧
      (∀ row ∈ rows, row.2.Holds options progress.tree (source ++ row.1)) ∧
      reached = { rows.foldl Progress.record progress with tree := reached.tree })
    ⟨[], rfl, by simp, rfl⟩ ?_ ran
  rintro before place after reached next split files ⟨rows, listed, held, same⟩ stepped
  have listedHere : place ∈ places := by simp [split]
  obtain ⟨verdict, holds, added⟩ := stepped.exists_verdict
  refine ⟨rows ++ [(place, verdict)], by simp [listed], ?_, ?_⟩
  · refine List.forall_mem_append.2 ⟨held, List.forall_mem_singleton.2 ?_⟩
    -- The verdict is about the tree of this step, where the document is as it was at the start.
    exact holds.congr fun bytes => (files _ (outside place listedHere) bytes).symm
  · rw [same, Progress.record_withTree] at added
    rw [List.foldl_append, List.foldl_cons, List.foldl_nil]
    exact added

/-- There is one way to account for documents. -/
theorem rows_unique {rows others : List (Path × Verdict)}
    (listed : rows.map Prod.fst = others.map Prod.fst)
    (holds : ∀ row ∈ rows, row.2.Holds options tree (source ++ row.1))
    (holdsOther : ∀ row ∈ others, row.2.Holds options tree (source ++ row.1)) : rows = others := by
  induction rows generalizing others with
  | nil => exact (List.map_eq_nil_iff.1 listed.symm).symm
  | cons row rest ih =>
    cases others with
    | nil => cases listed
    | cons other rest' =>
      obtain ⟨place, verdict⟩ := row
      obtain ⟨placeOther, verdictOther⟩ := other
      obtain ⟨rfl, listedRest⟩ := List.cons_eq_cons.1 listed
      rw [List.forall_mem_cons] at holds holdsOther
      obtain rfl : verdict = verdictOther := holds.1.unique holdsOther.1
      rw [ih listedRest holds.2 holdsOther.2]

/-! ### What the rows add up to -/

theorem foldl_record_withTree (rows : List (Path × Verdict)) (progress : Progress)
    (tree : FileTree) :
    rows.foldl Progress.record { progress with tree := tree } =
      { rows.foldl Progress.record progress with tree := tree } := by
  induction rows generalizing progress with
  | nil => rfl
  | cons row rest ih => rw [List.foldl_cons, List.foldl_cons, Progress.record_withTree, ih]

theorem errors_foldl_record (rows : List (Path × Verdict)) (progress : Progress) :
    (rows.foldl Progress.record progress).errors =
      progress.errors ++ rows.filterMap (·.2.message?) := by
  induction rows generalizing progress with
  | nil => simp
  | cons row rest ih =>
    obtain ⟨place, verdict⟩ := row
    rw [List.foldl_cons, ih, List.filterMap_cons]
    cases verdict <;> simp [Progress.record]

theorem components_foldl_record (rows : List (Path × Verdict)) (progress : Progress) :
    (rows.foldl Progress.record progress).components =
      progress.components + rows.countP (·.2.isCompiled) := by
  induction rows generalizing progress with
  | nil => simp
  | cons row rest ih =>
    obtain ⟨place, verdict⟩ := row
    rw [List.foldl_cons, ih, List.countP_cons]
    cases verdict <;> simp [Progress.record, Nat.add_assoc, Nat.add_comm]

theorem hydrated_foldl_record (rows : List (Path × Verdict)) (progress : Progress) :
    (rows.foldl Progress.record progress).hydrated =
      progress.hydrated + rows.countP (·.2.isLive) := by
  induction rows generalizing progress with
  | nil => simp
  | cons row rest ih =>
    obtain ⟨place, verdict⟩ := row
    rw [List.foldl_cons, ih, List.countP_cons]
    cases verdict with
    | compiled bytes component compilation =>
      cases live : compilation.hydration.needed <;>
        simp [Progress.record, live, Nat.add_assoc, Nat.add_comm]
    | refused failure => simp [Progress.record]

/-- Documents with different names have lines of their own, in order. -/
theorem entries_foldl_record (rows : List (Path × Verdict)) (progress : Progress)
    (distinct : (keysOf (progress.entries.toList ++ rows.filterMap fun row => row.2.line? row.1)).Nodup) :
    (rows.foldl Progress.record progress).entries.toList =
      progress.entries.toList ++ rows.filterMap fun row => row.2.line? row.1 := by
  have folded : (rows.foldl Progress.record progress).entries =
      (rows.filterMap fun row => row.2.line? row.1).foldl
        (fun entries pair => entries.put pair.1 pair.2) progress.entries := by
    clear distinct
    induction rows generalizing progress with
    | nil => rfl
    | cons row rest ih =>
      obtain ⟨place, verdict⟩ := row
      rw [List.foldl_cons, ih]
      cases verdict <;> rfl
  rw [folded, Dictionary.toList_foldl_put _ _ distinct]

/-- Each document is either compiled or refused. -/
theorem countP_add_length (rows : List (Path × Verdict)) :
    rows.countP (·.2.isCompiled) + (rows.filterMap (·.2.message?)).length = rows.length := by
  induction rows with
  | nil => rfl
  | cons row rest ih =>
    obtain ⟨place, verdict⟩ := row
    rw [List.countP_cons, List.filterMap_cons]
    cases verdict <;> simp <;> omega

/-! ### The documents -/

/-- The documents below a directory, in order: those that end in `.json`, but for hidden ones and for
what lies in the output directory. -/
structure IsListing (source out : Path) (tree : FileTree) (places : List Path) : Prop where
  member : ∀ place, place ∈ places ↔
    source ++ place ∈ tree.keys ∧ (∃ directory stem, place = directory ++ [stem ++ ".json"]) ∧
      (∀ name ∈ place, name.toList.head? ≠ some '_' ∧ name.toList.head? ≠ some '.') ∧
      ¬ out <+: source ++ place
  sorted : places.Pairwise fun first second => Path.pathBefore first second = true
  distinct : places.Nodup

theorem isHidden_eq_false_iff {name : String} :
    isHidden name = false ↔ name.toList.head? ≠ some '_' ∧ name.toList.head? ≠ some '.' := by
  unfold isHidden
  cases name.toList.head? with
  | none => simp
  | some c => simp

theorem isDocumentName_iff {name : String} :
    isDocumentName name = true ↔ ∃ stem, name = stem ++ ".json" := by
  rw [isDocumentName, List.isSuffixOf_iff_suffix]
  constructor
  · rintro ⟨front, whole⟩
    exact ⟨String.ofList front, String.toList_injective (by simpa [documentEnding] using whole.symm)⟩
  · rintro ⟨stem, rfl⟩
    exact ⟨stem.toList, by simp [documentEnding]⟩

theorem isDocument_iff :
    isDocument source out place = true ↔
      (∃ directory stem, place = directory ++ [stem ++ ".json"]) ∧
      (∀ name ∈ place, name.toList.head? ≠ some '_' ∧ name.toList.head? ≠ some '.') ∧
      ¬ out <+: source ++ place := by
  have ends : (place.getLast?.map isDocumentName).getD false = true ↔
      ∃ directory stem, place = directory ++ [stem ++ ".json"] := by
    constructor
    · intro named
      cases last : place.getLast? with
      | none => simp [last] at named
      | some name =>
        obtain ⟨directory, rfl⟩ := List.getLast?_eq_some_iff.1 last
        obtain ⟨stem, rfl⟩ := isDocumentName_iff.1 (by simpa [last] using named)
        exact ⟨directory, stem, rfl⟩
    · rintro ⟨directory, stem, rfl⟩
      simpa using isDocumentName_iff.2 ⟨stem, rfl⟩
  have shown : (!place.any isHidden) = true ↔
      ∀ name ∈ place, name.toList.head? ≠ some '_' ∧ name.toList.head? ≠ some '.' := by
    simp [← isHidden_eq_false_iff]
  have apart : (!Path.isWithin out (source ++ place)) = true ↔ ¬ out <+: source ++ place := by
    rw [← Path.isWithin_iff]
    simp
  rw [isDocument, Bool.and_eq_true, Bool.and_eq_true, ends, shown, apart, and_assoc]

theorem isListing_documents : IsListing source out tree (documents tree source out) where
  member := fun place => by rw [mem_documents, isDocument_iff]
  sorted := pairwise_documents
  distinct := nodup_documents

/-- A directory has one listing. -/
theorem IsListing.documents_eq (listing : IsListing source out tree places) :
    documents tree source out = places :=
  Batch.documents_eq listing.sorted listing.distinct fun place => by
    rw [listing.member, isDocument_iff]

variable {summary : Summary}

/-- Making the output directory adds no document to a batch that completes: a directory that is named
like a document would have stopped it. -/
theorem documents_of_build (completed : (build options source out tree).1 = .ok summary)
    (made : FileTree.makeDirectory tree out = .ok grown) :
    documents grown source out = documents tree source out := by
  obtain ⟨other, final, madeOther, ran, -⟩ := exists_steps_of_build completed
  obtain rfl : grown = other := Except.ok.inj (made.symm.trans madeOther)
  refine (documents_eq pairwise_documents nodup_documents fun place => ?_).symm
  rw [mem_documents]
  refine and_congr_left fun named => ⟨fun there => ?_, fun there => ?_⟩
  · -- Its step has read the document, so it was a file before any directory was made.
    obtain ⟨reached, next, stepped, same⟩ := exists_step ran (mem_documents.2 ⟨there, named⟩)
    have outside := not_prefix_of_isDocument named
    obtain ⟨bytes, held⟩ : ∃ bytes, FileTree.read reached.tree (source ++ place) = .ok bytes := by
      cases stepped with
      | refused loaded =>
        obtain ⟨bytes, text, read, -⟩ := load_eq_ok_iff.1 loaded
        exact ⟨bytes, read⟩
      | compiled made =>
        obtain ⟨bytes, text, read, -⟩ := load_eq_ok_iff.1 made.loaded
        exact ⟨bytes, read⟩
    have atStart := (FileTree.read_makeAlong made).1 ((same _ outside bytes).1 held)
    exact FileTree.mem_keys_of_read atStart
  · have lower : source ++ place ≠ [] := by simp [ne_nil_of_isDocument named]
    obtain ⟨item, held⟩ := (FileTree.mem_keys_iff_item? lower).1 there
    exact (FileTree.mem_keys_iff_item? lower).2 ⟨item, FileTree.item?_makeAlong made held⟩

/-! ### Lines of the manifest -/

/-- Whether a line of the manifest says that the page has to be made live. -/
def tellsLive (line : Json) : Bool :=
  match line.get? "needsHydration" with
  | some (.bool live) => live
  | _ => false

/-- A line of the manifest tells the hash, the component and the metadata of a document. -/
structure Describes (line : Json) (bytes : List UInt8) (component : Component)
    (compilation : Compilation) : Prop where
  hash : line.get? "hash" = some (.string (Digest.sha256Text bytes))
  component : line.get? "component" = some (.string component.name)
  needsHydration : line.get? "needsHydration" = some (.bool compilation.hydration.needed)
  clientDirective : line.get? "clientDirective" = some (.string compilation.directive)
  outputFormat : line.get? "outputFormat" = some compilation.format

theorem describes_manifestEntry (place : Path) (bytes : List UInt8) (component : Component)
    (compilation : Compilation) :
    Describes (manifestEntry place bytes component compilation) bytes component compilation where
  hash := rfl
  component := rfl
  needsHydration := rfl
  clientDirective := rfl
  outputFormat := rfl

/-- The lines that tell so are those of the documents that have to be made live. -/
theorem countP_tellsLive (rows : List (Path × Verdict)) :
    ((rows.filterMap fun row => row.2.line? row.1).map Prod.snd).countP tellsLive =
      rows.countP (·.2.isLive) := by
  induction rows with
  | nil => rfl
  | cons row rest ih =>
    obtain ⟨place, verdict⟩ := row
    rw [List.filterMap_cons, List.countP_cons]
    cases verdict with
    | compiled bytes component compilation =>
      have told : tellsLive (manifestEntry place bytes component compilation) =
          compilation.hydration.needed := rfl
      cases live : compilation.hydration.needed <;> simp [ih, told, live]
    | refused failure => simpa using ih

theorem keysOf_lines (rows : List (Path × Verdict)) :
    keysOf (rows.filterMap fun row => row.2.line? row.1) =
      (rows.filter (·.2.isCompiled)).map fun row => "/".intercalate row.1 := by
  induction rows with
  | nil => rfl
  | cons row rest ih =>
    obtain ⟨place, verdict⟩ := row
    rw [List.filterMap_cons, List.filter_cons]
    cases verdict <;> simpa using ih

/-- No two documents have the same name in the manifest. -/
theorem nodup_keysOf_lines (distinct : (rows.map Prod.fst).Nodup)
    (proper : ∀ row ∈ rows, row.1 ≠ [] ∧ ∀ name ∈ row.1, '/' ∉ name.toList) :
    (keysOf (rows.filterMap fun row => row.2.line? row.1)).Nodup := by
  rw [keysOf_lines]
  have named : (rows.map fun row => "/".intercalate row.1).Nodup := by
    refine List.Nodup.map_on ?_ distinct.of_map
    intro row member other memberOther same
    refine List.inj_on_of_nodup_map distinct member memberOther ?_
    exact Files.intercalate_inj (proper row member).1 (proper other memberOther).1
      (proper row member).2 (proper other memberOther).2 same
  exact named.sublist (List.filter_sublist.map _)

/-! ### The accounts of a batch that completes -/

/-- The summary of a batch is that of its progress after all steps. -/
theorem summary_of_build (completed : (build options source out tree).1 = .ok summary)
    (made : FileTree.makeDirectory tree out = .ok grown)
    (ran : (steps options source out { tree := grown } (documents grown source out)).1 = .ok final) :
    summary =
      { components := final.components
        hydrated := final.hydrated
        failed := final.errors.length
        out := out
        errors := final.errors } := by
  rw [build_eq_finish made, Prod.ext (y := (.ok final, final.tree)) ran (tree_of_steps ran)]
    at completed
  simp only [finish] at completed
  split at completed
  · cases completed
  · exact (Except.ok.inj completed).symm

/-- A batch that completes has one row for each document in its accounts, and its summary and its
manifest are what the rows add up to. -/
theorem accounts_of_build (proper : ∀ path ∈ tree.keys, ∀ name ∈ path, IsFileName name)
    (completed : (build options source out tree).1 = .ok summary) :
    ∃ (rows : List (Path × Verdict)) (entries : Entries Json),
      IsListing source out tree (rows.map Prod.fst) ∧
      (∀ row ∈ rows, row.2.Holds options tree (source ++ row.1)) ∧
      FileTree.read (build options source out tree).2 (out ++ [manifestName]) =
        .ok (Files.encodeText (manifest source entries).pretty) ∧
      summary.components + summary.failed = rows.length ∧
      summary.components = entries.size ∧
      entries.keys = (rows.filter (·.2.isCompiled)).map (fun row => "/".intercalate row.1) ∧
      (∀ place bytes component compilation, (place, .compiled bytes component compilation) ∈ rows →
        ∃ line, entries.get? ("/".intercalate place) = some line ∧
          Describes line bytes component compilation) ∧
      summary.errors = rows.filterMap (·.2.message?) ∧
      summary.hydrated = entries.values.countP tellsLive := by
  obtain ⟨grown, final, made, ran, written⟩ := exists_steps_of_build completed
  have outside (place : Path) (member : place ∈ documents grown source out) :
      ¬ out <+: source ++ place := not_prefix_of_isDocument (mem_documents.1 member).2
  obtain ⟨rows, listed, holds, same⟩ := exists_rows_of_steps outside ran
  have total := summary_of_build completed made ran
  rw [documents_of_build completed made] at listed
  have proper (row : Path × Verdict) (member : row ∈ rows) :
      row.1 ≠ [] ∧ ∀ name ∈ row.1, '/' ∉ name.toList := by
    have there : row.1 ∈ documents tree source out := listed ▸ List.mem_map_of_mem member
    obtain ⟨key, named⟩ := mem_documents.1 there
    exact ⟨ne_nil_of_isDocument named, fun name inside =>
      (proper _ key name (List.mem_append_right _ inside)).2.2.2⟩
  have distinct := nodup_keysOf_lines (listed ▸ nodup_documents) proper
  have lines : final.entries.toList = rows.filterMap fun row => row.2.line? row.1 := by
    rw [same]
    exact (entries_foldl_record rows { tree := grown } (by simpa using distinct)).trans
      (List.nil_append _)
  have components : final.components = rows.countP (·.2.isCompiled) := by
    rw [same]
    exact (components_foldl_record rows _).trans (Nat.zero_add _)
  have errors : final.errors = rows.filterMap (·.2.message?) := by
    rw [same]
    exact (errors_foldl_record rows _).trans (List.nil_append _)
  have hydrated : final.hydrated = rows.countP (·.2.isLive) := by
    rw [same]
    exact (hydrated_foldl_record rows _).trans (Nat.zero_add _)
  have keys : final.entries.keys =
      (rows.filter (·.2.isCompiled)).map fun row => "/".intercalate row.1 := by
    rw [Dictionary.keys, lines, keysOf_lines]
  subst total
  refine ⟨rows, final.entries, listed ▸ isListing_documents, ?_, FileTree.read_write_self written, ?_,
    ?_, keys, ?_, errors, ?_⟩
  · exact fun row member => (holds row member).congr fun _ => (FileTree.read_makeAlong made).symm
  · rw [components, errors, countP_add_length]
  · rw [components, List.countP_eq_length_filter, Dictionary.size]
    simpa [Dictionary.keys, keysOf] using (congrArg List.length keys).symm
  · intro place bytes component compilation member
    refine ⟨_, Dictionary.get?_of_mem ?_, describes_manifestEntry place bytes component compilation⟩
    rw [lines]
    exact List.mem_filterMap.2 ⟨_, member, rfl⟩
  · rw [hydrated, Dictionary.values, lines, countP_tellsLive]

/-- A paragraph, and an empty list where its twin should be: one document is compiled, and the other
one is refused with a message. -/
theorem accounts_of_paragraph :
    (∀ path ∈ (twins (elementFile "p") [0x5b, 0x5d]).keys, ∀ name ∈ path, IsFileName name) ∧
    ∃ summary, (build {} ["src"] ["out"] (twins (elementFile "p") [0x5b, 0x5d])).1 = .ok summary ∧
      ∃ (rows : List (Path × Verdict)) (entries : Entries Json),
        rows.map Prod.fst = [["A.json"], ["A.lite.json"]] ∧
        (∀ row ∈ rows, row.2.Holds {} (twins (elementFile "p") [0x5b, 0x5d]) (["src"] ++ row.1)) ∧
        summary.components + summary.failed = 2 ∧
        entries.keys = (rows.filter (·.2.isCompiled)).map (fun row => "/".intercalate row.1) ∧
        summary.errors = rows.filterMap (·.2.message?) := by
  let tree := twins (elementFile "p") [0x5b, 0x5d]
  have proper : ∀ path ∈ tree.keys, ∀ name ∈ path, IsFileName name := by
    rw [keys_twins]
    decide
  obtain ⟨compilation, made, -⟩ := @makes_paragraph [0x5b, 0x5d]
  let between := tree.put ["out", "A.astro"] (.file (Files.encodeText compilation.code))
  have saved : FileTree.Saves tree (["out"] ++ artifactPath ["A.json"])
      (Files.encodeText compilation.code) between := ⟨tree, rfl, rfl⟩
  have loaded : load between (["src"] ++ ["A.lite.json"]) =
      .ok ([0x5b, 0x5d],
        .error (.document (some "/src/A.lite.json") (.object "list") .root)) :=
    load_eq_ok_iff.2 ⟨[0x5b, 0x5d], "[]", rfl, rfl, rfl⟩
  obtain ⟨summary, completed⟩ : ∃ summary, (build {} ["src"] ["out"] tree).1 = .ok summary := by
    have directory : FileTree.makeDirectory tree ["out"] = .ok tree := rfl
    rw [build_eq_finish directory, documents_twins, steps_of_stepsTo (.compiled made.compiles saved),
      steps_of_stepsTo (.refused loaded rfl rfl)]
    exact ⟨_, rfl⟩
  obtain ⟨rows, entries, listing, holds, -, total, -, keys, -, errors, -⟩ :=
    accounts_of_build proper completed
  have listed : rows.map Prod.fst = [["A.json"], ["A.lite.json"]] :=
    listing.documents_eq.symm.trans documents_twins
  refine ⟨proper, summary, completed, rows, entries, listed, holds, ?_, keys, errors⟩
  rw [total, ← List.length_map (f := Prod.fst), listed]
  rfl

end ComponentCompiler.Batch

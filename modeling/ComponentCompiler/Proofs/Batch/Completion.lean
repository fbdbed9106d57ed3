import ComponentCompiler.Proofs.Batch.Names
import ComponentCompiler.Proofs.Batch.Steps

/-!
# When a batch completes

A batch that finds nothing in the way of its artifacts completes, if each of its documents is
compiled or refused with a message. What could be in the way is a file where a directory is needed,
or a directory where an artifact or the manifest goes.

## Main definitions

* `Batch.IsClear` — nothing stands in the way of a batch
* `Batch.IsWritable` — nothing stands in the way of what is left to be written

## Main results

* `Batch.IsWritable.exists_saves` — an artifact can be written, and the others still can be
* `Batch.build_completes` — the batch completes
-/

namespace ComponentCompiler.Batch

open Files (FileTree Path)

variable {options : Options} {source out place : Path} {tree grown : FileTree}

/-- Whether a name is that of a file which a batch writes: an artifact or the manifest. -/
def isWritten (name : String) : Bool :=
  ".astro".toList.isSuffixOf name.toList || name == manifestName

/-- Nothing stands in the way of a batch. -/
structure IsClear (source out : Path) (tree : FileTree) : Prop where
  /-- The output directory is empty, or not there. -/
  empty : ∀ path ∈ tree.keys, out <+: path → path = out
  /-- No file is where the output directory, or one above it, has to be. -/
  way : ∀ path, path <+: out → ∀ bytes, FileTree.read tree path ≠ .ok bytes
  /-- No directory above the output directory is taken for a document. -/
  apart : ∀ place, isDocument source out place = true → ¬ source ++ place <+: out
  /-- No directory of a document has the name of a file that is written. -/
  names : ∀ place, isDocument source out place = true → source ++ place ∈ tree.keys →
    ∀ name ∈ place.dropLast, isWritten name = false

/-- The output directory is there, and it holds files where files are written only. -/
structure IsWritable (out : Path) (tree : FileTree) : Prop where
  way : ∀ path, path <+: out → FileTree.item? tree path = some .directory
  files : ∀ path bytes, FileTree.item? tree (out ++ path) = some (.file bytes) →
    ∃ front name, path = front ++ [name] ∧ isWritten name = true
  directories : ∀ front name, FileTree.item? tree (out ++ (front ++ [name])) = some .directory →
    isWritten name = false

/-- The output directory of a clear batch can be made, and then written to. -/
theorem IsClear.exists_writable (clear : IsClear source out tree) :
    ∃ grown, FileTree.makeDirectory tree out = .ok grown ∧ IsWritable out grown := by
  have noFile (way : Path) (along : way <+: out) (bytes : List UInt8) :
      FileTree.item? tree way ≠ some (.file bytes) := fun held =>
    clear.way way along bytes (FileTree.read_eq_ok_iff.2 held)
  -- What is in the output directory from the start is that directory itself.
  have bare {path : Path} {item : Files.Item} (below : path ≠ []) :
      FileTree.item? tree (out ++ path) ≠ some item := fun held => by
    have lower : out ++ path ≠ [] := by simp [below]
    have same := clear.empty _ ((FileTree.mem_keys_iff_item? lower).2 ⟨item, held⟩) (List.prefix_append _ _)
    exact below (by simpa using same)
  obtain ⟨grown, made⟩ := FileTree.makeDirectory_ok noFile
  refine ⟨grown, made, fun path along => FileTree.item?_of_makeDirectory made along, ?_, ?_⟩
  · intro path bytes held
    have there := FileTree.file_of_makeAlong made held
    by_cases top : path = []
    · subst top
      rw [List.append_nil] at there
      exact absurd there (noFile out List.prefix_rfl bytes)
    · exact absurd there (bare top)
  · intro front name held
    obtain there | ⟨-, way, along, -, same⟩ := FileTree.item?_of_grown made held
    · exact absurd there (bare (List.append_ne_nil_of_right_ne_nil front (List.cons_ne_nil name [])))
    · have longer := along.length_le
      rw [List.nil_append] at same
      rw [← same] at longer
      simp at longer

/-- An artifact can be written where nothing stands in its way, and the others still can be. -/
theorem IsWritable.exists_saves {front : Path} {name : String} (writable : IsWritable out tree)
    (plain : ∀ name ∈ front, isWritten name = false) (written : isWritten name = true)
    (bytes : List UInt8) :
    ∃ grown, FileTree.Saves tree (out ++ (front ++ [name])) bytes grown ∧ IsWritable out grown := by
  have above : (out ++ (front ++ [name])).dropLast = out ++ front := by
    rw [← List.append_assoc, List.dropLast_concat]
  have free (way : Path) (along : way <+: out ++ front) (kept : List UInt8) :
      FileTree.item? tree way ≠ some (.file kept) := by
    intro held
    obtain upper | ⟨below, rfl⟩ := List.prefix_or_prefix_of_prefix along (List.prefix_append out front)
    · rw [writable.way way upper] at held
      cases held
    · obtain ⟨first, last, rfl, lastWritten⟩ := writable.files below kept held
      have inside := (List.prefix_append_right_inj _).1 along
      rw [plain last (inside.subset (by simp))] at lastWritten
      cases lastWritten
  obtain ⟨between, made⟩ := FileTree.makeDirectory_ok free
  -- No directory is where the file goes, or where another file may go.
  have directories (first : Path) (last : String)
      (held : FileTree.item? between (out ++ (first ++ [last])) = some .directory) :
      isWritten last = false := by
    obtain there | ⟨-, way, along, -, same⟩ := FileTree.item?_of_grown made held
    · exact writable.directories first last there
    · rw [List.nil_append] at same
      rw [← same, List.prefix_append_right_inj] at along
      exact plain last (along.subset (by simp))
  have notDirectory : FileTree.item? between (out ++ (front ++ [name])) ≠ some .directory :=
    fun held => by
      rw [directories front name held] at written
      cases written
  have stored := FileTree.write_ok (above ▸ FileTree.item?_of_makeDirectory made List.prefix_rfl)
    notDirectory bytes
  refine ⟨_, ⟨between, above ▸ made, stored⟩, ?_, ?_, ?_⟩
  · intro path along
    have other : path ≠ out ++ (front ++ [name]) := by
      rintro rfl
      have longer := along.length_le
      simp at longer
    rw [FileTree.item?_write stored, if_neg other]
    exact FileTree.item?_makeAlong made (writable.way path along)
  · intro path kept held
    rw [FileTree.item?_write stored] at held
    split at held
    · next here => exact ⟨front, name, List.append_cancel_left_eq _ _ _ ▸ here, written⟩
    · exact writable.files path kept (FileTree.file_of_makeAlong made held)
  · intro first last held
    rw [FileTree.item?_write stored] at held
    split at held
    · cases held
    · exact directories first last held

/-! ### The steps of a clear batch -/

/-- A document is compiled, or it is refused with a message. -/
def IsSettled (options : Options) (tree : FileTree) (path : Path) : Prop :=
  (∃ failure, Refuses options tree path failure) ∨
    ∃ bytes component compilation, Compiles options tree path bytes component compilation

/-- An artifact lies in the directory of its document, and its name is that of a file that is
written. -/
theorem exists_artifactPath (named : isDocument source out place = true) :
    ∃ name, artifactPath place = place.dropLast ++ [name] ∧ isWritten name = true := by
  obtain ⟨directory, stem, rfl, some⟩ := exists_stem_of_isDocument named
  refine ⟨_, by rw [artifactPath_append directory some, List.dropLast_concat], ?_⟩
  simp [isWritten]

variable {progress : Progress} {places : List Path}

/-- A settled document has its step, and the others still can have theirs. -/
theorem exists_stepsTo (writable : IsWritable out progress.tree)
    (named : isDocument source out place = true)
    (plain : ∀ name ∈ place.dropLast, isWritten name = false)
    (settled : IsSettled options progress.tree (source ++ place)) :
    ∃ next, StepsTo options source out progress place next ∧ IsWritable out next.tree := by
  obtain ⟨failure, _, _, loaded, failed, told⟩ | ⟨bytes, component, compilation, made⟩ := settled
  · exact ⟨_, .refused loaded failed told, writable⟩
  · obtain ⟨name, artifact, written⟩ := exists_artifactPath named
    obtain ⟨grown, saved, still⟩ :=
      writable.exists_saves plain written (Files.encodeText compilation.code)
    exact ⟨_, .compiled made (artifact ▸ saved), still⟩

theorem IsSettled.congr {first second : FileTree} {path : Path}
    (settled : IsSettled options first path)
    (same : ∀ bytes, FileTree.read second path = .ok bytes ↔ FileTree.read first path = .ok bytes) :
    IsSettled options second path :=
  settled.imp (fun ⟨failure, refused⟩ => ⟨failure, refused.congr same⟩)
    fun ⟨bytes, component, compilation, made⟩ => ⟨bytes, component, compilation, made.congr same⟩

/-- If all documents are settled, no step stops the batch. -/
theorem exists_steps (writable : IsWritable out progress.tree)
    (settled : ∀ place ∈ places, isDocument source out place = true ∧
      (∀ name ∈ place.dropLast, isWritten name = false) ∧
      IsSettled options progress.tree (source ++ place)) :
    ∃ final, (steps options source out progress places).1 = .ok final ∧
      IsWritable out final.tree := by
  induction places generalizing progress with
  | nil => exact ⟨progress, rfl, writable⟩
  | cons place rest ih =>
    obtain ⟨named, plain, here⟩ := settled place List.mem_cons_self
    obtain ⟨next, stepped, still⟩ := exists_stepsTo writable named plain here
    rw [steps_of_stepsTo stepped]
    refine ih still fun other member => ?_
    obtain ⟨namedOther, plainOther, later⟩ := settled other (List.mem_cons_of_mem _ member)
    refine ⟨namedOther, plainOther, later.congr fun bytes => stepped.read_other ?_⟩
    intro same
    exact not_prefix_of_isDocument namedOther (same ▸ List.prefix_append _ _)

/-- A clear batch completes if each of its documents is compiled or refused with a message. -/
theorem build_completes (clear : IsClear source out tree)
    (settled : ∀ place, isDocument source out place = true → source ++ place ∈ tree.keys →
      IsSettled options tree (source ++ place)) :
    ∃ summary, (build options source out tree).1 = .ok summary := by
  obtain ⟨grown, made, writable⟩ := clear.exists_writable
  have listed (place : Path) (member : place ∈ documents grown source out) :
      isDocument source out place = true ∧ source ++ place ∈ tree.keys := by
    obtain ⟨there, named⟩ := mem_documents.1 member
    have lower : source ++ place ≠ [] := by simp [ne_nil_of_isDocument named]
    obtain ⟨item, held⟩ := (FileTree.mem_keys_iff_item? lower).1 there
    obtain before | ⟨-, way, along, -, rfl⟩ := FileTree.item?_of_grown made held
    · exact ⟨named, (FileTree.mem_keys_iff_item? lower).2 ⟨item, before⟩⟩
    · exact absurd along (clear.apart place named)
  have start : IsWritable out ({ tree := grown } : Progress).tree := writable
  obtain ⟨final, ran, still⟩ := exists_steps start fun place member =>
    have ⟨named, there⟩ := listed place member
    ⟨named, clear.names place named there,
      (settled place named there).congr fun _ => FileTree.read_makeAlong made⟩
  have whole : steps options source out { tree := grown } (documents grown source out) =
      (.ok final, final.tree) := Prod.ext ran (tree_of_steps ran)
  have above : FileTree.item? final.tree (out ++ [manifestName]).dropLast = some .directory := by
    rw [List.dropLast_concat]
    exact still.way out List.prefix_rfl
  have free : FileTree.item? final.tree (out ++ [manifestName]) ≠ some .directory := fun held => by
    have impossible := still.directories [] manifestName held
    simp [isWritten] at impossible
  have stored := FileTree.write_ok above free (Files.encodeText (manifest source final.entries).pretty)
  rw [build_eq_finish made, whole]
  simp only [finish, stored]
  exact ⟨_, rfl⟩

end ComponentCompiler.Batch

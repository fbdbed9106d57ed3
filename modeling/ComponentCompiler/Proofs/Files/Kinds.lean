import ComponentCompiler.Proofs.Files.Writing

/-!
# Files stay files

Making directories and writing files never turns a file into a directory or a directory into a file.
A file that was written once can therefore be written again in the same place, and writing it again
makes nothing new: what is in the tree stays of its kind, and no place is added.

## Main definitions

* `FileTree.isFile?` — whether a file or a directory is at a place
* `FileTree.KeepsKinds`, `FileTree.SameKinds` — nothing in a tree changes its kind; nothing is added
  either
* `FileTree.IsRewritable` — a file that can be written over

## Main results

* `FileTree.Saves.keepsKinds`, `FileTree.Saves.isRewritable` — a file that is written can be written
  over from then on
* `FileTree.IsRewritable.exists_write` — writing it over makes nothing new
* `FileTree.Saves.item?_outside` — writing below a directory changes nothing outside of it
-/

namespace ComponentCompiler.Files

/-- Whether an item is a file. -/
def Item.isFile : Item → Bool
  | .file _ => true
  | .directory => false

namespace FileTree

variable {tree between grown : FileTree} {path other place outer : Path} {names : List String}
  {bytes : List UInt8}

/-- Whether a file is at a place, and not a directory; `none` if nothing is there. -/
def isFile? (tree : FileTree) (path : Path) : Option Bool :=
  (item? tree path).map Item.isFile

theorem isFile?_eq_false_iff : isFile? tree path = some false ↔ item? tree path = some .directory := by
  unfold isFile?
  cases item? tree path with
  | none => simp
  | some item => cases item <;> simp [Item.isFile]

/-- What is in a tree stays of its kind: files stay files, and directories stay directories. -/
def KeepsKinds (tree grown : FileTree) : Prop :=
  ∀ path kind, isFile? tree path = some kind → isFile? grown path = some kind

/-- Both trees have the same files and directories, up to what the files hold. -/
def SameKinds (tree grown : FileTree) : Prop :=
  ∀ path, isFile? grown path = isFile? tree path

theorem KeepsKinds.refl (tree : FileTree) : KeepsKinds tree tree :=
  fun _ _ kind => kind

theorem KeepsKinds.trans (first : KeepsKinds tree between) (second : KeepsKinds between grown) :
    KeepsKinds tree grown :=
  fun path kind held => second path kind (first path kind held)

theorem SameKinds.trans (first : SameKinds tree between) (second : SameKinds between grown) :
    SameKinds tree grown :=
  fun path => (second path).trans (first path)

theorem SameKinds.keepsKinds (same : SameKinds tree grown) : KeepsKinds tree grown :=
  fun path _ held => (same path).trans held

/-- Trees with the same kinds and the same contents have the same items. -/
theorem item?_eq_of_sameKinds (same : SameKinds tree grown)
    (contents : ∀ bytes, read grown path = .ok bytes ↔ read tree path = .ok bytes) :
    item? grown path = item? tree path := by
  have kind := same path
  cases held : item? tree path with
  | none => simpa [isFile?, held] using kind
  | some item =>
    cases item with
    | directory =>
      rw [isFile?_eq_false_iff.2 held] at kind
      exact isFile?_eq_false_iff.1 kind
    | file bytes => exact read_eq_ok_iff.1 ((contents bytes).2 (read_eq_ok_iff.2 held))

/-! ### Writing keeps the kinds -/

theorem keepsKinds_makeAlong (made : makeAlong tree place names = .ok grown) :
    KeepsKinds tree grown := by
  intro path kind held
  obtain ⟨item, there, rfl⟩ := Option.map_eq_some_iff.1 held
  rw [isFile?, item?_makeAlong made there, Option.map_some]

/-- A directory is never written over. -/
theorem isFile?_of_write (written : write tree path bytes = .ok grown) :
    isFile? tree path ≠ some false := by
  intro held
  rw [isFile?_eq_false_iff] at held
  simp [write, held] at written

theorem isFile?_write (written : write tree path bytes = .ok grown) (other : Path) :
    isFile? grown other = if other = path then some true else isFile? tree other := by
  rw [isFile?, item?_write written]
  split <;> rfl

theorem keepsKinds_write (written : write tree path bytes = .ok grown) : KeepsKinds tree grown := by
  intro other kind held
  rw [isFile?_write written]
  split
  · next here =>
    subst here
    cases kind with
    | true => rfl
    | false => exact absurd held (isFile?_of_write written)
  · exact held

theorem Saves.keepsKinds (saved : Saves tree path bytes grown) : KeepsKinds tree grown := by
  obtain ⟨between, made, written⟩ := saved
  exact (keepsKinds_makeAlong made).trans (keepsKinds_write written)

/-! ### Writing a file again -/

/-- A file that can be written over: all places above it are directories. -/
structure IsRewritable (tree : FileTree) (path : Path) : Prop where
  above : ∀ way, way <+: path.dropLast → isFile? tree way = some false
  here : isFile? tree path = some true

theorem IsRewritable.mono (rewritable : IsRewritable tree path) (kept : KeepsKinds tree grown) :
    IsRewritable grown path where
  above := fun way along => kept way false (rewritable.above way along)
  here := kept path true rewritable.here

/-- A file that was written can be written over. -/
theorem Saves.isRewritable (saved : Saves tree path bytes grown) : IsRewritable grown path := by
  obtain ⟨between, made, written⟩ := saved
  constructor
  · intro way along
    exact keepsKinds_write written way false
      (isFile?_eq_false_iff.2 (item?_of_makeDirectory made along))
  · rw [isFile?_write written, if_pos rfl]

/-- Making directories that are there makes nothing. -/
theorem makeAlong_of_directories
    (there : ∀ way, way <+: names → way ≠ [] → item? tree (place ++ way) = some .directory) :
    makeAlong tree place names = .ok tree := by
  induction names generalizing place with
  | nil => rfl
  | cons name rest ih =>
    have first : item? tree (place ++ [name]) = some .directory :=
      there [name] (by simp) (by simp)
    rw [makeAlong_cons, first]
    refine ih fun way along _ => ?_
    simpa using there (name :: way) (List.cons_prefix_cons.2 ⟨rfl, along⟩) (by simp)

theorem makeDirectory_of_directories
    (there : ∀ way, way <+: path → item? tree way = some .directory) :
    makeDirectory tree path = .ok tree :=
  makeAlong_of_directories fun way along _ => there way along

theorem IsRewritable.makeDirectory (rewritable : IsRewritable tree path) :
    makeDirectory tree path.dropLast = .ok tree :=
  makeDirectory_of_directories fun way along => isFile?_eq_false_iff.1 (rewritable.above way along)

/-- Writing a file over makes nothing new. -/
theorem IsRewritable.exists_write (rewritable : IsRewritable tree path) (bytes : List UInt8) :
    ∃ grown, write tree path bytes = .ok grown ∧ SameKinds tree grown := by
  have above : item? tree path.dropLast = some .directory :=
    isFile?_eq_false_iff.1 (rewritable.above _ List.prefix_rfl)
  have free : item? tree path ≠ some .directory := by
    rw [Ne, ← isFile?_eq_false_iff, rewritable.here]
    simp
  have written := write_ok above free bytes
  refine ⟨_, written, fun other => ?_⟩
  rw [isFile?_write written]
  split
  · next here => rw [here, rewritable.here]
  · rfl

/-! ### Outside of a directory -/

/-- Making a directory leaves every place as it was, or makes a directory where nothing was. -/
theorem item?_makeDirectory (made : makeDirectory tree path = .ok grown) (other : Path) :
    item? grown other = item? tree other ∨
      other <+: path ∧ item? tree other = none ∧ item? grown other = some .directory := by
  cases before : item? tree other with
  | some item => exact .inl (item?_makeAlong made before)
  | none =>
    cases after : item? grown other with
    | none => exact .inl rfl
    | some item =>
      obtain held | ⟨rfl, way, along, -, rfl⟩ := item?_of_grown made after
      · rw [before] at held
        cases held
      · exact .inr ⟨along, rfl, rfl⟩

/-- Writing a file below a directory that is there changes nothing outside of it. -/
theorem Saves.item?_outside (saved : Saves tree (outer ++ place) bytes grown)
    (ways : ∀ way, way <+: outer → item? tree way = some .directory)
    (outside : ¬ outer <+: path) : item? grown path = item? tree path := by
  obtain ⟨between, made, written⟩ := saved
  have other : path ≠ outer ++ place := by
    rintro rfl
    exact outside (List.prefix_append outer place)
  rw [item?_write written, if_neg other]
  obtain same | ⟨along, free, -⟩ := item?_makeDirectory made path
  · exact same
  · -- A directory that was made lies above the file, so it lies above the outer directory or below it.
    have below : path <+: outer ++ place := along.trans (List.dropLast_prefix _)
    obtain upper | inside := List.prefix_or_prefix_of_prefix below (List.prefix_append outer place)
    · rw [ways path upper] at free
      cases free
    · exact absurd inside outside

end FileTree

end ComponentCompiler.Files

import ComponentCompiler.Files.Tree

/-!
# What writing leaves as it was

Making directories adds directories and nothing else, and writing a file changes that file only. A
file that does not lie on the way to a place is neither needed nor touched by writing there: it can
be taken away before or after.

## Main definitions

* `FileTree.Saves` — a file is written, and the directories above it are made

## Main results

* `FileTree.makeAlong_ok`, `FileTree.write_ok` — where directories can be made and files written
* `FileTree.read_makeAlong`, `FileTree.Saves.read_other` — which files are there afterwards
* `FileTree.makeDirectory_erase`, `FileTree.write_erase` — a file off the way does not matter
-/

namespace ComponentCompiler.Files.FileTree

variable {tree grown : FileTree} {path other hidden place : Path} {names : List String}
  {bytes kept : List UInt8}

/-! ### Reading -/

theorem read_eq_ok_iff : read tree path = .ok bytes ↔ item? tree path = some (.file bytes) := by
  unfold read
  split
  · next held => simp [held]
  · next held => simp [held]
  · next held => simp [held]

theorem mem_keys_of_read (held : read tree path = .ok bytes) : path ∈ tree.keys := by
  rw [read_eq_ok_iff] at held
  by_cases top : path = []
  · simp [item?, top] at held
  · simp only [item?, top, if_false] at held
    exact Dictionary.mem_keys_iff.2 ⟨_, Dictionary.mem_toList_of_get? held⟩

theorem mem_keys_iff_item? (lower : path ≠ []) :
    path ∈ tree.keys ↔ ∃ item, item? tree path = some item := by
  simp only [item?, lower, if_false]
  rw [← Dictionary.contains_iff_mem_keys, Dictionary.contains, Option.isSome_iff_exists]

theorem item?_erase (distinct : path ≠ hidden) : item? (tree.erase hidden) path = item? tree path := by
  by_cases top : path = []
  · simp [item?, top]
  · simp only [item?, top, if_false]
    exact Dictionary.get?_erase distinct tree

theorem read_erase (distinct : path ≠ hidden) : read (tree.erase hidden) path = read tree path := by
  simp only [read, item?_erase distinct]

/-! ### Making directories -/

theorem makeAlong_cons (tree : FileTree) (place : Path) (name : String) (names : List String) :
    makeAlong tree place (name :: names) =
      match item? tree (place ++ [name]) with
      | some .directory => makeAlong tree (place ++ [name]) names
      | none => makeAlong (tree.put (place ++ [name]) .directory) (place ++ [name]) names
      | some (.file _) => .error (if names.isEmpty then .exists else .notDirectory) := rfl

/-- A first name leads to a directory, which is made if nothing is there. -/
theorem makeAlong_cons_ok {name : String}
    (made : makeAlong tree place (name :: names) = .ok grown) :
    (item? tree (place ++ [name]) = some .directory ∧
      makeAlong tree (place ++ [name]) names = .ok grown) ∨
    (item? tree (place ++ [name]) = none ∧
      makeAlong (tree.put (place ++ [name]) .directory) (place ++ [name]) names = .ok grown) := by
  rw [makeAlong_cons] at made
  split at made
  · next there => exact .inl ⟨there, made⟩
  · next free => exact .inr ⟨free, made⟩
  · cases made

/-- What is at a place stays there while directories are made. -/
theorem item?_makeAlong {item : Item} (made : makeAlong tree place names = .ok grown)
    (held : item? tree path = some item) : item? grown path = some item := by
  induction names generalizing tree place with
  | nil =>
    cases made
    exact held
  | cons name rest ih =>
    obtain ⟨-, made⟩ | ⟨free, made⟩ := makeAlong_cons_ok made
    · exact ih made held
    · refine ih made ?_
      by_cases top : path = []
      · simpa [item?, top] using held
      · have distinct : path ≠ place ++ [name] := by
          rintro rfl
          rw [free] at held
          cases held
        rw [item?_put tree _ path _ top, if_neg distinct, held]

/-- What is at a place after directories were made was there before, or is one of them. -/
theorem item?_of_grown {item : Item} (made : makeAlong tree place names = .ok grown)
    (held : item? grown path = some item) :
    item? tree path = some item ∨
      item = .directory ∧ ∃ way, way <+: names ∧ way ≠ [] ∧ path = place ++ way := by
  induction names generalizing tree place with
  | nil =>
    cases made
    exact .inl held
  | cons name rest ih =>
    have onward {between : FileTree} (made : makeAlong between (place ++ [name]) rest = .ok grown) :
        item? between path = some item ∨
          item = .directory ∧ ∃ way, way <+: name :: rest ∧ way ≠ [] ∧ path = place ++ way := by
      refine (ih made).imp_right ?_
      rintro ⟨directory, way, along, -, rfl⟩
      exact ⟨directory, name :: way, List.cons_prefix_cons.2 ⟨rfl, along⟩, by simp, by simp⟩
    obtain ⟨-, made⟩ | ⟨-, made⟩ := makeAlong_cons_ok made
    · exact onward made
    · refine (onward made).elim (fun placed => ?_) .inr
      by_cases top : path = []
      · exact .inl (by simpa [item?, top] using placed)
      · rw [item?_put tree _ path _ top] at placed
        split at placed
        · next here => exact .inr ⟨(Option.some.inj placed).symm, [name], by simp, by simp, here⟩
        · exact .inl placed

/-- Making directories makes no files. -/
theorem file_of_makeAlong (made : makeAlong tree place names = .ok grown)
    (held : item? grown path = some (.file bytes)) : item? tree path = some (.file bytes) :=
  (item?_of_grown made held).resolve_right fun ⟨impossible, _⟩ => nomatch impossible

/-- The files stay the same while directories are made. -/
theorem read_makeAlong (made : makeAlong tree place names = .ok grown) :
    read grown path = .ok bytes ↔ read tree path = .ok bytes := by
  rw [read_eq_ok_iff, read_eq_ok_iff]
  exact ⟨file_of_makeAlong made, item?_makeAlong made⟩

/-- Every name leads to a directory after directories were made. -/
theorem item?_of_makeAlong (made : makeAlong tree place names = .ok grown) {way : List String}
    (along : way <+: names) (some : way ≠ []) : item? grown (place ++ way) = .some .directory := by
  induction names generalizing tree place way with
  | nil => exact absurd (List.prefix_nil.1 along) some
  | cons name rest ih =>
    obtain ⟨first, others, rfl⟩ := List.exists_cons_of_ne_nil some
    obtain ⟨rfl, onRest⟩ := List.cons_prefix_cons.1 along
    have onward (between : FileTree) (there : item? between (place ++ [first]) = .some .directory)
        (made : makeAlong between (place ++ [first]) rest = .ok grown) :
        item? grown (place ++ first :: others) = .some .directory := by
      cases others with
      | nil => exact item?_makeAlong made there
      | cons second more => simpa using ih made onRest (by simp)
    obtain ⟨there, made⟩ | ⟨-, made⟩ := makeAlong_cons_ok made
    · exact onward tree there made
    · exact onward _ (by simp [item?_put]) made

/-- Directories can be made where no name leads to a file. -/
theorem makeAlong_ok (free : ∀ way, way <+: names → way ≠ [] → ∀ bytes,
    item? tree (place ++ way) ≠ some (.file bytes)) :
    ∃ grown, makeAlong tree place names = .ok grown := by
  induction names generalizing tree place with
  | nil => exact ⟨tree, rfl⟩
  | cons name rest ih =>
    have later (way : List String) (along : way <+: rest) (bytes : List UInt8) :
        item? tree (place ++ [name] ++ way) ≠ some (.file bytes) := by
      simpa using free (name :: way) (List.cons_prefix_cons.2 ⟨rfl, along⟩) (by simp) bytes
    rw [makeAlong_cons]
    cases there : item? tree (place ++ [name]) with
    | none =>
      refine ih fun way along some bytes => ?_
      have lower : place ++ [name] ++ way ≠ [] := by simp
      rw [item?_put tree _ _ _ lower, if_neg (by simpa using some)]
      exact later way along bytes
    | some item =>
      cases item with
      | directory => exact ih fun way along _ => later way along
      | file bytes => exact absurd (by simpa using there) (later [] List.nil_prefix bytes)

theorem makeDirectory_ok
    (free : ∀ way, way <+: path → ∀ bytes, item? tree way ≠ some (.file bytes)) :
    ∃ grown, makeDirectory tree path = .ok grown :=
  makeAlong_ok fun way along _ bytes => free way along bytes

/-- Every place on the way to a directory that was made is a directory. -/
theorem item?_of_makeDirectory (made : makeDirectory tree path = .ok grown) {way : Path}
    (along : way <+: path) : item? grown way = some .directory := by
  by_cases top : way = []
  · simp [item?, top]
  · simpa using item?_of_makeAlong made along top

/-- No directory can be made at a file or below it. -/
theorem makeDirectory_of_file (held : item? tree path = some (.file bytes)) {below : Path}
    (inside : path <+: below) : ∃ fault, makeDirectory tree below = .error fault := by
  cases made : makeDirectory tree below with
  | error fault => exact ⟨fault, rfl⟩
  | ok grown =>
    have directory := item?_of_makeDirectory made inside
    rw [item?_makeAlong made held] at directory
    cases directory

theorem makeAlong_erase (apart : ¬ hidden <+: place ++ names) :
    makeAlong (tree.erase hidden) place names =
      (makeAlong tree place names).map (·.erase hidden) := by
  induction names generalizing tree place with
  | nil => rfl
  | cons name rest ih =>
    have later : ¬ hidden <+: (place ++ [name]) ++ rest := by simpa using apart
    have distinct : place ++ [name] ≠ hidden := by
      rintro rfl
      exact later (List.prefix_append _ rest)
    rw [makeAlong_cons, makeAlong_cons, item?_erase distinct]
    cases item? tree (place ++ [name]) with
    | none =>
      dsimp only
      rw [← Dictionary.erase_put distinct, ih later]
    | some item =>
      cases item with
      | directory => exact ih later
      | file bytes => rfl

theorem makeDirectory_erase (apart : ¬ hidden <+: path) :
    makeDirectory (tree.erase hidden) path = (makeDirectory tree path).map (·.erase hidden) :=
  makeAlong_erase apart

/-! ### Writing files -/

theorem write_eq_ok (written : write tree path bytes = .ok grown) :
    path ≠ [] ∧ grown = tree.put path (.file bytes) := by
  refine ⟨?_, ?_⟩
  · rintro rfl
    cases written
  · unfold write at written
    repeat' split at written
    all_goals cases written
    all_goals rfl

/-- A file can be written into a directory, unless a directory is in its place. -/
theorem write_ok (above : item? tree path.dropLast = some .directory)
    (free : item? tree path ≠ some .directory) (bytes : List UInt8) :
    write tree path bytes = .ok (tree.put path (.file bytes)) := by
  unfold write
  cases there : item? tree path with
  | none => simp [above]
  | some item =>
    cases item with
    | directory => exact absurd there free
    | file old => rfl

/-- What is at a place after a file was written somewhere. -/
theorem item?_write (written : write tree path bytes = .ok grown) (other : Path) :
    item? grown other = if other = path then some (.file bytes) else item? tree other := by
  obtain ⟨lower, rfl⟩ := write_eq_ok written
  by_cases top : other = []
  · subst top
    simp [item?, lower.symm]
  · exact item?_put tree path other _ top

theorem write_erase (apart : ¬ hidden <+: path) :
    write (tree.erase hidden) path bytes = (write tree path bytes).map (·.erase hidden) := by
  have distinct : path ≠ hidden := by
    rintro rfl
    exact apart List.prefix_rfl
  have above : path.dropLast ≠ hidden := by
    rintro rfl
    exact apart (List.dropLast_prefix path)
  unfold write
  rw [item?_erase distinct, item?_erase above]
  cases item? tree path with
  | none =>
    cases item? tree path.dropLast with
    | none => rfl
    | some item => cases item <;> simp [Except.map, Dictionary.erase_put distinct]
  | some item => cases item <;> simp [Except.map, Dictionary.erase_put distinct]

theorem read_write_self (written : write tree path bytes = .ok grown) :
    read grown path = .ok bytes := by
  rw [read_eq_ok_iff, item?_write written, if_pos rfl]

theorem read_write_other (written : write tree path bytes = .ok grown) (distinct : other ≠ path) :
    read grown other = read tree other := by
  simp only [read, item?_write written, if_neg distinct]

/-- A file is written, and the directories above it are made. -/
def Saves (tree : FileTree) (path : Path) (bytes : List UInt8) (grown : FileTree) : Prop :=
  ∃ between, makeDirectory tree path.dropLast = .ok between ∧ write between path bytes = .ok grown

theorem Saves.read_self (saved : Saves tree path bytes grown) : read grown path = .ok bytes := by
  obtain ⟨between, -, written⟩ := saved
  exact read_write_self written

/-- All other files stay the same. -/
theorem Saves.read_other (saved : Saves tree path bytes grown) (distinct : other ≠ path) :
    read grown other = .ok kept ↔ read tree other = .ok kept := by
  obtain ⟨between, made, written⟩ := saved
  rw [read_write_other written distinct]
  exact read_makeAlong made

end ComponentCompiler.Files.FileTree

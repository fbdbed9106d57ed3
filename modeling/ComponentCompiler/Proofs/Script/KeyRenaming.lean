import ComponentCompiler.Proofs.Script.Orderly
import ComponentCompiler.Proofs.Script.Places
import ComponentCompiler.Proofs.Script.Splice
import ComponentCompiler.Script.ObjectLiteral

/-!
# Renaming the keys of an object literal

The keys of an object literal are renamed, and so are those of a literal that is the whole value of
one of its pairs, at any depth. A key that is a name becomes a string, and a name that stands for a
whole entry becomes a pair. Nothing else of the text changes.

The keys can be found by a recursion over the literal, which collects the byte range of each key
with its new text, and replaced by splicing the bytes from the last range to the first. However deep
the literals are nested the ranges do not overlap, so the keys are replaced as if all at once.

The first tree of a pair is its key and the last one its value, which is known from how literals are
read: their trees are well-formed. What is proved of a literal is proved of its entries, and for a
pair from what holds of its value.

## Main definitions

* `Tree.Reaches` — the literals whose keys are renamed
* `Tree.KeyAt` — the keys that are renamed, with what they become
* `Tree.keyEdits` — the edits that a recursion over a literal collects
* `Tree.keyParts` — a literal in parts, of which the keys are replaced
* `ReplacesKeys` — of the parts of a text exactly the keys are replaced

## Main results

* `Tree.KeyAt.text` — at the place of a key stands its name
* `Tree.IsWellFormed.mem_keyEdits_iff` — an edit is collected for each key that is renamed
* `renameKeys_of_literal` — renaming the keys of a text replaces exactly its keys
-/

namespace ComponentCompiler.Script

/-! ### Keys and their places -/

/-- The literals in a tree whose keys are renamed, each with the place where it stands: the tree
itself, and what is reached from a literal that is the whole value of one of its pairs. -/
inductive Tree.Reaches : Tree → List Nat → List Tree → Prop
  | self {entries : List Tree} : Reaches (.node .object entries) [] entries
  | value {entries row inner : List Tree} {index : Nat} {place : List Nat} {value : Tree}
      (pair : entries[index]? = some (.node .pair row)) (whole : row.getLast? = some value)
      (onward : Reaches value place inner) :
      Reaches (.node .object entries) (index :: (row.length - 1) :: place) inner

/-- A key in quotes with the name that it had as its value. -/
def spelledOut (rename : List Char → List Char) (name : List Char) : List Char :=
  quotedKey rename name ++ ':' :: ' ' :: name

/-- A name at a place of a tree that is the key of a pair, or a whole entry, in a literal whose keys
are renamed, with what it becomes. -/
inductive Tree.KeyAt (rename : List Char → List Char) (tree : Tree) :
    List Nat → List Char → List Char → Prop
  | pair {place : List Nat} {entries row : List Tree} {index : Nat} {name : List Char}
      (reached : tree.Reaches place entries) (entry : entries[index]? = some (.node .pair row))
      (key : row.head? = some (.token .propertyName name)) :
      KeyAt rename tree (place ++ [index, 0]) name (quotedKey rename name)
  | shorthand {place : List Nat} {entries : List Tree} {index : Nat} {name : List Char}
      (reached : tree.Reaches place entries)
      (entry : entries[index]? = some (.token .shorthand name)) :
      KeyAt rename tree (place ++ [index]) name (spelledOut rename name)

/-! ### Collecting edits -/

variable (rename : List Char → List Char)

/-- The edit that replaces a text whose bytes start at the given position. -/
def editAt (start : Nat) (text replacement : List Char) : Edit :=
  ⟨start, start + (utf8 text).length, replacement⟩

/-- The edit for the key of a pair, if it is a name. -/
def keyEdit (start : Nat) : Tree → List Edit
  | .token .propertyName name => [editAt start name (quotedKey rename name)]
  | _ => []

mutual

/-- The edits for the keys of a literal whose bytes start at the given position. -/
def Tree.keyEdits (start : Nat) : Tree → List Edit
  | .node .object entries => entryEditsOf start entries
  | _ => []

/-- The edits for the keys of entries. -/
def entryEditsOf (start : Nat) : List Tree → List Edit
  | [] => []
  | entry :: rest => entry.entryEdits start ++ entryEditsOf (start + (utf8 entry.text).length) rest

/-- The edits for the keys of an entry. -/
def Tree.entryEdits (start : Nat) : Tree → List Edit
  | .token .shorthand name => [editAt start name (spelledOut rename name)]
  | .node .pair row => pairEdits start row
  | _ => []

/-- The edits for the key of a pair and for those of its value. -/
def pairEdits (start : Nat) : List Tree → List Edit
  | [] => []
  | key :: rest => keyEdit rename start key ++ valueEdits (start + (utf8 key.text).length) rest

/-- The edits for the keys of the last tree of a row. -/
def valueEdits (start : Nat) : List Tree → List Edit
  | [] => []
  | tree :: rest =>
    if rest.isEmpty then tree.keyEdits start
    else valueEdits (start + (utf8 tree.text).length) rest

end

/-! ### Parts of a literal -/

/-- A part that is kept. -/
def Part.kept (text : List Char) : Part :=
  ⟨text, none⟩

/-- The key of a pair as a part. -/
def keyPart : Tree → Part
  | .token .propertyName name => ⟨name, some (quotedKey rename name)⟩
  | tree => .kept tree.text

mutual

/-- A tree in parts, of which the keys are replaced if it is a literal. -/
def Tree.keyParts : Tree → List Part
  | .node .object entries => entryPartsOf entries
  | tree => [.kept tree.text]

/-- Entries in parts, of which the keys are replaced. -/
def entryPartsOf : List Tree → List Part
  | [] => []
  | entry :: rest => entry.entryParts ++ entryPartsOf rest

/-- An entry in parts, of which the keys are replaced. -/
def Tree.entryParts : Tree → List Part
  | .token .shorthand name => [⟨name, some (spelledOut rename name)⟩]
  | .node .pair row => pairParts row
  | tree => [.kept tree.text]

/-- A pair in parts, of which the key is replaced, and those of its value. -/
def pairParts : List Tree → List Part
  | [] => []
  | key :: rest => keyPart rename key :: valueParts rest

/-- A row in parts, of which the keys of the last tree are replaced. -/
def valueParts : List Tree → List Part
  | [] => []
  | tree :: rest => if rest.isEmpty then tree.keyParts else .kept tree.text :: valueParts rest

end

@[simp] theorem Part.text_kept (text : List Char) : (Part.kept text).text = text := rfl

@[simp] theorem Part.newText_kept (text : List Char) : (Part.kept text).newText = text := rfl

@[simp] theorem Part.newText_mk (text new : List Char) :
    Part.newText ⟨text, some new⟩ = new := rfl

@[simp] theorem editsFrom_kept (start : Nat) (text : List Char) (rest : List Part) :
    editsFrom start (.kept text :: rest) = editsFrom (start + (utf8 text).length) rest := rfl

theorem text_keyPart (tree : Tree) : (keyPart rename tree).text = tree.text := by
  unfold keyPart
  split <;> simp

theorem editsFrom_keyPart (start : Nat) (tree : Tree) (rest : List Part) :
    editsFrom start (keyPart rename tree :: rest) =
      keyEdit rename start tree ++ editsFrom (start + (utf8 tree.text).length) rest := by
  unfold keyPart keyEdit
  split
  · simp [editsFrom, editAt]
  · simp

mutual

/-- The parts of a tree cover it. -/
theorem Tree.text_keyParts (tree : Tree) :
    (tree.keyParts rename).flatMap Part.text = tree.text := by
  unfold Tree.keyParts
  split
  case h_1 entries => rw [text_entryPartsOf entries, Tree.text_node]
  case h_2 => simp

theorem text_entryPartsOf (entries : List Tree) :
    (entryPartsOf rename entries).flatMap Part.text = textOf entries := by
  unfold entryPartsOf
  split
  case h_1 => simp
  case h_2 entry rest => simp [Tree.text_entryParts entry, text_entryPartsOf rest]

theorem Tree.text_entryParts (entry : Tree) :
    (entry.entryParts rename).flatMap Part.text = entry.text := by
  unfold Tree.entryParts
  split
  case h_1 => simp
  case h_2 row => rw [text_pairParts row, Tree.text_node]
  case h_3 => simp

theorem text_pairParts (row : List Tree) :
    (pairParts rename row).flatMap Part.text = textOf row := by
  unfold pairParts
  split
  case h_1 => simp
  case h_2 key rest => simp [text_keyPart, text_valueParts rest]

theorem text_valueParts (row : List Tree) :
    (valueParts rename row).flatMap Part.text = textOf row := by
  unfold valueParts
  split
  case h_1 => simp
  case h_2 tree rest =>
    split
    case isTrue last => simp [Tree.text_keyParts tree, List.isEmpty_iff.1 last]
    case isFalse => simp [text_valueParts rest]

end

mutual

/-- The edits that are collected are those that replace the parts. -/
theorem Tree.editsFrom_keyParts (start : Nat) (tree : Tree) :
    editsFrom start (tree.keyParts rename) = tree.keyEdits rename start := by
  unfold Tree.keyParts Tree.keyEdits
  split
  case h_1 entries => exact editsFrom_entryPartsOf start entries
  case h_2 => rfl

theorem editsFrom_entryPartsOf (start : Nat) (entries : List Tree) :
    editsFrom start (entryPartsOf rename entries) = entryEditsOf rename start entries := by
  unfold entryPartsOf entryEditsOf
  split
  case h_1 => rfl
  case h_2 entry rest =>
    rw [editsFrom_append, Tree.text_entryParts, Tree.editsFrom_entryParts start entry,
      editsFrom_entryPartsOf _ rest]

theorem Tree.editsFrom_entryParts (start : Nat) (entry : Tree) :
    editsFrom start (entry.entryParts rename) = entry.entryEdits rename start := by
  unfold Tree.entryParts Tree.entryEdits
  split
  case h_1 => rfl
  case h_2 row => exact editsFrom_pairParts start row
  case h_3 => rfl

theorem editsFrom_pairParts (start : Nat) (row : List Tree) :
    editsFrom start (pairParts rename row) = pairEdits rename start row := by
  unfold pairParts pairEdits
  split
  case h_1 => rfl
  case h_2 key rest => rw [editsFrom_keyPart, editsFrom_valueParts _ rest]

theorem editsFrom_valueParts (start : Nat) (row : List Tree) :
    editsFrom start (valueParts rename row) = valueEdits rename start row := by
  unfold valueParts valueEdits
  split
  case h_1 => rfl
  case h_2 tree rest =>
    split
    case isTrue => exact Tree.editsFrom_keyParts start tree
    case isFalse => simp [editsFrom_valueParts _ rest]

end

/-! ### Pairs

Only the first and the last tree of a pair matter, and they are its key and its value.
-/

variable {rename}

/-- A tree of a pair with its keys renamed. -/
def renamePart (rename : List Char → List Char) : Tree → Tree
  | .token .propertyName name => .token .propertyName (quotedKey rename name)
  | tree => tree.renameKeys rename

theorem renamePair_eq_map (row : List Tree) :
    renamePair rename row = row.map (renamePart rename) := by
  induction row with
  | nil => simp [renamePair]
  | cons tree rest ih =>
    unfold renamePair
    split
    case h_1 none => cases none
    case h_2 same => cases same; simp [renamePart, ih]
    case h_3 same => cases same; simp [renamePart, Tree.renameKeys, ih]
    case h_4 same =>
      cases same
      simp [renamePart, Tree.renameKeys, ih]

theorem renamePart_token {kind : TokenKind} (other : kind ≠ .propertyName) (text : List Char) :
    renamePart rename (.token kind text) = .token kind text := by
  simp [renamePart, Tree.renameKeys, other]

theorem renamePart_of_isTrivia {tree : Tree} (trivia : tree.isTrivia = true) :
    renamePart rename tree = tree := by
  cases tree with
  | token kind text => exact renamePart_token (by rintro rfl; cases trivia) text
  | node form row => cases trivia

theorem renamePart_of_key {key : Tree} (named : key.isKey = true) :
    (renamePart rename key).text = (keyPart rename key).newText := by
  cases key with
  | token kind text => cases kind <;> simp [renamePart, Tree.renameKeys, keyPart]
  | node form row =>
    obtain rfl : form = .computedName := by simpa [Tree.isKey] using named
    simp [renamePart, Tree.renameKeys, keyPart]

theorem renamePart_of_operand {value : Tree} (valued : value.isOperand = true) :
    renamePart rename value = value.renameKeys rename := by
  cases value with
  | token kind text =>
    unfold renamePart
    split
    case h_1 same => cases same; cases valued
    case h_2 => rfl
  | node form row => rfl

/-- A pair falls into its key, its value, and what stands between, which stays as it is. -/
theorem IsPairRow.exists_eq {row : List Tree} (pair : IsPairRow row) :
    ∃ key middle value, row = key :: (middle ++ [value]) ∧ key.isKey = true ∧
      value.isOperand = true ∧ ∀ tree ∈ middle, ∀ rename, renamePart rename tree = tree := by
  obtain ⟨colon, named, first, second, valued⟩ := pair
  rename_i key value before after
  refine ⟨key, before ++ .token .punctuator colon :: after, value, by simp, named, valued, ?_⟩
  intro tree member rename
  simp only [List.mem_append, List.mem_cons] at member
  rcases member with here | rfl | there
  · exact renamePart_of_isTrivia (first tree here)
  · exact renamePart_token (by decide) colon
  · exact renamePart_of_isTrivia (second tree there)

theorem valueParts_append (middle : List Tree) (value : Tree) :
    valueParts rename (middle ++ [value]) =
      middle.map (fun tree => Part.kept tree.text) ++ value.keyParts rename := by
  induction middle with
  | nil => simp [valueParts]
  | cons tree rest ih => simp [valueParts, ih]

theorem valueEdits_append (start : Nat) (middle : List Tree) (value : Tree) :
    valueEdits rename start (middle ++ [value]) =
      value.keyEdits rename (start + (utf8 (textOf middle)).length) := by
  induction middle generalizing start with
  | nil => simp [valueEdits, utf8]
  | cons tree rest ih => simp [valueEdits, ih, Nat.add_assoc]

/-! ### Literals

What is proved of a literal follows from what holds of its entries, and for a pair among them from
what holds of its value.
-/

/-- What holds of trees that are no literals, and of a literal if something else holds of its
entries, holds of every well-formed tree, provided that the other thing holds of each entry: of a
pair if the first thing holds of its value. -/
theorem Tree.IsWellFormed.induct (motive entryMotive : Tree → Prop)
    (other : ∀ tree : Tree, tree.isForm .object = false → motive tree)
    (literal : ∀ entries : List Tree, (∀ entry ∈ entries, entryMotive entry) →
      motive (.node .object entries))
    (pair : ∀ (key : Tree) (middle : List Tree) (value : Tree), key.isKey = true →
      value.isOperand = true → (∀ tree ∈ middle, ∀ rename, renamePart rename tree = tree) →
      motive value → entryMotive (.node .pair (key :: (middle ++ [value]))))
    (shorthand : ∀ name : List Char, name ≠ [] → entryMotive (.token .shorthand name))
    (plain : ∀ entry : Tree, entry.isToken .shorthand = false → entry.isForm .pair = false →
      entryMotive entry)
    {tree : Tree} (formed : tree.IsWellFormed) : motive tree := by
  -- The value of a pair is two steps below the literal, so both properties go along.
  have both : motive tree ∧ entryMotive tree := by
    induction formed with
    | @token kind text named =>
      refine ⟨other _ rfl, ?_⟩
      by_cases same : kind = .shorthand
      case pos => exact same ▸ shorthand text (named same)
      case neg => exact plain _ (by simpa [isToken] using same) rfl
    | @node form row _ paired ih =>
      constructor
      · by_cases same : form = .object
        case pos => exact same ▸ literal row fun entry member => (ih entry member).2
        case neg => exact other _ (by simpa [isForm, form?] using same)
      · by_cases same : form = .pair
        case pos =>
          obtain ⟨key, middle, value, rfl, named, valued, between⟩ := (paired same).exists_eq
          exact same ▸ pair key middle value named valued between (ih value (by simp)).1
        case neg => exact plain _ rfl (by simpa [isForm, form?] using same)
  exact both.1

variable {tree : Tree}

theorem renameKeys_of_other (other : tree.isForm .object = false) :
    tree.renameKeys rename = tree := by
  unfold Tree.renameKeys
  split
  case h_1 => cases other
  case h_2 => rfl

theorem keyParts_of_other (other : tree.isForm .object = false) :
    tree.keyParts rename = [.kept tree.text] := by
  unfold Tree.keyParts
  split
  case h_1 => cases other
  case h_2 => rfl

theorem keyEdits_of_other (other : tree.isForm .object = false) (start : Nat) :
    tree.keyEdits rename start = [] := by
  unfold Tree.keyEdits
  split
  case h_1 => cases other
  case h_2 => rfl

/-! ### The new text -/

/-- An entry with its keys renamed. -/
def renameEntry (rename : List Char → List Char) : Tree → Tree
  | .token .shorthand name => .token .shorthand (spelledOut rename name)
  | .node .pair row => .node .pair (renamePair rename row)
  | tree => tree

theorem renameEntries_eq_map (entries : List Tree) :
    renameEntries rename entries = entries.map (renameEntry rename) := by
  induction entries with
  | nil => simp [renameEntries]
  | cons entry rest ih =>
    unfold renameEntries
    split
    case h_1 none => cases none
    case h_2 same => cases same; simp [renameEntry, spelledOut, ih]
    case h_3 same => cases same; simp [renameEntry, ih]
    case h_4 notShorthand notPair same => cases same; simp [renameEntry, ih]

theorem newText_kept (row : List Tree) :
    (row.map fun tree => Part.kept tree.text).flatMap Part.newText = textOf row := by
  induction row with
  | nil => simp
  | cons tree rest ih => simp [ih]

theorem renameEntry_of_plain {entry : Tree} (notShorthand : entry.isToken .shorthand = false)
    (notPair : entry.isForm .pair = false) : renameEntry rename entry = entry := by
  unfold renameEntry
  split
  case h_1 => cases notShorthand
  case h_2 => cases notPair
  case h_3 => rfl

theorem entryParts_of_plain {entry : Tree} (notShorthand : entry.isToken .shorthand = false)
    (notPair : entry.isForm .pair = false) : entry.entryParts rename = [.kept entry.text] := by
  unfold Tree.entryParts
  split
  case h_1 => cases notShorthand
  case h_2 => cases notPair
  case h_3 => rfl

theorem entryEdits_of_plain {entry : Tree} (notShorthand : entry.isToken .shorthand = false)
    (notPair : entry.isForm .pair = false) (start : Nat) : entry.entryEdits rename start = [] := by
  unfold Tree.entryEdits
  split
  case h_1 => cases notShorthand
  case h_2 => cases notPair
  case h_3 => rfl

/-- The parts of a literal make up its text with the keys renamed. -/
theorem Tree.newText_keyParts (formed : tree.IsWellFormed) :
    (tree.keyParts rename).flatMap Part.newText = (tree.renameKeys rename).text := by
  refine formed.induct
    (fun tree => (tree.keyParts rename).flatMap Part.newText = (tree.renameKeys rename).text)
    (fun entry => (entry.entryParts rename).flatMap Part.newText = (renameEntry rename entry).text)
    ?other ?literal ?pair ?shorthand ?plain
  case other =>
    intro tree other
    simp [keyParts_of_other other, renameKeys_of_other other]
  case literal =>
    intro entries each
    rw [keyParts, renameKeys, text_node, renameEntries_eq_map]
    induction entries with
    | nil => simp [entryPartsOf]
    | cons entry rest ih =>
      obtain ⟨here, later⟩ := List.forall_mem_cons.1 each
      simp [entryPartsOf, here, ih later]
  case pair =>
    intro key middle value named valued between inner
    have kept : middle.map (renamePart rename) = middle :=
      (List.map_congr_left fun tree member => between tree member rename).trans (by simp)
    simp [entryParts, pairParts, valueParts_append, renameEntry, renamePair_eq_map, kept,
      renamePart_of_key named, renamePart_of_operand valued, newText_kept, inner]
  case shorthand =>
    intro name _
    simp [entryParts, renameEntry]
  case plain =>
    intro entry notShorthand notPair
    simp [entryParts_of_plain notShorthand notPair, renameEntry_of_plain notShorthand notPair]

/-- No key is without text. -/
theorem Tree.text_ne_nil_of_keyParts (formed : tree.IsWellFormed) :
    ∀ part ∈ tree.keyParts rename, part.replacement ≠ none → part.text ≠ [] := by
  refine formed.induct
    (fun tree => ∀ part ∈ tree.keyParts rename, part.replacement ≠ none → part.text ≠ [])
    (fun entry => ∀ part ∈ entry.entryParts rename, part.replacement ≠ none → part.text ≠ [])
    ?other ?literal ?pair ?shorthand ?plain
  case other =>
    intro tree other
    simp [keyParts_of_other other, Part.kept]
  case literal =>
    intro entries each
    rw [keyParts]
    induction entries with
    | nil => simp [entryPartsOf]
    | cons entry rest ih =>
      obtain ⟨here, later⟩ := List.forall_mem_cons.1 each
      rw [entryPartsOf]
      exact List.forall_mem_append.2 ⟨here, ih later⟩
  case pair =>
    intro key middle value named _ _ inner
    rw [entryParts, pairParts, valueParts_append]
    refine List.forall_mem_cons.2 ⟨?_, List.forall_mem_append.2 ⟨by simp [Part.kept], inner⟩⟩
    unfold keyPart
    split
    case h_1 name => simpa [isKey] using named
    case h_2 => simp [Part.kept]
  case shorthand =>
    intro name inside
    simpa [entryParts] using inside
  case plain =>
    intro entry notShorthand notPair
    simp [entryParts_of_plain notShorthand notPair, Part.kept]

/-! ### The keys that are replaced -/

/-- A name that is renamed in an entry, at a place of the entry, with what it becomes. -/
inductive EntryKeyAt (rename : List Char → List Char) :
    Tree → List Nat → List Char → List Char → Prop
  | shorthand {name : List Char} :
      EntryKeyAt rename (.token .shorthand name) [] name (spelledOut rename name)
  | key {row : List Tree} {name : List Char}
      (first : row.head? = some (.token .propertyName name)) :
      EntryKeyAt rename (.node .pair row) [0] name (quotedKey rename name)
  | value {row : List Tree} {value : Tree} {place : List Nat} {name new : List Char}
      (last : row.getLast? = some value) (inner : value.KeyAt rename place name new) :
      EntryKeyAt rename (.node .pair row) ((row.length - 1) :: place) name new

variable {place : List Nat} {name new : List Char}

theorem Tree.Reaches.subtree? {entries : List Tree} (reached : tree.Reaches place entries) :
    tree.subtree? place = some (.node .object entries) := by
  induction reached with
  | self => rfl
  | value pair whole _ ih =>
    rw [List.getLast?_eq_getElem?] at whole
    simp [pair, whole, ih]

/-- At the place of a key stands its name. -/
theorem Tree.KeyAt.text (key : tree.KeyAt rename place name new) :
    (tree.subtree? place).map Tree.text = some name := by
  cases key with
  | pair reached entry key =>
    rw [List.head?_eq_getElem?] at key
    simp [subtree?_append, reached.subtree?, entry, key]
  | shorthand reached entry => simp [subtree?_append, reached.subtree?, entry]

theorem not_keyAt_of_other (other : tree.isForm .object = false) :
    ¬ tree.KeyAt rename place name new := by
  rintro (⟨reached, -, -⟩ | ⟨reached, -⟩) <;> cases reached <;> cases other

/-- The keys of a literal are those of its entries. -/
theorem keyAt_object_iff {entries : List Tree} :
    (Tree.node .object entries).KeyAt rename place name new ↔
      ∃ index entry below, entries[index]? = some entry ∧
        EntryKeyAt rename entry below name new ∧ place = index :: below := by
  constructor
  · intro key
    cases key with
    | pair reached entry key =>
      cases reached with
      | self => exact ⟨_, _, _, entry, .key key, rfl⟩
      | value pair whole onward =>
        exact ⟨_, _, _, pair, .value whole (.pair onward entry key), rfl⟩
    | shorthand reached entry =>
      cases reached with
      | self => exact ⟨_, _, _, entry, .shorthand, rfl⟩
      | value pair whole onward =>
        exact ⟨_, _, _, pair, .value whole (.shorthand onward entry), rfl⟩
  · rintro ⟨index, entry, below, present, key, rfl⟩
    cases key with
    | shorthand => exact .shorthand .self present
    | key first => exact .pair .self present first
    | value last inner =>
      cases inner with
      | pair reached entry key => exact .pair (.value present last reached) entry key
      | shorthand reached entry => exact .shorthand (.value present last reached) entry

theorem mem_entryEditsOf_iff {entries : List Tree} {start : Nat} {edit : Edit} :
    edit ∈ entryEditsOf rename start entries ↔
      ∃ index, ∃ entry : Tree, entries[index]? = some entry ∧
        edit ∈ entry.entryEdits rename (start + (utf8 (textOf (entries.take index))).length) := by
  induction entries generalizing start with
  | nil => simp [entryEditsOf]
  | cons entry rest ih =>
    rw [entryEditsOf, List.mem_append, ih]
    constructor
    · rintro (here | ⟨index, other, present, member⟩)
      · exact ⟨0, entry, rfl, by simpa [utf8] using here⟩
      · exact ⟨index + 1, other, present, by simpa [Nat.add_assoc] using member⟩
    · rintro ⟨index, other, present, member⟩
      cases index with
      | zero =>
        obtain rfl := Option.some.inj present
        exact .inl (by simpa [utf8] using member)
      | succ index => exact .inr ⟨index, other, present, by simpa [Nat.add_assoc] using member⟩

/-- An edit is collected for each key that is renamed, and for nothing else. -/
theorem Tree.IsWellFormed.mem_keyEdits_iff (formed : tree.IsWellFormed) {start : Nat}
    {edit : Edit} :
    edit ∈ tree.keyEdits rename start ↔
      ∃ place name new, tree.KeyAt rename place name new ∧
        edit = editAt (start + (utf8 (tree.textBefore place)).length) name new := by
  revert start edit
  refine formed.induct
    (fun tree => ∀ {start : Nat} {edit : Edit}, edit ∈ tree.keyEdits rename start ↔
      ∃ place name new, tree.KeyAt rename place name new ∧
        edit = editAt (start + (utf8 (tree.textBefore place)).length) name new)
    (fun entry => ∀ {start : Nat} {edit : Edit}, edit ∈ entry.entryEdits rename start ↔
      ∃ place name new, EntryKeyAt rename entry place name new ∧
        edit = editAt (start + (utf8 (entry.textBefore place)).length) name new)
    ?other ?literal ?pair ?shorthand ?plain
  case other =>
    intro tree other start edit
    simp [keyEdits_of_other other, not_keyAt_of_other other]
  case literal =>
    intro entries each start edit
    rw [keyEdits, mem_entryEditsOf_iff]
    constructor
    · rintro ⟨index, entry, present, member⟩
      obtain ⟨below, name, new, key, rfl⟩ := (each entry (List.mem_of_getElem? present)).1 member
      refine ⟨index :: below, name, new,
        keyAt_object_iff.2 ⟨index, entry, below, present, key, rfl⟩, ?_⟩
      simp [textBefore, present, Nat.add_assoc]
    · rintro ⟨place, name, new, key, rfl⟩
      obtain ⟨index, entry, below, present, inner, rfl⟩ := keyAt_object_iff.1 key
      refine ⟨index, entry, present, (each entry (List.mem_of_getElem? present)).2 ?_⟩
      exact ⟨below, name, new, inner, by simp [textBefore, present, Nat.add_assoc]⟩
  case pair =>
    intro key middle value named _ _ inner start edit
    rw [entryEdits, pairEdits, valueEdits_append, List.mem_append, inner]
    constructor
    · rintro (here | ⟨place, name, new, key, rfl⟩)
      · unfold keyEdit at here
        split at here
        case h_1 name =>
          obtain rfl := List.mem_singleton.1 here
          exact ⟨[0], name, _, .key rfl, by simp [textBefore, utf8]⟩
        case h_2 => cases here
      · refine ⟨_, name, new, .value (by rw [← List.cons_append, List.getLast?_concat]) key, ?_⟩
        simp [textBefore, Nat.add_assoc]
    · rintro ⟨place, name, new, key, rfl⟩
      cases key with
      | key first =>
        obtain rfl := Option.some.inj first
        exact .inl (by simp [keyEdit, textBefore, utf8])
      | @value _ other below _ _ last key =>
        rw [← List.cons_append, List.getLast?_concat] at last
        obtain rfl := Option.some.inj last
        exact .inr ⟨below, name, new, key, by simp [textBefore, Nat.add_assoc]⟩
  case shorthand =>
    intro name _ start edit
    rw [entryEdits, List.mem_singleton]
    constructor
    · rintro rfl
      exact ⟨[], name, _, .shorthand, by simp [textBefore, utf8]⟩
    · rintro ⟨place, name, new, ⟨⟩, rfl⟩
      simp [textBefore, utf8]
  case plain =>
    intro entry notShorthand notPair start edit
    rw [entryEdits_of_plain notShorthand notPair]
    constructor
    · intro member
      cases member
    · rintro ⟨place, name, new, key, -⟩
      cases key with
      | shorthand => cases notShorthand
      | key => cases notPair
      | value => cases notPair

/-! ### The literal of a text -/

/-- The parts of a text in which a literal stands, of which the keys of the literal are replaced. -/
def Focus.keyParts (rename : List Char → List Char) (focus : Focus) : List Part :=
  .kept focus.before :: (focus.tree.keyParts rename ++ [.kept focus.after])

/-- The parts of a text are its own, and those that are replaced are exactly the keys of a literal
that are renamed, each by what it becomes. -/
structure ReplacesKeys (rename : List Char → List Char) (focus : Focus) (parts : List Part) :
    Prop where
  covers : parts.flatMap Part.text = focus.whole
  exact (edit : Edit) : edit ∈ editsFrom 0 parts ↔
    ∃ place name new, focus.tree.KeyAt rename place name new ∧
      edit = editAt (utf8 (focus.before ++ focus.tree.textBefore place)).length name new

/-- Renaming the keys of a text that consists of a literal replaces exactly the keys of the literal
and of those nested in it, all at once. The edits that a recursion over the literals collects do the
same: they replace the same keys, they do not overlap, and splicing them one by one, from the last
to the first, gives the new text. -/
theorem renameKeys_of_literal (rename : List Char → List Char) {code : List Char}
    (literal : isObjectLiteral code = true) :
    ∃ focus parts, objectLiteral? (Snippet.ofExpression code) = some focus ∧
      focus.whole = code ∧ focus.tree.IsWellFormed ∧ ReplacesKeys rename focus parts ∧
      renameKeys rename code = .renamed (parts.flatMap Part.newText) ∧
      focus.tree.keyEdits rename (utf8 focus.before).length = editsFrom 0 parts ∧
      (editsFrom 0 parts).Pairwise (fun edit other => edit.stop ≤ other.start) ∧
      applyEdits (editsFrom 0 parts) (utf8 code) = utf8 (parts.flatMap Part.newText) := by
  obtain ⟨focus, found⟩ := Option.isSome_iff_exists.1 literal
  obtain ⟨alone, -⟩ := Option.filter_eq_some_iff.1 found
  have formed := isWellFormed_expression? alone
  have whole : focus.whole = code :=
    (Snippet.whole_expression? alone).trans (Snippet.text_ofExpression code)
  have covers : (focus.keyParts rename).flatMap Part.text = focus.whole := by
    simp [Focus.keyParts, Tree.text_keyParts, Focus.whole]
  have edits : focus.tree.keyEdits rename (utf8 focus.before).length =
      editsFrom 0 (focus.keyParts rename) := by
    simp [Focus.keyParts, editsFrom_append, Tree.editsFrom_keyParts]
  have readable : (Snippet.ofExpression code).isFaulty = false := by
    cases read : Snippet.ofExpression code with
    | faulty tree => rw [read] at alone; cases alone
    | expression tree => rfl
    | statements tree => rfl
  refine ⟨focus, focus.keyParts rename, found, whole, formed, ⟨covers, ?_⟩, ?_, edits,
    disjoint_editsFrom 0 _, ?_⟩
  · intro edit
    rw [← edits, formed.mem_keyEdits_iff]
    simp
  · simp [renameKeys, readable, found, Focus.keyParts, Tree.newText_keyParts formed]
  · rw [← whole, ← covers]
    refine applyEdits_of_perm ?_ (.refl _)
    refine List.forall_mem_cons.2 ⟨by simp [Part.kept], List.forall_mem_append.2 ⟨?_, ?_⟩⟩
    · exact Tree.text_ne_nil_of_keyParts formed
    · simp [Part.kept]

/-- In a literal with a nested one, three names are renamed, and one of them stands for a whole
entry. -/
theorem renameKeys_of_nested :
    isObjectLiteral "\x7ba, 'b': 1, c: \x7bd: a\x7d\x7d".toList = true ∧
      ∃ parts : List Part, parts.flatMap Part.text = "\x7ba, 'b': 1, c: \x7bd: a\x7d\x7d".toList ∧
        parts.flatMap Part.newText =
          "\x7b\"-a\": a, 'b': 1, \"-c\": \x7b\"-d\": a\x7d\x7d".toList := by
  have literal : isObjectLiteral "\x7ba, 'b': 1, c: \x7bd: a\x7d\x7d".toList = true := by
    decide +kernel
  have new : renameKeys (List.cons '-') "\x7ba, 'b': 1, c: \x7bd: a\x7d\x7d".toList =
      .renamed "\x7b\"-a\": a, 'b': 1, \"-c\": \x7b\"-d\": a\x7d\x7d".toList := by decide +kernel
  obtain ⟨focus, parts, -, whole, -, replaces, renamed, -⟩ :=
    renameKeys_of_literal (List.cons '-') literal
  refine ⟨literal, parts, replaces.covers.trans whole, ?_⟩
  exact (Renaming.renamed.inj (new.symm.trans renamed)).symm

end ComponentCompiler.Script

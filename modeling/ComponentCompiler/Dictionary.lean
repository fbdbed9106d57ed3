/-!
# Dictionaries in order

The sections of a component map names to values, and the order of the names shows in the output. A
dictionary keeps the order in which its keys were first given; giving a key again changes its value
in place.

## Main definitions

* `Dictionary` — pairs of a key and a value without a repeated key
* `Entries` — dictionaries whose keys are names
* `Dictionary.get?`, `Dictionary.put`, `Dictionary.ofList` — reading, setting and building
* `Dictionary.filterKeys`, `Dictionary.mapValues` — parts and images of a dictionary

## Main results

* `Dictionary.get?_put` — what is read after a key was set
* `Dictionary.toList_ofList` — a list without a repeated key is kept as it is
* `Dictionary.put_of_new` — a new key is set at the end
-/

namespace ComponentCompiler

variable {κ α β : Type}

/-- The keys of a list of pairs. -/
abbrev keysOf (pairs : List (κ × α)) : List κ :=
  pairs.map Prod.fst

/-- The value of the first pair with the given key. -/
def lookup? [DecidableEq κ] (key : κ) : List (κ × α) → Option α
  | [] => none
  | (k, value) :: rest => if k = key then some value else lookup? key rest

/-- Sets the value of a key where it stands, or puts the key at the end. -/
def putPair [DecidableEq κ] (key : κ) (value : α) : List (κ × α) → List (κ × α)
  | [] => [(key, value)]
  | (k, old) :: rest => if k = key then (key, value) :: rest else (k, old) :: putPair key value rest

theorem mem_keysOf_putPair [DecidableEq κ] {key name : κ} {value : α} {pairs : List (κ × α)} :
    name ∈ keysOf (putPair key value pairs) ↔ name = key ∨ name ∈ keysOf pairs := by
  induction pairs with
  | nil => simp [putPair]
  | cons pair rest ih =>
    obtain ⟨k, old⟩ := pair
    unfold putPair
    split
    · next h => subst h; simp
    · simp only [keysOf, List.map_cons, List.mem_cons] at ih ⊢
      rw [ih]
      exact or_left_comm

theorem nodup_putPair [DecidableEq κ] (key : κ) (value : α) {pairs : List (κ × α)}
    (distinct : (keysOf pairs).Nodup) : (keysOf (putPair key value pairs)).Nodup := by
  induction pairs with
  | nil => simp [putPair]
  | cons pair rest ih =>
    obtain ⟨k, old⟩ := pair
    simp only [keysOf, List.map_cons, List.nodup_cons] at distinct
    unfold putPair
    split
    · next h => subst h; simpa using distinct
    · next h =>
      simp only [keysOf, List.map_cons, List.nodup_cons]
      refine ⟨fun member => ?_, ih distinct.2⟩
      rcases mem_keysOf_putPair.1 member with same | old
      · exact h same
      · exact distinct.1 old

/-- Pairs of a key and a value, in order and without a repeated key. -/
structure Dictionary (κ α : Type) where
  toList : List (κ × α)
  distinct : (keysOf toList).Nodup
deriving DecidableEq

/-- A dictionary whose keys are names. -/
abbrev Entries (α : Type) := Dictionary String α

namespace Dictionary

instance : EmptyCollection (Dictionary κ α) := ⟨⟨[], List.nodup_nil⟩⟩

instance : Inhabited (Dictionary κ α) := ⟨∅⟩

instance [Repr κ] [Repr α] : Repr (Dictionary κ α) := ⟨fun entries => reprPrec entries.toList⟩

@[simp] theorem toList_empty : (∅ : Dictionary κ α).toList = [] := rfl

theorem ext_toList {a b : Dictionary κ α} (same : a.toList = b.toList) : a = b := by
  cases a
  cases b
  simp_all

/-- The keys in order. -/
def keys (entries : Dictionary κ α) : List κ :=
  keysOf entries.toList

/-- The values in order. -/
def values (entries : Dictionary κ α) : List α :=
  entries.toList.map Prod.snd

/-- The count of keys. -/
def size (entries : Dictionary κ α) : Nat :=
  entries.toList.length

/-- Whether there is no key. -/
def isEmpty (entries : Dictionary κ α) : Bool :=
  entries.toList.isEmpty

/-- The value of a key. -/
def get? [DecidableEq κ] (entries : Dictionary κ α) (key : κ) : Option α :=
  lookup? key entries.toList

/-- Whether a key has a value. -/
def contains [DecidableEq κ] (entries : Dictionary κ α) (key : κ) : Bool :=
  (entries.get? key).isSome

/-- Sets the value of a key; a new key comes last. -/
def put [DecidableEq κ] (entries : Dictionary κ α) (key : κ) (value : α) : Dictionary κ α :=
  ⟨putPair key value entries.toList, nodup_putPair key value entries.distinct⟩

/-- The dictionary with the given pairs. A repeated key keeps its first place and takes its last
value. -/
def ofList [DecidableEq κ] (pairs : List (κ × α)) : Dictionary κ α :=
  pairs.foldl (fun entries pair => entries.put pair.1 pair.2) ∅

/-- The entries whose keys satisfy a condition. -/
def filterKeys (keep : κ → Bool) (entries : Dictionary κ α) : Dictionary κ α where
  toList := entries.toList.filter fun pair => keep pair.1
  distinct := entries.distinct.sublist (List.filter_sublist.map Prod.fst)

/-- The entries without the given key. -/
def erase [DecidableEq κ] (entries : Dictionary κ α) (key : κ) : Dictionary κ α :=
  entries.filterKeys (· != key)

/-- The entries with changed values. -/
def mapValues (change : α → β) (entries : Dictionary κ α) : Dictionary κ β where
  toList := entries.toList.map fun pair => (pair.1, change pair.2)
  distinct := by
    have same : keysOf (entries.toList.map fun pair => (pair.1, change pair.2)) =
        keysOf entries.toList := by
      simp [keysOf, Function.comp_def]
    rw [same]
    exact entries.distinct

@[simp] theorem toList_put [DecidableEq κ] (entries : Dictionary κ α) (key : κ) (value : α) :
    (entries.put key value).toList = putPair key value entries.toList := rfl

@[simp] theorem toList_filterKeys (keep : κ → Bool) (entries : Dictionary κ α) :
    (entries.filterKeys keep).toList = entries.toList.filter (fun pair => keep pair.1) := rfl

@[simp] theorem toList_mapValues (change : α → β) (entries : Dictionary κ α) :
    (entries.mapValues change).toList =
      entries.toList.map (fun pair => (pair.1, change pair.2)) := rfl

theorem mem_of_lookup? [DecidableEq κ] {key : κ} {value : α} {pairs : List (κ × α)}
    (found : lookup? key pairs = some value) : (key, value) ∈ pairs := by
  induction pairs with
  | nil => cases found
  | cons pair rest ih =>
    obtain ⟨k, old⟩ := pair
    unfold lookup? at found
    split at found
    · next same =>
      cases found
      exact same ▸ List.mem_cons_self
    · exact List.mem_cons_of_mem _ (ih found)

theorem mem_toList_of_get? [DecidableEq κ] {entries : Dictionary κ α} {key : κ} {value : α}
    (found : entries.get? key = some value) : (key, value) ∈ entries.toList :=
  mem_of_lookup? found

theorem eq_of_mem_pairs {key : κ} {value other : α} {pairs : List (κ × α)}
    (distinct : (keysOf pairs).Nodup) (first : (key, value) ∈ pairs)
    (second : (key, other) ∈ pairs) : value = other := by
  induction pairs with
  | nil => cases first
  | cons pair rest ih =>
    simp only [keysOf, List.map_cons, List.nodup_cons] at distinct
    have alone {kept : α} (later : (key, kept) ∈ rest) : key ≠ pair.1 := by
      rintro rfl
      exact distinct.1 (List.mem_map.2 ⟨_, later, rfl⟩)
    rcases List.mem_cons.1 first with rfl | firstLater
    · rcases List.mem_cons.1 second with same | secondLater
      · cases same
        rfl
      · exact absurd rfl (alone secondLater)
    · rcases List.mem_cons.1 second with rfl | secondLater
      · exact absurd rfl (alone firstLater)
      · exact ih distinct.2 firstLater secondLater

/-- A key has one value. -/
theorem eq_of_mem_toList {entries : Dictionary κ α} {key : κ} {value other : α}
    (first : (key, value) ∈ entries.toList) (second : (key, other) ∈ entries.toList) :
    value = other :=
  eq_of_mem_pairs entries.distinct first second

theorem mem_keys_iff {entries : Dictionary κ α} {key : κ} :
    key ∈ entries.keys ↔ ∃ value, (key, value) ∈ entries.toList := by
  simp [keys, keysOf]

theorem isSome_lookup? [DecidableEq κ] {key : κ} {pairs : List (κ × α)} :
    (lookup? key pairs).isSome = true ↔ key ∈ keysOf pairs := by
  induction pairs with
  | nil => simp [lookup?]
  | cons pair rest ih =>
    obtain ⟨k, old⟩ := pair
    unfold lookup?
    split
    · next same => simp [same]
    · next other =>
      simp only [keysOf, List.map_cons, List.mem_cons] at ih ⊢
      rw [ih, or_iff_right (Ne.symm other)]

/-- A dictionary contains its keys. -/
theorem contains_iff_mem_keys [DecidableEq κ] {entries : Dictionary κ α} {key : κ} :
    entries.contains key = true ↔ key ∈ entries.keys :=
  isSome_lookup?

theorem get?_of_mem [DecidableEq κ] {entries : Dictionary κ α} {key : κ} {value : α}
    (member : (key, value) ∈ entries.toList) : entries.get? key = some value := by
  obtain ⟨found, held⟩ := Option.isSome_iff_exists.1
    (contains_iff_mem_keys.2 (mem_keys_iff.2 ⟨value, member⟩))
  rw [held, eq_of_mem_toList (mem_toList_of_get? held) member]

theorem lookup?_map [DecidableEq κ] (key : κ) (change : α → β) (pairs : List (κ × α)) :
    lookup? key (pairs.map fun pair => (pair.1, change pair.2)) = (lookup? key pairs).map change := by
  induction pairs with
  | nil => rfl
  | cons pair rest ih =>
    obtain ⟨k, old⟩ := pair
    by_cases here : k = key
    · simp [lookup?, here]
    · simpa [lookup?, here] using ih

theorem get?_mapValues [DecidableEq κ] (entries : Dictionary κ α) (change : α → β) (key : κ) :
    (entries.mapValues change).get? key = (entries.get? key).map change :=
  lookup?_map key change entries.toList

theorem filterKeys_mapValues (entries : Dictionary κ α) (keep : κ → Bool) (change : α → β) :
    (entries.mapValues change).filterKeys keep = (entries.filterKeys keep).mapValues change :=
  ext_toList List.filter_map

theorem lookup?_filter [DecidableEq κ] {key : κ} {keep : κ → Bool} (kept : keep key = true)
    (pairs : List (κ × α)) :
    lookup? key (pairs.filter fun pair => keep pair.1) = lookup? key pairs := by
  induction pairs with
  | nil => rfl
  | cons pair rest ih =>
    obtain ⟨k, value⟩ := pair
    by_cases here : k = key
    · subst here
      simp [lookup?, kept]
    · by_cases other : keep k = true <;> simp [lookup?, here, other, ih]

/-- A key that is kept keeps its value. -/
theorem get?_filterKeys [DecidableEq κ] {key : κ} (keep : κ → Bool) (kept : keep key = true)
    (entries : Dictionary κ α) : (entries.filterKeys keep).get? key = entries.get? key :=
  lookup?_filter kept entries.toList

theorem keys_filterKeys (keep : κ → Bool) (entries : Dictionary κ α) :
    (entries.filterKeys keep).keys = entries.keys.filter keep := by
  simp only [keys, keysOf, toList_filterKeys, List.filter_map]
  rfl

theorem filter_putPair [DecidableEq κ] {key : κ} {keep : κ → Bool} (kept : keep key = true)
    (value : α) (pairs : List (κ × α)) :
    (putPair key value pairs).filter (fun pair => keep pair.1) =
      putPair key value (pairs.filter fun pair => keep pair.1) := by
  induction pairs with
  | nil => simp [putPair, kept]
  | cons pair rest ih =>
    obtain ⟨k, old⟩ := pair
    by_cases here : k = key
    · subst here
      simp [putPair, kept]
    · by_cases other : keep k = true <;> simp [putPair, here, other, ih]

/-- A key that is kept can be set before or after. -/
theorem filterKeys_put [DecidableEq κ] {key : κ} (keep : κ → Bool) (kept : keep key = true)
    (value : α) (entries : Dictionary κ α) :
    (entries.put key value).filterKeys keep = (entries.filterKeys keep).put key value :=
  ext_toList (filter_putPair kept value entries.toList)

/-- Taking away a key leaves the values of the others. -/
theorem get?_erase [DecidableEq κ] {key hidden : κ} (distinct : key ≠ hidden)
    (entries : Dictionary κ α) : (entries.erase hidden).get? key = entries.get? key :=
  get?_filterKeys (· != hidden) (bne_iff_ne.2 distinct) entries

theorem erase_put [DecidableEq κ] {key hidden : κ} (distinct : key ≠ hidden) (value : α)
    (entries : Dictionary κ α) :
    (entries.put key value).erase hidden = (entries.erase hidden).put key value :=
  filterKeys_put (· != hidden) (bne_iff_ne.2 distinct) value entries

theorem mem_keys_erase [DecidableEq κ] {key hidden : κ} {entries : Dictionary κ α} :
    key ∈ (entries.erase hidden).keys ↔ key ∈ entries.keys ∧ key ≠ hidden := by
  rw [erase, keys_filterKeys, List.mem_filter, bne_iff_ne]

@[simp] theorem keys_mapValues (entries : Dictionary κ α) (change : α → β) :
    (entries.mapValues change).keys = entries.keys := by
  simp [keys, keysOf, Function.comp_def]

theorem lookup?_putPair [DecidableEq κ] (key name : κ) (value : α) (pairs : List (κ × α)) :
    lookup? name (putPair key value pairs) =
      if name = key then some value else lookup? name pairs := by
  induction pairs with
  | nil => simp [putPair, lookup?, eq_comm]
  | cons pair rest ih =>
    obtain ⟨k, old⟩ := pair
    unfold putPair
    split
    · next h =>
      subst h
      by_cases same : name = k
      · simp [lookup?, same]
      · simp [lookup?, same, Ne.symm same]
    · next h =>
      by_cases here : k = name
      · subst here
        simp [lookup?, h]
      · simp [lookup?, here, ih]

/-- A key that was set has its value, and every other key keeps its own. -/
theorem get?_put [DecidableEq κ] (entries : Dictionary κ α) (key name : κ) (value : α) :
    (entries.put key value).get? name = if name = key then some value else entries.get? name :=
  lookup?_putPair key name value entries.toList

theorem putPair_of_not_mem [DecidableEq κ] {key : κ} (value : α) {pairs : List (κ × α)}
    (new : key ∉ keysOf pairs) : putPair key value pairs = pairs ++ [(key, value)] := by
  induction pairs with
  | nil => rfl
  | cons pair rest ih =>
    obtain ⟨k, old⟩ := pair
    simp only [keysOf, List.map_cons, List.mem_cons, not_or] at new
    simp [putPair, Ne.symm new.1, ih new.2]

/-- A new key is set at the end. -/
theorem put_of_new [DecidableEq κ] {entries : Dictionary κ α} {key : κ} (value : α) (new : key ∉ entries.keys) :
    (entries.put key value).toList = entries.toList ++ [(key, value)] :=
  putPair_of_not_mem value new

theorem toList_foldl_put [DecidableEq κ] (pairs : List (κ × α)) (entries : Dictionary κ α)
    (distinct : (keysOf (entries.toList ++ pairs)).Nodup) :
    (pairs.foldl (fun entries pair => entries.put pair.1 pair.2) entries).toList =
      entries.toList ++ pairs := by
  induction pairs generalizing entries with
  | nil => simp
  | cons pair rest ih =>
    have new : pair.1 ∉ entries.keys := by
      simp only [keysOf, List.map_append, List.map_cons] at distinct
      exact fun member =>
        (List.nodup_append.1 distinct).2.2 _ member _ List.mem_cons_self rfl
    have placed := put_of_new pair.2 new
    rw [List.foldl_cons, ih]
    · rw [placed]; simp
    · rw [placed]; simpa using distinct

/-- A list without a repeated key is kept as it is. -/
theorem toList_ofList [DecidableEq κ] {pairs : List (κ × α)} (distinct : (keysOf pairs).Nodup) :
    (ofList pairs).toList = pairs :=
  toList_foldl_put pairs ∅ distinct

theorem mem_putPair [DecidableEq κ] {key : κ} {value : α} {pairs : List (κ × α)} {pair : κ × α}
    (member : pair ∈ putPair key value pairs) : pair = (key, value) ∨ pair ∈ pairs := by
  induction pairs with
  | nil => exact .inl (List.mem_singleton.1 member)
  | cons first rest ih =>
    unfold putPair at member
    split at member
    · exact (List.mem_cons.1 member).imp_right (List.mem_cons_of_mem _)
    · rcases List.mem_cons.1 member with rfl | later
      · exact .inr List.mem_cons_self
      · exact (ih later).imp_right (List.mem_cons_of_mem _)

theorem mem_foldl_put [DecidableEq κ] {pairs : List (κ × α)} {entries : Dictionary κ α}
    {pair : κ × α}
    (member : pair ∈
      (pairs.foldl (fun entries pair => entries.put pair.1 pair.2) entries).toList) :
    pair ∈ entries.toList ∨ pair ∈ pairs := by
  induction pairs generalizing entries with
  | nil => exact .inl member
  | cons first rest ih =>
    rcases ih member with placed | later
    · rcases mem_putPair placed with rfl | old
      · exact .inr List.mem_cons_self
      · exact .inl old
    · exact .inr (List.mem_cons_of_mem _ later)

/-- A dictionary that is built from pairs holds no others. -/
theorem mem_of_mem_ofList [DecidableEq κ] {pairs : List (κ × α)} {pair : κ × α}
    (member : pair ∈ (ofList pairs).toList) : pair ∈ pairs :=
  (mem_foldl_put member).resolve_left List.not_mem_nil

theorem mem_keys_foldl_put [DecidableEq κ] {pairs : List (κ × α)} {entries : Dictionary κ α}
    {key : κ} :
    key ∈ (pairs.foldl (fun entries pair => entries.put pair.1 pair.2) entries).keys ↔
      key ∈ entries.keys ∨ key ∈ keysOf pairs := by
  induction pairs generalizing entries with
  | nil => simp
  | cons first rest ih =>
    have placed : key ∈ (entries.put first.1 first.2).keys ↔ key = first.1 ∨ key ∈ entries.keys :=
      mem_keysOf_putPair
    rw [List.foldl_cons, ih, placed]
    simp only [keysOf, List.map_cons, List.mem_cons]
    rw [or_assoc, or_left_comm]

/-- The keys of a dictionary are those of the pairs that it is built from. -/
theorem mem_keys_ofList [DecidableEq κ] {pairs : List (κ × α)} {key : κ} :
    key ∈ (ofList pairs).keys ↔ key ∈ keysOf pairs :=
  mem_keys_foldl_put.trans (or_iff_right List.not_mem_nil)

@[simp] theorem ofList_toList [DecidableEq κ] (entries : Dictionary κ α) : ofList entries.toList = entries :=
  ext_toList (toList_ofList entries.distinct)

end Dictionary

end ComponentCompiler

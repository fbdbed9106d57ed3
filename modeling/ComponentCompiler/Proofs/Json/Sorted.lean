import ComponentCompiler.Json.Writer
import Mathlib.Data.List.Forall2
import Mathlib.Data.List.Nodup

/-!
# Documents up to the order of members

The members of an object have an order, which the content of a document does not depend on. Two
documents are rearranged if they differ in the order of members only, at any depth. Sorting the
members of all objects gives the same document for rearranged ones: a list of members without a
repeated name has only one sorted order. Conversely documents that are sorted to the same one are
rearranged, so sorting loses nothing but the order.

## Main definitions

* `SameEntries` — two lists of pairs have the same keys, and values that are alike
* `Json.Rearranged` — two documents differ in the order of members only
* `Json.WellFormed` — no object in a document repeats a name

## Main results

* `Json.sortMembers_eq_of_perm` — members without a repeated name have one sorted order
* `Json.sorted_eq_of_rearranged`, `Json.rearranged_of_sorted_eq` — rearranged documents are those
  that are sorted to the same document
-/

namespace ComponentCompiler

/-- Two lists of pairs have the same keys in some order, and values that are alike under each key. -/
structure SameEntries {α β : Type} (alike : α → β → Prop) (entries : List (String × α))
    (others : List (String × β)) : Prop where
  keys : (keysOf entries).Perm (keysOf others)
  values : ∀ key value other, (key, value) ∈ entries → (key, other) ∈ others → alike value other

theorem nodup_of_keysOf {α : Type} {entries : List (String × α)}
    (distinct : (keysOf entries).Nodup) : entries.Nodup :=
  distinct.of_map Prod.fst

theorem SameEntries.subset {α : Type} {entries others : List (String × α)}
    (same : SameEntries Eq entries others) : entries ⊆ others := by
  rintro ⟨key, value⟩ member
  obtain ⟨⟨_, other⟩, held, rfl⟩ :=
    List.mem_map.1 (same.keys.subset (List.mem_map_of_mem member))
  rwa [same.values _ value other member held]

/-- Lists with the same entries and without a repeated key are permutations of each other. -/
theorem SameEntries.perm {α : Type} {entries others : List (String × α)}
    (same : SameEntries Eq entries others) (distinct : (keysOf entries).Nodup) :
    entries.Perm others := by
  have back : SameEntries Eq others entries :=
    ⟨same.keys.symm, fun key value other held member => (same.values key other value member held).symm⟩
  rw [List.perm_ext_iff_of_nodup (nodup_of_keysOf distinct)
    (nodup_of_keysOf (same.keys.nodup distinct))]
  exact fun pair => ⟨fun member => same.subset member, fun held => back.subset held⟩

theorem exists_alike_of_mem {α β : Type} {alike : α → β → Prop} {entries : List (String × α)}
    {others : List (String × β)}
    (each : List.Forall₂ (fun entry other => entry.1 = other.1 ∧ alike entry.2 other.2) entries
      others) {key : String} {value : α} (member : (key, value) ∈ entries) :
    ∃ other, (key, other) ∈ others ∧ alike value other := by
  induction each with
  | nil => cases member
  | @cons entry other rest others first _ ih =>
    rcases List.mem_cons.1 member with rfl | later
    · obtain ⟨_, found⟩ := other
      obtain ⟨rfl, alike⟩ := first
      exact ⟨found, List.mem_cons_self, alike⟩
    · obtain ⟨found, held, alike⟩ := ih later
      exact ⟨found, List.mem_cons_of_mem _ held, alike⟩

/-- Entries are the same if they are alike in order after the others have been moved. -/
theorem SameEntries.of_forall₂ {α β : Type} {alike : α → β → Prop} {entries : List (String × α)}
    {moved others : List (String × β)} (shuffled : moved.Perm others)
    (each : List.Forall₂ (fun entry other => entry.1 = other.1 ∧ alike entry.2 other.2) entries
      moved) (distinct : (keysOf moved).Nodup) : SameEntries alike entries others := by
  constructor
  case keys =>
    have keys : keysOf entries = keysOf moved := by
      clear shuffled distinct
      induction each with
      | nil => rfl
      | cons first _ ih => exact congrArg₂ List.cons first.1 ih
    exact keys ▸ shuffled.map Prod.fst
  case values =>
    intro key value other member held
    obtain ⟨found, present, alike⟩ := exists_alike_of_mem each member
    rwa [Dictionary.eq_of_mem_pairs distinct (shuffled.symm.subset held) present]

/-- What is made of alike entries is alike if what is made of alike values is. -/
theorem SameEntries.map {α β γ δ : Type} {alike : α → β → Prop} {matching : γ → δ → Prop}
    {entries : List (String × α)} {others : List (String × β)}
    (same : SameEntries alike entries others) (f : String → α → γ) (g : String → β → δ)
    (each : ∀ key value other, alike value other → matching (f key value) (g key other)) :
    SameEntries matching (entries.map fun pair => (pair.1, f pair.1 pair.2))
      (others.map fun pair => (pair.1, g pair.1 pair.2)) where
  keys := by simpa [keysOf, Function.comp_def] using same.keys
  values := by
    intro key _ _ member held
    obtain ⟨⟨_, value⟩, old, pairIs⟩ := List.mem_map.1 member
    obtain ⟨⟨_, other⟩, oldOther, otherIs⟩ := List.mem_map.1 held
    cases pairIs
    cases otherIs
    exact each _ value other (same.values _ value other old oldOther)

namespace Json

mutual

/-- What holds of a value if it holds of its items and members holds of every value. -/
theorem induct {motive : Json → Prop} (null : motive .null) (bool : ∀ value, motive (.bool value))
    (int : ∀ value, motive (.int value)) (float : ∀ value, motive (.float value))
    (string : ∀ value, motive (.string value))
    (array : ∀ items, (∀ item ∈ items, motive item) → motive (.array items))
    (object : ∀ members, (∀ pair ∈ members, motive pair.2) → motive (.object members)) :
    (value : Json) → motive value
  | .null => null
  | .bool value => bool value
  | .int value => int value
  | .float value => float value
  | .string value => string value
  | .array items => array items (induct_items null bool int float string array object items)
  | .object members =>
    object members (induct_members null bool int float string array object members)

theorem induct_items {motive : Json → Prop} (null : motive .null)
    (bool : ∀ value, motive (.bool value)) (int : ∀ value, motive (.int value))
    (float : ∀ value, motive (.float value)) (string : ∀ value, motive (.string value))
    (array : ∀ items, (∀ item ∈ items, motive item) → motive (.array items))
    (object : ∀ members, (∀ pair ∈ members, motive pair.2) → motive (.object members)) :
    (items : List Json) → ∀ item ∈ items, motive item
  | [], _, member => by cases member
  | first :: rest, item, member => by
    rcases List.mem_cons.1 member with same | later
    · exact same ▸ induct null bool int float string array object first
    · exact induct_items null bool int float string array object rest item later

theorem induct_members {motive : Json → Prop} (null : motive .null)
    (bool : ∀ value, motive (.bool value)) (int : ∀ value, motive (.int value))
    (float : ∀ value, motive (.float value)) (string : ∀ value, motive (.string value))
    (array : ∀ items, (∀ item ∈ items, motive item) → motive (.array items))
    (object : ∀ members, (∀ pair ∈ members, motive pair.2) → motive (.object members)) :
    (members : List (String × Json)) → ∀ pair ∈ members, motive pair.2
  | [], _, member => by cases member
  | (key, value) :: rest, pair, member => by
    rcases List.mem_cons.1 member with same | later
    · exact same ▸ induct null bool int float string array object value
    · exact induct_members null bool int float string array object rest pair later

end

/-- Two documents differ in the order of members only: arrays are alike item by item, and objects
have the same names, none of them repeated, with alike values. -/
inductive Rearranged : Json → Json → Prop
  | null : Rearranged .null .null
  | bool (value : Bool) : Rearranged (.bool value) (.bool value)
  | int (value : Int) : Rearranged (.int value) (.int value)
  | float (value : Number.Binary64) : Rearranged (.float value) (.float value)
  | string (value : String) : Rearranged (.string value) (.string value)
  | array {items others : List Json} (same : List.Forall₂ Rearranged items others) :
      Rearranged (.array items) (.array others)
  | object {members others : List (String × Json)} (distinct : (keysOf members).Nodup)
      (keys : (keysOf members).Perm (keysOf others))
      (values : ∀ key value other, (key, value) ∈ members → (key, other) ∈ others →
        Rearranged value other) :
      Rearranged (.object members) (.object others)

/-! ### Sorting -/

theorem sortedItems_eq_map (items : List Json) : sortedItems items = items.map sorted := by
  induction items with
  | nil => simp [sortedItems]
  | cons item rest ih => simp [sortedItems, ih]

theorem sortedMembers_eq_map (members : List (String × Json)) :
    sortedMembers members = members.map fun pair => (pair.1, pair.2.sorted) := by
  induction members with
  | nil => simp [sortedMembers]
  | cons pair rest ih =>
    obtain ⟨key, value⟩ := pair
    simp [sortedMembers, ih]

theorem keysOf_sortedMembers (members : List (String × Json)) :
    keysOf (sortedMembers members) = keysOf members := by
  simp [sortedMembers_eq_map, keysOf, Function.comp_def]

theorem sortMembers_perm (members : List (String × Json)) : (sortMembers members).Perm members :=
  List.mergeSort_perm members _

/-- Members without a repeated name have only one sorted order. -/
theorem sortMembers_eq_of_perm {members others : List (String × Json)}
    (moved : members.Perm others) (distinct : (keysOf members).Nodup) :
    sortMembers members = sortMembers others := by
  have ordered (list : List (String × Json)) :
      (sortMembers list).Pairwise fun a b => decide (a.1 ≤ b.1) = true := by
    refine List.pairwise_mergeSort ?_ ?_ list
    · intro a b c one two
      simp only [decide_eq_true_eq] at one two ⊢
      exact String.le_trans one two
    · intro a b
      simp only [Bool.or_eq_true, decide_eq_true_eq]
      exact String.le_total a.1 b.1
  have same : (sortMembers members).Perm (sortMembers others) :=
    (sortMembers_perm members).trans (moved.trans (sortMembers_perm others).symm)
  refine same.eq_of_pairwise ?_ (ordered members) (ordered others)
  rintro ⟨key, value⟩ ⟨_, other⟩ member held one two
  -- Neither name is before the other, so the names are the same, and with them the members.
  obtain rfl : key = _ := String.le_antisymm (of_decide_eq_true one) (of_decide_eq_true two)
  have here := (sortMembers_perm members).subset member
  have there := moved.symm.subset ((sortMembers_perm others).subset held)
  rw [Dictionary.eq_of_mem_pairs distinct here there]

/-- Objects whose sorted members are the same up to their order are sorted to the same object. -/
theorem sorted_object_eq {members others : List (String × Json)}
    (distinct : (keysOf members).Nodup)
    (same : SameEntries (fun value other => value.sorted = other.sorted) members others) :
    (Json.object members).sorted = (Json.object others).sorted := by
  have mapped : SameEntries Eq (sortedMembers members) (sortedMembers others) := by
    rw [sortedMembers_eq_map, sortedMembers_eq_map]
    exact same.map (fun _ => sorted) (fun _ => sorted) fun _ _ _ equal => equal
  have distinctSorted : (keysOf (sortedMembers members)).Nodup := by
    rwa [keysOf_sortedMembers]
  rw [sorted, sorted, sortMembers_eq_of_perm (mapped.perm distinctSorted) distinctSorted]

theorem map_sorted_eq {items others : List Json} (same : List.Forall₂ Rearranged items others)
    (inItems : ∀ item ∈ items, ∀ {other : Json}, item.Rearranged other →
      item.sorted = other.sorted) : items.map sorted = others.map sorted := by
  induction same with
  | nil => rfl
  | cons first _ ih =>
    rw [List.map_cons, List.map_cons, inItems _ List.mem_cons_self first,
      ih fun item member => inItems item (List.mem_cons_of_mem _ member)]

/-- Rearranged documents are sorted to the same document. -/
theorem sorted_eq_of_rearranged {value other : Json} (rearranged : value.Rearranged other) :
    value.sorted = other.sorted := by
  induction value using induct generalizing other with
  | null | bool | int | float | string =>
    cases rearranged
    rfl
  | array items inItems =>
    cases rearranged with
    | array same =>
      have equal := map_sorted_eq same inItems
      simp only [sorted, sortedItems_eq_map, equal]
  | object members inMembers =>
    cases rearranged with
    | object distinct keys values =>
      exact sorted_object_eq distinct ⟨keys, fun key value other member held =>
        inMembers (key, value) member (values key value other member held)⟩

/-! ### What sorting keeps -/

/-- No object in a document repeats a name. -/
inductive WellFormed : Json → Prop
  | null : WellFormed .null
  | bool (value : Bool) : WellFormed (.bool value)
  | int (value : Int) : WellFormed (.int value)
  | float (value : Number.Binary64) : WellFormed (.float value)
  | string (value : String) : WellFormed (.string value)
  | array {items : List Json} (each : ∀ item ∈ items, WellFormed item) : WellFormed (.array items)
  | object {members : List (String × Json)} (distinct : (keysOf members).Nodup)
      (each : ∀ pair ∈ members, WellFormed pair.2) : WellFormed (.object members)

theorem forall₂_of_map_sorted_eq {items others : List Json}
    (equal : items.map sorted = others.map sorted)
    (inItems : ∀ item ∈ items, ∀ other ∈ others, item.sorted = other.sorted →
      item.Rearranged other) : List.Forall₂ Rearranged items others := by
  induction items generalizing others with
  | nil =>
    obtain rfl := List.map_eq_nil_iff.1 equal.symm
    exact .nil
  | cons item rest ih =>
    obtain ⟨other, others, rfl, first, later⟩ := List.map_eq_cons_iff.1 equal.symm
    refine .cons (inItems item List.mem_cons_self other List.mem_cons_self first.symm) ?_
    exact ih later.symm fun item member other held =>
      inItems item (List.mem_cons_of_mem _ member) other (List.mem_cons_of_mem _ held)

/-- Objects that are sorted to the same object have the same names, and under each name values that
are sorted to the same. -/
theorem sameEntries_of_sorted_object_eq {members others : List (String × Json)}
    (distinct : (keysOf others).Nodup)
    (equal : (Json.object members).sorted = (Json.object others).sorted) :
    SameEntries (fun value other => value.sorted = other.sorted) members others := by
  have sortedEqual : sortMembers (sortedMembers members) = sortMembers (sortedMembers others) := by
    simpa [sorted] using equal
  have moved : (sortedMembers members).Perm (sortedMembers others) :=
    (sortMembers_perm _).symm.trans (sortedEqual ▸ sortMembers_perm _)
  have mapped {list : List (String × Json)} {key : String} {value : Json}
      (member : (key, value) ∈ list) : (key, value.sorted) ∈ sortedMembers list := by
    rw [sortedMembers_eq_map]
    exact List.mem_map.2 ⟨_, member, rfl⟩
  constructor
  case keys =>
    have names := moved.map Prod.fst
    rwa [← keysOf_sortedMembers members, ← keysOf_sortedMembers others]
  case values =>
    intro key value other member held
    have distinctSorted : (keysOf (sortedMembers others)).Nodup := by
      rwa [keysOf_sortedMembers]
    exact Dictionary.eq_of_mem_pairs distinctSorted (moved.subset (mapped member)) (mapped held)

/-- Documents that are sorted to the same document are rearranged. -/
theorem rearranged_of_sorted_eq {value other : Json} (proper : value.WellFormed)
    (properOther : other.WellFormed) (equal : value.sorted = other.sorted) :
    value.Rearranged other := by
  induction value using induct generalizing other with
  | null | bool | int | float | string =>
    cases other <;> unfold sorted at equal <;> cases equal
    all_goals constructor
  | array items inItems =>
    cases proper with
    | array each =>
      cases properOther with
      | array eachOther =>
        unfold sorted at equal
        rw [Json.array.injEq, sortedItems_eq_map, sortedItems_eq_map] at equal
        exact .array (forall₂_of_map_sorted_eq equal fun item member other held same =>
          inItems item member (each item member) (eachOther other held) same)
      | _ =>
        unfold sorted at equal
        cases equal
  | object members inMembers =>
    cases proper with
    | object distinct each =>
      cases properOther with
      | object distinctOther eachOther =>
        have same := sameEntries_of_sorted_object_eq distinctOther equal
        exact .object distinct same.keys fun key value other member held =>
          inMembers (key, value) member (each _ member) (eachOther _ held)
            (same.values key value other member held)
      | _ =>
        unfold sorted at equal
        cases equal

end Json

end ComponentCompiler

import ComponentCompiler.Proofs.Component.Canonical
import ComponentCompiler.Proofs.Json.Sorted
import ComponentCompiler.Proofs.Page.Draft

/-!
# Components up to the order of entries

A component holds many mappings, whose order shows on the page: state and props, imported names, the
properties, bindings, annotations and scope of each node, and objects in annotations and in the
values of the state. Two components are rearranged if they differ in the order of these entries only,
the order of lists being the same. The stem for the attribute of the style sheet is taken from the
sorted document, so it does not depend on the order of entries: rearranged components have the same
stem.

## Main definitions

* `Node.Rearranged`, `Component.Rearranged` — two nodes, or components, differ in the order of entries
  only

## Main results

* `Component.Rearranged.sorted_encode` — rearranged components have the same sorted document
* `Page.compile_of_rearranged` — rearranged components have the same stem
-/

namespace ComponentCompiler

/-! ### What is rearranged -/

/-- Two nodes differ in the order of entries only, and perhaps in their stored kinds. -/
inductive Node.Rearranged : Node → Node → Prop
  | intro {node other : Node} (name : node.name = other.name)
      (properties : SameEntries Eq node.properties.toList other.properties.toList)
      (bindings : SameEntries Eq node.bindings.toList other.bindings.toList)
      (children : List.Forall₂ Rearranged node.children other.children)
      (alternative : Option.Rel Rearranged node.alternative other.alternative)
      (annotations : SameEntries Json.Rearranged node.annotations.toList other.annotations.toList)
      (scope : SameEntries Eq node.scope.toList other.scope.toList) : Rearranged node other

/-- Two state entries differ in the order of members of their values only. -/
structure StateEntry.Rearranged (entry other : StateEntry) : Prop where
  value : entry.value.Rearranged other.value
  role : entry.role = other.role

/-- Two imports differ in the order of the imported names only. -/
structure ImportSpec.Rearranged (spec other : ImportSpec) : Prop where
  path : spec.path = other.path
  names : SameEntries Eq spec.names.toList other.names.toList

/-- Two components differ in the order of entries only, and perhaps in the stored kinds of nodes. -/
structure Component.Rearranged (component other : Component) : Prop where
  name : component.name = other.name
  imports : List.Forall₂ ImportSpec.Rearranged component.imports other.imports
  state : SameEntries StateEntry.Rearranged component.state.toList other.state.toList
  props : SameEntries Eq component.props.toList other.props.toList
  hooks : component.hooks = other.hooks
  children : List.Forall₂ Node.Rearranged component.children other.children
  style : component.style = other.style
  propsType : component.propsType = other.propsType
  annotations : SameEntries Json.Rearranged component.annotations.toList other.annotations.toList

/-! ### Sorted documents -/

namespace Json

/-- Objects with the same names in the same order are sorted to the same object if their values are. -/
theorem sorted_object_congr {members others : List (String × Json)}
    (same : sortedMembers members = sortedMembers others) :
    (Json.object members).sorted = (Json.object others).sorted := by
  rw [sorted, sorted, same]

/-- Arrays are sorted to the same array if their items are. -/
theorem sorted_array_map {α : Type} {alike : α → α → Prop} {items others : List α}
    (same : List.Forall₂ alike items others) (write : α → Json)
    (each : ∀ item ∈ items, ∀ other, alike item other → (write item).sorted = (write other).sorted) :
    (Json.array (items.map write)).sorted = (Json.array (others.map write)).sorted := by
  rw [sorted, sorted, sortedItems_eq_map, sortedItems_eq_map, Json.array.injEq, List.map_map,
    List.map_map]
  induction same with
  | nil => rfl
  | cons first _ ih =>
    rw [List.map_cons, List.map_cons, ih fun item member => each item (List.mem_cons_of_mem _ member)]
    exact congrArg (· :: _) (each _ List.mem_cons_self _ first)

/-- Dictionaries with alike entries are written to objects that are sorted to the same object. -/
theorem sorted_entries {α : Type} {alike : α → α → Prop} {entries others : Entries α}
    (same : SameEntries alike entries.toList others.toList) (write : α → Json)
    (each : ∀ value other, alike value other → (write value).sorted = (write other).sorted) :
    (Json.object (entries.mapValues write).toList).sorted =
      (Json.object (others.mapValues write).toList).sorted := by
  refine sorted_object_eq (entries.mapValues write).distinct ?_
  exact same.map (fun _ => write) (fun _ => write) fun _ => each

theorem sorted_ofTexts {entries others : Entries String}
    (same : SameEntries Eq entries.toList others.toList) :
    (Json.ofTexts entries).sorted = (Json.ofTexts others).sorted :=
  sorted_entries same Json.string fun _ _ equal => equal ▸ rfl

end Json

theorem SameEntries.isEmpty_eq {α : Type} {alike : α → α → Prop} {entries others : Entries α}
    (same : SameEntries alike entries.toList others.toList) : entries.isEmpty = others.isEmpty := by
  have count := same.keys.length_eq
  simp only [List.length_map] at count
  rw [Dictionary.isEmpty, Dictionary.isEmpty, Bool.eq_iff_iff, List.isEmpty_iff_length_eq_zero,
    List.isEmpty_iff_length_eq_zero, count]

theorem encodeAnnotations_eq_map (alternative : Option Json) (annotations : Entries Json) :
    encodeAnnotations alternative annotations = annotations.toList.map fun pair =>
      (pair.1, if pair.1 = alternativeKey then alternative.getD pair.2 else pair.2) := by
  refine List.map_congr_left fun ⟨key, value⟩ _ => ?_
  show (if key = alternativeKey then (key, alternative.getD value) else (key, value)) =
    (key, if key = alternativeKey then alternative.getD value else value)
  split <;> rfl

theorem keysOf_encodeAnnotations (alternative : Option Json) (annotations : Entries Json) :
    keysOf (encodeAnnotations alternative annotations) = annotations.keys := by
  simp [encodeAnnotations_eq_map, keysOf, Dictionary.keys, Function.comp_def]

/-- The annotations of a node are sorted to the same object if those of the other node are the same up
to their order and the alternatives are sorted to the same document. -/
theorem sorted_encodeAnnotations {alternative other : Option Json}
    (alternatives : alternative.map Json.sorted = other.map Json.sorted)
    {annotations others : Entries Json}
    (same : SameEntries Json.Rearranged annotations.toList others.toList) :
    (Json.object (encodeAnnotations alternative annotations)).sorted =
      (Json.object (encodeAnnotations other others)).sorted := by
  have distinct : (keysOf (encodeAnnotations alternative annotations)).Nodup := by
    rw [keysOf_encodeAnnotations]
    exact annotations.distinct
  refine Json.sorted_object_eq distinct ?_
  rw [encodeAnnotations_eq_map, encodeAnnotations_eq_map]
  refine same.map (fun key value => if key = alternativeKey then alternative.getD value else value)
    (fun key value => if key = alternativeKey then other.getD value else value)
    fun key value held rearranged => ?_
  have sorted := Json.sorted_eq_of_rearranged rearranged
  split
  · cases alternative <;> cases other <;> simp_all
  · exact sorted

theorem sortedMembers_encodeScope {scope other : Entries String}
    (same : SameEntries Eq scope.toList other.toList) :
    Json.sortedMembers (encodeScope scope) = Json.sortedMembers (encodeScope other) := by
  rw [encodeScope, encodeScope, same.isEmpty_eq]
  split
  · rfl
  · simp only [Json.sortedMembers, Json.sorted_ofTexts same]

theorem sorted_encode_alternative {alternative other : Option Node}
    (same : Option.Rel Node.Rearranged alternative other)
    (each : ∀ node, alternative = some node → ∀ {next : Node}, node.Rearranged next →
      node.encode.sorted = next.encode.sorted) :
    (alternative.map Node.encode).map Json.sorted = (other.map Node.encode).map Json.sorted := by
  cases same with
  | none => rfl
  | some rearranged => exact congrArg some (each _ rfl rearranged)

/-- Rearranged nodes have the same sorted document. -/
theorem Node.Rearranged.sorted_encode {node other : Node} (rearranged : node.Rearranged other) :
    node.encode.sorted = other.encode.sorted := by
  induction node using Node.induct generalizing other with
  | step node inChildren inAlternative =>
    obtain ⟨name, properties, bindings, children, alternative, annotations, scope⟩ := rearranged
    have bound := Json.sorted_entries bindings Binding.encode fun _ _ equal => equal ▸ rfl
    have below := Json.sorted_array_map children Node.encode fun child member _ alike =>
      inChildren child member alike
    have noted := sorted_encodeAnnotations
      (sorted_encode_alternative alternative inAlternative) annotations
    rw [Node.encode_eq, Node.encode_eq]
    refine Json.sorted_object_congr ?_
    simp only [List.cons_append, List.nil_append, Json.sortedMembers, name, bound, below, noted,
      Json.sorted_ofTexts properties, sortedMembers_encodeScope scope]

theorem StateEntry.Rearranged.sorted_encode {entry other : StateEntry}
    (rearranged : entry.Rearranged other) : entry.encode.sorted = other.encode.sorted := by
  refine Json.sorted_object_congr ?_
  simp only [Json.sortedMembers, Json.sorted_eq_of_rearranged rearranged.value, rearranged.role]

theorem ImportSpec.Rearranged.sorted_encode {spec other : ImportSpec}
    (rearranged : spec.Rearranged other) : spec.encode.sorted = other.encode.sorted := by
  refine Json.sorted_object_congr ?_
  simp only [Json.sortedMembers, rearranged.path, Json.sorted_ofTexts rearranged.names]

theorem sorted_object_annotations {annotations others : Entries Json}
    (same : SameEntries Json.Rearranged annotations.toList others.toList) :
    (Json.object annotations.toList).sorted = (Json.object others.toList).sorted :=
  Json.sorted_object_eq annotations.distinct
    ⟨same.keys, fun key value other member held =>
      Json.sorted_eq_of_rearranged (same.values key value other member held)⟩

/-- Rearranged components have the same sorted document. -/
theorem Component.Rearranged.sorted_encode {component other : Component}
    (rearranged : component.Rearranged other) : component.encode.sorted = other.encode.sorted := by
  have imports := Json.sorted_array_map rearranged.imports ImportSpec.encode fun _ _ _ alike =>
    alike.sorted_encode
  have state := Json.sorted_entries rearranged.state StateEntry.encode fun _ _ alike =>
    alike.sorted_encode
  have props := Json.sorted_entries rearranged.props encodePropType fun _ _ equal => equal ▸ rfl
  have children := Json.sorted_array_map rearranged.children Node.encode fun _ _ _ alike =>
    alike.sorted_encode
  rw [Component.encode, Component.encode, encodeNodes_eq_map, encodeNodes_eq_map]
  refine Json.sorted_object_congr ?_
  simp only [List.cons_append, List.nil_append, Json.sortedMembers, rearranged.name, imports, state,
    props, rearranged.hooks, children, sorted_object_annotations rearranged.annotations,
    rearranged.style, rearranged.propsType]

namespace Page

/-- The stem does not depend on the order of entries. -/
theorem stylePrefix_of_rearranged {component other : Component}
    (rearranged : component.Rearranged other) : stylePrefix component = stylePrefix other := by
  rw [stylePrefix, stylePrefix, rearranged.sorted_encode]

/-- Rearranged components that are compiled without plugins have the same stem, which is the short
name of the one sorted document that both have. -/
theorem compile_of_rearranged {options : Options} (plain : options.plugins = [])
    {component other : Component} (rearranged : component.Rearranged other) :
    ∃ one another,
      (compile options component).outcome = .ok one ∧
      (compile options other).outcome = .ok another ∧
      one.stylePrefix = another.stylePrefix ∧
      one.stylePrefix = Digest.shortHash component.encode.sorted.compact ∧
      component.encode.sorted = other.encode.sorted := by
  obtain ⟨drafted, page, -, -, compiled⟩ := outcome_compile_of_plain plain component
  obtain ⟨otherDrafted, otherPage, -, -, otherCompiled⟩ := outcome_compile_of_plain plain other
  exact ⟨_, _, compiled, otherCompiled, stylePrefix_of_rearranged rearranged, rfl,
    rearranged.sorted_encode⟩

/-- A component with a value of the state that holds objects, and with a choice that has two
properties, two annotations and an alternative. -/
def parcel (measures : List (String × Json)) (properties : Entries String)
    (annotations : Entries Json) : Component where
  name := "Parcel"
  state := Dictionary.ofList [("size", ⟨.object measures, "property"⟩)]
  children :=
    [⟨"Show", properties, ∅, [], some ⟨"p", properties, ∅, [], none, ∅, ∅, .element⟩, annotations,
      ∅, .choice⟩]

def firstParcel : Component :=
  parcel [("width", .int 3), ("unit", .object [("name", .string "cm"), ("base", .int 10)])]
    (Dictionary.ofList [("id", "a"), ("title", "b")])
    (Dictionary.ofList [("else", .null), ("line", .int 7)])

def secondParcel : Component :=
  parcel [("unit", .object [("base", .int 10), ("name", .string "cm")]), ("width", .int 3)]
    (Dictionary.ofList [("title", "b"), ("id", "a")])
    (Dictionary.ofList [("line", .int 7), ("else", .null)])

theorem rearranged_parcel : firstParcel.Rearranged secondParcel := by
  have properties : SameEntries Eq (Dictionary.ofList [("id", "a"), ("title", "b")]).toList
      (Dictionary.ofList [("title", "b"), ("id", "a")]).toList :=
    .of_forall₂ (List.Perm.swap _ _ _) (.cons ⟨rfl, rfl⟩ (.cons ⟨rfl, rfl⟩ .nil)) (by decide)
  have annotations : SameEntries Json.Rearranged
      (Dictionary.ofList [("else", Json.null), ("line", .int 7)]).toList
      (Dictionary.ofList [("line", Json.int 7), ("else", .null)]).toList :=
    .of_forall₂ (List.Perm.swap _ _ _) (.cons ⟨rfl, .null⟩ (.cons ⟨rfl, .int 7⟩ .nil)) (by decide)
  have unit : SameEntries Json.Rearranged [("name", .string "cm"), ("base", .int 10)]
      [("base", .int 10), ("name", .string "cm")] :=
    .of_forall₂ (List.Perm.swap _ _ _) (.cons ⟨rfl, .string _⟩ (.cons ⟨rfl, .int _⟩ .nil))
      (by decide)
  have size : SameEntries Json.Rearranged
      [("width", .int 3), ("unit", .object [("name", .string "cm"), ("base", .int 10)])]
      [("unit", .object [("base", .int 10), ("name", .string "cm")]), ("width", .int 3)] :=
    .of_forall₂ (List.Perm.swap _ _ _)
      (.cons ⟨rfl, .int 3⟩ (.cons ⟨rfl, .object (by decide) unit.keys unit.values⟩ .nil))
      (by decide)
  have nothing {α : Type} {alike : α → α → Prop} : SameEntries alike [] [] :=
    .of_forall₂ .nil .nil .nil
  exact {
    name := rfl
    imports := .nil
    state := .of_forall₂ .rfl (.cons ⟨rfl, .object (by decide) size.keys size.values, rfl⟩ .nil)
      (by decide)
    props := nothing
    hooks := rfl
    children := .cons (.intro rfl properties nothing .nil
      (.some (.intro rfl properties nothing .nil .none nothing nothing)) annotations nothing) .nil
    style := rfl
    propsType := rfl
    annotations := nothing }

/-- The two components have the same stem, although their pages need not be the same. -/
theorem compile_parcel : ({} : Options).plugins = [] ∧ firstParcel.Rearranged secondParcel ∧
    ∃ one another,
      (compile {} firstParcel).outcome = .ok one ∧
      (compile {} secondParcel).outcome = .ok another ∧
      one.stylePrefix = another.stylePrefix ∧
      one.stylePrefix = Digest.shortHash firstParcel.encode.sorted.compact ∧
      firstParcel.encode.sorted = secondParcel.encode.sorted :=
  ⟨rfl, rearranged_parcel, compile_of_rearranged rfl rearranged_parcel⟩

end Page

end ComponentCompiler

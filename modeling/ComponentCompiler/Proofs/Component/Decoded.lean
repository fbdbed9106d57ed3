import ComponentCompiler.Failure
import ComponentCompiler.Proofs.Component.Forest
import Mathlib.Data.Nat.Digits.Defs

/-!
# What a document can describe

Not every component can be read from a document. Reading brings all kinds up to date, gives each
binding a mode and each state entry a role, and keeps the place of an alternative among the
annotations of its node.

## Main definitions

* `Node.IsStorable`, `Component.IsStorable` — nothing but what a document can describe

## Main results

* `Json.asText_ne_empty` — what does not count as absent has a text
* `forall_walk_of_decode` — what holds of every node that is read holds at any depth
* `Component.storable_of_decode` — what is read from a document is storable
* `settled_of_loadComponent` — all kinds of what is loaded are up to date
-/

namespace ComponentCompiler

/-! ### Texts of values -/

namespace Number

theorem Digits.positional_ne_nil (d : Digits) : d.positional ≠ [] := by
  unfold positional
  dsimp only
  split_ifs <;> simp

theorem Digits.scientific_ne_nil (exponentDigits : Nat) (d : Digits) :
    d.scientific exponentDigits ≠ [] := by
  simp [scientific]

theorem Binary64.render_displayLayout_ne_empty (value : Binary64) :
    value.render Json.displayLayout ≠ "" := by
  unfold render
  split
  · decide
  · next negative => cases negative <;> decide
  · next negative significand exponent =>
    extract_lets d text
    have written : text ≠ [] := by
      unfold text
      split
      · exact d.positional_ne_nil
      · exact d.scientific_ne_nil _
    intro empty
    have nothing := congrArg String.toList empty
    rw [String.toList_ofList] at nothing
    cases negative with
    | false => exact written nothing
    | true => cases nothing

end Number

namespace Json

theorem display_ne_empty : (value : Json) → (∀ text, value ≠ .string text) → value.display ≠ ""
  | .null, _ => by simp [display]
  | .bool value, _ => by cases value <;> simp [display]
  | .int (.ofNat n), _ => n.repr_ne_empty
  | .int (.negSucc n), _ => by
    show "-" ++ (n + 1).repr ≠ ""
    simp
  | .float value, _ => by
    rw [display]
    exact value.render_displayLayout_ne_empty
  | .string text, other => absurd rfl (other text)
  | .array items, _ => by simp [display]
  | .object members, _ => by simp [display]

/-- A value that does not count as absent has a text that is not empty. -/
theorem asText_ne_empty {value : Json} (present : value.isFalsy = false) : value.asText ≠ "" := by
  unfold asText
  split
  · next text => simpa [isFalsy] using present
  · next other => exact value.display_ne_empty other

end Json

/-! ### Reading step by step -/

/-- A value was read in two steps if both steps succeeded. -/
theorem Decoded.exists_of_bind {α β : Type} {first : Decoded α} {next : α → Decoded β} {result : β}
    (read : (first >>= next) = .ok result) :
    ∃ value, first = .ok value ∧ next value = .ok result := by
  cases first with
  | error fault => cases read
  | ok value => exact ⟨value, rfl, read⟩

theorem sectionOr_isFalsy {empty : Json} (default : empty.isFalsy = false) (key : String)
    (members : List (String × Json)) : (sectionOr empty key members).isFalsy = false := by
  unfold sectionOr
  dsimp only
  split
  · exact default
  · next present => simpa using present

/-- A section that is an object is read as it is, also if it is empty and so counts as absent. -/
theorem sectionOr_object {key : String} {members inner : List (String × Json)}
    (found : lookup? key members = some (.object inner)) :
    sectionOr (.object []) key members = .object inner := by
  cases inner <;> simp [sectionOr, memberOr, found, Json.isFalsy]

theorem objectSection_of_lookup? (place : Place) {key : String} {members inner : List (String × Json)}
    (found : lookup? key members = some (.object inner)) :
    objectSection place key members = .ok inner := by
  rw [objectSection, sectionOr_object found]
  rfl

/-- The parts from which a node was put together. -/
theorem Node.exists_of_decode {place : Place} {members : List (String × Json)} {node : Node}
    (read : Node.decode place (.object members) = .ok node) :
    ∃ name properties bindingMembers bindings annotations alternative scope children,
      decodeBindings (place.key "bindings") bindingMembers = .ok bindings ∧
      objectSection place "meta" members = .ok annotations ∧
      alternativeIn (place.key "meta") members = .ok alternative ∧
      childrenIn (place.key "children") members = .ok children ∧
      node = Node.refresh
        { name := name
          properties := textEntries properties
          bindings := Dictionary.ofList bindings
          children := children
          alternative := alternative
          annotations := annotationEntries annotations
          scope := textEntries scope
          kind := .element } := by
  rw [Node.decode] at read
  obtain ⟨-, -, read⟩ := Decoded.exists_of_bind read
  dsimp only at read
  split at read
  -- Without a name nothing further is read.
  case h_2 => cases read
  simp only [pure_bind] at read
  obtain ⟨properties, -, read⟩ := Decoded.exists_of_bind read
  obtain ⟨bindingMembers, -, read⟩ := Decoded.exists_of_bind read
  obtain ⟨bindings, readBindings, read⟩ := Decoded.exists_of_bind read
  obtain ⟨annotations, readAnnotations, read⟩ := Decoded.exists_of_bind read
  obtain ⟨alternative, readAlternative, read⟩ := Decoded.exists_of_bind read
  obtain ⟨scope, -, read⟩ := Decoded.exists_of_bind read
  obtain ⟨name, -, read⟩ := Decoded.exists_of_bind read
  obtain ⟨children, readChildren, read⟩ := Decoded.exists_of_bind read
  cases read
  exact ⟨name, properties, bindingMembers, bindings, annotations, alternative, scope, children,
    readBindings, readAnnotations, readAlternative, readChildren, rfl⟩

/-! ### Sections that are found by their name -/

theorem alternativeIn_eq (place : Place) (members : List (String × Json)) :
    alternativeIn place members =
      match lookup? "meta" members with
      | none => .ok none
      | some value => decodeAlternative place value := by
  induction members with
  | nil => simp [alternativeIn, lookup?]
  | cons member rest ih =>
    obtain ⟨key, value⟩ := member
    by_cases here : key = "meta" <;> simp [alternativeIn, lookup?, here, ih]

theorem childrenIn_eq (place : Place) (members : List (String × Json)) :
    childrenIn place members = decodeChildren place (memberOr .null "children" members) := by
  induction members with
  | nil => rfl
  | cons member rest ih =>
    obtain ⟨key, value⟩ := member
    rw [childrenIn, memberOr, lookup?]
    split
    · rfl
    · exact ih

theorem alternativeAmong_eq (place : Place) (members : List (String × Json)) :
    alternativeAmong place members =
      match lookup? alternativeKey members with
      | none | some .null => .ok none
      | some value => (Node.decode (place.key alternativeKey) value).map some := by
  induction members with
  | nil => simp [alternativeAmong, lookup?]
  | cons member rest ih =>
    obtain ⟨key, value⟩ := member
    by_cases here : key = alternativeKey
    · subst here
      cases value <;> simp [alternativeAmong, lookup?] <;> rfl
    · unfold alternativeAmong
      rw [if_neg here, lookup?, if_neg here]
      exact ih

theorem eq_nil_of_decodeChildren {place : Place} {value : Json} {nodes : List Node}
    (other : ∀ items, value ≠ .array items) (read : decodeChildren place value = .ok nodes) :
    nodes = [] := by
  unfold decodeChildren at read
  split at read
  · next items => exact absurd rfl (other items)
  · split at read <;> cases read
    rfl

theorem eq_none_of_decodeAlternative {place : Place} {value : Json} {alternative : Option Node}
    (other : ∀ members, value ≠ .object members)
    (read : decodeAlternative place value = .ok alternative) : alternative = none := by
  unfold decodeAlternative at read
  split at read
  · next members => exact absurd rfl (other members)
  · cases read
    rfl

/-! ### Nodes from documents -/

/-- What the data of a node is like if it was read from a document. -/
structure Node.IsStorable (node : Node) : Prop where
  modes : ∀ pair ∈ node.bindings.toList, pair.2.mode ≠ ""
  /-- The place of the alternative among the annotations holds nothing else. -/
  vacant : ∀ value, (alternativeKey, value) ∈ node.annotations.toList → value = .null
  /-- An alternative has a place among the annotations. -/
  placed : node.alternative.isSome → alternativeKey ∈ node.annotations.keys

theorem Binding.mode_ne_empty_of_decode {place : Place} {document : Json} {binding : Binding}
    (read : Binding.decode place document = .ok binding) : binding.mode ≠ "" := by
  obtain ⟨members, -, read⟩ := Decoded.exists_of_bind read
  obtain ⟨code, -, read⟩ := Decoded.exists_of_bind read
  obtain ⟨arguments, -, read⟩ := Decoded.exists_of_bind read
  obtain ⟨mode, readMode, read⟩ := Decoded.exists_of_bind read
  cases read
  have present : (sectionOr (.string "single") "type" members).isFalsy = false :=
    sectionOr_isFalsy rfl "type" members
  cases value : sectionOr (.string "single") "type" members with
  | string text =>
    rw [value] at readMode present
    cases readMode
    simpa [Json.isFalsy] using present
  | _ =>
    rw [value] at readMode
    cases readMode

theorem modes_of_decodeBindings {place : Place} {members : List (String × Json)}
    {bindings : List (String × Binding)} (read : decodeBindings place members = .ok bindings) :
    ∀ pair ∈ bindings, pair.2.mode ≠ "" := by
  induction members generalizing bindings with
  | nil =>
    cases read
    simp
  | cons member rest ih =>
    obtain ⟨key, value⟩ := member
    rw [decodeBindings] at read
    split at read
    · exact ih read
    · obtain ⟨binding, readFirst, read⟩ := Decoded.exists_of_bind read
      obtain ⟨others, readRest, read⟩ := Decoded.exists_of_bind read
      cases read
      exact List.forall_mem_cons.2
        ⟨Binding.mode_ne_empty_of_decode readFirst, ih readRest⟩

theorem vacant_annotationEntries {members : List (String × Json)} {value : Json}
    (member : (alternativeKey, value) ∈ (annotationEntries members).toList) : value = .null := by
  obtain ⟨⟨key, given⟩, -, same⟩ := List.mem_map.1 (Dictionary.mem_of_mem_ofList member)
  dsimp only at same
  split at same
  · exact (Prod.mk.inj same).2.symm
  · next other => exact absurd (Prod.mk.inj same).1 other

theorem keysOf_annotations (members : List (String × Json)) :
    keysOf (members.map fun member =>
      if member.1 = alternativeKey then (member.1, Json.null) else (member.1, member.2)) =
        keysOf members := by
  rw [keysOf, List.map_map]
  refine List.map_congr_left fun member _ => ?_
  dsimp only [Function.comp_apply]
  split <;> rfl

/-- A document with an alternative has its key among the annotations. -/
theorem placed_of_alternativeIn {place inner : Place} {members annotations : List (String × Json)}
    {node : Node} (readAnnotations : objectSection place "meta" members = .ok annotations)
    (readAlternative : alternativeIn inner members = .ok (some node)) :
    alternativeKey ∈ (annotationEntries annotations).keys := by
  refine Dictionary.mem_keys_ofList.2 ((keysOf_annotations annotations).symm ▸ ?_)
  rw [← Dictionary.isSome_lookup?]
  rw [alternativeIn_eq] at readAlternative
  split at readAlternative
  · cases readAlternative
  · next value found =>
    cases value with
    | object given =>
      rw [objectSection_of_lookup? place found] at readAnnotations
      obtain rfl := Except.ok.inj readAnnotations
      rw [decodeAlternative, alternativeAmong_eq] at readAlternative
      cases held : lookup? alternativeKey given with
      | none =>
        rw [held] at readAlternative
        cases readAlternative
      | some value => rfl
    | _ => cases readAlternative

theorem Node.isStorable_of_decode {place : Place} {members : List (String × Json)} {node : Node}
    (read : Node.decode place (.object members) = .ok node) : node.IsStorable := by
  obtain ⟨name, properties, bindingMembers, bindings, annotations, alternative, scope, children,
    readBindings, readAnnotations, readAlternative, -, rfl⟩ := Node.exists_of_decode read
  constructor
  case modes =>
    exact fun pair member =>
      modes_of_decodeBindings readBindings pair (Dictionary.mem_of_mem_ofList member)
  case vacant => exact fun value member => vacant_annotationEntries member
  case placed =>
    intro held
    obtain ⟨other, rfl⟩ := Option.isSome_iff_exists.1 held
    exact placed_of_alternativeIn readAnnotations readAlternative

/-- Every node that is read from an object has the property. -/
def HoldsOfRead (motive : Node → Prop) : Prop :=
  ∀ {place : Place} {members : List (String × Json)} {node : Node},
    Node.decode place (.object members) = .ok node → motive node

section Reading

variable {motive : Node → Prop}

-- One statement for each function of the reader, by recursion along with it.
mutual

/-- What holds of every node that is read from an object holds at any depth of it. -/
theorem forall_walk_of_decode (own : HoldsOfRead motive) {place : Place} :
    {document : Json} → {node : Node} →
    Node.decode place document = .ok node → ∀ inner ∈ node.walk, motive inner
  | .object members, node, read => by
    have here := own read
    obtain ⟨name, properties, bindingMembers, bindings, annotations, alternative, scope, children,
      -, -, readAlternative, readChildren, rfl⟩ := Node.exists_of_decode read
    intro inner member
    rw [Node.walk_eq] at member
    rcases List.mem_cons.1 member with rfl | below
    · exact here
    rcases List.mem_append.1 below with inside | inside
    · exact forall_walk_of_childrenIn own readChildren inner inside
    · exact forall_walk_of_alternativeIn own readAlternative inner inside

theorem forall_walk_of_childrenIn (own : HoldsOfRead motive) {place : Place} :
    {members : List (String × Json)} → {nodes : List Node} →
    childrenIn place members = .ok nodes → ∀ inner ∈ walk nodes, motive inner
  | [], nodes, read => by
    rw [childrenIn] at read
    cases read
    simp
  | (key, value) :: rest, nodes, read => by
    rw [childrenIn] at read
    split at read
    · exact forall_walk_of_decodeChildren own read
    · exact forall_walk_of_childrenIn own read

theorem forall_walk_of_decodeChildren (own : HoldsOfRead motive) {place : Place} :
    {value : Json} → {nodes : List Node} →
    decodeChildren place value = .ok nodes → ∀ inner ∈ walk nodes, motive inner
  | value, nodes, read => by
    cases value with
    | array items =>
      rw [decodeChildren] at read
      exact forall_walk_of_decodeNodes own read
    | _ =>
      rw [eq_nil_of_decodeChildren (by simp) read]
      simp

theorem forall_walk_of_decodeNodes (own : HoldsOfRead motive) {place : Place} {i : Nat} :
    {items : List Json} → {nodes : List Node} →
    decodeNodes place i items = .ok nodes → ∀ inner ∈ walk nodes, motive inner
  | [], nodes, read => by
    rw [decodeNodes] at read
    cases read
    simp
  | item :: rest, nodes, read => by
    rw [decodeNodes] at read
    obtain ⟨node, readFirst, read⟩ := Decoded.exists_of_bind read
    obtain ⟨others, readRest, read⟩ := Decoded.exists_of_bind read
    cases read
    rw [walk_cons]
    exact List.forall_mem_append.2
      ⟨forall_walk_of_decode own readFirst, forall_walk_of_decodeNodes own readRest⟩

theorem forall_walk_of_alternativeIn (own : HoldsOfRead motive) {place : Place} :
    {members : List (String × Json)} → {alternative : Option Node} →
    alternativeIn place members = .ok alternative →
    ∀ inner ∈ (alternative.map Node.walk).getD [], motive inner
  | [], alternative, read => by
    rw [alternativeIn] at read
    cases read
    simp
  | (key, value) :: rest, alternative, read => by
    rw [alternativeIn] at read
    split at read
    · exact forall_walk_of_decodeAlternative own read
    · exact forall_walk_of_alternativeIn own read

theorem forall_walk_of_decodeAlternative (own : HoldsOfRead motive) {place : Place} :
    {value : Json} → {alternative : Option Node} →
    decodeAlternative place value = .ok alternative →
    ∀ inner ∈ (alternative.map Node.walk).getD [], motive inner
  | value, alternative, read => by
    cases value with
    | object members =>
      rw [decodeAlternative] at read
      exact forall_walk_of_alternativeAmong own read
    | _ =>
      rw [eq_none_of_decodeAlternative (by simp) read]
      simp

theorem forall_walk_of_alternativeAmong (own : HoldsOfRead motive) {place : Place} :
    {members : List (String × Json)} → {alternative : Option Node} →
    alternativeAmong place members = .ok alternative →
    ∀ inner ∈ (alternative.map Node.walk).getD [], motive inner
  | [], alternative, read => by
    rw [alternativeAmong] at read
    cases read
    simp
  | (key, value) :: rest, alternative, read => by
    unfold alternativeAmong at read
    split at read
    · split at read
      · cases read
        simp
      · obtain ⟨node, readNode, read⟩ := Decoded.exists_of_bind read
        cases read
        exact forall_walk_of_decode own readNode
    · exact forall_walk_of_alternativeAmong own read

end

end Reading

theorem Node.isSettled_of_decode {place : Place} {members : List (String × Json)} {node : Node}
    (read : Node.decode place (.object members) = .ok node) : node.IsSettled := by
  obtain ⟨name, properties, bindingMembers, bindings, annotations, alternative, scope, children,
    -, -, -, -, rfl⟩ := Node.exists_of_decode read
  rfl

/-! ### Components from documents -/

theorem StateEntry.role_ne_empty_of_decode (document : Json) :
    (StateEntry.decode document).role ≠ "" := by
  unfold StateEntry.decode
  split
  · exact Json.asText_ne_empty (sectionOr_isFalsy rfl "type" _)
  · show "property" ≠ ""
    decide

/-- What the data of a component is like if it was read from a document. -/
structure Component.IsStorable (component : Component) : Prop where
  roles : ∀ pair ∈ component.state.toList, pair.2.role ≠ ""
  nodes : ∀ node ∈ component.nodes, node.IsStorable

/-- The parts from which the state and the children of a component were put together. -/
theorem Component.exists_of_decode {document : Json} {component : Component}
    (read : Component.decode document = .ok component) :
    ∃ (place : Place) (members state : List (String × Json)),
      childrenIn place members = .ok component.children ∧
      component.state =
        Dictionary.ofList (state.map fun (key, value) => (key, StateEntry.decode value)) := by
  obtain ⟨members, -, read⟩ := Decoded.exists_of_bind read
  obtain ⟨-, -, read⟩ := Decoded.exists_of_bind read
  obtain ⟨name, -, read⟩ := Decoded.exists_of_bind read
  obtain ⟨imports, -, read⟩ := Decoded.exists_of_bind read
  obtain ⟨state, -, read⟩ := Decoded.exists_of_bind read
  obtain ⟨props, -, read⟩ := Decoded.exists_of_bind read
  obtain ⟨hooks, -, read⟩ := Decoded.exists_of_bind read
  obtain ⟨children, readChildren, read⟩ := Decoded.exists_of_bind read
  obtain ⟨style, -, read⟩ := Decoded.exists_of_bind read
  obtain ⟨propsType, -, read⟩ := Decoded.exists_of_bind read
  obtain ⟨annotations, -, read⟩ := Decoded.exists_of_bind read
  cases read
  exact ⟨_, _, state, readChildren, rfl⟩

/-- A component that was read from a document is storable. -/
theorem Component.storable_of_decode {document : Json} {component : Component}
    (read : Component.decode document = .ok component) : component.IsStorable := by
  obtain ⟨place, members, state, readChildren, stateIs⟩ := Component.exists_of_decode read
  constructor
  case roles =>
    intro pair member
    rw [stateIs] at member
    obtain ⟨⟨key, value⟩, -, rfl⟩ := List.mem_map.1 (Dictionary.mem_of_mem_ofList member)
    exact StateEntry.role_ne_empty_of_decode value
  case nodes => exact forall_walk_of_childrenIn Node.isStorable_of_decode readChildren

/-- All kinds below a node of a component that was loaded are up to date. -/
theorem settled_of_loadComponent {document : Json} {component : Component}
    (loaded : loadComponent document = .ok component) {node : Node}
    (inside : node ∈ component.nodes) : ∀ inner ∈ node.walk, inner.IsSettled := by
  unfold loadComponent at loaded
  cases read : Component.decode document with
  | error error =>
    rw [read] at loaded
    cases loaded
  | ok other =>
    rw [read] at loaded
    cases loaded
    obtain ⟨place, members, -, readChildren, -⟩ := Component.exists_of_decode read
    -- What is below a node was read together with it, so this holds of every node that is read.
    apply forall_walk_of_childrenIn (motive := fun node => ∀ inner ∈ node.walk, inner.IsSettled)
      _ readChildren node inside
    intro place members node readNode
    exact forall_walk_of_decode Node.isSettled_of_decode readNode

end ComponentCompiler

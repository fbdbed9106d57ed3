import ComponentCompiler.Proofs.Component.Canonical
import ComponentCompiler.Proofs.Component.Decoded

/-!
# Documents that are read back

A component that was read from a document is written as a document that can be read again, and what
is read again is the canonical form of the component. The parts of a component are read back one by
one, in the order in which a document is read.

## Main results

* `Node.decode_encode` — a storable node is read back in canonical form
* `Component.decode_encode` — so is a storable component
-/

namespace ComponentCompiler

/-! ### Texts and names -/

@[simp] theorem Decoded.ok_bind {α β : Type} (value : α) (next : α → Decoded β) :
    ((.ok value : Decoded α) >>= next) = next value := rfl

/-- Texts are read back as they were written. -/
theorem textEntries_ofTexts (entries : Entries String) :
    textEntries (entries.mapValues Json.string).toList = entries := by
  have same : (entries.mapValues Json.string).toList.filterMap (fun pair =>
      if pair.2.isNull then none else some (pair.1, pair.2.asText)) = entries.toList := by
    rw [Dictionary.toList_mapValues, List.filterMap_map]
    exact List.filterMap_some
  exact (congrArg Dictionary.ofList same).trans (Dictionary.ofList_toList entries)

theorem namesOf?_map_string (names : List String) : namesOf? (names.map .string) = some names := by
  induction names with
  | nil => rfl
  | cons name rest ih => simp [namesOf?, ih]

theorem optionalString_ofOptional (place : Place) (text : Option String) :
    optionalString place (Json.ofOptional text) = .ok text := by
  cases text <;> rfl

/-! ### Bindings -/

theorem decodeBindingCode_encode (place : Place) (code : Option String)
    (others : List (String × Json)) :
    decodeBindingCode place (("code", Json.ofOptional code) :: others) = .ok code := by
  cases code <;> rfl

theorem decodeArguments_array (place : Place) {members : List (String × Json)}
    (names : List String)
    (found : lookup? "arguments" members = some (.array (names.map .string))) :
    decodeArguments place members = .ok (some names) := by
  simp [decodeArguments, memberOr, found, namesOf?_map_string]

/-- A binding is read back without an empty list of parameters. -/
theorem Binding.decode_encode (place : Place) {binding : Binding} (named : binding.mode ≠ "") :
    Binding.decode place binding.encode = .ok binding.canonical := by
  obtain ⟨code, mode, arguments, isAsync⟩ := binding
  have present : mode ≠ "" := named
  -- The code and the mode come first; what follows decides the parameters and the last flag.
  have read (rest : List (String × Json)) {members : List (String × Json)}
      {arguments : Option (List String)} {isAsync : Bool}
      (whole : members = ("code", Json.ofOptional code) :: ("type", .string mode) :: rest)
      (readArguments : decodeArguments place members = .ok arguments)
      (readAsync : (!(memberOr (.bool false) "async" members).isFalsy) = isAsync) :
      Binding.decode place (.object members) =
        .ok { code := code, mode := mode, arguments := arguments, isAsync := isAsync } := by
    have readCode : decodeBindingCode place members = .ok code := by
      rw [whole]
      exact decodeBindingCode_encode place code _
    have readMode : sectionOr (.string "single") "type" members = .string mode := by
      simp [whole, sectionOr, memberOr, lookup?, Json.isFalsy, present]
    simp [Binding.decode, expectObject, readCode, readArguments, readMode, readAsync, expectString]
  rcases arguments with _ | (_ | ⟨name, names⟩) <;> cases isAsync
  case some.cons.false | some.cons.true =>
    exact read _ rfl (decodeArguments_array place (name :: names) rfl) rfl
  all_goals exact read _ rfl rfl rfl

theorem decodeBindings_encode (place : Place) {pairs : List (String × Binding)}
    (modes : ∀ pair ∈ pairs, pair.2.mode ≠ "") :
    decodeBindings place (pairs.map fun pair => (pair.1, pair.2.encode)) =
      .ok (pairs.map fun pair => (pair.1, pair.2.canonical)) := by
  induction pairs with
  | nil => rfl
  | cons pair rest ih =>
    obtain ⟨key, binding⟩ := pair
    obtain ⟨mode, others⟩ := List.forall_mem_cons.1 modes
    have present : binding.encode.isNull = false := rfl
    simp [decodeBindings, present, Binding.decode_encode _ mode, ih others]

/-! ### Annotations -/

theorem lookup?_encodeAnnotations (alternative : Option Json) (annotations : Entries Json) :
    lookup? alternativeKey (encodeAnnotations alternative annotations) =
      (annotations.get? alternativeKey).map alternative.getD := by
  rw [encodeAnnotations, Dictionary.get?]
  induction annotations.toList with
  | nil => rfl
  | cons pair rest ih =>
    obtain ⟨key, value⟩ := pair
    by_cases here : key = alternativeKey
    · simp [lookup?, here]
    · simpa [lookup?, here] using ih

theorem annotationEntries_encodeAnnotations (alternative : Option Json)
    {annotations : Entries Json}
    (vacant : ∀ value, (alternativeKey, value) ∈ annotations.toList → value = .null) :
    annotationEntries (encodeAnnotations alternative annotations) = annotations := by
  have same : (encodeAnnotations alternative annotations).map (fun pair =>
      if pair.1 = alternativeKey then (pair.1, Json.null) else (pair.1, pair.2)) =
        annotations.toList := by
    rw [encodeAnnotations, List.map_map]
    refine (List.map_congr_left fun pair member => ?_).trans (List.map_id _)
    obtain ⟨key, value⟩ := pair
    by_cases here : key = alternativeKey
    · subst here
      simp [vacant value member]
    · simp [here]
  exact (congrArg Dictionary.ofList same).trans (Dictionary.ofList_toList annotations)

/-! ### Nodes -/

theorem decodeNodes_encode {place : Place} {nodes : List Node}
    (decoded : ∀ node ∈ nodes, ∀ place,
      Node.decode place node.encode = .ok (node.map Node.canonicalOwn)) (i : Nat) :
    decodeNodes place i (nodes.map Node.encode) = .ok (nodes.map (Node.map Node.canonicalOwn)) := by
  induction nodes generalizing i with
  | nil => simp [decodeNodes]
  | cons node rest ih =>
    obtain ⟨first, others⟩ := List.forall_mem_cons.1 decoded
    simp [decodeNodes, first, ih others]

theorem alternativeAmong_encodeAnnotations {alternative : Option Node}
    {annotations : Entries Json}
    (decoded : ∀ other, alternative = some other → ∀ place,
      Node.decode place other.encode = .ok (other.map Node.canonicalOwn))
    (vacant : ∀ value, (alternativeKey, value) ∈ annotations.toList → value = .null)
    (placed : alternative.isSome → alternativeKey ∈ annotations.keys) (place : Place) :
    alternativeAmong place (encodeAnnotations (alternative.map Node.encode) annotations) =
      .ok (alternative.map (Node.map Node.canonicalOwn)) := by
  rw [alternativeAmong_eq, lookup?_encodeAnnotations]
  cases alternative with
  | none =>
    -- What is stored in the place of an alternative can only be the absent value.
    cases held : annotations.get? alternativeKey with
    | none => rfl
    | some value =>
      obtain rfl := vacant value (Dictionary.mem_toList_of_get? held)
      rfl
  | some other =>
    obtain ⟨value, held⟩ := Option.isSome_iff_exists.1
      (Dictionary.contains_iff_mem_keys.2 (placed rfl))
    have written : ∃ members, other.encode = .object members := ⟨_, other.encode_eq⟩
    have read := decoded other rfl (place.key alternativeKey)
    obtain ⟨members, written⟩ := written
    rw [held]
    simp only [Option.map_some, Option.getD_some, written] at read ⊢
    rw [read]
    rfl

theorem objectSection_scope (place : Place) (scope : Entries String)
    {members : List (String × Json)}
    (found : lookup? "scope" members = lookup? "scope" (encodeScope scope)) :
    objectSection place "scope" members = .ok (scope.mapValues Json.string).toList := by
  unfold encodeScope at found
  split at found
  · next empty =>
    have none : scope.toList = [] := List.isEmpty_iff.1 empty
    simp [objectSection, sectionOr, memberOr, found, lookup?, Json.isFalsy, expectObject, none]
  · exact objectSection_of_lookup? place found

/-- A node is put together from its parts if they can all be read. -/
theorem Node.decode_of_sections {place : Place}
    {members properties bindingMembers annotations scope : List (String × Json)} {name : String}
    {bindings : List (String × Binding)} {alternative : Option Node} {children : List Node}
    (marked : checkMark nodeMark .nodeMark place members = .ok ())
    (named : lookup? "name" members = some (.string name))
    (readProperties : objectSection place "properties" members = .ok properties)
    (readMembers : objectSection place "bindings" members = .ok bindingMembers)
    (readBindings : decodeBindings (place.key "bindings") bindingMembers = .ok bindings)
    (readAnnotations : objectSection place "meta" members = .ok annotations)
    (readAlternative : alternativeIn (place.key "meta") members = .ok alternative)
    (readScope : objectSection place "scope" members = .ok scope)
    (readChildren : childrenIn (place.key "children") members = .ok children) :
    Node.decode place (.object members) = .ok (Node.refresh
      { name := name
        properties := textEntries properties
        bindings := Dictionary.ofList bindings
        children := children
        alternative := alternative
        annotations := annotationEntries annotations
        scope := textEntries scope
        kind := .element }) := by
  rw [Node.decode]
  simp only [marked, named, readProperties, readMembers, readBindings, readAnnotations,
    readAlternative, readScope, readChildren, expectString, pure_bind, Decoded.ok_bind]
  rfl

/-- A storable tree is read back in canonical form. -/
theorem Node.decode_encode (node : Node) (storable : ∀ inner ∈ node.walk, inner.IsStorable)
    (place : Place) : Node.decode place node.encode = .ok (node.map canonicalOwn) := by
  induction node using Node.induct generalizing place with
  | step node inChildren inAlternative =>
    have own : node.IsStorable := storable node (mem_walk_self node)
    have children (i : Nat) (place : Place) :
        decodeNodes place i (node.children.map Node.encode) =
          .ok (node.children.map (Node.map canonicalOwn)) :=
      decodeNodes_encode (fun child member => inChildren child member fun inner inside =>
        storable inner (walk_subset_of_child member inside)) i
    have alternative (place : Place) : alternativeAmong place
        (encodeAnnotations (node.alternative.map Node.encode) node.annotations) =
          .ok (node.alternative.map (Node.map canonicalOwn)) :=
      alternativeAmong_encodeAnnotations (fun other held => inAlternative other held
        fun inner inside => storable inner (walk_alternative_subset held inside))
        own.vacant own.placed place
    have bindings (place : Place) :
        decodeBindings place (node.bindings.mapValues Binding.encode).toList =
          .ok (node.bindings.mapValues Binding.canonical).toList :=
      decodeBindings_encode place own.modes
    rw [encode_eq, map_of_own isOwn_canonicalOwn]
    refine Eq.trans (Node.decode_of_sections rfl rfl (objectSection_of_lookup? place rfl)
      (objectSection_of_lookup? place rfl) (bindings _) (objectSection_of_lookup? place rfl)
      (alternative _) (objectSection_scope place node.scope rfl) (children 0 _)) ?_
    rw [textEntries_ofTexts, textEntries_ofTexts, Dictionary.ofList_toList,
      annotationEntries_encodeAnnotations _ own.vacant]
    rfl

/-! ### Imports, state and props -/

/-- The names of an import are read back as they were written. -/
theorem nameTexts_ofTexts (names : Entries String) :
    Dictionary.ofList ((names.mapValues Json.string).toList.map fun pair =>
      (pair.1, pair.2.asText)) = names := by
  have same : (names.mapValues Json.string).toList.map (fun pair => (pair.1, pair.2.asText)) =
      names.toList := by
    rw [Dictionary.toList_mapValues, List.map_map]
    exact List.map_id _
  rw [same, Dictionary.ofList_toList]

theorem decodeImports_encode (place : Place) (imports : List ImportSpec) (i : Nat) :
    decodeImports place i (imports.map ImportSpec.encode) = .ok imports := by
  induction imports generalizing i with
  | nil => rfl
  | cons spec rest ih =>
    obtain ⟨path, names⟩ := spec
    have given : objectSection (place.index i) "imports"
        [("path", .string path), ("imports", Json.ofTexts names)] =
          .ok (names.mapValues Json.string).toList :=
      objectSection_of_lookup? _ rfl
    have path : memberOr .null "path" [("path", .string path), ("imports", Json.ofTexts names)] =
        .string path := rfl
    simp only [List.map_cons, decodeImports, ImportSpec.encode, expectObject, given, path,
      expectString, ih, Decoded.ok_bind, nameTexts_ofTexts]
    rfl

theorem decodeImportSection_encode (place : Place) (imports : List ImportSpec)
    {members : List (String × Json)}
    (found : lookup? "imports" members = some (.array (imports.map ImportSpec.encode))) :
    decodeImportSection place (sectionOr (.array []) "imports" members) = .ok imports := by
  have given : sectionOr (.array []) "imports" members =
      .array (imports.map ImportSpec.encode) := by
    cases imports <;> simp [sectionOr, memberOr, found, Json.isFalsy]
  rw [given]
  exact decodeImports_encode place imports 0

theorem StateEntry.decode_encode {entry : StateEntry} (named : entry.role ≠ "") :
    StateEntry.decode entry.encode = entry := by
  obtain ⟨value, role⟩ := entry
  have present : role ≠ "" := named
  simp [StateEntry.encode, StateEntry.decode, sectionOr, memberOr, lookup?, Json.isFalsy, present]

theorem stateEntries_encode {state : Entries StateEntry}
    (roles : ∀ pair ∈ state.toList, pair.2.role ≠ "") :
    Dictionary.ofList ((state.mapValues StateEntry.encode).toList.map fun pair =>
      (pair.1, StateEntry.decode pair.2)) = state := by
  have same : (state.mapValues StateEntry.encode).toList.map (fun pair =>
      (pair.1, StateEntry.decode pair.2)) = state.toList := by
    rw [Dictionary.toList_mapValues, List.map_map]
    refine (List.map_congr_left fun pair member => ?_).trans (List.map_id _)
    show (pair.1, StateEntry.decode pair.2.encode) = pair
    rw [StateEntry.decode_encode (roles pair member)]
  rw [same, Dictionary.ofList_toList]

theorem decodePropType_encode (place : Place) (type : Option String) :
    decodePropType place (encodePropType type) = .ok (nonempty? type) := by
  unfold encodePropType nonempty?
  cases type.filter (!·.isEmpty) <;> rfl

theorem decodePropMembers_encode (place : Place) (props : List (String × Option String)) :
    decodePropMembers place (props.map fun prop => (prop.1, encodePropType prop.2)) =
      .ok (props.map fun prop => (prop.1, nonempty? prop.2)) := by
  induction props with
  | nil => rfl
  | cons prop rest ih => simp [decodePropMembers, decodePropType_encode, ih]

/-- Props are read back without empty types. -/
theorem decodeProps_encode (place : Place) (props : Entries (Option String))
    {members : List (String × Json)}
    (found : lookup? "props" members = some (.object (props.mapValues encodePropType).toList)) :
    decodeProps place (sectionOr (.object []) "props" members) =
      .ok (props.mapValues nonempty?).toList := by
  rw [sectionOr_object found]
  exact decodePropMembers_encode place props.toList

/-! ### Hooks -/

theorem Hook.decode_encode (place : Place) (hook : Hook) :
    Hook.decode place hook.encode = .ok hook.canonical := rfl

theorem Hook.decode_encodeUpdate (place : Place) (hook : Hook) :
    Hook.decode place hook.encodeUpdate = .ok hook.canonicalUpdate := by
  unfold encodeUpdate canonicalUpdate nonempty?
  cases hook.dependencies.filter (!·.isEmpty) <;> rfl

theorem decodeHookItems_map (place : Place) {encode : Hook → Json} {canonical : Hook → Hook}
    (decoded : ∀ place hook, Hook.decode place (encode hook) = .ok (canonical hook))
    (hooks : List Hook) (i : Nat) :
    decodeHookItems place i (hooks.map encode) = .ok (hooks.map canonical) := by
  induction hooks generalizing i with
  | nil => rfl
  | cons hook rest ih => simp [decodeHookItems, decoded, ih]

theorem decodeOnMount_encode (place : Place) (hooks : List Hook) :
    decodeOnMount place (.array (hooks.map Hook.encode)) = .ok (hooks.map Hook.canonical) := by
  cases hooks with
  | nil => rfl
  | cons hook rest => exact decodeHookItems_map place Hook.decode_encode (hook :: rest) 0

theorem decodeOnUpdate_encode (place : Place) (hooks : List Hook) :
    decodeOnUpdate place (.array (hooks.map Hook.encodeUpdate)) =
      .ok (some (hooks.map Hook.canonicalUpdate)) :=
  congrArg (Except.map some) (decodeHookItems_map place Hook.decode_encodeUpdate hooks 0)

/-- Hooks are read back without the dependencies that are not written down. -/
theorem Hooks.decode_encode (place : Place) (hooks : Hooks) :
    Hooks.decode place hooks.encode = .ok hooks.canonical := by
  obtain ⟨onInit, onMount, onUpdate⟩ := hooks
  have read {members : List (String × Json)}
      (init : memberOr .null "onInit" members = (onInit.map Hook.encode).getD .null)
      (mount : memberOr .null "onMount" members = .array (onMount.map Hook.encode))
      (update : memberOr .null "onUpdate" members =
        (onUpdate.map fun updates => .array (updates.map Hook.encodeUpdate)).getD .null) :
      Hooks.decode place (.object members) =
        .ok (Hooks.mk onInit onMount onUpdate).canonical := by
    have readInit (place : Place) : decodeOnInit place (memberOr .null "onInit" members) =
        .ok (onInit.map Hook.canonical) := by
      rw [init]
      cases onInit <;> rfl
    have readUpdate (place : Place) : decodeOnUpdate place (memberOr .null "onUpdate" members) =
        .ok (onUpdate.map fun updates => updates.map Hook.canonicalUpdate) := by
      rw [update]
      cases onUpdate with
      | none => rfl
      | some updates => exact decodeOnUpdate_encode place updates
    simp only [Hooks.decode, expectObject, readInit, mount, decodeOnMount_encode, readUpdate,
      Decoded.ok_bind]
    rfl
  -- The order of the members differs from the order in which they are read.
  cases onInit <;> cases onUpdate <;> exact read rfl rfl rfl

/-! ### Components -/

theorem optionalString_optionalMember (place : Place) {key : String} {text : Option String}
    {members : List (String × Json)}
    (found : lookup? key members = lookup? key (optionalMember key text)) :
    optionalString place (memberOr .null key members) = .ok text := by
  have given : memberOr .null key members = Json.ofOptional text := by
    cases text <;> simp [memberOr, found, optionalMember, lookup?, Json.ofOptional]
  rw [given, optionalString_ofOptional]

/-- A storable component is read back in canonical form. -/
theorem Component.decode_encode {component : Component} (storable : component.IsStorable) :
    Component.decode component.encode = .ok component.canonical := by
  have nodes (i : Nat) (place : Place) :
      decodeNodes place i (component.children.map Node.encode) =
        .ok (component.children.map (Node.map Node.canonicalOwn)) :=
    decodeNodes_encode (fun node member => node.decode_encode fun inner inside =>
      storable.nodes inner (Node.walk_subset_of_mem member inside)) i
  rw [Component.encode, encodeNodes_eq_map]
  generalize written : ([("@type", .string componentMark), ("name", .string component.name),
      ("imports", .array (component.imports.map ImportSpec.encode)),
      ("state", .object (component.state.mapValues StateEntry.encode).toList),
      ("props", .object (component.props.mapValues encodePropType).toList),
      ("hooks", component.hooks.encode), ("children", .array (component.children.map Node.encode)),
      ("meta", .object component.annotations.toList)] ++
    optionalMember "style" component.style ++
    optionalMember "propsTypeRef" component.propsType : List (String × Json)) = members
  -- From here on only what is found under each name matters, not where it was written.
  have marked (place : Place) : checkMark componentMark .componentMark place members = .ok () := by
    rw [← written]
    rfl
  have name : memberOr (.string defaultName) "name" members = .string component.name := by
    rw [← written]
    rfl
  have imports (place : Place) :
      decodeImportSection place (sectionOr (.array []) "imports" members) = .ok component.imports :=
    decodeImportSection_encode place component.imports (by rw [← written]; rfl)
  have state (place : Place) : objectSection place "state" members =
      .ok (component.state.mapValues StateEntry.encode).toList :=
    objectSection_of_lookup? place (by rw [← written]; rfl)
  have props (place : Place) : decodeProps place (sectionOr (.object []) "props" members) =
      .ok (component.props.mapValues nonempty?).toList :=
    decodeProps_encode place component.props (by rw [← written]; rfl)
  have hooks (place : Place) : Hooks.decode place (sectionOr (.object []) "hooks" members) =
      .ok component.hooks.canonical := by
    rw [← written]
    exact component.hooks.decode_encode place
  have children (place : Place) : childrenIn place members =
      .ok (component.children.map (Node.map Node.canonicalOwn)) := by
    rw [← written]
    exact nodes 0 place
  have style (place : Place) : optionalString place (memberOr .null "style" members) =
      .ok component.style := by
    refine optionalString_optionalMember place ?_
    rw [← written]
    cases component.style <;> cases component.propsType <;> rfl
  have propsType (place : Place) : optionalString place (memberOr .null "propsTypeRef" members) =
      .ok component.propsType := by
    refine optionalString_optionalMember place ?_
    rw [← written]
    cases component.style <;> cases component.propsType <;> rfl
  have annotations (place : Place) :
      objectSection place "meta" members = .ok component.annotations.toList :=
    objectSection_of_lookup? place (by rw [← written]; rfl)
  simp only [Component.decode, expectObject, marked, name, expectString, imports, state, props,
    hooks, children, style, propsType, annotations, Decoded.ok_bind,
    stateEntries_encode storable.roles, Dictionary.ofList_toList, ← mapNodes_eq_map]
  rfl

end ComponentCompiler

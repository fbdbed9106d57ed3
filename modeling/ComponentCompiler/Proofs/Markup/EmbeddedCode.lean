import ComponentCompiler.Markup.Render

/-!
# The code that markup embeds

Rendering a forest embeds the code of its slots, classes, attributes and inner contents. It passes
over blank texts, over what stands below elements without content, and over the children of an
element whose inner content is code. The warnings of a rendering are those of embedding this code.
All the code that is embedded is code of bindings of nodes that the walk of the forest visits.

## Main definitions

* `Markup.embeddedCode`, `Markup.embeddedIn` — the code that rendering a node, or a forest, embeds

## Main results

* `Markup.warnings_render`, `Markup.warnings_renderAll` — a rendering warns as embedding its code does
* `Markup.mem_code_of_embeddedIn` — the markup of a component embeds code that the component carries
-/

namespace ComponentCompiler.Markup

/-- The code of the binding with the given key, which stands in a slot. -/
def slot (node : Node) (key : String) : Option String :=
  (node.bindings.get? key).bind Binding.code

/-- The code of the bindings that give an element classes. -/
def classCode (node : Node) : List String :=
  classKeys.filterMap node.activeCode?

/-- The code of a binding that is written as an attribute. A held element is named, and its name is
not embedded. -/
def attributeCode? (key : String) (binding : Binding) : Option String :=
  if isApart key || (!binding.isSpread && key == "ref") then none else binding.activeCode?

/-- The code of the bindings that are written as attributes. -/
def attributeCode (node : Node) : List String :=
  node.bindings.toList.filterMap fun (key, binding) => attributeCode? key binding

mutual

/-- The code that the markup of a node embeds, in order. A slot without a binding is embedded too:
it has no code. -/
def embeddedCode (node : Node) : List (Option String) :=
  match node with
  | ⟨name, properties, bindings, children, alternative, annotations, scope, kind⟩ =>
    let node := ⟨name, properties, bindings, children, alternative, annotations, scope, kind⟩
    match kind with
    | .text => []
    | .dynamicText => [slot node textKey]
    | .fragment => embeddedIn children
    | .repetition => slot node "each" :: embeddedIn children
    | .choice =>
      slot node "when" :: embeddedIn children ++
        match alternative with
        | none => []
        | some other => embeddedCode other
    | .element =>
      (classCode node ++ attributeCode node).map some ++
        if voidTags.contains name then []
        else
          match node.activeCode? "innerHTML" with
          | some code => [some code]
          | none => embeddedIn children

/-- The code that the markup of a forest embeds, in order. -/
def embeddedIn : List Node → List (Option String)
  | [] => []
  | node :: rest => if node.isBlankText then embeddedIn rest else embeddedCode node ++ embeddedIn rest

end

/-! ### The warnings of a rendering -/

/-- The warnings of embedding code in the markup, in order. -/
def embeddingWarnings (codes : List (Option String)) : List Warning :=
  codes.flatMap fun code => (embedCode .markup code).warnings

@[simp] theorem embeddingWarnings_nil : embeddingWarnings [] = [] := rfl

@[simp] theorem embeddingWarnings_cons (code : Option String) (codes : List (Option String)) :
    embeddingWarnings (code :: codes) =
      (embedCode .markup code).warnings ++ embeddingWarnings codes :=
  List.flatMap_cons

@[simp] theorem embeddingWarnings_append (front back : List (Option String)) :
    embeddingWarnings (front ++ back) = embeddingWarnings front ++ embeddingWarnings back :=
  List.flatMap_append

/-- Embedding bound classes never fails. -/
theorem outcome_boundClasses (node : Node) (keys : List String) :
    ∃ classes, (boundClasses node keys).outcome = .ok classes ∧
      (boundClasses node keys).warnings =
        embeddingWarnings ((keys.filterMap node.activeCode?).map some) := by
  induction keys with
  | nil => exact ⟨[], rfl, rfl⟩
  | cons key rest ih =>
    obtain ⟨classes, yielded, warned⟩ := ih
    unfold boundClasses
    cases active : node.activeCode? key with
    | none => exact ⟨classes, yielded, by simpa [active] using warned⟩
    | some code =>
      refine ⟨.expression (embed .markup (some code)).code :: classes, ?_, ?_⟩
      · simp only [Run.outcome_bind_ok (outcome_embedCode _ _), Run.outcome_bind_ok yielded,
          Run.outcome_pure]
      · simp [active, Run.warnings_bind_ok (outcome_embedCode _ _), warned]

theorem outcome_styleClass (node : Node) :
    ∃ classes, (styleClass node).outcome = .ok classes ∧ (styleClass node).warnings = [] := by
  unfold styleClass
  cases node.activeCode? styleKey with
  | none => exact ⟨_, rfl, rfl⟩
  | some code => exact ⟨_, rfl, rfl⟩

/-- Writing the class attribute never fails. -/
theorem outcome_classAttribute (node : Node) :
    ∃ text, (classAttribute node).outcome = .ok text ∧
      (classAttribute node).warnings = embeddingWarnings ((classCode node).map some) := by
  obtain ⟨bound, boundWritten, boundWarned⟩ := outcome_boundClasses node classKeys
  obtain ⟨styled, styledWritten, styledWarned⟩ := outcome_styleClass node
  refine ⟨joinClasses (literalClasses node ++ bound ++ styled), ?_, ?_⟩
  · simp only [classAttribute, Run.outcome_bind_ok boundWritten,
      Run.outcome_bind_ok styledWritten, Run.outcome_pure]
  · simp [classAttribute, Run.warnings_bind_ok boundWritten, boundWarned, styledWarned, classCode]

/-- Writing the attribute of a binding never fails. -/
theorem outcome_bindingAttribute (name key : String) (binding : Binding) (code : String) :
    ∃ text, (bindingAttribute name key binding code).outcome = .ok text ∧
      (bindingAttribute name key binding code).warnings =
        if !binding.isSpread && key == "ref" then [] else embeddingWarnings [some code] := by
  have embedded (f : String → String) :
      ∃ text, (f <$> embedCode .markup (some code)).outcome = .ok text ∧
        (f <$> embedCode .markup (some code)).warnings = embeddingWarnings [some code] :=
    ⟨_, Run.outcome_map_ok (outcome_embedCode _ _) f, by simp⟩
  unfold bindingAttribute
  by_cases spread : binding.isSpread = true
  · simpa [spread] using embedded fun text => " " ++ braced ("...(" ++ text ++ ")")
  · by_cases isRef : key = "ref"
    · simp [spread, isRef]
    · by_cases isEvent : Naming.isEvent key = true
      · simpa [spread, isRef, isEvent] using
          embedded fun text => " " ++ eventAttribute name key binding text
      · by_cases isInner : key = "innerHTML"
        · subst isInner
          simpa [spread, isEvent] using embedded fun text => " set:html=" ++ braced text
        · simpa [spread, isRef, isEvent, isInner] using
            embedded fun text => " " ++ key ++ "=" ++ braced text

/-- Writing attributes never fails. -/
theorem outcome_attributes (name : String) (bindings : List (String × Binding)) :
    ∃ text, (attributes name bindings).outcome = .ok text ∧
      (attributes name bindings).warnings = embeddingWarnings
        ((bindings.filterMap fun (key, binding) => attributeCode? key binding).map some) := by
  induction bindings with
  | nil => exact ⟨"", rfl, rfl⟩
  | cons pair rest ih =>
    obtain ⟨key, binding⟩ := pair
    obtain ⟨others, othersWritten, othersWarned⟩ := ih
    unfold attributes
    by_cases apart : isApart key = true
    · exact ⟨others, by simpa [apart] using othersWritten, by
        simpa [apart, attributeCode?] using othersWarned⟩
    · cases active : binding.activeCode? with
      | none => exact ⟨others, by simpa [apart] using othersWritten, by
          simpa [apart, attributeCode?, active] using othersWarned⟩
      | some code =>
        obtain ⟨text, written, warned⟩ := outcome_bindingAttribute name key binding code
        refine ⟨text ++ others, ?_, ?_⟩
        · simp only [if_neg apart, Run.outcome_bind_ok written, Run.outcome_bind_ok othersWritten,
            Run.outcome_pure]
        · have headed : attributeCode? key binding =
              if !binding.isSpread && key == "ref" then none else some code := by
            simp [attributeCode?, apart, active]
          simp only [List.filterMap_cons, headed]
          cases isRef : !binding.isSpread && key == "ref" <;>
            simp [apart, Run.warnings_bind_ok written, warned, othersWarned, isRef]

/-- Opening an element never fails. -/
theorem outcome_opening (settings : Settings) (node : Node) :
    ∃ text, (opening settings node).outcome = .ok text ∧
      (opening settings node).warnings =
        embeddingWarnings ((classCode node ++ attributeCode node).map some) := by
  obtain ⟨classes, classesWritten, classesWarned⟩ := outcome_classAttribute node
  obtain ⟨bound, boundWritten, boundWarned⟩ := outcome_attributes node.name node.bindings.toList
  refine ⟨"<" ++ node.name ++ scopeText settings node.name ++
    (if classes.isEmpty then "" else " " ++ classes) ++ propertyText node.properties ++ bound ++
    directiveText settings node, ?_, ?_⟩
  · simp only [opening, Run.outcome_bind_ok classesWritten, Run.outcome_bind_ok boundWritten,
      Run.outcome_pure]
  · simp [opening, Run.warnings_bind_ok classesWritten, classesWarned, boundWarned, attributeCode]

mutual

/-- A node that can be rendered gives the warnings of embedding its embedded code, in order. -/
theorem warnings_render (settings : Settings) :
    (node : Node) → {text : String} → (render settings node).outcome = .ok text →
      (render settings node).warnings = embeddingWarnings (embeddedCode node)
  | ⟨name, properties, bindings, children, alternative, annotations, scope, kind⟩, text, ok => by
    have below {parts : List String} (rendered : (renderAll settings children).outcome = .ok parts) :=
      warnings_renderAll settings children rendered
    cases kind with
    | text =>
      simp only [render, literalText] at ok ⊢
      split at ok
      · simp [embeddedCode]
      · cases ok
    | dynamicText =>
      simp only [render, dynamicText] at ok ⊢
      split at ok
      · next binding found => simp [found, embeddedCode, slot]
      · cases ok
    | fragment =>
      simp only [render, embeddedCode] at ok ⊢
      obtain ⟨parts, rendered, -, warned⟩ := Run.exists_of_bind_ok ok
      rw [warned, below rendered]
      simp
    | repetition =>
      simp only [render, embeddedCode] at ok ⊢
      obtain ⟨head, -, ok, warned⟩ := Run.exists_of_bind_ok ok
      obtain ⟨parts, rendered, -, others⟩ := Run.exists_of_bind_ok ok
      rw [warned, others, below rendered]
      simp [repetitionHead, slotCode, slot]
    | choice =>
      simp only [render] at ok ⊢
      obtain ⟨condition, -, ok, warned⟩ := Run.exists_of_bind_ok ok
      obtain ⟨parts, rendered, ok, others⟩ := Run.exists_of_bind_ok ok
      rw [warned, others, below rendered]
      cases alternative with
      | none => simp [embeddedCode, slotCode, slot]
      | some other =>
        simp only at ok
        obtain ⟨otherText, otherRendered, -, last⟩ := Run.exists_of_bind_ok ok
        simp only [last, warnings_render settings other otherRendered]
        simp [embeddedCode, slotCode, slot]
    | element =>
      simp only [render, embeddedCode] at ok ⊢
      obtain ⟨start, -, ok, warned⟩ := Run.exists_of_bind_ok ok
      obtain ⟨-, -, opened⟩ := outcome_opening settings
        ⟨name, properties, bindings, children, alternative, annotations, scope, .element⟩
      rw [warned, opened, embeddingWarnings_append]
      by_cases isVoid : voidTags.contains name = true
      · simp only [if_pos isVoid]
        rfl
      · simp only [if_neg isVoid] at ok ⊢
        split at ok
        · next code active => simp [active]
        · next absent =>
          obtain ⟨parts, rendered, -, inner⟩ := Run.exists_of_bind_ok ok
          simp only [absent, inner, below rendered, Run.warnings_pure, List.append_nil]

/-- A forest that can be rendered gives the warnings of embedding its embedded code, in order. -/
theorem warnings_renderAll (settings : Settings) :
    (nodes : List Node) → {parts : List String} → (renderAll settings nodes).outcome = .ok parts →
      (renderAll settings nodes).warnings = embeddingWarnings (embeddedIn nodes)
  | [], _, _ => by simp [renderAll, embeddedIn]
  | node :: rest, parts, ok => by
    rw [renderAll] at ok ⊢
    rw [embeddedIn]
    split at ok
    · next blank => rw [if_pos blank, if_pos blank, warnings_renderAll settings rest ok]
    · next shown =>
      obtain ⟨text, rendered, ok, warned⟩ := Run.exists_of_bind_ok ok
      obtain ⟨others, restRendered, -, last⟩ := Run.exists_of_bind_ok ok
      rw [if_neg shown, if_neg shown, warned, last, warnings_render settings node rendered,
        warnings_renderAll settings rest restRendered, embeddingWarnings_append]
      simp

end

/-! ### Where the code comes from -/

/-- A node has a binding with the given code. -/
def Binds (node : Node) (code : String) : Prop :=
  ∃ binding ∈ node.bindings.values, binding.code = some code

/-- A node of a list has a binding with the given code. -/
def Carries (nodes : List Node) (code : String) : Prop :=
  ∃ node ∈ nodes, Binds node code

theorem Carries.mono {nodes others : List Node} {code : String} (carried : Carries nodes code)
    (within : nodes ⊆ others) : Carries others code := by
  obtain ⟨node, member, bound⟩ := carried
  exact ⟨node, within member, bound⟩

theorem Binds.carries {node : Node} {code : String} (bound : Binds node code) :
    Carries node.walk code :=
  ⟨node, mem_walk_self node, bound⟩

theorem code_eq_of_activeCode? {binding : Binding} {code : String}
    (active : binding.activeCode? = some code) : binding.code = some code :=
  (Option.filter_eq_some_iff.1 active).1

theorem binds_of_get? {node : Node} {key code : String} {binding : Binding}
    (found : node.bindings.get? key = some binding) (same : binding.code = some code) :
    Binds node code :=
  ⟨binding, List.mem_map.2 ⟨(key, binding), Dictionary.mem_toList_of_get? found, rfl⟩, same⟩

theorem binds_of_slot {node : Node} {key code : String} (held : slot node key = some code) :
    Binds node code := by
  obtain ⟨binding, found, same⟩ := Option.bind_eq_some_iff.1 held
  exact binds_of_get? found same

theorem binds_of_activeCode? {node : Node} {key code : String}
    (active : node.activeCode? key = some code) : Binds node code := by
  obtain ⟨binding, found, same⟩ := Option.bind_eq_some_iff.1 active
  exact binds_of_get? found (code_eq_of_activeCode? same)

theorem binds_of_mem_classCode {node : Node} {code : String} (member : code ∈ classCode node) :
    Binds node code := by
  obtain ⟨key, -, active⟩ := List.mem_filterMap.1 member
  exact binds_of_activeCode? active

theorem binds_of_mem_attributeCode {node : Node} {code : String}
    (member : code ∈ attributeCode node) : Binds node code := by
  obtain ⟨⟨key, binding⟩, bound, written⟩ := List.mem_filterMap.1 member
  refine ⟨binding, List.mem_map.2 ⟨_, bound, rfl⟩, ?_⟩
  simp only [attributeCode?] at written
  split at written
  · cases written
  · exact code_eq_of_activeCode? written

mutual

/-- What rendering a node embeds is code of bindings of nodes that its walk visits. -/
theorem carries_of_mem_embeddedCode (code : String) :
    (node : Node) → some code ∈ embeddedCode node → Carries node.walk code
  | ⟨name, properties, bindings, children, alternative, annotations, scope, kind⟩, member => by
    have below (shown : some code ∈ embeddedIn children) := (carries_of_mem_embeddedIn code children
      shown).mono (Node.walk_children_subset
        ⟨name, properties, bindings, children, alternative, annotations, scope, kind⟩)
    cases kind with
    | text => simp [embeddedCode] at member
    | dynamicText =>
      simp only [embeddedCode, List.mem_singleton] at member
      exact (binds_of_slot member.symm).carries
    | fragment =>
      simp only [embeddedCode] at member
      exact below member
    | repetition =>
      simp only [embeddedCode, List.mem_cons] at member
      rcases member with here | shown
      · exact (binds_of_slot here.symm).carries
      · exact below shown
    | choice =>
      cases alternative with
      | none =>
        simp only [embeddedCode, List.append_nil, List.mem_cons] at member
        rcases member with here | shown
        · exact (binds_of_slot here.symm).carries
        · exact below shown
      | some node =>
        simp only [embeddedCode, List.cons_append, List.mem_cons, List.mem_append] at member
        rcases member with here | shown | other
        · exact (binds_of_slot here.symm).carries
        · exact below shown
        · exact (carries_of_mem_embeddedCode code node other).mono
            (Node.walk_alternative_subset rfl)
    | element =>
      simp only [embeddedCode, List.mem_append, List.mem_map, Option.some.injEq,
        exists_eq_right] at member
      rcases member with (inClass | inAttribute) | inner
      · exact (binds_of_mem_classCode inClass).carries
      · exact (binds_of_mem_attributeCode inAttribute).carries
      · split at inner
        · simp at inner
        · split at inner
          · next active =>
            simp only [List.mem_singleton, Option.some.injEq] at inner
            subst inner
            exact (binds_of_activeCode? active).carries
          · exact below inner

/-- What rendering a forest embeds is code of bindings of nodes that its walk visits. -/
theorem carries_of_mem_embeddedIn (code : String) :
    (nodes : List Node) → some code ∈ embeddedIn nodes → Carries (walk nodes) code
  | [], member => by simp [embeddedIn] at member
  | node :: rest, member => by
    rw [walk_cons]
    have later (shown : some code ∈ embeddedIn rest) :=
      (carries_of_mem_embeddedIn code rest shown).mono (List.subset_append_right node.walk _)
    rw [embeddedIn] at member
    split at member
    · exact later member
    · rcases List.mem_append.1 member with here | shown
      · exact (carries_of_mem_embeddedCode code node here).mono (List.subset_append_left _ _)
      · exact later shown

end

/-! ### Code of a component without its annotations -/

theorem Binds.of_stripOwn {node : Node} {code : String} (bound : Binds node.stripOwn code) :
    Binds node code := by
  obtain ⟨binding, member, same⟩ := bound
  obtain ⟨pair, kept, rfl⟩ := List.mem_map.1 member
  exact ⟨pair.2, List.mem_map.2 ⟨pair, (List.mem_filter.1 kept).1, rfl⟩, same⟩

mutual

theorem carries_of_strip (code : String) :
    (node : Node) → Carries (node.map Node.stripOwn).walk code → Carries node.walk code
  | ⟨name, properties, bindings, children, alternative, annotations, scope, kind⟩, carried => by
    have below (shown : Carries (walk (mapNodes Node.stripOwn children)) code) :=
      (carries_of_stripNodes code children shown).mono (Node.walk_children_subset
        ⟨name, properties, bindings, children, alternative, annotations, scope, kind⟩)
    obtain ⟨holder, member, bound⟩ := carried
    rw [Node.map_eq, Node.walk_eq, List.mem_cons, List.mem_append] at member
    rcases member with rfl | inChildren | inOther
    · exact (show Binds ⟨name, properties, bindings, children, alternative, annotations, scope, kind⟩
        code from bound.of_stripOwn).carries
    · exact below ⟨holder, inChildren, bound⟩
    · cases alternative with
      | none => cases inOther
      | some other =>
        exact (carries_of_strip code other ⟨holder, inOther, bound⟩).mono
          (Node.walk_alternative_subset rfl)

theorem carries_of_stripNodes (code : String) :
    (nodes : List Node) → Carries (walk (mapNodes Node.stripOwn nodes)) code →
      Carries (walk nodes) code
  | [], carried => carried
  | node :: rest, carried => by
    obtain ⟨holder, member, bound⟩ := carried
    rw [mapNodes, walk_cons, List.mem_append] at member
    rw [walk_cons]
    rcases member with here | later
    · exact (carries_of_strip code node ⟨holder, here, bound⟩).mono (List.subset_append_left _ _)
    · exact (carries_of_stripNodes code rest ⟨holder, later, bound⟩).mono
        (List.subset_append_right _ _)

end

/-- All code that the markup of a component embeds is code that the component carries. -/
theorem mem_code_of_embeddedIn {component : Component} {code : String}
    (shown : some code ∈ embeddedIn component.strip.children) (some : code ≠ "") :
    code ∈ component.code := by
  obtain ⟨node, member, binding, bound, same⟩ :=
    carries_of_stripNodes code component.children (carries_of_mem_embeddedIn code _ shown)
  refine List.mem_append_right _ (List.mem_flatMap.2 ⟨node, member, ?_⟩)
  refine List.mem_filterMap.2 ⟨binding, bound, ?_⟩
  simp [Binding.activeCode?, same, some]

end ComponentCompiler.Markup

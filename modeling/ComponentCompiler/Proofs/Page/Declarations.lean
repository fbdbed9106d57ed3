import ComponentCompiler.Proofs.Component.Stripped
import ComponentCompiler.Proofs.Page.Draft
import Mathlib.Data.List.Nodup

/-!
# Names that the setup section declares

The part of the setup section that the compiler writes itself is a list of lines, and every line tells
which names it declares: the container of the props, the props that are taken out of it, the state
entries with a value, and the held elements. Props give way to state and to held elements. Nothing else
gives way: the container, the state and the held elements may claim one name together, and so may two
held elements whose names differ only before they are put in camel case.

## Main definitions

* `Page.Line` — a line that declares names, or none
* `Page.ownParts`, `Page.declaredNames` — the lines between the imports and the initialisation, and the
  names that they declare
* `Page.IsUnclaimed` — nothing but one held element claims a name
* `Page.heldCode?` — the name, before it is put in camel case, that an element is held by

## Main results

* `Page.outcome_ownSetup_lines` — the setup section, line by line
* `Page.nodup_declaredNames_iff` — no name is declared twice exactly if no two parts claim one name
* `Page.count_declaredNames_eq_one_iff` — a held element is declared once exactly if its name is
  unclaimed
* `Page.declares_each_once_iff` — both for a page that is compiled without plugins
* `Page.declared_twice` — two held elements with one declaration each and one name
-/

namespace ComponentCompiler

/-! ### Each item once -/

namespace Script

theorem nodup_foldl_firstOccurrences {items seen : List String} (distinct : seen.Nodup) :
    (items.foldl (fun seen item => if seen.contains item then seen else seen ++ [item])
      seen).Nodup := by
  induction items generalizing seen with
  | nil => exact distinct
  | cons item rest ih =>
    rw [List.foldl_cons]
    split
    · exact ih distinct
    · next new =>
      refine ih (List.nodup_append.2 ⟨distinct, List.nodup_singleton item, ?_⟩)
      intro old member other single same
      obtain rfl := List.mem_singleton.1 single
      exact new (List.contains_iff_mem.2 (same ▸ member))

theorem nodup_firstOccurrences (items : List String) : (firstOccurrences items).Nodup :=
  nodup_foldl_firstOccurrences List.nodup_nil

end Script

namespace Page

variable {component : Component} {name : String}

/-! ### Lines -/

/-- A line of the setup section that the compiler writes itself. -/
inductive Line where
  | comment (text : String)
  /-- A line of the type of the props. -/
  | typing (text : String)
  /-- The container of the props, with its type if it is typed. -/
  | container (type : Option String)
  /-- Props that are taken out of their container. -/
  | taking (names : List String)
  /-- A state entry, with the word that declares it and its value. -/
  | state (word key value : String)
  | held (name : String)

namespace Line

def text : Line → String
  | comment text => text
  | typing text => text
  | container none => "const props = Astro.props;"
  | container (some type) => "const props = Astro.props as " ++ type ++ ";"
  | taking names => takingLine names
  | state word key value => declarationLine word key value
  | held name => heldLine name

/-- The names that a line declares. -/
def names : Line → List String
  | comment _ | typing _ => []
  | container _ => ["props"]
  | taking names => names
  | state _ key _ => [key]
  | held name => [name]

end Line

/-- The lines of the type of the props. -/
def typingLines (typed : Bool) (component : Component) : List Line :=
  if typed then
    if component.props.isEmpty then
      [.typing ("type " ++ propsType component ++ " = Record<string, any>;"), .typing ""]
    else
      [.typing ("interface " ++ propsType component ++ " \x7b")] ++
        component.propNames.map (fun name => .typing (propLine component name)) ++
        [.typing "\x7d", .typing ""]
  else []

/-- The lines that declare the props. -/
def propsLines (typed : Bool) (component : Component) : List Line :=
  let names := localProps component component.propNames component.refs
  typingLines typed component ++ [.container (if typed then some (propsType component) else none)] ++
    if names.isEmpty then [] else [.taking names]

/-- The line that declares a state entry, unless its value is absent. -/
def stateLine? (key : String) (entry : StateEntry) : Option Line :=
  match entry.value with
  | .null => none
  | .string code =>
    let source := if entry.role = "method" then functionOfMethod code.toList else code.toList
    some (.state (if holdsFunction source then "const" else "let") key
      (embedText .setup (String.ofList source)).code)
  | value => some (.state "let" key value.compact)

/-- The lines that declare state entries. -/
def stateLines (entries : List (String × StateEntry)) : List Line :=
  entries.filterMap fun pair => stateLine? pair.1 pair.2

/-- The parts of the setup section between the imports and the initialisation, line by line. -/
def ownParts (options : Options) (component : Component) : List (List Line) :=
  (if component.propNames.isEmpty then []
    else [propsLines (!options.typedProps.isFalsy) component]) ++
  (if component.state.isEmpty then []
    else [.comment "// Component state" :: stateLines component.state.toList]) ++
  (if component.refs.isEmpty then []
    else [.comment "// Component refs" :: component.refs.map fun ref => .held (Naming.camelCase ref)])

/-- The text of a part. -/
def textOfPart (lines : List Line) : String :=
  "\n".intercalate (lines.map Line.text)

theorem text_typingLines (typed : Bool) (component : Component) :
    (typingLines typed component).map Line.text ++
        [(Line.container (if typed then some (propsType component) else none)).text] =
      propsContainer typed component component.propNames := by
  cases typed with
  | false => rfl
  | true =>
    simp only [typingLines, propsContainer, if_true]
    split
    · rfl
    · simp only [List.map_append, List.map_map, List.append_assoc]
      rfl

theorem textOfPart_propsLines (typed : Bool) (component : Component) :
    textOfPart (propsLines typed component) =
      propsPart typed component component.propNames component.refs := by
  unfold textOfPart propsLines propsPart
  dsimp only
  rw [List.map_append, List.map_append, ← text_typingLines]
  congr 2
  split <;> rfl

theorem outcome_stateDeclaration_line (key : String) (entry : StateEntry) :
    (stateDeclaration key entry).outcome = .ok ((stateLine? key entry).map Line.text) := by
  obtain ⟨value, role⟩ := entry
  cases value with
  | string code =>
    simp only [stateDeclaration, Run.outcome_bind_ok (outcome_embedCode _ _), Run.outcome_pure]
    rfl
  | _ => rfl

theorem outcome_stateDeclarations_lines (entries : List (String × StateEntry)) :
    (stateDeclarations entries).outcome = .ok ((stateLines entries).map Line.text) := by
  induction entries with
  | nil => rfl
  | cons pair rest ih =>
    obtain ⟨key, entry⟩ := pair
    simp only [stateDeclarations, Run.outcome_bind_ok (outcome_stateDeclaration_line key entry),
      Run.outcome_bind_ok ih, Run.outcome_pure, stateLines, List.filterMap_cons]
    cases stateLine? key entry <;> rfl

theorem outcome_statePart_lines (component : Component) :
    (statePart component).outcome =
      .ok (textOfPart (.comment "// Component state" :: stateLines component.state.toList)) := by
  simp only [statePart, Run.outcome_bind_ok (outcome_stateDeclarations_lines _), Run.outcome_pure]
  rfl

theorem textOfPart_held (refs : List String) :
    textOfPart (.comment "// Component refs" :: refs.map fun ref => .held (Naming.camelCase ref)) =
      refsPart refs := by
  simp only [textOfPart, refsPart, List.map_cons, List.map_map]
  rfl

/-- The setup section can always be written: the imports, the lines of the compiler itself, and the
initialisation. -/
theorem outcome_ownSetup_lines (options : Options) (component : Component) :
    ∃ initLines, (initPart component).outcome = .ok initLines ∧
      (ownSetup options component).outcome = .ok ("\n\n".intercalate
        (importPart options component ++ (ownParts options component).map textOfPart ++
          initLines)) := by
  obtain ⟨stateText, initLines, stateWritten, initWritten, written⟩ :=
    outcome_ownSetup options component
  obtain rfl := Except.ok.inj ((outcome_statePart_lines component).symm.trans stateWritten)
  refine ⟨initLines, initWritten, ?_⟩
  rw [written, ← textOfPart_propsLines, ← textOfPart_held, ownParts, List.map_append,
    List.map_append]
  congr 2
  cases component.propNames.isEmpty <;> cases component.state.isEmpty <;>
    cases component.refs.isEmpty <;> simp

/-! ### The names that are declared -/

/-- The container of the props has a name if there are props. -/
def containerNames (component : Component) : List String :=
  if component.propNames.isEmpty then [] else ["props"]

/-- The props that are taken out of their container. -/
def takenNames (component : Component) : List String :=
  localProps component component.propNames component.refs

/-- The state entries with a value. -/
def stateNames (component : Component) : List String :=
  keysOf (component.state.toList.filter fun pair => !pair.2.value.isNull)

/-- The names of held elements, in camel case. -/
def heldNames (component : Component) : List String :=
  component.refs.map Naming.camelCase

/-- The names that the compiler declares of itself, in the order of the lines. -/
def declaredNames (component : Component) : List String :=
  containerNames component ++ takenNames component ++ stateNames component ++ heldNames component

theorem names_stateLine? (key : String) (entry : StateEntry) :
    (stateLine? key entry).toList.flatMap Line.names =
      if entry.value.isNull then [] else [key] := by
  obtain ⟨value, role⟩ := entry
  cases value <;> rfl

theorem names_stateLines (entries : List (String × StateEntry)) :
    (stateLines entries).flatMap Line.names =
      keysOf (entries.filter fun pair => !pair.2.value.isNull) := by
  induction entries with
  | nil => rfl
  | cons pair rest ih =>
    obtain ⟨key, entry⟩ := pair
    have split : stateLines ((key, entry) :: rest) = (stateLine? key entry).toList ++ stateLines rest := by
      rw [stateLines, List.filterMap_cons]
      cases stateLine? key entry <;> rfl
    rw [split, List.flatMap_append, names_stateLine?, ih, List.filter_cons]
    cases entry.value.isNull <;> rfl

theorem names_typingLines (typed : Bool) (component : Component) :
    (typingLines typed component).flatMap Line.names = [] := by
  cases typed with
  | false => rfl
  | true =>
    simp only [typingLines, if_true]
    split
    · rfl
    · simp [List.flatMap_append, List.flatMap_map, Line.names]

theorem names_propsLines (typed : Bool) (component : Component) :
    (propsLines typed component).flatMap Line.names = "props" :: takenNames component := by
  unfold propsLines takenNames
  dsimp only
  rw [List.flatMap_append, List.flatMap_append, names_typingLines]
  cases localProps component component.propNames component.refs with
  | nil => rfl
  | cons first rest => simp [Line.names]

/-- The lines declare the names. -/
theorem names_ownParts (options : Options) (component : Component) :
    (ownParts options component).flatten.flatMap Line.names = declaredNames component := by
  have props : (if component.propNames.isEmpty then []
      else [propsLines (!options.typedProps.isFalsy) component]).flatten.flatMap Line.names =
        containerNames component ++ takenNames component := by
    unfold containerNames
    split
    · next none =>
      have noneTaken : takenNames component = [] := by
        rw [takenNames, List.isEmpty_iff.1 none]
        rfl
      simp [noneTaken]
    · simp [names_propsLines]
  have state : (if component.state.isEmpty then []
      else [.comment "// Component state" :: stateLines component.state.toList]).flatten.flatMap
        Line.names = stateNames component := by
    unfold stateNames
    split
    · next none => rw [List.isEmpty_iff.1 none]; rfl
    · simp [names_stateLines, Line.names]
  have held : (if component.refs.isEmpty then []
      else [.comment "// Component refs" ::
        component.refs.map fun ref => .held (Naming.camelCase ref)]).flatten.flatMap Line.names =
        heldNames component := by
    unfold heldNames
    split
    · next none => rw [List.isEmpty_iff.1 none]; rfl
    · rw [List.flatten_singleton, List.flatMap_cons, List.flatMap_map, List.map_eq_flatMap]
      rfl
  rw [ownParts, List.flatten_append, List.flatten_append, List.flatMap_append, List.flatMap_append,
    props, state, held, declaredNames]

/-! ### Names that are declared twice -/

theorem mem_takenNames_iff : name ∈ takenNames component ↔
    name ∈ component.propNames ∧ name ∉ component.state.keys ∧ name ∉ heldNames component := by
  rw [takenNames, localProps, List.mem_filter, Bool.not_eq_true', ← Bool.not_eq_true,
    List.contains_iff_mem, List.mem_append, not_or]
  rfl

theorem stateNames_subset (component : Component) : stateNames component ⊆ component.state.keys :=
  List.map_subset _ (List.filter_subset_self _)

theorem nodup_takenNames (component : Component) : (takenNames component).Nodup :=
  (Script.nodup_firstOccurrences _).filter _

theorem nodup_stateNames (component : Component) : (stateNames component).Nodup :=
  component.state.distinct.sublist (List.filter_sublist.map _)

theorem nodup_refs (component : Component) : component.refs.Nodup :=
  Script.nodup_firstOccurrences _

/-- Nothing but one held element claims its name. -/
structure IsUnclaimed (component : Component) (ref : String) : Prop where
  container : component.propNames ≠ [] → Naming.camelCase ref ≠ "props"
  state : Naming.camelCase ref ∉ stateNames component
  held : ∀ other ∈ component.refs, Naming.camelCase other = Naming.camelCase ref → other = ref

theorem mem_containerNames_iff :
    name ∈ containerNames component ↔ component.propNames ≠ [] ∧ name = "props" := by
  unfold containerNames
  split
  · next none => simp [List.isEmpty_iff.1 none]
  · next some => simp [List.isEmpty_iff.not.1 some]

theorem nodup_containerNames (component : Component) : (containerNames component).Nodup := by
  unfold containerNames
  split <;> simp

/-- Props give way to state and to held elements, and the container claims a name of its own. -/
theorem nodup_before_held (free : component.propNames ≠ [] →
    "props" ∉ takenNames component ∧ "props" ∉ stateNames component) :
    (containerNames component ++ takenNames component ++ stateNames component).Nodup := by
  refine List.nodup_append.2 ⟨List.nodup_append.2
    ⟨nodup_containerNames component, nodup_takenNames component, ?_⟩, nodup_stateNames component, ?_⟩
  · rintro name inContainer other taken rfl
    obtain ⟨some, rfl⟩ := mem_containerNames_iff.1 inContainer
    exact (free some).1 taken
  · rintro name before other inState rfl
    rcases List.mem_append.1 before with inContainer | taken
    · obtain ⟨some, rfl⟩ := mem_containerNames_iff.1 inContainer
      exact (free some).2 inState
    · exact (mem_takenNames_iff.1 taken).2.1 (stateNames_subset component inState)

/-- A name that is unclaimed is not declared before the held elements. -/
theorem IsUnclaimed.not_mem_before {ref : String} (unclaimed : IsUnclaimed component ref)
    (member : ref ∈ component.refs) :
    Naming.camelCase ref ∉
      containerNames component ++ takenNames component ++ stateNames component := by
  intro before
  rcases List.mem_append.1 before with first | inState
  · rcases List.mem_append.1 first with inContainer | taken
    · obtain ⟨some, isContainer⟩ := mem_containerNames_iff.1 inContainer
      exact unclaimed.container some isContainer
    · exact (mem_takenNames_iff.1 taken).2.2 (List.mem_map_of_mem member)
  · exact unclaimed.state inState

/-- No name is declared twice exactly if the name of each held element is unclaimed, and neither a prop
nor a state entry is called like the container of the props. -/
theorem nodup_declaredNames_iff (component : Component) :
    (declaredNames component).Nodup ↔
      (component.propNames ≠ [] →
        "props" ∉ takenNames component ∧ "props" ∉ stateNames component) ∧
      ∀ ref ∈ component.refs, IsUnclaimed component ref := by
  rw [declaredNames, List.nodup_append]
  constructor
  · rintro ⟨early, distinct, shared⟩
    obtain ⟨first, -, apart⟩ := List.nodup_append.1 early
    obtain ⟨-, -, contained⟩ := List.nodup_append.1 first
    refine ⟨fun some => ?_, fun ref member => ⟨fun some same => ?_, fun inState => ?_, ?_⟩⟩
    · have container := mem_containerNames_iff.2 ⟨some, rfl⟩
      exact ⟨fun taken => contained _ container _ taken rfl,
        fun inState => apart _ (List.mem_append_left _ container) _ inState rfl⟩
    · have container := mem_containerNames_iff.2 ⟨some, same⟩
      exact shared _ (List.mem_append_left _ (List.mem_append_left _ container)) _
        (List.mem_map_of_mem member) rfl
    · exact shared _ (List.mem_append_right _ inState) _ (List.mem_map_of_mem member) rfl
    · intro other otherMember same
      exact List.inj_on_of_nodup_map distinct otherMember member same
  · rintro ⟨free, unclaimed⟩
    refine ⟨nodup_before_held free, ?_, ?_⟩
    · refine (nodup_refs component).map_on fun ref member other otherMember same => ?_
      exact (unclaimed other otherMember).held ref member same
    · rintro name before other inHeld rfl
      obtain ⟨ref, member, rfl⟩ := List.mem_map.1 inHeld
      exact (unclaimed ref member).not_mem_before member before

theorem count_map_eq_one_iff {f : String → String} {items : List String} {item : String}
    (distinct : items.Nodup) (member : item ∈ items) :
    (items.map f).count (f item) = 1 ↔ ∀ other ∈ items, f other = f item → other = item := by
  obtain ⟨before, after, rfl⟩ := List.append_of_mem member
  have elsewhere : item ∉ before ∧ item ∉ after := by
    have apart := List.nodup_middle.1 distinct
    simpa using (List.nodup_cons.1 apart).1
  simp only [List.map_append, List.map_cons, List.count_append, List.count_cons_self]
  constructor
  · intro once other listed same
    have noneBefore : f item ∉ before.map f := List.count_eq_zero.1 (by omega)
    have noneAfter : f item ∉ after.map f := List.count_eq_zero.1 (by omega)
    rcases List.mem_append.1 listed with earlier | later
    · exact absurd (same ▸ List.mem_map_of_mem earlier) noneBefore
    · rcases List.mem_cons.1 later with here | further
      · exact here
      · exact absurd (same ▸ List.mem_map_of_mem further) noneAfter
  · intro alone
    have noneBefore : (before.map f).count (f item) = 0 := by
      refine List.count_eq_zero.2 fun found => ?_
      obtain ⟨other, earlier, same⟩ := List.mem_map.1 found
      exact elsewhere.1 (alone other (List.mem_append_left _ earlier) same ▸ earlier)
    have noneAfter : (after.map f).count (f item) = 0 := by
      refine List.count_eq_zero.2 fun found => ?_
      obtain ⟨other, later, same⟩ := List.mem_map.1 found
      have listed := List.mem_append_right before (List.mem_cons_of_mem item later)
      exact elsewhere.2 (alone other listed same ▸ later)
    omega

/-- A held element is declared once exactly if its name is unclaimed. -/
theorem count_declaredNames_eq_one_iff {ref : String} (member : ref ∈ component.refs) :
    (declaredNames component).count (Naming.camelCase ref) = 1 ↔ IsUnclaimed component ref := by
  have isHeld : Naming.camelCase ref ∈ heldNames component := List.mem_map_of_mem member
  have positive : 0 < (heldNames component).count (Naming.camelCase ref) := List.count_pos_iff.2 isHeld
  have once : (heldNames component).count (Naming.camelCase ref) = 1 ↔
      ∀ other ∈ component.refs, Naming.camelCase other = Naming.camelCase ref → other = ref :=
    count_map_eq_one_iff (nodup_refs component) member
  rw [declaredNames, List.count_append]
  constructor
  · intro total
    -- The held elements account for the one time, so nothing is left for the lines before.
    have none : (containerNames component ++ takenNames component ++ stateNames component).count
        (Naming.camelCase ref) = 0 := by omega
    have notBefore := List.count_eq_zero.1 none
    refine ⟨fun some same => ?_, fun inState => ?_, once.1 (by omega)⟩
    · exact notBefore (List.mem_append_left _
        (List.mem_append_left _ (mem_containerNames_iff.2 ⟨some, same⟩)))
    · exact notBefore (List.mem_append_right _ inState)
  · intro unclaimed
    rw [List.count_eq_zero.2 (unclaimed.not_mem_before member), once.2 unclaimed.held]

end Page

/-! ### Held elements in the markup -/

namespace Markup

theorem visitedIn_subset_walk {nodes : List Node} (each : ∀ node ∈ nodes, visited node ⊆ node.walk) :
    visitedIn nodes ⊆ walk nodes := by
  induction nodes with
  | nil => simp [visitedIn]
  | cons node rest ih =>
    have later := ih fun other member => each other (List.mem_cons_of_mem _ member)
    rw [visitedIn, walk_cons]
    split
    · exact List.subset_append_of_subset_right _ later
    · exact List.append_subset.2
        ⟨List.subset_append_of_subset_left _ (each node List.mem_cons_self),
          List.subset_append_of_subset_right _ later⟩

/-- Rendering visits nodes of the walk. -/
theorem visited_subset_walk (node : Node) : visited node ⊆ node.walk := by
  induction node using Node.induct with
  | step node inChildren inAlternative =>
    rw [visited_eq]
    refine List.cons_subset.2 ⟨mem_walk_self node, List.append_subset.2 ⟨?_, ?_⟩⟩
    · split
      · exact List.Subset.trans (visitedIn_subset_walk inChildren) node.walk_children_subset
      · exact List.nil_subset _
    · split
      · cases held : node.alternative with
        | none => exact List.nil_subset _
        | some other =>
          exact List.Subset.trans (inAlternative other held) (Node.walk_alternative_subset held)
      · exact List.nil_subset _

/-- The attribute that holds an element by a name. -/
def heldAttribute (name : String) : String :=
  " bind:this=" ++ braced name

/-- The code of the name that an element is held by, unless the binding attaches all attributes of an
object in place of that. -/
def heldCode? (node : Node) : Option String :=
  if node.kind = .element then
    ((node.bindings.get? "ref").filter (!·.isSpread)).bind Binding.activeCode?
  else none

theorem exists_binding_of_heldCode? {node : Node} {code : String} (held : heldCode? node = some code) :
    ∃ binding, ("ref", binding) ∈ node.bindings.toList ∧ binding.isSpread = false ∧
      binding.activeCode? = some code := by
  unfold heldCode? at held
  split at held
  · obtain ⟨binding, found, active⟩ := Option.bind_eq_some_iff.1 held
    obtain ⟨bound, single⟩ := Option.filter_eq_some_iff.1 found
    exact ⟨binding, Dictionary.mem_toList_of_get? bound, by simpa using single, active⟩
  · cases held

/-- The attribute that holds an element is among its attributes. -/
theorem infix_attributes (name : String) {bindings : List (String × Binding)} {binding : Binding}
    {code : String} (member : ("ref", binding) ∈ bindings) (single : binding.isSpread = false)
    (active : binding.activeCode? = some code) :
    ∃ text, (attributes name bindings).outcome = .ok text ∧
      (heldAttribute (Naming.camelCase code)).toList <:+: text.toList := by
  induction bindings with
  | nil => cases member
  | cons pair rest ih =>
    obtain ⟨key, other⟩ := pair
    rcases List.mem_cons.1 member with same | later
    · cases same
      obtain ⟨others, othersWritten, -⟩ := outcome_attributes name rest
      have apart : isApart "ref" = false := by decide
      have own : bindingAttribute name "ref" binding code =
          pure (heldAttribute (Naming.camelCase code)) := by
        simp [bindingAttribute, single, heldAttribute]
      refine ⟨heldAttribute (Naming.camelCase code) ++ others, ?_, ?_⟩
      · simp only [attributes, apart, Bool.false_eq_true, if_false, active, own, pure_bind,
          Run.outcome_bind_ok othersWritten, Run.outcome_pure]
      · rw [String.toList_append]
        exact (List.prefix_append _ _).isInfix
    · obtain ⟨others, othersWritten, inside⟩ := ih later
      unfold attributes
      split
      · exact ⟨others, othersWritten, inside⟩
      · split
        · exact ⟨others, othersWritten, inside⟩
        · next code _ =>
          obtain ⟨own, ownWritten, -⟩ := outcome_bindingAttribute name key other code
          refine ⟨own ++ others, ?_, ?_⟩
          · simp only [Run.outcome_bind_ok ownWritten, Run.outcome_bind_ok othersWritten,
              Run.outcome_pure]
          · rw [String.toList_append]
            exact inside.trans (List.suffix_append _ _).isInfix

/-- The opening of a held element has the attribute that holds it. -/
theorem infix_opening (settings : Settings) {node : Node} {code : String}
    (held : heldCode? node = some code) :
    ∃ start, (opening settings node).outcome = .ok start ∧
      (heldAttribute (Naming.camelCase code)).toList <:+: start.toList := by
  obtain ⟨binding, member, single, active⟩ := exists_binding_of_heldCode? held
  obtain ⟨bound, boundWritten, inside⟩ := infix_attributes node.name member single active
  obtain ⟨classes, classesWritten, -⟩ := outcome_classAttribute node
  refine ⟨_, by simp only [opening, Run.outcome_bind_ok classesWritten,
    Run.outcome_bind_ok boundWritten, Run.outcome_pure]; rfl, ?_⟩
  rw [String.toList_append, String.toList_append]
  exact inside.trans ((List.suffix_append _ _).isInfix.trans (List.prefix_append _ _).isInfix)

end Markup

namespace Page

variable {component : Component}

/-- The name of a held element that rendering visits is among the names of the component. -/
theorem mem_refs_of_visited {node : Node} {code : String}
    (shown : node ∈ Markup.visitedIn component.strip.children)
    (held : Markup.heldCode? node = some code) : code ∈ component.refs := by
  obtain ⟨binding, member, -, active⟩ := Markup.exists_binding_of_heldCode? held
  rw [← component.refs_strip]
  refine Script.mem_firstOccurrences.2 (List.mem_filterMap.2 ⟨node, ?_, ?_⟩)
  · exact Markup.visitedIn_subset_walk (fun other _ => Markup.visited_subset_walk other) shown
  · rw [Node.activeCode?, Dictionary.get?_of_mem member]
    exact active

/-- A component is compiled without plugins to a page that is assembled from its setup section and its
markup. -/
theorem exists_page_of_plain {options : Options} (plain : options.plugins = [])
    (component : Component) :
    ∃ written markup script style compilation,
      (ownSetup options component).outcome = .ok written ∧
      (Markup.renderChildren (settingsOf options (prepare component) component.strip)
        component.strip.children).outcome = .ok markup ∧
      (compile options component).outcome = .ok compilation ∧
      (tidied options component.strip (assemble written markup script style)).outcome =
        .ok compilation.code := by
  obtain ⟨drafted, page, draftMade, pageTidied, compiled⟩ := outcome_compile_of_plain plain component
  obtain ⟨written, text, script, style, setupWritten, rendered, assembled⟩ :=
    exists_parts_of_draft draftMade
  rw [assembled] at pageTidied
  exact ⟨written, text, script, style, _, setupWritten, rendered, compiled, pageTidied⟩

/-- A component that is compiled without plugins has a page. Its setup section consists of the imports,
the lines that declare names, and the initialisation. No name is declared twice exactly if the name of
each held element is unclaimed, and neither a prop nor a state entry is called like the container of
the props. An element that the markup holds by a name finds the name declared, and declared once
exactly if it is unclaimed. -/
theorem declares_each_once_iff {options : Options} (plain : options.plugins = [])
    (component : Component) :
    (∃ initLines markup script style compilation,
      (initPart component).outcome = .ok initLines ∧
      (Markup.renderChildren (settingsOf options (prepare component) component.strip)
        component.strip.children).outcome = .ok markup ∧
      (compile options component).outcome = .ok compilation ∧
      (tidied options component.strip (assemble
        ("\n\n".intercalate (importPart options component ++
          (ownParts options component).map textOfPart ++ initLines))
        markup script style)).outcome = .ok compilation.code) ∧
    (ownParts options component).flatten.flatMap Line.names = declaredNames component ∧
    ((declaredNames component).Nodup ↔
      (component.propNames ≠ [] →
        "props" ∉ takenNames component ∧ "props" ∉ stateNames component) ∧
      ∀ ref ∈ component.refs, IsUnclaimed component ref) ∧
    ∀ node ∈ Markup.visitedIn component.strip.children, ∀ code,
      Markup.heldCode? node = some code →
      (∃ start, (Markup.opening (settingsOf options (prepare component) component.strip)
          node).outcome = .ok start ∧
        (Markup.heldAttribute (Naming.camelCase code)).toList <:+: start.toList) ∧
      Naming.camelCase code ∈ declaredNames component ∧
      ((declaredNames component).count (Naming.camelCase code) = 1 ↔
        IsUnclaimed component code) := by
  refine ⟨?_, names_ownParts options component, nodup_declaredNames_iff component, ?_⟩
  · obtain ⟨initLines, initWritten, linesWritten⟩ := outcome_ownSetup_lines options component
    obtain ⟨written, markup, script, style, compilation, setupWritten, rendered, compiled, tidy⟩ :=
      exists_page_of_plain plain component
    obtain rfl := Except.ok.inj (setupWritten.symm.trans linesWritten)
    exact ⟨initLines, markup, script, style, compilation, initWritten, rendered, compiled, tidy⟩
  · intro node shown code held
    have member := mem_refs_of_visited shown held
    exact ⟨Markup.infix_opening _ held, List.mem_append_right _ (List.mem_map_of_mem member),
      count_declaredNames_eq_one_iff member⟩

/-- An input that is held by a name. -/
def heldInput (ref : String) : Node :=
  ⟨"input", ∅, Dictionary.ofList [("ref", Binding.ofCode ref)], [], none, ∅, ∅, .element⟩

/-- A component of held inputs. -/
def holding (props : Entries (Option String)) (state : Entries StateEntry) (refs : List String) :
    Component where
  name := "Field"
  props := props
  state := state
  children := refs.map heldInput

/-- A prop, a state entry and a held element are declared next to the container of the props. -/
theorem declares_field :
    let component := holding (Dictionary.ofList [("label", none)])
      (Dictionary.ofList [("count", ⟨.int 0, "property"⟩)]) ["my-input"]
    declaredNames component = ["props", "label", "count", "myInput"] ∧
      (declaredNames component).Nodup ∧
      (declaredNames component).count "myInput" = 1 := by
  intro component
  have names : declaredNames component = ["props", "label", "count", "myInput"] := by decide +kernel
  have plain : ({} : Options).plugins = [] := rfl
  obtain ⟨-, -, distinct, once⟩ := declares_each_once_iff plain component
  have refs : component.refs = ["my-input"] := by decide +kernel
  have unclaimed (ref : String) (member : ref ∈ component.refs) : IsUnclaimed component ref := by
    rw [refs] at member
    obtain rfl := List.mem_singleton.1 member
    refine ⟨fun _ => by decide +kernel, by decide +kernel, ?_⟩
    rw [refs]
    simp
  have visited : Markup.visitedIn component.strip.children = [heldInput "my-input"] := by rfl
  have inCamelCase : Naming.camelCase "my-input" = "myInput" := by decide +kernel
  refine ⟨names, distinct.2 ⟨fun _ => by decide +kernel, unclaimed⟩, ?_⟩
  rw [← inCamelCase]
  exact (once (heldInput "my-input") (by simp [visited]) "my-input" rfl).2.2.2
    (unclaimed "my-input" (by simp [refs]))

/-- Two names that are the same in camel case are declared twice, and both elements are held by the one
name. -/
theorem declared_twice :
    let component := holding ∅ ∅ ["my-ref", "myRef"]
    (ownSetup {} component).outcome = .ok "// Component refs\nlet myRef;\nlet myRef;" ∧
      declaredNames component = ["myRef", "myRef"] ∧
      ¬ (declaredNames component).Nodup ∧
      (declaredNames component).count "myRef" = 2 ∧
      (Markup.visitedIn component.strip.children).map Markup.heldCode? =
        [some "my-ref", some "myRef"] := by
  refine ⟨by rfl, by decide +kernel, by decide +kernel, by decide +kernel, by decide +kernel⟩

end Page

end ComponentCompiler

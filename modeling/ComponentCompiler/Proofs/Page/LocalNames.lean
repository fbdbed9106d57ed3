import ComponentCompiler.Page.Compile
import ComponentCompiler.Proofs.Markup.EmbeddedCode

/-!
# The names that the markup finds in the setup section

In the markup a prop is a bare name, and the setup section has to declare it. Three parts of the
section declare names: the line that takes props out of their container, the declarations of the
state, and those of the names for held elements. A prop whose name is taken by the state or by a
held element is left out of the first part, because the other two declare it. They do, but for
state entries without a value: those take the name and declare nothing.

## Main definitions

* `Page.Declares` — the setup section declares a name
* `Page.IsWithheld` — a state entry without a value takes a name that no held element has

## Main results

* `Page.outcome_ownSetup` — the setup section can always be written
* `Page.declares_iff` — the names that it declares
* `Page.declares_iff_not_withheld` — a prop that the markup refers to is declared, unless it is
  withheld
* `Page.not_declares_withheld` — a prop that the markup refers to and that is not declared
-/

namespace ComponentCompiler.Page

open Script (Piece Snippet)

/-! ### What the setup section holds -/

theorem infix_intercalate {separator part : String} {parts : List String} (member : part ∈ parts) :
    part.toList <:+: (separator.intercalate parts).toList := by
  induction parts with
  | nil => cases member
  | cons first rest ih =>
    cases rest with
    | nil =>
      obtain rfl := List.mem_singleton.1 member
      simp
    | cons second others =>
      rw [String.intercalate_cons_cons, String.toList_append, String.toList_append]
      rcases List.mem_cons.1 member with rfl | later
      · exact ((List.prefix_append _ _).isInfix).trans (List.prefix_append _ _).isInfix
      · exact (ih later).trans (List.suffix_append _ _).isInfix

/-- The line that declares a state entry, with the word that declares it and its value. -/
def declarationLine (word key value : String) : String :=
  word ++ " " ++ key ++ " = " ++ value ++ ";"

/-- An absent value has no declaration, and every other value is declared under its key. -/
theorem outcome_stateDeclaration (key : String) (entry : StateEntry) :
    ∃ line, (stateDeclaration key entry).outcome = .ok line ∧
      ((entry.value = .null ∧ line = none) ∨
        (entry.value ≠ .null ∧ ∃ word ∈ ["const", "let"], ∃ value,
          line = some (declarationLine word key value))) := by
  obtain ⟨value, role⟩ := entry
  cases value with
  | null => exact ⟨none, rfl, .inl ⟨rfl, rfl⟩⟩
  | string code =>
    simp only [stateDeclaration, Run.outcome_bind_ok (outcome_embedCode _ _), Run.outcome_pure]
    refine ⟨_, rfl, .inr ⟨nofun, if holdsFunction _ then "const" else "let", ?_, _, rfl⟩⟩
    split <;> simp
  | bool _ | int _ | float _ | array _ | object _ =>
    exact ⟨_, rfl, .inr ⟨nofun, "let", by simp, _, rfl⟩⟩

/-- The declarations of state entries can always be written, and each that an entry has is among
them. -/
theorem outcome_stateDeclarations (entries : List (String × StateEntry)) :
    ∃ lines, (stateDeclarations entries).outcome = .ok lines ∧
      ∀ key entry line, (key, entry) ∈ entries →
        (stateDeclaration key entry).outcome = .ok (some line) → line ∈ lines := by
  induction entries with
  | nil => exact ⟨[], rfl, nofun⟩
  | cons pair rest ih =>
    obtain ⟨key, entry⟩ := pair
    obtain ⟨line, written, -⟩ := outcome_stateDeclaration key entry
    obtain ⟨lines, others, complete⟩ := ih
    refine ⟨line.toList ++ lines, ?_, ?_⟩
    · simp only [stateDeclarations, Run.outcome_bind_ok written, Run.outcome_bind_ok others,
        Run.outcome_pure]
    · intro name value declaration member declared
      rcases List.mem_cons.1 member with same | later
      · cases same
        rw [written] at declared
        simp [Except.ok.inj declared]
      · exact List.mem_append_right _ (complete name value declaration later declared)

/-- The line that takes props out of their container. -/
def takingLine (names : List String) : String :=
  "const \x7b " ++ ", ".intercalate names ++ " \x7d = props;"

/-- The line that declares the name for a held element. -/
def heldLine (name : String) : String :=
  "let " ++ name ++ ";"

/-- What a component declares as a local name in the given setup section: a prop that is taken out
of its container, a state entry, or a held element. The line that declares it is part of the
section. -/
inductive Declares (component : Component) (written : String) (name : String) : Prop
  | taken (member : name ∈ localProps component component.propNames component.refs)
      (line : (takingLine (localProps component component.propNames component.refs)).toList <:+:
        written.toList)
  | state (entry : StateEntry) (word value : String)
      (member : (name, entry) ∈ component.state.toList)
      (declared : (stateDeclaration name entry).outcome =
        .ok (some (declarationLine word name value)))
      (line : (declarationLine word name value).toList <:+: written.toList)
  | held (member : name ∈ component.refs.map Naming.camelCase)
      (line : (heldLine name).toList <:+: written.toList)

theorem infix_propsPart (typed : Bool) {component : Component} {propNames refs : List String}
    (some : localProps component propNames refs ≠ []) :
    (takingLine (localProps component propNames refs)).toList <:+:
      (propsPart typed component propNames refs).toList := by
  unfold propsPart
  refine infix_intercalate (List.mem_append_right _ ?_)
  simp [List.isEmpty_eq_false_iff.2 some, takingLine]

theorem infix_refsPart {refs : List String} {name : String}
    (member : name ∈ refs.map Naming.camelCase) :
    (heldLine name).toList <:+: (refsPart refs).toList := by
  obtain ⟨ref, held, rfl⟩ := List.mem_map.1 member
  exact infix_intercalate (List.mem_cons_of_mem _ (List.mem_map.2 ⟨ref, held, rfl⟩))

theorem outcome_statePart (component : Component) :
    ∃ part, (statePart component).outcome = .ok part ∧
      ∀ key entry line, (key, entry) ∈ component.state.toList →
        (stateDeclaration key entry).outcome = .ok (some line) →
        line.toList <:+: part.toList := by
  obtain ⟨lines, written, complete⟩ := outcome_stateDeclarations component.state.toList
  refine ⟨"\n".intercalate ("// Component state" :: lines), ?_, ?_⟩
  · simp only [statePart, Run.outcome_bind_ok written, Run.outcome_pure]
  · intro key entry line member declared
    exact infix_intercalate (List.mem_cons_of_mem _ (complete key entry line member declared))

theorem outcome_initPart (component : Component) :
    ∃ lines, (initPart component).outcome = .ok lines := by
  unfold initPart
  split
  · exact ⟨_, rfl⟩
  · exact ⟨_, by rw [Run.outcome_bind_ok (outcome_embedCode _ _), Run.outcome_pure]⟩

/-- The setup section of a component that is compiled without plugins: what was found out about the
component stands for the component without its annotations. -/
def ownSetup (options : Options) (component : Component) : Run String :=
  setup options (Findings.of component) component.strip

/-- The import statements of a page, if there are any. -/
def importPart (options : Options) (component : Component) : List String :=
  let imports := Import.statements target (!options.explicitEndings.isFalsy) component
  if Text.isBlankText imports.toList then [] else [imports]

/-- The setup section can always be written. Between the imports and the initialisation stand the
parts that declare names. -/
theorem outcome_ownSetup (options : Options) (component : Component) :
    ∃ stateText initLines, (statePart component).outcome = .ok stateText ∧
      (initPart component).outcome = .ok initLines ∧
      (ownSetup options component).outcome = .ok ("\n\n".intercalate (importPart options component ++
        (if component.propNames.isEmpty then []
          else [propsPart (!options.typedProps.isFalsy) component component.propNames
            component.refs]) ++
        (if !component.state.isEmpty then [stateText] else []) ++
        (if component.refs.isEmpty then [] else [refsPart component.refs]) ++ initLines)) := by
  obtain ⟨stateText, stateWritten, -⟩ := outcome_statePart component
  obtain ⟨initLines, initWritten⟩ := outcome_initPart component
  refine ⟨stateText, initLines, stateWritten, initWritten, ?_⟩
  unfold ownSetup setup
  have initWritten : (initPart component.strip).outcome = .ok initLines := initWritten
  have stateLines := Run.outcome_map_ok
    (show (statePart component.strip).outcome = _ from stateWritten) fun text => [text]
  have pureLines : (pure [] : Run (List String)).outcome = .ok [] := rfl
  by_cases some : (Findings.of component).hasState = true
  · have present : (!component.state.isEmpty) = true := some
    simp only [if_pos some, if_pos present]
    rw [Run.outcome_bind_ok stateLines, Run.outcome_bind_ok initWritten]
    rfl
  · have absent : ¬(!component.state.isEmpty) = true := some
    simp only [if_neg some, if_neg absent]
    rw [Run.outcome_bind_ok pureLines, Run.outcome_bind_ok initWritten]
    rfl

/-- The locals of a component are the props that are taken out of their container, the state entries
with a value, and the held elements. -/
theorem declares_iff (options : Options) (component : Component) :
    ∃ written, (ownSetup options component).outcome = .ok written ∧
      ∀ name, Declares component written name ↔
        name ∈ localProps component component.propNames component.refs ∨
        (∃ entry, (name, entry) ∈ component.state.toList ∧ entry.value ≠ .null) ∨
        name ∈ component.refs.map Naming.camelCase := by
  obtain ⟨stateText, initLines, stateWritten, -, written⟩ := outcome_ownSetup options component
  refine ⟨_, written, fun name => ⟨?_, ?_⟩⟩
  · rintro (⟨member, -⟩ | ⟨entry, word, value, member, declared, -⟩ | ⟨member, -⟩)
    · exact .inl member
    · refine .inr (.inl ⟨entry, member, fun absent => ?_⟩)
      obtain ⟨line, outcome, ⟨-, none⟩ | ⟨present, -⟩⟩ := outcome_stateDeclaration name entry
      · rw [outcome, none] at declared
        cases declared
      · exact present absent
    · exact .inr (.inr member)
  · rintro (member | ⟨entry, member, present⟩ | member)
    · have some : component.propNames ≠ [] :=
        List.ne_nil_of_mem (localProps_subset component _ _ member)
      refine .taken member ((infix_propsPart (!options.typedProps.isFalsy)
        (List.ne_nil_of_mem member)).trans (infix_intercalate ?_))
      simp [List.isEmpty_eq_false_iff.2 some]
    · obtain ⟨line, outcome, ⟨absent, -⟩ | ⟨-, word, -, value, rfl⟩⟩ :=
        outcome_stateDeclaration name entry
      · exact absurd absent present
      · obtain ⟨text, textWritten, held⟩ := outcome_statePart component
        obtain rfl := Except.ok.inj (stateWritten.symm.trans textWritten)
        refine .state entry word value member outcome
          ((held name entry _ member outcome).trans (infix_intercalate ?_))
        have some : component.state.isEmpty = false :=
          List.isEmpty_eq_false_iff.2 (List.ne_nil_of_mem member)
        simp [some]
    · have some : component.refs ≠ [] := by
        rintro none
        simp [none] at member
      refine .held member ((infix_refsPart member).trans (infix_intercalate ?_))
      simp [List.isEmpty_eq_false_iff.2 some]

/-! ### The page that is compiled without plugins -/

/-- A page that is compiled without plugins is assembled from the setup section and three further
parts, and then tidied. -/
theorem code_of_compile {options : Options} (plain : options.plugins = []) {component : Component}
    {written : String} (setupWritten : (ownSetup options component).outcome = .ok written)
    {compilation : Compilation} (ok : (compile options component).outcome = .ok compilation) :
    ∃ markup script style,
      (tidied options component.strip (assemble written markup script style)).outcome =
        .ok compilation.code := by
  unfold compile at ok
  simp only [plain, Plugin.runJson, Plugin.runCode, pure_bind] at ok
  obtain ⟨first, firstWritten, ok, -⟩ := Run.exists_of_bind_ok ok
  obtain ⟨⟨markup, styles⟩, -, ok, -⟩ := Run.exists_of_bind_ok ok
  have same : first = written := Except.ok.inj (firstWritten.symm.trans setupWritten)
  subst same
  -- The rest of the run is the same whether or not there is a script for the browser.
  split at ok
  · obtain ⟨script, -, ok, -⟩ := Run.exists_of_bind_ok ok
    obtain ⟨rules, -, ok, -⟩ := Run.exists_of_bind_ok ok
    obtain ⟨page, pageTidied, ok, -⟩ := Run.exists_of_bind_ok ok
    cases ok
    exact ⟨markup, script, _, pageTidied⟩
  · obtain ⟨rules, -, ok, -⟩ := Run.exists_of_bind_ok ok
    obtain ⟨page, pageTidied, ok, -⟩ := Run.exists_of_bind_ok ok
    cases ok
    exact ⟨markup, "", _, pageTidied⟩

/-! ### Names that the markup refers to -/

/-- A state entry without a value takes a name that no held element has. -/
def IsWithheld (component : Component) (name : String) : Prop :=
  (∃ entry, (name, entry) ∈ component.state.toList ∧ entry.value = .null) ∧
    name ∉ component.refs.map Naming.camelCase

theorem mem_propReferences {code text name : List Char}
    (reference : Piece.reference text ⟨.props, name⟩ ∈ (Snippet.ofCode code).tree.pieces) :
    name ∈ Script.propReferences code :=
  Script.mem_firstOccurrences.2 (List.mem_filterMap.2 ⟨_, reference, rfl⟩)

/-- A prop that the embedded code of the markup refers to is a prop of the component. -/
theorem mem_propNames_of_embeddedIn {component : Component} {code : String}
    (shown : some code ∈ Markup.embeddedIn component.strip.children) {text name : List Char}
    (reference : Piece.reference text ⟨.props, name⟩ ∈ (Snippet.ofCode code.toList).tree.pieces) :
    String.ofList name ∈ component.propNames := by
  have some : code ≠ "" := by
    rintro rfl
    have none : Script.propReferences [] = [] := by decide +kernel
    simpa [none] using mem_propReferences reference
  refine Script.mem_firstOccurrences.2 (List.mem_append_right _ (List.mem_flatMap.2 ?_))
  exact ⟨code, Markup.mem_code_of_embeddedIn shown some,
    List.mem_map.2 ⟨name, mem_propReferences reference, rfl⟩⟩

theorem not_withheld_iff {component : Component} {name : String}
    (isProp : name ∈ component.propNames) :
    ¬ IsWithheld component name ↔
      name ∈ localProps component component.propNames component.refs ∨
        (∃ entry, (name, entry) ∈ component.state.toList ∧ entry.value ≠ .null) ∨
        name ∈ component.refs.map Naming.camelCase := by
  constructor
  · intro free
    by_cases isHeld : name ∈ component.refs.map Naming.camelCase
    · exact .inr (.inr isHeld)
    by_cases isState : name ∈ component.state.keys
    · obtain ⟨entry, member⟩ := Dictionary.mem_keys_iff.1 isState
      exact .inr (.inl ⟨entry, member, fun absent => free ⟨⟨entry, member, absent⟩, isHeld⟩⟩)
    · refine .inl (List.mem_filter.2 ⟨isProp, ?_⟩)
      rw [Bool.not_eq_true', ← Bool.not_eq_true, List.contains_iff_mem, List.mem_append, not_or]
      exact ⟨isState, isHeld⟩
  · rintro declared ⟨⟨entry, member, absent⟩, notHeld⟩
    rcases declared with taken | ⟨other, same, present⟩ | isHeld
    · have free := (List.mem_filter.1 taken).2
      rw [Bool.not_eq_true', ← Bool.not_eq_true, List.contains_iff_mem, List.mem_append,
        not_or] at free
      exact free.1 (Dictionary.mem_keys_iff.2 ⟨entry, member⟩)
    · exact present (Dictionary.eq_of_mem_toList member same ▸ absent)
    · exact notHeld isHeld

/-- The setup section of a page that is compiled without plugins can always be written, and the page
is assembled from it. It declares a prop that the embedded code of the markup refers to exactly if
the prop is not withheld. -/
theorem declares_iff_not_withheld {options : Options} (plain : options.plugins = [])
    (component : Component) :
    ∃ written, (ownSetup options component).outcome = .ok written ∧
      (∀ compilation, (compile options component).outcome = .ok compilation →
        ∃ markup script style,
          (tidied options component.strip (assemble written markup script style)).outcome =
            .ok compilation.code) ∧
      ∀ code text name, some code ∈ Markup.embeddedIn component.strip.children →
        Piece.reference text ⟨.props, name⟩ ∈ (Snippet.ofCode code.toList).tree.pieces →
        (Declares component written (String.ofList name) ↔
          ¬ IsWithheld component (String.ofList name)) := by
  obtain ⟨written, setupWritten, declared⟩ := declares_iff options component
  refine ⟨written, setupWritten, fun compilation ok => code_of_compile plain setupWritten ok, ?_⟩
  intro code text name shown reference
  rw [declared, not_withheld_iff (mem_propNames_of_embeddedIn shown reference)]

/-- A component with the given state whose only element shows the prop `title`. -/
def titled (state : Entries StateEntry) : Component where
  name := "Card"
  state := state
  children := [⟨"div", ∅, Dictionary.ofList [("title", Binding.ofCode "props.title")], [], none, ∅, ∅,
    .element⟩]

/-- The prop in the title is among the code that the markup embeds, whatever the state is. -/
theorem mem_embeddedIn_titled (state : Entries StateEntry) :
    some "props.title" ∈ Markup.embeddedIn (titled state).strip.children := by
  show some "props.title" ∈ Markup.embeddedIn (titled ∅).strip.children
  decide +kernel

theorem reference_titled : Piece.reference "props.title".toList ⟨.props, "title".toList⟩ ∈
    (Snippet.ofCode "props.title".toList).tree.pieces := by
  decide +kernel

/-- Without state the prop in the title is declared. -/
theorem declares_title : ∃ written, (ownSetup {} (titled ∅)).outcome = .ok written ∧
    Declares (titled ∅) written "title" := by
  have plain : ({} : Options).plugins = [] := rfl
  obtain ⟨written, setupWritten, -, declared⟩ := declares_iff_not_withheld plain (titled ∅)
  refine ⟨written, setupWritten, (declared _ _ _ (mem_embeddedIn_titled ∅) reference_titled).2 ?_⟩
  rintro ⟨⟨entry, member, -⟩, -⟩
  cases member

/-- A state entry without a value. -/
def valueless : StateEntry where
  value := .null

/-- A state entry of the same name without a value leaves the prop in the title undeclared. -/
theorem not_declares_withheld :
    let component := titled (Dictionary.ofList [("title", valueless)])
    some "props.title" ∈ Markup.embeddedIn component.strip.children ∧
      Piece.reference "props.title".toList ⟨.props, "title".toList⟩ ∈
        (Snippet.ofCode "props.title".toList).tree.pieces ∧
      (ownSetup {} component).outcome =
        .ok ("type Props = Record<string, any>;\n\nconst props = Astro.props as Props;\n\n" ++
          "// Component state") ∧
      ∀ written, ¬ Declares component written "title" := by
  refine ⟨mem_embeddedIn_titled _, reference_titled, by rfl, ?_⟩
  rintro written (⟨member, -⟩ | ⟨entry, word, value, member, declared, -⟩ | ⟨member, -⟩)
  · revert member
    decide +kernel
  · obtain rfl : entry = valueless :=
      Dictionary.eq_of_mem_toList member (List.mem_singleton.2 rfl)
    cases declared
  · revert member
    decide +kernel

end ComponentCompiler.Page

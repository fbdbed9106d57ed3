import ComponentCompiler.Proofs.Page.Draft

/-!
# Pages that are never made live

The analysis looks for interactive events in the tree as it was given, and does not look below a
node that has one. Rendering sees the tree without its internal annotations, passes over much of it,
and puts the directive on each element that is held by name or handles an interactive event. The two
agree: in a component that the analysis calls static there is no element for the directive to stand
on, and the page does not depend on which directive was asked for.

## Main results

* `Node.not_interactive_of_eventHits` — without hits there is no interactive event anywhere
* `not_activates_of_static` — no binding of a static component activates its node
* `directiveText_of_static` — no element of a static component gets a directive
* `Page.draft_of_static` — the draft of a static component does not depend on the directive
* `Page.compile_of_static` — nor does its page
-/

namespace ComponentCompiler

/-! ### What a static component lacks -/

/-- Where no tree of a forest has a hit, no node has an interactive event: the search only stops
below a hit. -/
theorem Node.not_interactive_of_eventHits (node : Node) (noHits : node.eventHits = []) :
    ∀ inner ∈ node.walk, firstInteractive? inner.bindings.keys = none := by
  induction node using Node.induct with
  | step node inChildren inAlternative =>
    rw [Node.eventHits_eq] at noHits
    cases here : firstInteractive? node.bindings.keys with
    | some event => simp [here] at noHits
    | none =>
      -- There is no event here, so the search went on below and found nothing there either.
      simp only [here, List.append_eq_nil_iff, eventHits_eq_flatMap, List.flatMap_eq_nil_iff] at noHits
      intro inner inside
      rw [Node.walk_eq, walk_eq_flatMap, List.mem_cons, List.mem_append, List.mem_flatMap] at inside
      rcases inside with rfl | ⟨child, member, below⟩ | beside
      · exact here
      · exact inChildren child member (noHits.1 child member) inner below
      · cases held : node.alternative with
        | none => simp [held] at beside
        | some other =>
          simp only [held, Option.map_some, Option.getD_some] at beside noHits
          exact inAlternative other held noHits.2 inner beside

theorem not_interactive_of_eventHits {nodes : List Node} (noHits : eventHits nodes = []) :
    ∀ inner ∈ walk nodes, firstInteractive? inner.bindings.keys = none := by
  rw [eventHits_eq_flatMap, List.flatMap_eq_nil_iff] at noHits
  intro inner inside
  rw [walk_eq_flatMap, List.mem_flatMap] at inside
  obtain ⟨node, member, below⟩ := inside
  exact node.not_interactive_of_eventHits (noHits node member) inner below

/-- A static component holds no elements by name and has no interactive events. -/
theorem refs_and_hits_of_static {component : Component}
    (static : (analyze component).needed = false) :
    component.refs = [] ∧ eventHits component.children = [] := by
  have none : (analyze component).reasons = [] := by
    simpa [Hydration.needed] using static
  simp only [analyze, List.append_eq_nil_iff, List.map_eq_nil_iff] at none
  obtain ⟨⟨⟨noRefs, -⟩, -⟩, noHits⟩ := none
  refine ⟨?_, noHits⟩
  by_contra some
  simp [List.isEmpty_eq_false_iff.2 some] at noRefs

theorem activeCode?_ref_of_refs {component : Component} (noRefs : component.refs = []) :
    ∀ node ∈ component.nodes, node.activeCode? "ref" = none := by
  intro node member
  by_contra held
  obtain ⟨ref, active⟩ := Option.ne_none_iff_exists'.1 held
  have found : ref ∈ component.refs :=
    Script.mem_firstOccurrences.2 (List.mem_filterMap.2 ⟨node, member, active⟩)
  rw [noRefs] at found
  cases found

/-- No binding of a static component activates its node. -/
theorem not_activates_of_static {component : Component}
    (static : (analyze component).needed = false) :
    ∀ node ∈ component.nodes, ∀ pair ∈ node.bindings.toList,
      Markup.activates pair.1 pair.2 = false := by
  obtain ⟨noRefs, noHits⟩ := refs_and_hits_of_static static
  rintro node member ⟨key, binding⟩ bound
  have notInteractive : isInteractive key = false := by
    have absent := List.find?_eq_none.1 (not_interactive_of_eventHits noHits node member) key
      (Dictionary.mem_keys_iff.2 ⟨binding, bound⟩)
    simpa using absent
  have notHeld : (key == "ref" && binding.activeCode?.isSome) = false := by
    by_cases isRef : key = "ref"
    · subst isRef
      have absent := activeCode?_ref_of_refs noRefs node member
      rw [Node.activeCode?, Dictionary.get?_of_mem bound, Option.bind_some] at absent
      simp [absent]
    · simp [isRef]
  rw [Bool.eq_false_iff]
  intro activated
  simp only [Markup.activates, Bool.and_eq_true, Bool.or_eq_true] at activated
  obtain ⟨⟨⟨-, active⟩, -⟩, isRef | interactive⟩ := activated
  · simp [isRef, active] at notHeld
  · simp [interactive] at notInteractive

/-- A node of which no binding activates it gets no directive, with or without its internal
annotations. -/
theorem directiveText_stripOwn {node : Node}
    (passive : ∀ pair ∈ node.bindings.toList, Markup.activates pair.1 pair.2 = false)
    (settings : Markup.Settings) : Markup.directiveText settings node.stripOwn = "" := by
  have none : (node.stripOwn.bindings.toList.any fun pair => Markup.activates pair.1 pair.2) =
      false := by
    rw [List.any_eq_false]
    intro pair kept
    simp [passive pair (List.mem_filter.1 kept).1]
  rw [Markup.directiveText_eq, none]
  cases settings.directive.filter _ <;> rfl

/-- No element of a static component gets a directive. -/
theorem directiveText_of_static {component : Component}
    (static : (analyze component).needed = false) (settings : Markup.Settings) :
    ∀ node ∈ component.strip.nodes, Markup.directiveText settings node = "" := by
  intro inner member
  obtain ⟨node, inside, children, alternative, rfl⟩ :=
    exists_of_mem_walk_mapNodes Node.isOwn_stripOwn member
  exact directiveText_stripOwn (not_activates_of_static static node inside) settings

/-- An element that handles an interactive event does get one. -/
example : Markup.directiveText { directive := some "client:load" }
    ⟨"button", ∅, Dictionary.ofList [("onClick", Binding.ofCode "go()")], [], none, ∅, ∅, .element⟩ =
      " client:load" := by
  decide

/-! ### The page of a static component -/

namespace Page

/-- The markup of a static component is the same under settings that differ in the directive only. -/
theorem markup_of_static {component : Component} (static : (analyze component).needed = false)
    {settings others : Markup.Settings} (scope : settings.scopeAttribute = others.scopeAttribute) :
    markup settings component.strip = markup others component.strip := by
  have alike : ∀ node ∈ component.nodes,
      Markup.Alike settings others node.stripOwn node.stripOwn := fun node member => by
    have passive := directiveText_stripOwn (not_activates_of_static static node member)
    refine { kind := rfl, name := rfl, blank := rfl, literal := rfl, dynamic := rfl, head := rfl,
             condition := rfl, inner := rfl, opening := ?_ }
    simp only [Markup.opening, Markup.scopeText, passive, scope]
  have same : Markup.renderChildren settings component.strip.children =
      Markup.renderChildren others component.strip.children :=
    Markup.renderChildren_mapNodes_congr Node.isOwn_stripOwn Node.isOwn_stripOwn _ alike
  simp only [markup, same]

/-- The draft of a static component does not depend on the directive that is asked for. -/
theorem draft_of_static {component : Component} (static : (analyze component).needed = false)
    (options : Options) (first second : Json) :
    draft { options with directive := first } (prepare component) component.strip =
      draft { options with directive := second } (prepare component) component.strip := by
  unfold draft
  rw [markup_of_static static]
  · rfl
  · rfl

/-- A static component that is compiled without plugins has the same page, style objects and style
stem whichever directive is asked for, and none of its elements ever gets a directive. -/
theorem compile_of_static {options : Options} (plain : options.plugins = []) {component : Component}
    (static : (analyze component).needed = false) (first second : Json) :
    ∃ one other,
      (compile { options with directive := first } component).outcome = .ok one ∧
      (compile { options with directive := second } component).outcome = .ok other ∧
      one.code = other.code ∧ one.styles = other.styles ∧ one.stylePrefix = other.stylePrefix ∧
      ∀ node ∈ component.strip.nodes, ∀ settings, Markup.directiveText settings node = "" := by
  have plainFirst : ({ options with directive := first } : Options).plugins = [] := plain
  have plainSecond : ({ options with directive := second } : Options).plugins = [] := plain
  obtain ⟨drafted, page, draftMade, pageTidied, compiled⟩ :=
    outcome_compile_of_plain plainFirst component
  obtain ⟨otherDrafted, otherPage, otherMade, otherTidied, otherCompiled⟩ :=
    outcome_compile_of_plain plainSecond component
  rw [draft_of_static static options first second, otherMade] at draftMade
  obtain rfl := Except.ok.inj draftMade
  obtain rfl : otherPage = page := Except.ok.inj (otherTidied.symm.trans pageTidied)
  exact ⟨_, _, compiled, otherCompiled, rfl, rfl, rfl,
    fun node member settings => directiveText_of_static static settings node member⟩

/-- A component with a class and a style object that handles an event which needs nothing live. -/
def poster : Component where
  name := "Poster"
  children :=
    [⟨"div", Dictionary.ofList [("class", "wide")], Dictionary.ofList
        [("class", Binding.ofCode "props.tone"), (styleKey, Binding.ofCode "\x7bmargin: 0\x7d"),
          ("onDrag", Binding.ofCode "state.drag()")], [], none, ∅, ∅, .element⟩]

theorem compile_poster : (analyze poster).needed = false ∧
    ∃ one other,
      (compile { directive := .string "client:visible" } poster).outcome = .ok one ∧
      (compile { directive := .null } poster).outcome = .ok other ∧
      one.code = other.code ∧ one.styles = other.styles ∧ one.stylePrefix = other.stylePrefix ∧
      ∀ node ∈ poster.strip.nodes, ∀ settings, Markup.directiveText settings node = "" :=
  ⟨by decide +kernel, compile_of_static (show ({} : Options).plugins = [] from rfl)
    (by decide +kernel) (.string "client:visible") .null⟩

end Page

end ComponentCompiler

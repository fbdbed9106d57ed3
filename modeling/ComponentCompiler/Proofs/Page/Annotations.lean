import ComponentCompiler.Proofs.Component.Stripped
import ComponentCompiler.Proofs.Page.Draft

/-!
# Internal annotations and the page

A page is rendered without internal annotations, and the analysis does not see them. Without a style
sheet nothing of the page shows the stem either, which is taken from the whole component. What is
left is the collection of props: an internal annotation whose code refers to a prop brings the prop
into the setup section. So two components that differ in internal annotations only have the same
page if they have the same props, and they need not have it otherwise.

## Main results

* `Page.draft_of_unstyled` — what a draft without a style sheet depends on
* `Page.compile_of_annotations` — internal annotations that do not matter for the props do not
  matter for the page
* `Page.annotation_on_page` — an internal annotation that shows
-/

namespace ComponentCompiler.Page

/-- A component has no style sheet, or a blank one. -/
def IsUnstyled (component : Component) : Prop :=
  Text.trimmed (component.style.getD "") = ""

instance : DecidablePred IsUnstyled := fun component =>
  inferInstanceAs (Decidable (Text.trimmed (component.style.getD "") = ""))

theorem sheetOf_of_unstyled {component : Component} (unstyled : IsUnstyled component)
    (stem : Option String) : Style.sheetOf component stem = "" := by
  unfold Style.sheetOf
  rw [unstyled]
  cases stem.filter (!·.isEmpty) <;> simp

/-- The findings about a component apart from its style sheet and from the stem for its attribute. -/
def bareFindings (component : Component) : Prepared where
  hydration := analyze component
  findings := Findings.of component
  stem := ""
  sheet := ""

/-- Without a style sheet the stem does not matter for a draft. -/
theorem draft_of_unstyled (options : Options) {component : Component}
    (unstyled : IsUnstyled component) (shown : Component) :
    draft options (prepare component) shown = draft options (bareFindings component) shown := by
  have noSheet : (prepare component).sheet = "" := sheetOf_of_unstyled unstyled _
  have settings : settingsOf options (prepare component) shown =
      settingsOf options (bareFindings component) shown := by
    simp only [settingsOf, confinement, noSheet]
    rfl
  simp only [draft, settings, noSheet]
  rfl

/-- The result of a compilation of a component without a style sheet and without plugins. -/
theorem compile_of_unstyled {options : Options} (plain : options.plugins = [])
    {component : Component} (unstyled : IsUnstyled component) :
    ∃ drafted page,
      (draft options (bareFindings component) component.strip).outcome = .ok drafted ∧
      (tidied options component.strip drafted.1).outcome = .ok page ∧
      (compile options component).outcome = .ok {
        code := page
        hydration := analyze component
        directive := directiveOf options (bareFindings component)
        stylePrefix := stylePrefix component
        styles := drafted.2
        format := options.format } := by
  rw [← draft_of_unstyled options unstyled]
  exact outcome_compile_of_plain plain component

/-- The page of a component without a style sheet, read off its draft. -/
theorem code_of_unstyled {options : Options} (plain : options.plugins = []) {component : Component}
    (unstyled : IsUnstyled component) (text code : String)
    (textDrafted : (draft options (bareFindings component) component.strip).outcome.toOption.map
      Prod.fst = some text)
    (textTidied : (tidied options component.strip text).outcome.toOption = some code) :
    ∃ compilation, (compile options component).outcome = .ok compilation ∧
      compilation.code = code := by
  obtain ⟨drafted, page, draftMade, pageTidied, compiled⟩ := compile_of_unstyled plain unstyled
  rw [draftMade] at textDrafted
  obtain rfl : drafted.1 = text := Option.some.inj textDrafted
  rw [pageTidied] at textTidied
  exact ⟨_, compiled, Option.some.inj textTidied⟩

/-! ### Two components that differ in internal annotations only -/

/-- Two components that are the same without their internal annotations are found to be the same if
they have the same props. -/
theorem bareFindings_of_annotations {first second : Component} (same : first.strip = second.strip)
    (names : first.propNames = second.propNames) : bareFindings first = bareFindings second := by
  have analysis : analyze first = analyze second := by
    rw [← analyze_strip, same, analyze_strip]
  have refs : first.refs = second.refs := by
    rw [← first.refs_strip, same, second.refs_strip]
  have state : first.state = second.state := by
    show first.strip.state = second.strip.state
    rw [same]
  simp only [bareFindings, Findings.of, analysis, state, names, refs]

/-- Two components without a style sheet that are the same without their internal annotations, and
that have the same props, have the same page, the same analysis and the same style objects. -/
theorem compile_of_annotations {options : Options} (plain : options.plugins = [])
    {first second : Component} (same : first.strip = second.strip) (unstyled : IsUnstyled first)
    (names : first.propNames = second.propNames) :
    ∃ one other,
      (compile options first).outcome = .ok one ∧ (compile options second).outcome = .ok other ∧
      one.code = other.code ∧ one.hydration = other.hydration ∧ one.directive = other.directive ∧
      one.styles = other.styles := by
  have found := bareFindings_of_annotations same names
  have unstyledOther : IsUnstyled second := by
    show Text.trimmed (second.strip.style.getD "") = ""
    rw [← same]
    exact unstyled
  obtain ⟨drafted, page, draftMade, pageTidied, compiled⟩ := compile_of_unstyled plain unstyled
  obtain ⟨otherDrafted, otherPage, otherMade, otherTidied, otherCompiled⟩ :=
    compile_of_unstyled plain unstyledOther
  rw [found, same, otherMade] at draftMade
  obtain rfl := Except.ok.inj draftMade
  rw [same, otherTidied] at pageTidied
  obtain rfl := Except.ok.inj pageTidied
  exact ⟨_, _, compiled, otherCompiled, rfl, congrArg Prepared.hydration found,
    congrArg (directiveOf options) found, rfl⟩

/-- A component with a prop, and with a paragraph that has the given properties and bindings. -/
def remark (properties : Entries String) (bindings : Entries Binding) : Component where
  name := "Remark"
  props := Dictionary.ofList [("title", none)]
  children := [⟨"p", properties, bindings, [], none, ∅, ∅, .element⟩]

/-- A paragraph with a literal internal annotation, and with one whose code refers to a prop. -/
def annotated (prop : String) : Component :=
  remark (Dictionary.ofList [("$line", "7")])
    (Dictionary.ofList [("$source", Binding.ofCode ("props." ++ prop))])

theorem strip_annotated (prop : String) : (annotated prop).strip = (remark ∅ ∅).strip := by
  have properties : (Dictionary.ofList [("$line", "7")]).filterKeys (!isInternal ·) =
      (∅ : Entries String).filterKeys (!isInternal ·) :=
    Dictionary.ext_toList (by decide)
  have bindings : (Dictionary.ofList [("$source", Binding.ofCode ("props." ++ prop))]).filterKeys
      (!isInternal ·) = (∅ : Entries Binding).filterKeys (!isInternal ·) := by
    have internal : isInternal "$source" = true := by decide
    exact Dictionary.ext_toList (by simp [Dictionary.ofList, putPair, internal])
  simp only [annotated, remark, Component.strip, Component.mapNodes, mapNodes, Node.map,
    Node.stripOwn, properties, bindings]

/-- An internal annotation that refers to a prop which is declared does not show on the page. -/
theorem compile_annotated : (annotated "title").strip = (remark ∅ ∅).strip ∧
    IsUnstyled (annotated "title") ∧ (annotated "title").propNames = (remark ∅ ∅).propNames ∧
    ∃ one other,
      (compile {} (annotated "title")).outcome = .ok one ∧
      (compile {} (remark ∅ ∅)).outcome = .ok other ∧
      one.code = other.code ∧ one.hydration = other.hydration ∧ one.directive = other.directive ∧
      one.styles = other.styles := by
  have plain : ({} : Options).plugins = [] := rfl
  have unstyled : IsUnstyled (annotated "title") := by decide
  have neutral : (annotated "title").IsNeutral := by decide +kernel
  have bare : (remark ∅ ∅).IsNeutral := by decide +kernel
  have names : (annotated "title").propNames = (remark ∅ ∅).propNames := by
    rw [← Component.propNames_strip neutral, strip_annotated, Component.propNames_strip bare]
  exact ⟨strip_annotated "title", unstyled, names,
    compile_of_annotations plain (strip_annotated "title") unstyled names⟩

/-- An untyped page with a paragraph that takes the given props out of their container. -/
def remarkPage (names : String) : String :=
  "---\nconst props = Astro.props;\nconst \x7b " ++ names ++ " \x7d = props;\n---\n\n<p></p>"

/-- An internal annotation that refers to a prop of its own shows on the page: the setup section
takes the prop out of its container. -/
theorem annotation_on_page : (annotated "secret").strip = (remark ∅ ∅).strip ∧
    IsUnstyled (annotated "secret") ∧
    ∃ one other,
      (compile { typedProps := .bool false } (annotated "secret")).outcome = .ok one ∧
      (compile { typedProps := .bool false } (remark ∅ ∅)).outcome = .ok other ∧
      one.code = remarkPage "title, secret" ++ "\n" ∧ other.code = remarkPage "title" ++ "\n" ∧
      one.code ≠ other.code := by
  have plain : ({ typedProps := .bool false } : Options).plugins = [] := rfl
  have unstyled : IsUnstyled (annotated "secret") := by decide
  have unstyledOther : IsUnstyled (remark ∅ ∅) := by decide
  obtain ⟨one, compiled, code⟩ := code_of_unstyled plain unstyled (remarkPage "title, secret")
    (remarkPage "title, secret" ++ "\n") (by decide +kernel) (by decide +kernel)
  obtain ⟨other, otherCompiled, otherCode⟩ := code_of_unstyled plain unstyledOther
    (remarkPage "title") (remarkPage "title" ++ "\n") (by decide +kernel) (by decide +kernel)
  refine ⟨strip_annotated "secret", unstyled, one, other, compiled, otherCompiled, code, otherCode, ?_⟩
  rw [code, otherCode]
  decide +kernel

end ComponentCompiler.Page

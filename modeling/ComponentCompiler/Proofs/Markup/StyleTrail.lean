import ComponentCompiler.Proofs.Markup.Appearance
import ComponentCompiler.Style.Rule

/-!
# The style objects that a rendering collects

Rendering visits the nodes of a forest, each before what it holds. It goes on from a node to its
children unless the node is a text, an element without content, or an element whose inner content
is code; from a choice it also goes on to the alternative, after the children. Each element on the
way that has a style object contributes it. A collection takes the contributions in order and keeps
the first one of each class, and it has no effect on the markup.

## Main definitions

* `Markup.visited`, `Markup.visitedIn` — the nodes that rendering a node, or a forest, visits
* `Markup.ownStyle?` — what a node contributes
* `Run.Yields` — a run does not fail
* `Run.Meets` — a run yields a result and meets just the given style objects
* `Run.gather` — a run with a collection that takes the style objects that it meets

## Main results

* `Run.gather_bind` — the collection is handed on from one run to the next
* `Style.toList_collectAll` — what a collection holds after contributions
* `Markup.meets_render` — a rendering meets the style objects of the nodes that it visits
* `Markup.gather_renderChildren` — the markup of a forest, and what a collection holds after it
-/

namespace ComponentCompiler

/-! ### Collections -/

namespace Style

/-- Whether two style objects are for the same class. -/
def sameClass (entry other : String × String) : Bool :=
  entry.1 == other.1

theorem contains_collect (collection : Collection) (className code name : String) :
    (collect collection className code).contains name =
      (name == className || collection.contains name) := by
  unfold collect
  split
  · next known =>
    by_cases same : name = className
    · simp [same, known]
    · simp [same]
  · simp only [Dictionary.contains, Dictionary.get?_put]
    by_cases same : name = className <;> simp [same]

/-- A collection keeps what it holds, and takes for each class that it does not know yet the first
style object. -/
theorem toList_collectAll (collection : Collection) (found : List (String × String)) :
    (collectAll collection found).toList = collection.toList ++
      (found.filter fun entry => !collection.contains entry.1).eraseDupsBy sameClass := by
  induction found generalizing collection with
  | nil => simp [collectAll]
  | cons entry rest ih =>
    obtain ⟨className, code⟩ := entry
    have step : collectAll collection ((className, code) :: rest) =
        collectAll (collect collection className code) rest := rfl
    rw [step, ih]
    cases known : collection.contains className with
    | true => simp [collect_of_known known, known]
    | false =>
      have new : className ∉ collection.keys := by
        rw [← Dictionary.contains_iff_mem_keys, known]
        exact Bool.false_ne_true
      -- From now on the class is known, so later style objects of the same class are passed over.
      have others : rest.filter (fun entry => !(collect collection className code).contains entry.1) =
          (rest.filter fun entry => !collection.contains entry.1).filter fun entry =>
            sameClass entry (className, code) = false := by
        rw [List.filter_filter]
        refine List.filter_congr fun entry _ => ?_
        rw [contains_collect, sameClass]
        cases entry.1 == className <;> simp
      rw [others, collect_of_new known, Dictionary.put_of_new code new]
      simp [known, List.eraseDupsBy_cons]

end Style

/-! ### Runs that do not fail, and the style objects that they meet -/

namespace Run

variable {α β : Type}

/-- A run does not fail. -/
def Yields (run : Run α) : Prop :=
  ∃ result, run.outcome = .ok result

theorem yields_pure (result : α) : (pure result : Run α).Yields :=
  ⟨result, rfl⟩

theorem Yields.bind {run : Run α} {next : α → Run β} (first : run.Yields)
    (second : ∀ result, (next result).Yields) : (run >>= next).Yields := by
  obtain ⟨result, yields⟩ := first
  obtain ⟨last, yieldsLast⟩ := second result
  exact ⟨last, by rw [outcome_bind_ok yields, yieldsLast]⟩

theorem yields_embedCode (context : Context) (code : Option String) :
    (embedCode context code).Yields :=
  ⟨_, outcome_embedCode context code⟩

/-- A run yields a result, and the style objects that it meets on the way are the given ones. -/
def Meets (run : Run α) (found : List (String × String)) : Prop :=
  run.Yields ∧ run.styles = found

theorem meets_pure (result : α) : (pure result : Run α).Meets [] :=
  ⟨yields_pure result, rfl⟩

/-- Two runs in a row meet what the first and then the second one meets. -/
theorem Meets.bind {run : Run α} {next : α → Run β} {found others : List (String × String)}
    (first : run.Meets found) (second : ∀ result, (next result).Meets others) :
    (run >>= next).Meets (found ++ others) := by
  refine ⟨first.1.bind fun result => (second result).1, ?_⟩
  obtain ⟨⟨result, yields⟩, met⟩ := first
  rw [styles_bind_ok yields, met, (second result).2]

/-- What is made of the result of a run meets nothing further. -/
theorem Meets.returning {run : Run α} {found : List (String × String)} (met : run.Meets found)
    (f : α → β) : (do return f (← run) : Run β).Meets found := by
  simpa only [List.append_nil] using met.bind fun result => meets_pure (f result)

theorem meets_embedCode (context : Context) (code : Option String) :
    (embedCode context code).Meets [] :=
  ⟨yields_embedCode context code, styles_embedCode context code⟩

/-- The outcome of a run, and what a collection holds after it has taken the style objects that the
run met. -/
def gather (run : Run α) (collection : Style.Collection) : Except Failure α × Style.Collection :=
  (run.outcome, Style.collectAll collection run.styles)

/-- A run that only meets a style object has it collected. -/
theorem gather_emit_style (className code : String) (collection : Style.Collection) :
    (emit (.style className code)).gather collection =
      (.ok (), Style.collect collection className code) := rfl

/-- The collection is handed on from one run to the next; a run that fails is the last one to add to
it. -/
theorem gather_bind (run : Run α) (next : α → Run β) (collection : Style.Collection) :
    (run >>= next).gather collection =
      match run.gather collection with
      | (.ok result, grown) => (next result).gather grown
      | (.error failure, grown) => (.error failure, grown) := by
  obtain ⟨outcome, events⟩ := run
  cases outcome with
  | error failure => rw [bind_error rfl]; rfl
  | ok result =>
    simp only [gather]
    rw [bind_ok rfl]
    simp [styles, Style.collectAll, List.filterMap_append, List.foldl_append]

end Run

/-! ### The nodes that a rendering visits -/

namespace Node

/-- A node that should be a text has one. -/
theorem exists_text_of_freshKind {node : Node} (isText : node.freshKind = .text) :
    ∃ text, node.properties.get? textKey = some text := by
  unfold freshKind kindOf at isText
  split at isText
  · next held =>
    obtain ⟨text, found⟩ := Option.isSome_iff_exists.1 held
    exact ⟨text, (Option.filter_eq_some_iff.1 found).1⟩
  · split_ifs at isText

/-- A node that should be a dynamic text has a binding for it. -/
theorem exists_binding_of_freshKind {node : Node} (isDynamic : node.freshKind = .dynamicText) :
    ∃ binding, node.bindings.get? textKey = some binding := by
  unfold freshKind kindOf at isDynamic
  split at isDynamic
  · cases isDynamic
  · split at isDynamic
    · next held =>
      obtain ⟨code, found⟩ := Option.isSome_iff_exists.1 held
      obtain ⟨binding, bound, -⟩ := Option.bind_eq_some_iff.1 found
      exact ⟨binding, bound⟩
    · split_ifs at isDynamic

end Node

namespace Markup

/-- Whether rendering goes on from a node to its children. -/
def goesOn (node : Node) : Bool :=
  match node.kind with
  | .text | .dynamicText => false
  | .fragment | .repetition | .choice => true
  | .element => !voidTags.contains node.name && (node.activeCode? "innerHTML").isNone

mutual

/-- The nodes that rendering a node visits, each before what it holds. -/
def visited (node : Node) : List Node :=
  match node with
  | ⟨name, properties, bindings, children, alternative, annotations, scope, kind⟩ =>
    let node := ⟨name, properties, bindings, children, alternative, annotations, scope, kind⟩
    let below := if goesOn node then visitedIn children else []
    let beside :=
      match alternative with
      | none => []
      | some other => if kind = .choice then visited other else []
    node :: (below ++ beside)

/-- The nodes that rendering a forest visits; blank texts are skipped. -/
def visitedIn : List Node → List Node
  | [] => []
  | node :: rest => if node.isBlankText then visitedIn rest else visited node ++ visitedIn rest

end

/-- What a node contributes to a collection: the style object of an element, under a class that is
named after the element and the code of the object. -/
def ownStyle? (node : Node) : Option (String × String) :=
  if node.kind = .element then
    (node.activeCode? styleKey).map fun code => (node.name ++ "-" ++ Digest.shortHash code, code)
  else none

/-- What rendering a forest contributes to a collection. -/
def styleEntries (nodes : List Node) : List (String × String) :=
  nodes.filterMap ownStyle?

theorem visited_eq (node : Node) :
    visited node = node :: ((if goesOn node then visitedIn node.children else []) ++
      if node.kind = .choice then (node.alternative.map visited).getD [] else []) := by
  obtain ⟨name, properties, bindings, children, alternative, annotations, scope, kind⟩ := node
  cases alternative <;> simp [visited]

theorem styleEntries_visited (node : Node) :
    styleEntries (visited node) = (ownStyle? node).toList ++
      ((if goesOn node then styleEntries (visitedIn node.children) else []) ++
        if node.kind = .choice then styleEntries ((node.alternative.map visited).getD []) else []) := by
  rw [visited_eq, styleEntries, List.filterMap_cons]
  split_ifs <;> cases ownStyle? node <;> simp [styleEntries]

/-! ### What each part of a rendering meets -/

theorem meets_boundClasses (node : Node) (keys : List String) : (boundClasses node keys).Meets [] := by
  induction keys with
  | nil => exact Run.meets_pure _
  | cons key rest ih =>
    unfold boundClasses
    split
    · exact ih
    · exact (Run.meets_embedCode _ _).bind fun _ => ih.returning _

/-- The class attribute of an element is where its style object is met. -/
theorem meets_classAttribute {node : Node} (isElement : node.kind = .element) :
    (classAttribute node).Meets (ownStyle? node).toList := by
  have styled : (styleClass node).Meets (ownStyle? node).toList := by
    unfold styleClass ownStyle?
    rw [if_pos isElement]
    cases node.activeCode? styleKey with
    | none => exact Run.meets_pure _
    | some code => exact ⟨⟨_, rfl⟩, rfl⟩
  exact (meets_boundClasses node classKeys).bind fun _ => styled.returning _

theorem meets_bindingAttribute (name key : String) (binding : Binding) (code : String) :
    (bindingAttribute name key binding code).Meets [] := by
  have embedded := Run.meets_embedCode .markup (some code)
  unfold bindingAttribute
  split_ifs
  · exact embedded.returning _
  · exact Run.meets_pure _
  · exact embedded.returning _
  · exact embedded.returning _
  · exact embedded.returning _

theorem meets_attributes (name : String) (bindings : List (String × Binding)) :
    (attributes name bindings).Meets [] := by
  induction bindings with
  | nil => exact Run.meets_pure _
  | cons pair rest ih =>
    obtain ⟨key, binding⟩ := pair
    unfold attributes
    split
    · exact ih
    · split
      · exact ih
      · exact (meets_bindingAttribute name key binding _).bind fun _ => ih.returning _

theorem meets_opening (settings : Settings) {node : Node} (isElement : node.kind = .element) :
    (opening settings node).Meets (ownStyle? node).toList := by
  rw [← List.append_nil (ownStyle? node).toList]
  exact (meets_classAttribute isElement).bind fun _ =>
    (meets_attributes node.name node.bindings.toList).returning _

theorem meets_slotCode (node : Node) (key : String) : (slotCode node key).Meets [] :=
  Run.meets_embedCode _ _

theorem meets_repetitionHead (node : Node) : (repetitionHead node).Meets [] :=
  (meets_slotCode node "each").returning _

/-- What a run over a list of nodes meets, if it is known what the run over each of them meets. -/
theorem meets_renderAll (settings : Settings) (nodes : List Node)
    (each : ∀ node ∈ nodes, (render settings node).Meets (styleEntries (visited node))) :
    (renderAll settings nodes).Meets (styleEntries (visitedIn nodes)) := by
  induction nodes with
  | nil => exact Run.meets_pure _
  | cons node rest ih =>
    have later := ih fun other member => each other (List.mem_cons_of_mem _ member)
    unfold renderAll visitedIn
    split
    · exact later
    · rw [styleEntries, List.filterMap_append]
      exact (each node List.mem_cons_self).bind fun _ => later.returning _

/-- Rendering a tree whose kinds are up to date yields markup, and meets the style objects of the
nodes that it visits, in order. -/
theorem meets_render (settings : Settings) (node : Node)
    (settled : ∀ inner ∈ node.walk, inner.IsSettled) :
    (render settings node).Meets (styleEntries (visited node)) := by
  induction node using Node.induct with
  | step node inChildren inAlternative =>
    have here : node.IsSettled := settled node (mem_walk_self node)
    have body : (renderChildren settings node.children).Meets
        (styleEntries (visitedIn node.children)) := by
      refine (meets_renderAll settings node.children fun child member => ?_).returning _
      exact inChildren child member fun inner inside =>
        settled inner (Node.walk_subset_of_child member inside)
    have beside : (renderOther settings node.alternative).Meets
        (styleEntries ((node.alternative.map visited).getD [])) := by
      cases held : node.alternative with
      | none => exact Run.meets_pure _
      | some other =>
        exact inAlternative other held fun inner inside =>
          settled inner (Node.walk_alternative_subset held inside)
    rw [render_eq, styleEntries_visited]
    -- The kind is up to date, so a text and a dynamic text have what they are rendered from.
    cases isKind : node.kind with
    | text =>
      obtain ⟨text, found⟩ := Node.exists_text_of_freshKind (here ▸ isKind)
      simp only [literalText, found, ownStyle?, goesOn, isKind]
      exact Run.meets_pure _
    | dynamicText =>
      obtain ⟨binding, found⟩ := Node.exists_binding_of_freshKind (here ▸ isKind)
      simp only [dynamicText, found, ownStyle?, goesOn, isKind]
      exact (Run.meets_embedCode _ _).returning _
    | fragment =>
      simpa [ownStyle?, goesOn, isKind] using body
    | repetition =>
      simpa [ownStyle?, goesOn, isKind] using
        (meets_repetitionHead node).bind fun _ => body.returning _
    | choice =>
      simpa [ownStyle?, goesOn, isKind] using
        (meets_slotCode node "when").bind fun _ => body.bind fun _ => beside.returning _
    | element =>
      simp only [goesOn, isKind, reduceCtorEq, if_false, List.append_nil]
      -- The opening has met the style object of the element; the rest is what it holds.
      refine (meets_opening settings isKind).bind fun start => ?_
      by_cases isVoid : voidTags.contains node.name = true
      · simp only [isVoid, if_true]
        exact Run.meets_pure _
      · simp only [isVoid, Bool.not_false, Bool.true_and]
        cases inner : node.activeCode? "innerHTML" with
        | none =>
          simp only [elementBody, inner, Option.isNone_none, if_true]
          exact body.returning _
        | some code =>
          simp only [elementBody, inner, Option.isNone_some]
          exact ((Run.meets_embedCode _ _).returning _).returning _

/-- Rendering a forest whose kinds are up to date yields markup, and meets the style objects of the
nodes that it visits, in order. -/
theorem meets_renderChildren (settings : Settings) {nodes : List Node}
    (settled : ∀ node ∈ walk nodes, node.IsSettled) :
    (renderChildren settings nodes).Meets (styleEntries (visitedIn nodes)) := by
  refine (meets_renderAll settings nodes fun node member => ?_).returning _
  exact meets_render settings node fun inner inside =>
    settled inner (Node.walk_subset_of_mem member inside)

/-- An element with a style object. -/
def styled (name code : String) (children : List Node) : Node :=
  ⟨name, ∅, Dictionary.ofList [(styleKey, Binding.ofCode code)], children, none, ∅, ∅, .element⟩

/-- A choice between two elements with style objects, and beside it an element without content that
has a child. -/
def gallery : List Node :=
  [⟨"Show", ∅, ∅, [styled "p" "\x7bmargin: 0\x7d" []],
      some (styled "a" "\x7bmargin: 0\x7d" []), ∅, ∅, .choice⟩,
    styled "img" "\x7bcolor: 'red'\x7d" [styled "b" "\x7bmargin: 0\x7d" []],
    styled "p" "\x7bmargin: 0\x7d" []]

end Markup

end ComponentCompiler

import ComponentCompiler.Proofs.Component.Ways
import ComponentCompiler.Proofs.Page.Declarations
import ComponentCompiler.Proofs.Page.StaticPage
import Mathlib.Data.Set.Card

/-!
# What the analysis finds

The search for events goes down a tree and stops at each node that handles one. So it finds the
topmost of these nodes, in the order of their ways, and it finds one just if there is one anywhere.
Together with the names under which elements are held and the hooks of the component this decides
whether the component has to be made live, and when.

## Main definitions

* `Node.IsInteractive`, `Node.Handles` — a node that handles events, and the first one that it handles
* `IsTopmost` — the ways of such nodes with none of them above
* `Enumerates` — hits that are listed for exactly these ways, in their order
* `Component.HoldsUnder`, `Component.IsInteractive` — what a component has at any of its ways
* `Ledger`, `notes` — the reasons as they are noted down one by one
* `IsAnalysis` — what an analysis has to say

## Main results

* `Component.exists_enumeration` — the hits of a component belong to its topmost ways
* `Component.eventHits_ne_nil_iff` — there is a hit just if there is an interactive node anywhere
* `notes_eq` — the flag of the analysis is raised with its first reason
* `isAnalysis_analyze` — the analysis says what it has to say
-/

namespace ComponentCompiler

/-- A node that handles an event that needs a live component. -/
def Node.IsInteractive (node : Node) : Prop :=
  ∃ key ∈ node.bindings.keys, isInteractive key = true

/-- A hit tells the name of a node and the first interactive event among its bindings. -/
structure Node.Handles (node : Node) (hit : EventHit) : Prop where
  name : hit.node = node.name
  first : ∃ earlier later, node.bindings.keys = earlier ++ hit.event :: later ∧
    isInteractive hit.event = true ∧ ∀ key ∈ earlier, isInteractive key = false

/-- The way of an interactive node that has no interactive node above it. -/
structure IsTopmost (find : Way → Option Node) (way : Way) : Prop where
  interactive : ∃ node, find way = some node ∧ node.IsInteractive
  free : ∀ front back, front ++ back = way → back ≠ [] →
    ∀ above, find front = some above → ¬above.IsInteractive

/-- Hits that belong to ways, one for one: the ways are the topmost ones, in their order. -/
structure Enumerates (find : Way → Option Node) (ways : List Way) (hits : List EventHit) :
    Prop where
  ordered : ways.Pairwise Way.Before
  complete : ∀ way, way ∈ ways ↔ IsTopmost find way
  named : List.Forall₂ (fun way hit => ∃ node, find way = some node ∧ node.Handles hit)
    ways hits

/-! ### Single nodes -/

theorem Node.handles_of_firstInteractive? {node : Node} {event : String}
    (found : firstInteractive? node.bindings.keys = some event) :
    node.Handles ⟨event, node.name⟩ := by
  obtain ⟨interactive, earlier, later, split, none⟩ := List.find?_eq_some_iff_append.1 found
  exact ⟨rfl, earlier, later, split, interactive, fun key member => by simpa using none key member⟩

theorem Node.isInteractive_iff {node : Node} :
    node.IsInteractive ↔ firstInteractive? node.bindings.keys ≠ none := by
  simp [IsInteractive, firstInteractive?]

/-! ### Topmost ways -/

section Topmost

variable {find : Way → Option Node} {below : Branch → Option Node}

theorem Node.isTopmost_nil {node : Node} (interactive : node.IsInteractive) {way : Way} :
    IsTopmost node.at? way ↔ way = [] := by
  constructor
  · intro topmost
    by_contra further
    exact topmost.free [] way rfl further node rfl interactive
  · rintro rfl
    refine ⟨⟨node, rfl, interactive⟩, ?_⟩
    intro front back whole more
    exact absurd (List.append_eq_nil_iff.1 whole).2 more

/-- Where the node at the start handles no event, a way is topmost just if it is so below the
first step. -/
theorem isTopmost_cons
    (steps : ∀ branch way, find (branch :: way) = (below branch).bind (·.at? way))
    (passive : ∀ top, find [] = some top → ¬top.IsInteractive) {branch : Branch} {way : Way} :
    IsTopmost find (branch :: way) ↔ ∃ child, below branch = some child ∧
      IsTopmost child.at? way := by
  constructor
  · rintro ⟨⟨node, found, interactive⟩, free⟩
    rw [steps] at found
    obtain ⟨child, present, found⟩ := Option.bind_eq_some_iff.1 found
    refine ⟨child, present, ⟨node, found, interactive⟩, ?_⟩
    intro front back whole more above leads
    exact free (branch :: front) back (by simp [whole]) more above (by simp [steps, present, leads])
  · rintro ⟨child, present, ⟨node, found, interactive⟩, free⟩
    refine ⟨⟨node, by simp [steps, present, found], interactive⟩, ?_⟩
    intro front back whole more above leads
    cases front with
    | nil => exact passive above leads
    | cons first front =>
      obtain ⟨rfl, rest⟩ := List.cons.inj whole
      rw [steps, present] at leads
      exact free front back rest more above leads

/-- The hits below a row of steps belong to the topmost ways below them. -/
theorem exists_enumeration_below {steps : List (Branch × Node)}
    (ordered : steps.Pairwise fun step other => step.1.Before other.1)
    (each : ∀ step ∈ steps, ∃ ways, Enumerates step.2.at? ways step.2.eventHits) :
    ∃ ways : List Way, ways.Pairwise Way.Before ∧
      (∀ way, way ∈ ways ↔ ∃ step ∈ steps, ∃ rest, way = step.1 :: rest ∧
        IsTopmost step.2.at? rest) ∧
      List.Forall₂ (fun way hit => ∃ step ∈ steps, ∃ rest, way = step.1 :: rest ∧
          ∃ node, step.2.at? rest = some node ∧ node.Handles hit)
        ways (steps.flatMap fun step => step.2.eventHits) := by
  induction steps with
  | nil => exact ⟨[], .nil, by simp, .nil⟩
  | cons step others ih =>
    rw [List.pairwise_cons] at ordered
    rw [List.forall_mem_cons] at each
    obtain ⟨here, enumerated⟩ := each.1
    obtain ⟨later, laterOrdered, laterComplete, laterNamed⟩ := ih ordered.2 each.2
    refine ⟨here.map (step.1 :: ·) ++ later, ?_, fun way => ?_, ?_⟩
    · refine List.pairwise_append.2 ⟨?_, laterOrdered, ?_⟩
      · exact List.pairwise_map.2 (enumerated.ordered.imp .cons)
      · intro way member other otherMember
        obtain ⟨rest, -, rfl⟩ := List.mem_map.1 member
        obtain ⟨next, nextMember, otherRest, rfl, -⟩ := (laterComplete other).1 otherMember
        exact .rel (ordered.1 next nextMember)
    · simp only [List.mem_append, List.mem_map, enumerated.complete, laterComplete,
        List.exists_mem_cons_iff]
      refine or_congr_left ?_
      constructor <;> rintro ⟨rest, first, second⟩
      · exact ⟨rest, second.symm, first⟩
      · exact ⟨rest, second, first.symm⟩
    · rw [List.flatMap_cons]
      refine List.rel_append ?_ (laterNamed.imp fun way hit => ?_)
      · refine List.forall₂_map_left_iff.2 (enumerated.named.imp fun rest hit found => ?_)
        exact ⟨step, List.mem_cons_self, rest, rfl, found⟩
      · rintro ⟨next, member, found⟩
        exact ⟨next, List.mem_cons_of_mem _ member, found⟩

/-- The hits below the steps that can be taken from a start belong to its topmost ways, unless
the node at the start handles an event itself. -/
theorem exists_enumeration_of_steps {steps : List (Branch × Node)}
    (leads : ∀ branch way, find (branch :: way) = (below branch).bind (·.at? way))
    (passive : ∀ top, find [] = some top → ¬top.IsInteractive)
    (all : ∀ branch child, (branch, child) ∈ steps ↔ below branch = some child)
    (ordered : steps.Pairwise fun step other => step.1.Before other.1)
    (each : ∀ step ∈ steps, ∃ ways, Enumerates step.2.at? ways step.2.eventHits) :
    ∃ ways, Enumerates find ways (steps.flatMap fun step => step.2.eventHits) := by
  obtain ⟨ways, placesOrdered, complete, named⟩ := exists_enumeration_below ordered each
  refine ⟨ways, placesOrdered, fun way => ?_, named.imp fun way hit => ?_⟩
  · rw [complete]
    cases way with
    | nil =>
      refine ⟨by simp, fun topmost => ?_⟩
      obtain ⟨node, found, interactive⟩ := topmost.interactive
      exact absurd interactive (passive node found)
    | cons branch way =>
      rw [isTopmost_cons leads passive]
      constructor
      · rintro ⟨⟨first, child⟩, member, rest, same, topmost⟩
        obtain ⟨rfl, rfl⟩ := List.cons.inj same
        exact ⟨child, (all _ _).1 member, topmost⟩
      · rintro ⟨child, present, topmost⟩
        exact ⟨(branch, child), (all _ _).2 present, way, rfl, topmost⟩
  · rintro ⟨⟨branch, child⟩, member, rest, rfl, node, found, handled⟩
    exact ⟨node, by simp [leads, (all _ _).1 member, found], handled⟩

/-- The hits of a tree belong to its topmost ways. -/
theorem Node.exists_enumeration (node : Node) :
    ∃ ways, Enumerates node.at? ways node.eventHits := by
  induction node using Node.induct with
  | step node inChildren inAlternative =>
    rw [Node.eventHits_eq]
    cases found : firstInteractive? node.bindings.keys with
    | some event =>
      have interactive : node.IsInteractive := isInteractive_iff.2 (by simp [found])
      refine ⟨[[]], List.pairwise_singleton _ _, fun way => ?_, ?_⟩
      · rw [isTopmost_nil interactive, List.mem_singleton]
      · exact .cons ⟨node, rfl, handles_of_firstInteractive? found⟩ .nil
    | none =>
      have passive : ∀ top, node.at? [] = some top → ¬top.IsInteractive := by
        intro top start
        obtain rfl := Option.some.inj start
        rw [isInteractive_iff, found]
        exact not_not_intro rfl
      have enumeration := exists_enumeration_of_steps (fun _ _ => rfl) passive
        (fun _ _ => mem_branches_iff) node.pairwise_branches ?_
      · rwa [node.flatMap_branches Node.eventHits, ← eventHits_eq_flatMap] at enumeration
      · rintro ⟨branch, child⟩ member
        cases branch with
        | child index =>
          exact inChildren child (List.mem_of_getElem? (mem_branches_iff.1 member))
        | alternative => exact inAlternative child (mem_branches_iff.1 member)

end Topmost

namespace Component

/-- The hits of a component belong to its topmost ways. -/
theorem exists_enumeration (component : Component) :
    ∃ ways, Enumerates component.at? ways (eventHits component.children) := by
  rw [eventHits_eq_flatMap, ← flatMap_rowBranches]
  exact exists_enumeration_of_steps (fun _ _ => rfl) nofun
    (fun _ _ => component.mem_rowBranches_iff) (pairwise_rowBranches _)
    fun step _ => step.2.exists_enumeration

/-! ### Anywhere in a component -/

/-- An element of the component is held under a name. -/
def HoldsUnder (component : Component) (name : String) : Prop :=
  name ≠ "" ∧ ∃ way node binding, component.at? way = some node ∧
    node.bindings.get? "ref" = some binding ∧ binding.code = some name

/-- Some node of the component handles an event that needs a live component. -/
def IsInteractive (component : Component) : Prop :=
  ∃ way node, component.at? way = some node ∧ node.IsInteractive

theorem mem_refs_iff {component : Component} {name : String} :
    name ∈ component.refs ↔ component.HoldsUnder name := by
  rw [refs, Script.mem_firstOccurrences, List.mem_filterMap]
  constructor
  · rintro ⟨node, member, active⟩
    obtain ⟨way, found⟩ := mem_nodes_iff.1 member
    obtain ⟨binding, bound, code⟩ := Option.bind_eq_some_iff.1 active
    obtain ⟨code, filled⟩ := Option.filter_eq_some_iff.1 code
    exact ⟨by simpa using filled, way, node, binding, found, bound, code⟩
  · rintro ⟨filled, way, node, binding, found, bound, code⟩
    refine ⟨node, mem_nodes_iff.2 ⟨way, found⟩, ?_⟩
    simp [Node.activeCode?, Binding.activeCode?, bound, code, filled]

theorem refs_ne_nil_iff {component : Component} :
    component.refs ≠ [] ↔ ∃ name, component.HoldsUnder name := by
  simp only [← mem_refs_iff, ne_eq, List.eq_nil_iff_forall_not_mem, not_forall, not_not]

/-- The search finds a node just if there is one anywhere. -/
theorem eventHits_ne_nil_iff {component : Component} :
    eventHits component.children ≠ [] ↔ component.IsInteractive := by
  constructor
  · intro some
    obtain ⟨ways, -, complete, named⟩ := component.exists_enumeration
    rw [← List.length_pos_iff, ← named.length_eq, List.length_pos_iff] at some
    obtain ⟨way, member⟩ := List.exists_mem_of_ne_nil ways some
    obtain ⟨node, found, interactive⟩ := ((complete way).1 member).interactive
    exact ⟨way, node, found, interactive⟩
  · rintro ⟨way, node, found, interactive⟩ noHits
    have member : node ∈ walk component.children := mem_nodes_iff.2 ⟨way, found⟩
    exact Node.isInteractive_iff.1 interactive (not_interactive_of_eventHits noHits node member)

/-- The names under which elements are held are counted once each. -/
theorem length_refs (component : Component) :
    component.refs.length = {name | component.HoldsUnder name}.ncard := by
  have distinct : component.refs.Nodup := Script.nodup_firstOccurrences _
  have same : {name | component.HoldsUnder name} = (component.refs.toFinset : Set String) := by
    ext name
    simp [mem_refs_iff]
  rw [same, Set.ncard_coe_finset, List.toFinset_card_of_nodup distinct]

end Component

/-! ### Notes -/

/-- What has been noted down so far: whether the component has to be made live, and why. -/
structure Ledger where
  needed : Bool
  reasons : List String
deriving DecidableEq, Repr

namespace Ledger

/-- Notes down a reason and raises the flag. -/
def note (ledger : Ledger) (reason : String) : Ledger where
  needed := true
  reasons := ledger.reasons ++ [reason]

/-- Notes down a reason if there is one. -/
def noteIf (ledger : Ledger) (given : Bool) (reason : String) : Ledger :=
  if given then ledger.note reason else ledger

/-- The flag is raised just if there is a reason. -/
def Agrees (ledger : Ledger) : Prop :=
  ledger.needed = !ledger.reasons.isEmpty

variable {ledger : Ledger}

theorem agrees_note (ledger : Ledger) (reason : String) : (ledger.note reason).Agrees := by
  simp [Agrees, note]

theorem Agrees.noteIf (agrees : ledger.Agrees) (given : Bool) (reason : String) :
    (ledger.noteIf given reason).Agrees := by
  cases given
  · exact agrees
  · exact agrees_note ledger reason

theorem reasons_noteIf (ledger : Ledger) (given : Bool) (reason : String) :
    (ledger.noteIf given reason).reasons = ledger.reasons ++ if given then [reason] else [] := by
  cases given <;> simp [Ledger.noteIf, note]

theorem Agrees.foldl (agrees : ledger.Agrees) (reasons : List String) :
    (reasons.foldl note ledger).Agrees := by
  induction reasons generalizing ledger with
  | nil => exact agrees
  | cons reason rest ih => exact ih (agrees_note ledger reason)

theorem reasons_foldl (ledger : Ledger) (reasons : List String) :
    (reasons.foldl note ledger).reasons = ledger.reasons ++ reasons := by
  induction reasons generalizing ledger with
  | nil => simp
  | cons reason rest ih => simp [ih, note]

end Ledger

/-- The notes about a component: its held elements, its hooks and its events are looked at in
turn. -/
def notes (component : Component) : Ledger :=
  let refs := component.refs
  let mounts := component.hooks.onMount
  let start : Ledger := { needed := false, reasons := [] }
  let held := start.noteIf (!refs.isEmpty) ("uses " ++ toString refs.length ++ " ref(s)")
  let mounted := held.noteIf (!mounts.isEmpty) ("has " ++ toString mounts.length ++ " onMount hook(s)")
  let updated := mounted.noteIf component.hooks.onUpdate.isSome "has onUpdate hooks"
  ((eventHits component.children).map EventHit.reason).foldl Ledger.note updated

/-- The notes come to the reasons of the analysis, and to its flag. -/
theorem notes_eq (component : Component) :
    notes component = ⟨(analyze component).needed, (analyze component).reasons⟩ := by
  have start : Ledger.Agrees ⟨false, []⟩ := rfl
  have agrees : (notes component).Agrees := (((start.noteIf _ _).noteIf _ _).noteIf _ _).foldl _
  have reasons : (notes component).reasons = (analyze component).reasons := by
    simp only [notes, Ledger.reasons_foldl, Ledger.reasons_noteIf, analyze]
    cases component.refs.isEmpty <;> cases component.hooks.onMount.isEmpty <;> rfl
  rw [Hydration.needed, ← reasons, ← agrees]

/-! ### The analysis -/

/-- What the analysis of a component has to say, in terms of the nodes at its ways. -/
structure IsAnalysis (component : Component) (analysis : Hydration) : Prop where
  /-- The hits are the topmost interactive nodes, in their order, with their first events. -/
  enumerated : ∃ ways, Enumerates component.at? ways analysis.hits
  counted : analysis.refCount = {name | component.HoldsUnder name}.ncard
  /-- The reasons are noted down one by one, and each raises the flag. -/
  noted : notes component = ⟨analysis.needed, analysis.reasons⟩
  reasoned : analysis.needed = true ↔ analysis.reasons ≠ []
  needed : analysis.needed = true ↔ (∃ name, component.HoldsUnder name) ∨
    component.hooks.onMount ≠ [] ∨ component.hooks.onUpdate ≠ none ∨ component.IsInteractive
  idle : analysis.directive = "client:idle" ↔ component.IsInteractive ∧
    (¬∃ name, component.HoldsUnder name) ∧ component.hooks.onMount = []
  eager : analysis.directive = "client:load" ↔ ¬(component.IsInteractive ∧
    (¬∃ name, component.HoldsUnder name) ∧ component.hooks.onMount = [])

theorem reasons_ne_nil_iff (component : Component) :
    (analyze component).reasons ≠ [] ↔ component.refs ≠ [] ∨ component.hooks.onMount ≠ [] ∨
      component.hooks.onUpdate ≠ none ∨ eventHits component.children ≠ [] := by
  have given {α : Type} {items : List α} {reason : String} :
      (if items.isEmpty then [] else [reason]) = [] ↔ items = [] := by
    cases items <;> simp
  have updated : (if component.hooks.onUpdate.isSome then ["has onUpdate hooks"] else []) = [] ↔
      component.hooks.onUpdate = none := by
    cases component.hooks.onUpdate <;> simp
  simp only [analyze, ne_eq, List.append_eq_nil_iff, List.map_eq_nil_iff, given, updated,
    not_and_or, or_assoc]

theorem directive_eq (component : Component) :
    (analyze component).directive =
      if eventHits component.children ≠ [] ∧ component.refs = [] ∧ component.hooks.onMount = [] then
        idleDirective
      else eagerDirective := by
  simp [analyze, and_assoc]

/-- The analysis says what it has to say. -/
theorem isAnalysis_analyze (component : Component) : IsAnalysis component (analyze component) := by
  have condition : (eventHits component.children ≠ [] ∧ component.refs = [] ∧
      component.hooks.onMount = []) ↔ component.IsInteractive ∧
        (¬∃ name, component.HoldsUnder name) ∧ component.hooks.onMount = [] := by
    rw [Component.eventHits_ne_nil_iff, ← Component.refs_ne_nil_iff, not_not]
  constructor
  · exact component.exists_enumeration
  · exact component.length_refs
  · exact notes_eq component
  · exact needed_iff_reasons _
  · rw [needed_iff_reasons, reasons_ne_nil_iff, Component.refs_ne_nil_iff,
      Component.eventHits_ne_nil_iff]
  · rw [directive_eq, ← condition]
    split
    · next holds => exact iff_of_true rfl holds
    · next fails => exact iff_of_false (by decide) fails
  · rw [directive_eq, ← condition]
    split
    · next holds => exact iff_of_false (by decide) (not_not_intro holds)
    · next fails => exact iff_of_true rfl fails

end ComponentCompiler

import ComponentCompiler.Proofs.Component.Forest
import Mathlib.Data.List.Lex

/-!
# Ways to the nodes of a component

A way leads from the top of a component down to one of its nodes: it says at each step whether it
goes on to a child, and to which, or to the alternative. Ways are ordered as a reader meets the
nodes: a node before all that is below it, its children one after the other, and the alternative
after the children.

## Main definitions

* `Branch`, `Way` — one step, and the steps to a node
* `Node.at?`, `Component.at?` — the node that a way leads to
* `Node.below?`, `Component.below?` — the node that a single step leads to
* `Way.Before` — the order of ways
* `Node.branches`, `rowBranches` — the steps that can be taken, in order

## Main results

* `Component.mem_nodes_iff` — the nodes of the walk are those that ways lead to
* `pairwise_branches`, `mem_branches_iff` — the steps in their order
-/

namespace ComponentCompiler

/-- A step down a tree of nodes. -/
inductive Branch where
  | child (index : Nat)
  | alternative
deriving DecidableEq, Repr

/-- The steps down to a node. -/
abbrev Way := List Branch

/-- One step comes before another: children in their order, and then the alternative. -/
inductive Branch.Before : Branch → Branch → Prop
  | children {index other : Nat} (less : index < other) : Before (.child index) (.child other)
  | alternative (index : Nat) : Before (.child index) .alternative

/-- One way comes before another: it leads to a node above, or takes an earlier step where the two
part. -/
def Way.Before : Way → Way → Prop :=
  List.Lex Branch.Before

/-- The node that a step leads to. -/
def Node.below? (node : Node) : Branch → Option Node
  | .child index => node.children[index]?
  | .alternative => node.alternative

/-- The node that a way leads to. -/
def Node.at? : Node → Way → Option Node
  | node, [] => some node
  | node, branch :: way => (node.below? branch).bind (at? · way)

/-- The node that a step from the top of a component leads to. -/
def Component.below? (component : Component) : Branch → Option Node
  | .child index => component.children[index]?
  | .alternative => none

/-- The node that a way from the top of a component leads to. -/
def Component.at? (component : Component) : Way → Option Node
  | [] => none
  | branch :: way => (component.below? branch).bind (·.at? way)

@[simp] theorem Node.at?_nil (node : Node) : node.at? [] = some node := rfl

@[simp] theorem Node.at?_cons (node : Node) (branch : Branch) (way : Way) :
    node.at? (branch :: way) = (node.below? branch).bind (·.at? way) := rfl

/-! ### Ways and the walk -/

/-- The nodes of the walk are those that ways lead to. -/
theorem Node.mem_walk_iff {node inner : Node} :
    inner ∈ node.walk ↔ ∃ way, node.at? way = some inner := by
  induction node using Node.induct with
  | step node inChildren inAlternative =>
    rw [Node.walk_eq, List.mem_cons, List.mem_append, walk_eq_flatMap, List.mem_flatMap]
    constructor
    · rintro (rfl | ⟨child, member, inside⟩ | inside)
      · exact ⟨[], rfl⟩
      · obtain ⟨index, present⟩ := List.mem_iff_getElem?.1 member
        obtain ⟨way, found⟩ := (inChildren child member).1 inside
        exact ⟨.child index :: way, by simp [Node.below?, present, found]⟩
      · cases held : node.alternative with
        | none => simp [held] at inside
        | some other =>
          rw [held] at inside
          obtain ⟨way, found⟩ := (inAlternative other held).1 inside
          exact ⟨.alternative :: way, by simp [Node.below?, held, found]⟩
    · rintro ⟨_ | ⟨index | _, way⟩, found⟩
      · exact .inl (Option.some.inj found).symm
      · obtain ⟨child, present, found⟩ := Option.bind_eq_some_iff.1 found
        have member := List.mem_of_getElem? present
        exact .inr (.inl ⟨child, member, (inChildren child member).2 ⟨way, found⟩⟩)
      · obtain ⟨other, held, found⟩ := Option.bind_eq_some_iff.1 found
        have held : node.alternative = some other := held
        rw [held]
        exact .inr (.inr ((inAlternative other held).2 ⟨way, found⟩))

/-- The nodes of a component are those that ways from its top lead to. -/
theorem Component.mem_nodes_iff {component : Component} {inner : Node} :
    inner ∈ component.nodes ↔ ∃ way, component.at? way = some inner := by
  rw [nodes, walk_eq_flatMap, List.mem_flatMap]
  constructor
  · rintro ⟨node, member, inside⟩
    obtain ⟨index, present⟩ := List.mem_iff_getElem?.1 member
    obtain ⟨way, found⟩ := Node.mem_walk_iff.1 inside
    exact ⟨.child index :: way, by simp [at?, below?, present, found]⟩
  · rintro ⟨_ | ⟨index | _, way⟩, found⟩
    · cases found
    · obtain ⟨node, present, found⟩ := Option.bind_eq_some_iff.1 found
      exact ⟨node, List.mem_of_getElem? present, Node.mem_walk_iff.2 ⟨way, found⟩⟩
    · cases found

/-! ### Steps in order -/

/-- The steps to the nodes of a row. -/
def rowBranches (nodes : List Node) : List (Branch × Node) :=
  nodes.zipIdx.map fun indexed => (.child indexed.2, indexed.1)

/-- The steps down from a node, with what they lead to. -/
def Node.branches (node : Node) : List (Branch × Node) :=
  rowBranches node.children ++ node.alternative.toList.map (.alternative, ·)

theorem mem_rowBranches_iff {nodes : List Node} {branch : Branch} {node : Node} :
    (branch, node) ∈ rowBranches nodes ↔ ∃ index, branch = .child index ∧ nodes[index]? = some node := by
  simp only [rowBranches, List.mem_map, Prod.exists, List.mem_zipIdx_iff_getElem?, Prod.mk.injEq]
  constructor
  · rintro ⟨inner, index, present, rfl, rfl⟩
    exact ⟨index, rfl, present⟩
  · rintro ⟨index, rfl, present⟩
    exact ⟨node, index, present, rfl, rfl⟩

theorem Node.mem_branches_iff {node inner : Node} {branch : Branch} :
    (branch, inner) ∈ node.branches ↔ node.below? branch = some inner := by
  rw [branches, List.mem_append, mem_rowBranches_iff]
  cases branch <;> simp [below?]

theorem Component.mem_rowBranches_iff {component : Component} {branch : Branch} {inner : Node} :
    (branch, inner) ∈ rowBranches component.children ↔ component.below? branch = some inner := by
  rw [ComponentCompiler.mem_rowBranches_iff]
  cases branch <;> simp [below?]

theorem pairwise_rowBranches (nodes : List Node) :
    (rowBranches nodes).Pairwise fun step other => step.1.Before other.1 := by
  rw [rowBranches, List.pairwise_map]
  have ascending : (nodes.zipIdx.map Prod.snd).Pairwise (· < ·) := by
    rw [List.zipIdx_map_snd]
    exact List.pairwise_lt_range'
  exact (List.pairwise_map.1 ascending).imp .children

/-- The steps down from a node are in order. -/
theorem Node.pairwise_branches (node : Node) :
    node.branches.Pairwise fun step other => step.1.Before other.1 := by
  refine List.pairwise_append.2 ⟨pairwise_rowBranches _, ?_, ?_⟩
  · cases node.alternative <;> simp
  · rintro ⟨branch, child⟩ member other last
    obtain ⟨index, rfl, -⟩ := mem_rowBranches_iff.1 member
    obtain ⟨inner, -, rfl⟩ := List.mem_map.1 last
    exact .alternative index

theorem flatMap_rowBranches {α : Type} (nodes : List Node) (read : Node → List α) :
    (rowBranches nodes).flatMap (fun step => read step.2) = nodes.flatMap read := by
  rw [rowBranches, List.flatMap_map]
  calc nodes.zipIdx.flatMap (fun indexed => read indexed.1)
    _ = (nodes.zipIdx.map Prod.fst).flatMap read := (List.flatMap_map ..).symm
    _ = nodes.flatMap read := by rw [List.zipIdx_map_fst]

theorem Node.flatMap_branches {α : Type} (node : Node) (read : Node → List α) :
    node.branches.flatMap (fun step => read step.2) =
      node.children.flatMap read ++ (node.alternative.map read).getD [] := by
  rw [branches, List.flatMap_append, flatMap_rowBranches]
  cases node.alternative <;> simp

end ComponentCompiler

import ComponentCompiler.Proofs.Script.Localize
import ComponentCompiler.Script.Snippet
import Mathlib.Data.List.Basic

/-!
# The scopes of names

Code declares names of its own: the parameters of functions and of handlers, variables, functions
and classes. Each is known in a part of the tree. A parameter is known in its function, a variable of
`var` in the body of the innermost function around it, and every other variable, function or class
in the innermost row of statements around it.

Replacing references neither makes nor moves declarations, because a reference cannot stand where a
name is declared. So each name of the replaced tree has the scope of what it stands for in the
original, and a replaced reference means a name of the code itself exactly if such a name was known
around the reference.

## Main definitions

* `Tree.patternNames` — the names that a pattern declares
* `Tree.variableNames`, `Tree.rowNames` — the names that variables of `var`, and other statements,
  declare
* `Tree.entered` — the names that a node makes known to one of its children
* `Tree.occurrences` — the names and references in a tree, with the declared names known there

## Main results

* `Tree.occurrences_localize` — replacing references keeps what is known at each name
* `occurrences_localizeReferences` — the same for a text
-/

namespace ComponentCompiler.Script

/-! ### What declares names -/

mutual

/-- The names that a pattern declares. -/
def Tree.patternNames : Tree → List (List Char)
  | .token kind text => if kind = .identifier ∨ kind = .shorthand then [text] else []
  | .node form children =>
    match rolesInPattern .binding form with
    | none => []
    | some (first, others) => namesInRoles first others children

/-- The names that a row declares whose first tree has one role and whose others have another. -/
def namesInRoles (first others : Role) : List Tree → List (List Char)
  | [] => []
  | tree :: rest =>
    (if first = .binding then tree.patternNames else []) ++ namesInRoles others others rest

end

/-- The names that a declarator declares. -/
def Tree.declaratorNames : Tree → List (List Char)
  | .node .declarator parts => namesInRoles .binding .value parts
  | _ => []

/-- The names of parameters. -/
def Tree.parameterNames : Tree → List (List Char)
  | .node .parameters parts => namesInRoles .binding .binding parts
  | _ => []

/-- The name that a function or class is given where it is written. -/
def Tree.givenName : Tree → List (List Char)
  | .token .declaredName text => [text]
  | _ => []

/-- Whether a tree is the word that declares variables for the whole function. -/
def Tree.isVariableWord : Tree → Bool
  | .token .keyword word => word == "var".toList
  | _ => false

/-- Whether a declaration makes its variables known in the whole function. -/
def declaresVariables (children : List Tree) : Bool :=
  (children.head?.map Tree.isVariableWord).getD false

mutual

/-- The names of the variables that declarations of `var` inside a tree, but not inside a function
in it, declare. -/
def Tree.variableNames : Tree → List (List Char)
  | .token _ _ => []
  | .node form children =>
    match form with
    | .function | .arrow | .method | .staticBlock => []
    | .declaration =>
      (if declaresVariables children then children.flatMap Tree.declaratorNames else []) ++
        variableNamesIn children
    | _ => variableNamesIn children

/-- The same for a row of trees. -/
def variableNamesIn : List Tree → List (List Char)
  | [] => []
  | tree :: rest => tree.variableNames ++ variableNamesIn rest

end

mutual

/-- The names that a statement declares in its row of statements. -/
def Tree.rowNames : Tree → List (List Char)
  | .token _ _ => []
  | .node form children =>
    match form with
    | .declaration =>
      if declaresVariables children then [] else children.flatMap Tree.declaratorNames
    | .function | .classExpression => children.flatMap Tree.givenName
    | .labeled | .exportDeclaration => rowNamesIn children
    | _ => []

/-- The names that a row of statements declares. -/
def rowNamesIn : List Tree → List (List Char)
  | [] => []
  | tree :: rest => tree.rowNames ++ rowNamesIn rest

end

/-- The names that the cases of a switch declare. -/
def Tree.caseNames : Tree → List (List Char)
  | .node .switchCase parts => rowNamesIn parts
  | _ => []

/-! ### What is known where -/

/-- The names that a node of the given form makes known to one of its children. Parameters are known
to each other and to the body, and the variables of the body are known to the body only. The key of
a method and the value that a switch looks at stand outside. -/
def entered (form : Form) (children : List Tree) (child : Tree) : List (List Char) :=
  let parameters := children.flatMap Tree.parameterNames
  match form with
  | .program => rowNamesIn children ++ variableNamesIn children
  | .block | .forStatement | .forEach => rowNamesIn children
  | .switchStatement =>
    if child.isForm .switchCase then children.flatMap Tree.caseNames else []
  | .function =>
    children.flatMap Tree.givenName ++ parameters ++
      if child.isForm .parameters then [] else variableNamesIn children
  | .arrow => parameters ++ if child.isForm .parameters then [] else variableNamesIn children
  | .method =>
    if child.isForm .parameters then parameters
    else if child.isForm .block then parameters ++ variableNamesIn children
    else []
  | .staticBlock => variableNamesIn children
  | .classExpression => children.flatMap Tree.givenName
  | .catchClause => parameters
  | _ => []

/-- What is written at an occurrence: a name alone, or a reference. -/
inductive Use where
  | name (text : List Char)
  | reference (target : Reference)
deriving DecidableEq, Repr

/-- A name or reference with the names known there that the code itself declares, the innermost
first. -/
structure Occurrence where
  use : Use
  known : List (List Char)
deriving DecidableEq, Repr

mutual

/-- The names and references in a tree, each with the declared names known there. -/
def Tree.occurrences (known : List (List Char)) : Tree → List Occurrence
  | .token kind text =>
    if kind = .identifier ∨ kind = .shorthand then [⟨.name text, known⟩] else []
  | .node form children =>
    match Tree.reference? (.node form children) with
    | some reference => [⟨.reference reference, known⟩]
    | none => occurrencesIn known (entered form children) children

/-- The names and references in a row of trees that become known the given names. -/
def occurrencesIn (known : List (List Char)) (enter : Tree → List (List Char)) :
    List Tree → List Occurrence
  | [] => []
  | tree :: rest => tree.occurrences (enter tree ++ known) ++ occurrencesIn known enter rest

end

/-- What stands for a use where references are replaced. -/
def Use.localize (qualifyProps : Bool) : Use → Use
  | .name text => .name text
  | .reference target =>
    match target.container, qualifyProps with
    | .props, true => .reference target
    | _, _ => .name target.member

/-- The occurrence that stands for another one where references are replaced. -/
def Occurrence.localize (qualifyProps : Bool) (o : Occurrence) : Occurrence :=
  { o with use := o.use.localize qualifyProps }

/-! ### References declare nothing -/

variable {qualifyProps : Bool}

mutual

/-- Replacing references keeps the names that a pattern declares. -/
theorem Tree.patternNames_localize : (tree : Tree) → tree.fits .binding = true →
    (tree.localize qualifyProps).patternNames = tree.patternNames
  | .token kind text, _ => by simp
  | .node form children, fit => by
    cases found : (Tree.node form children).reference? with
    | some reference =>
      rw [Tree.not_fits_binding_of_reference? found] at fit
      cases fit
    | none =>
      rw [Tree.localize_of_none found]
      have roles : rolesOf .binding form = rolesInPattern .binding form := by
        cases form <;> rfl
      unfold Tree.fits at fit
      rw [roles] at fit
      unfold Tree.patternNames
      cases kept : rolesInPattern .binding form with
      | none => rfl
      | some pair =>
        obtain ⟨first, others⟩ := pair
        rw [kept] at fit
        exact namesInRoles_localizeRow first others children fit

theorem namesInRoles_localizeRow (first others : Role) : (row : List Tree) →
    rowFits first others row = true →
    namesInRoles first others (localizeRow qualifyProps row) = namesInRoles first others row
  | [], _ => by simp
  | tree :: rest, fit => by
    rw [rowFits, Bool.and_eq_true] at fit
    rw [localizeRow_cons, namesInRoles, namesInRoles,
      namesInRoles_localizeRow others others rest fit.2]
    by_cases declares : first = .binding
    · subst declares
      rw [Tree.patternNames_localize tree fit.1]
    · simp [declares]

end

/-- A row that fits the role of values consists of trees that do. -/
theorem fits_of_mem_rowFits {role : Role} {row : List Tree} (fit : rowFits role role row = true)
    {tree : Tree} (member : tree ∈ row) : tree.fits role = true := by
  induction row with
  | nil => cases member
  | cons first rest ih =>
    rw [rowFits, Bool.and_eq_true] at fit
    rcases List.mem_cons.1 member with rfl | later
    · exact fit.1
    · exact ih fit.2 later

/-- A node of a form other than that of members is no reference, so it stays. -/
theorem Tree.localize_node {form : Form} (other : form ≠ .member) (children : List Tree) :
    (Tree.node form children).localize qualifyProps =
      .node form (localizeRow qualifyProps children) := by
  cases found : (Tree.node form children).reference? with
  | none => exact Tree.localize_of_none found
  | some reference =>
    obtain ⟨object, same, -⟩ := Tree.eq_member_of_reference? found
    cases same
    exact absurd rfl other

/-- Names that are looked for in nodes of one form are kept, if they are kept inside the node. -/
theorem kept_of_form {look : Tree → List (List Char)} {form : Form} (other : form ≠ .member)
    (elsewhere : ∀ tree : Tree, tree.isForm form = false → look tree = [])
    (inside : ∀ children, (Tree.node form children).fits .value = true →
      look (.node form (localizeRow qualifyProps children)) = look (.node form children))
    {tree : Tree} (fit : tree.fits .value = true) :
    look (tree.localize qualifyProps) = look tree := by
  by_cases here : tree.isForm form = true
  · cases tree with
    | token kind text => simp
    | node own children =>
      obtain rfl : own = form := by simpa [Tree.isForm, Tree.form?] using here
      rw [Tree.localize_node other]
      exact inside children fit
  · have absent : tree.isForm form = false := by simpa using here
    rw [elsewhere tree absent, elsewhere]
    rw [Tree.isForm_localize other, absent]

theorem Tree.declaratorNames_localize {tree : Tree} (fit : tree.fits .value = true) :
    (tree.localize qualifyProps).declaratorNames = tree.declaratorNames := by
  refine kept_of_form (by decide : Form.declarator ≠ .member) ?_ ?_ fit
  · intro tree absent
    unfold Tree.declaratorNames
    split
    · cases absent
    · rfl
  · intro children fit
    exact namesInRoles_localizeRow .binding .value children (by simpa [Tree.fits, rolesOf] using fit)

theorem Tree.parameterNames_localize {tree : Tree} (fit : tree.fits .value = true) :
    (tree.localize qualifyProps).parameterNames = tree.parameterNames := by
  refine kept_of_form (by decide : Form.parameters ≠ .member) ?_ ?_ fit
  · intro tree absent
    unfold Tree.parameterNames
    split
    · cases absent
    · rfl
  · intro children fit
    exact namesInRoles_localizeRow .binding .binding children
      (by simpa [Tree.fits, rolesOf] using fit)

/-- What is looked for in tokens that are no names is kept. -/
theorem kept_of_token {α : Type} {look : Tree → α} {nothing : α}
    (names : ∀ text, look (.token .identifier text) = nothing)
    (nodes : ∀ form children, look (.node form children) = nothing) (tree : Tree) :
    look (tree.localize qualifyProps) = look tree := by
  cases tree with
  | token kind text => simp
  | node form children =>
    rw [nodes]
    cases found : (Tree.node form children).reference? with
    | none => rw [Tree.localize_of_none found, nodes]
    | some reference =>
      rw [Tree.localize_of_reference found]
      obtain ⟨container, member⟩ := reference
      cases container <;> cases qualifyProps <;> simp [Reference.localTree, names, nodes]

theorem Tree.givenName_localize (tree : Tree) :
    (tree.localize qualifyProps).givenName = tree.givenName :=
  kept_of_token (fun _ => rfl) (fun _ _ => rfl) tree

theorem declaresVariables_localizeRow (children : List Tree) :
    declaresVariables (localizeRow qualifyProps children) = declaresVariables children := by
  cases children with
  | nil => simp
  | cons first rest =>
    simp only [localizeRow_cons, declaresVariables, List.head?_cons, Option.map_some,
      Option.getD_some]
    exact kept_of_token (fun _ => rfl) (fun _ _ => rfl) first

/-- What is looked for in each tree of a row is kept, if it is kept in each tree. -/
theorem flatMap_localizeRow {look : Tree → List (List Char)} {row : List Tree}
    (kept : ∀ tree ∈ row, look (tree.localize qualifyProps) = look tree) :
    (localizeRow qualifyProps row).flatMap look = row.flatMap look := by
  rw [localizeRow_eq_map, List.flatMap_map]
  exact List.flatMap_congr kept

/-- The children of a declaration declare what they did. -/
theorem declaratorNames_localizeRow {children : List Tree}
    (fit : rowFits .value .value children = true) :
    (localizeRow qualifyProps children).flatMap Tree.declaratorNames =
      children.flatMap Tree.declaratorNames :=
  flatMap_localizeRow fun _ member =>
    Tree.declaratorNames_localize (fits_of_mem_rowFits fit member)

/-- A reference declares no variables. -/
theorem Tree.variableNames_of_reference? : (tree : Tree) → {reference : Reference} →
    tree.reference? = some reference → tree.variableNames = []
  | .token _ _, _, found => by simp [Tree.variableNames]
  | .node form children, reference, found => by
    obtain ⟨object, same, object_cases⟩ := Tree.eq_member_of_reference? found
    cases same
    have inside : object.variableNames = [] := by
      rcases object_cases with ⟨name, rfl, -⟩ | ⟨inner, innerFound, -⟩
      · simp [Tree.variableNames]
      · exact Tree.variableNames_of_reference? object innerFound
    simp [Tree.variableNames, variableNamesIn, inside]

theorem Reference.variableNames_localTree (r : Reference) :
    (r.localTree qualifyProps).variableNames = [] := by
  obtain ⟨container, member⟩ := r
  cases container <;> cases qualifyProps <;>
    simp [Reference.localTree, Tree.variableNames, variableNamesIn]

mutual

/-- Replacing references keeps the variables that a tree declares. -/
theorem Tree.variableNames_localize (role : Role) : (tree : Tree) → tree.fits role = true →
    (tree.localize qualifyProps).variableNames = tree.variableNames
  | .token kind text, _ => by simp
  | .node form children, fit => by
    cases found : (Tree.node form children).reference? with
    | some reference =>
      rw [Tree.localize_of_reference found, Reference.variableNames_localTree,
        Tree.variableNames_of_reference? _ found]
    | none =>
      rw [Tree.localize_of_none found]
      unfold Tree.fits at fit
      split at fit
      · cases fit
      · next first others roles =>
        have inside := variableNamesIn_localizeRow first others children fit
        cases form with
        | function | arrow | method | staticBlock => rfl
        | declaration =>
          have value : first = .value ∧ others = .value := by
            cases role <;> simp [rolesOf, rolesInPattern] at roles ⊢
            exact ⟨roles.1.symm, roles.2.symm⟩
          obtain ⟨rfl, rfl⟩ := value
          simp only [Tree.variableNames, declaresVariables_localizeRow,
            declaratorNames_localizeRow fit, inside]
        | _ => simpa [Tree.variableNames] using inside

theorem variableNamesIn_localizeRow (first others : Role) : (row : List Tree) →
    rowFits first others row = true →
    variableNamesIn (localizeRow qualifyProps row) = variableNamesIn row
  | [], _ => by simp
  | tree :: rest, fit => by
    rw [rowFits, Bool.and_eq_true] at fit
    rw [localizeRow_cons, variableNamesIn, variableNamesIn,
      Tree.variableNames_localize first tree fit.1,
      variableNamesIn_localizeRow others others rest fit.2]

end

theorem Reference.rowNames_localTree (r : Reference) :
    (r.localTree qualifyProps).rowNames = [] := by
  obtain ⟨container, member⟩ := r
  cases container <;> cases qualifyProps <;> simp [Reference.localTree, Tree.rowNames]

mutual

/-- Replacing references keeps the names that a statement declares in its row. -/
theorem Tree.rowNames_localize : (tree : Tree) → tree.fits .value = true →
    (tree.localize qualifyProps).rowNames = tree.rowNames
  | .token kind text, _ => by simp
  | .node form children, fit => by
    cases found : (Tree.node form children).reference? with
    | some reference =>
      obtain ⟨object, same, -⟩ := Tree.eq_member_of_reference? found
      rw [Tree.localize_of_reference found, Reference.rowNames_localTree, same]
      simp [Tree.rowNames]
    | none =>
      rw [Tree.localize_of_none found]
      have inside (plain : rolesOf .value form = some (.value, .value)) :
          rowFits .value .value children = true := by
        simpa [Tree.fits, plain] using fit
      cases form with
      | declaration =>
        simp only [Tree.rowNames, declaresVariables_localizeRow,
          declaratorNames_localizeRow (inside rfl)]
      | function | classExpression =>
        exact flatMap_localizeRow fun tree _ => Tree.givenName_localize tree
      | labeled | exportDeclaration => exact rowNamesIn_localizeRow children (inside rfl)
      | _ => rfl

theorem rowNamesIn_localizeRow : (row : List Tree) → rowFits .value .value row = true →
    rowNamesIn (localizeRow qualifyProps row) = rowNamesIn row
  | [], _ => by simp
  | tree :: rest, fit => by
    rw [rowFits, Bool.and_eq_true] at fit
    rw [localizeRow_cons, rowNamesIn, rowNamesIn, Tree.rowNames_localize tree fit.1,
      rowNamesIn_localizeRow rest fit.2]

end

theorem Tree.caseNames_localize {tree : Tree} (fit : tree.fits .value = true) :
    (tree.localize qualifyProps).caseNames = tree.caseNames := by
  refine kept_of_form (by decide : Form.switchCase ≠ .member) ?_ ?_ fit
  · intro tree absent
    unfold Tree.caseNames
    split
    · cases absent
    · rfl
  · intro children fit
    exact rowNamesIn_localizeRow children (by simpa [Tree.fits, rolesOf] using fit)

/-- Replacing references keeps what a node makes known to its children. -/
theorem entered_localize {role : Role} {form : Form} {children : List Tree}
    (fit : (Tree.node form children).fits role = true) (child : Tree) :
    entered form (localizeRow qualifyProps children) (child.localize qualifyProps) =
      entered form children child := by
  have isParameters := @Tree.isForm_localize qualifyProps .parameters (by decide) child
  have isBlock := @Tree.isForm_localize qualifyProps .block (by decide) child
  have isCase := @Tree.isForm_localize qualifyProps .switchCase (by decide) child
  have parameters (inside : rowFits .value .value children = true) :
      (localizeRow qualifyProps children).flatMap Tree.parameterNames =
        children.flatMap Tree.parameterNames :=
    flatMap_localizeRow fun _ member =>
      Tree.parameterNames_localize (fits_of_mem_rowFits inside member)
  have given : (localizeRow qualifyProps children).flatMap Tree.givenName =
      children.flatMap Tree.givenName :=
    flatMap_localizeRow fun tree _ => Tree.givenName_localize tree
  have rows := @rowNamesIn_localizeRow qualifyProps children
  have hoisted := @variableNamesIn_localizeRow qualifyProps .value .value children
  have labelled (inside : rowFits .value .value children = true) :
      (localizeRow qualifyProps children).flatMap Tree.caseNames =
        children.flatMap Tree.caseNames :=
    flatMap_localizeRow fun _ member => Tree.caseNames_localize (fits_of_mem_rowFits inside member)
  have plain (values : rolesOf .value form = some (.value, .value))
      (noPattern : rolesOf .pattern form = none) (noBinding : rolesOf .binding form = none) :
      rowFits .value .value children = true := by
    unfold Tree.fits at fit
    cases role with
    | value => simpa [values] using fit
    | pattern => simp [noPattern] at fit
    | binding => simp [noBinding] at fit
  cases form with
  | program => simp only [entered, rows (plain rfl rfl rfl), hoisted (plain rfl rfl rfl)]
  | block | forStatement | forEach => simp only [entered, rows (plain rfl rfl rfl)]
  | switchStatement => simp only [entered, isCase, labelled (plain rfl rfl rfl)]
  | function =>
    simp only [entered, isParameters, given, parameters (plain rfl rfl rfl),
      hoisted (plain rfl rfl rfl)]
  | arrow =>
    simp only [entered, isParameters, parameters (plain rfl rfl rfl), hoisted (plain rfl rfl rfl)]
  | method =>
    simp only [entered, isParameters, isBlock, parameters (plain rfl rfl rfl),
      hoisted (plain rfl rfl rfl)]
  | staticBlock => simp only [entered, hoisted (plain rfl rfl rfl)]
  | classExpression => simp only [entered, given]
  | catchClause => simp only [entered, parameters (plain rfl rfl rfl)]
  | _ => rfl

theorem Reference.occurrences_localTree (r : Reference) (known : List (List Char)) :
    (r.localTree qualifyProps).occurrences known =
      [Occurrence.localize qualifyProps ⟨.reference r, known⟩] := by
  obtain ⟨container, member⟩ := r
  cases container <;> cases qualifyProps <;>
    simp [Reference.localTree, Tree.occurrences, Occurrence.localize, Use.localize,
      Tree.reference?, Container.ofName?]

mutual

/-- Replacing references keeps what is known at each name and each reference. -/
theorem Tree.occurrences_localize (role : Role) (known : List (List Char)) : (tree : Tree) →
    tree.fits role = true → (tree.localize qualifyProps).occurrences known =
      (tree.occurrences known).map (Occurrence.localize qualifyProps)
  | .token kind text, _ => by
    by_cases isName : kind = .identifier ∨ kind = .shorthand
    · simp [Tree.occurrences, isName, Occurrence.localize, Use.localize]
    · simp [Tree.occurrences, isName]
  | .node form children, fit => by
    cases found : (Tree.node form children).reference? with
    | some reference =>
      rw [Tree.localize_of_reference found]
      simp only [Tree.occurrences, found, List.map_cons, List.map_nil]
      exact Reference.occurrences_localTree reference known
    | none =>
      rw [Tree.localize_of_none found]
      have still := @Tree.reference?_localize_of_none qualifyProps _ found
      rw [Tree.localize_of_none found] at still
      have inner := fit
      unfold Tree.fits at inner
      split at inner
      · cases inner
      · next first others roles =>
        simp only [Tree.occurrences, found, still]
        exact occurrencesIn_localizeRow first others known (entered_localize fit) children inner

theorem occurrencesIn_localizeRow (first others : Role) (known : List (List Char))
    {enter enterAfter : Tree → List (List Char)}
    (kept : ∀ tree, enterAfter (tree.localize qualifyProps) = enter tree) : (row : List Tree) →
    rowFits first others row = true →
    occurrencesIn known enterAfter (localizeRow qualifyProps row) =
      (occurrencesIn known enter row).map (Occurrence.localize qualifyProps)
  | [], _ => by simp [occurrencesIn]
  | tree :: rest, fit => by
    rw [rowFits, Bool.and_eq_true] at fit
    rw [localizeRow_cons, occurrencesIn, occurrencesIn, List.map_append, kept,
      Tree.occurrences_localize first _ tree fit.1,
      occurrencesIn_localizeRow others others known kept rest fit.2]

end

/-! ### Texts -/

/-- The reference that a piece is. -/
def Piece.target? : Piece → Option Reference
  | .verbatim _ => none
  | .reference _ target => some target

/-- The reference at an occurrence. -/
def Occurrence.target? (o : Occurrence) : Option Reference :=
  match o.use with
  | .name _ => none
  | .reference target => some target

mutual

/-- The references that are replaced are those that occur. -/
theorem Tree.targets_occurrences (known : List (List Char)) : (tree : Tree) →
    (tree.occurrences known).filterMap Occurrence.target? = tree.pieces.filterMap Piece.target?
  | .token kind text => by
    by_cases isName : kind = .identifier ∨ kind = .shorthand
    · simp only [Tree.occurrences, if_pos isName, Tree.pieces]
      rfl
    · simp only [Tree.occurrences, if_neg isName, Tree.pieces]
      rfl
  | .node form children => by
    cases found : (Tree.node form children).reference? with
    | some reference =>
      simp only [Tree.occurrences, found, Tree.pieces]
      rfl
    | none =>
      simp only [Tree.occurrences, found, Tree.pieces]
      exact targets_occurrencesIn known (entered form children) children

theorem targets_occurrencesIn (known : List (List Char)) (enter : Tree → List (List Char)) :
    (row : List Tree) → (occurrencesIn known enter row).filterMap Occurrence.target? =
      (piecesOf row).filterMap Piece.target?
  | [] => by simp [occurrencesIn, piecesOf]
  | tree :: rest => by
    rw [occurrencesIn, piecesOf, List.filterMap_append, List.filterMap_append,
      Tree.targets_occurrences _ tree, targets_occurrencesIn known enter rest]

end

/-- What was read without a fault has its patterns and values in their places. -/
theorem fits_of_readProgram {enclosed : Bool} {source : List Char} {tree : Tree}
    (read : readProgram enclosed source = some tree) : tree.fits .value = true := by
  unfold readProgram at read
  split at read
  · cases read
  · split at read
    · next whole =>
      rw [← Option.some.inj read]
      exact (Bool.and_eq_true_iff.1 whole).2
    · cases read

theorem Snippet.fits_ofCode {code : List Char} (readable : (ofCode code).isFaulty = false) :
    (ofCode code).tree.fits .value = true := by
  unfold ofCode at readable ⊢
  unfold ofExpression at readable ⊢
  split
  · next tree same =>
    split at same
    · next read =>
      cases same
      exact fits_of_readProgram read
    · cases same
  · next other =>
    split
    · next read => exact fits_of_readProgram read
    · next unread =>
      exfalso
      split at readable
      · next tree same => exact other tree same
      · simp only [unread] at readable
        split at readable
        · next read => exact other _ (by rw [read])
        · cases readable

end ComponentCompiler.Script

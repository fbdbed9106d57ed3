import ComponentCompiler.Proofs.Script.Localize
import ComponentCompiler.Proofs.Script.Places
import Mathlib.Data.List.Basic
import Mathlib.Data.List.Induction
import Mathlib.Data.Nat.Find

/-!
# Chains of member accesses

Names joined to chains are read from the left: each link takes a member of all that stands before
it. A reference can only be a front part of a chain. The links in it have to be plain dots, and all
names but the last one have to be containers. The longest such front part is the outermost
reference, so it ends at the first name that is no container, or where the plain links end.

What stays of the chain behind the reference holds no reference with the name that replaces it.

## Main definitions

* `Link`, `chainTree` — a member access on what stands before it, and the tree of a chain
* `nameAt`, `plainCount` — the names of a chain, and the number of plain links at its front
* `Resolves` — the front parts of a chain that are references
* `StopsAt` — where the longest one ends

## Main results

* `reference?_take_iff` — the references that are front parts of a chain
* `isOutermost_chainTree_iff` — a chain has one outermost reference
* `Tree.references_of_chain` — the references in a chain that stands in a tree
-/

namespace ComponentCompiler.Script

/-- A member access on what stands before it: the tokens up to the name, and the name. -/
structure Link where
  joint : List (TokenKind × List Char)
  kind : TokenKind
  name : List Char
deriving DecidableEq, Repr

/-- Access to the member with the given name through a dot alone. -/
def Link.plain (name : List Char) : Link :=
  ⟨[(.punctuator, ['.'])], .propertyName, name⟩

/-- Whether a link is a dot alone with the name of a property. -/
def Link.isPlain (link : Link) : Bool :=
  link == .plain link.name

/-- The trees of a link. -/
def Link.row (link : Link) : List Tree :=
  (link.joint ++ [(link.kind, link.name)]).map fun token => .token token.1 token.2

/-- The tree of a link with the object before it. -/
def Link.attach (object : Tree) (link : Link) : Tree :=
  .node .member (object :: link.row)

/-- The tree of a chain that starts with the given name. -/
def chainTree (first : List Char) (links : List Link) : Tree :=
  links.foldl Link.attach (.token .identifier first)

/-- The name with the given number in a chain, which starts with number 0. -/
def nameAt (first : List Char) (links : List Link) (index : Nat) : List Char :=
  (first :: links.map Link.name).getD index []

/-- The number of plain links before the first other one. -/
def plainCount (links : List Link) : Nat :=
  (links.takeWhile Link.isPlain).length

@[simp] theorem chainTree_nil (first : List Char) :
    chainTree first [] = .token .identifier first := rfl

@[simp] theorem chainTree_concat (first : List Char) (links : List Link) (link : Link) :
    chainTree first (links ++ [link]) = link.attach (chainTree first links) := by
  simp [chainTree]

@[simp] theorem nameAt_zero (first : List Char) (links : List Link) :
    nameAt first links 0 = first := rfl

theorem nameAt_succ {first : List Char} {links : List Link} {link : Link} {index : Nat}
    (present : links[index]? = some link) : nameAt first links (index + 1) = link.name := by
  simp [nameAt, present]

/-- The trees of a link determine the link. -/
theorem Link.eq_of_row_eq {link other : Link} (same : link.row = other.row) : link = other := by
  have injective : Function.Injective fun token : TokenKind × List Char =>
      Tree.token token.1 token.2 := by
    rintro ⟨kind, text⟩ ⟨otherKind, otherText⟩ tokens
    simpa using tokens
  have tokens := List.map_injective_iff.2 injective same
  obtain ⟨joint, last⟩ := List.append_inj' tokens rfl
  cases link
  cases other
  simp_all

theorem Link.isPlain_iff {link : Link} : link.isPlain = true ↔ link = .plain link.name := by
  simp [Link.isPlain]

@[simp] theorem Link.isPlain_plain (name : List Char) : (Link.plain name).isPlain = true := by
  simp [Link.isPlain, Link.plain]

/-- The plain links before the first other one are as many as can be taken. -/
theorem le_plainCount_iff {links : List Link} {count : Nat} :
    count ≤ plainCount links ↔
      count ≤ links.length ∧ ∀ link ∈ links.take count, link.isPlain = true := by
  induction links generalizing count with
  | nil => simp [plainCount]
  | cons first rest ih =>
    cases count with
    | zero => simp
    | succ count =>
      cases plain : first.isPlain with
      | false => simp [plainCount, plain]
      | true =>
        have counted : plainCount (first :: rest) = plainCount rest + 1 := by
          simp [plainCount, plain]
        rw [counted, Nat.add_le_add_iff_right, ih]
        simp [plain]

theorem succ_le_plainCount_iff {links : List Link} {link : Link} {index : Nat}
    (present : links[index]? = some link) :
    index + 1 ≤ plainCount links ↔ index ≤ plainCount links ∧ link.isPlain = true := by
  have inside := (List.getElem?_eq_some_iff.1 present).1
  simp only [le_plainCount_iff, List.take_add_one, present, Option.toList_some,
    List.forall_mem_append, List.forall_mem_singleton]
  constructor
  · rintro ⟨-, earlier, last⟩
    exact ⟨⟨by omega, earlier⟩, last⟩
  · rintro ⟨⟨-, earlier⟩, last⟩
    exact ⟨by omega, earlier, last⟩

/-! ### The references in a chain -/

/-- A link makes a reference if it is plain and the object before it is a container, or a reference
to a member that is named like one. -/
theorem Link.reference?_attach_iff {object : Tree} {link : Link} {container : Container}
    {member : List Char} :
    (link.attach object).reference? = some ⟨container, member⟩ ↔
      link.isPlain = true ∧ link.name = member ∧ ∃ name, Container.ofName? name = some container ∧
        (object = .token .identifier name ∨ ∃ outer, object.reference? = some ⟨outer, name⟩) := by
  constructor
  · intro found
    obtain ⟨inner, same, objectIs⟩ := Tree.eq_member_of_reference? found
    obtain ⟨rfl, row⟩ := List.cons.inj (Tree.node.inj same).2
    obtain rfl : link = .plain member := Link.eq_of_row_eq row
    refine ⟨Link.isPlain_plain member, rfl, ?_⟩
    rcases objectIs with ⟨name, rfl, known⟩ | ⟨outer, outerFound, known⟩
    · exact ⟨name, known, .inl rfl⟩
    · exact ⟨outer.member, known, .inr ⟨outer.container, outerFound⟩⟩
  · rintro ⟨plain, rfl, name, known, rfl | ⟨outer, found⟩⟩
    · rw [Link.isPlain_iff.1 plain]
      simp [attach, row, Link.plain, Tree.reference?, known]
    · rw [Link.isPlain_iff.1 plain]
      have := Tree.reference?_member_of_reference? found link.name
      simpa [attach, row, Link.plain, known] using this

/-- A front part of a chain that is a reference: its links are plain, and the names before its last
one are containers. -/
structure Resolves (first : List Char) (links : List Link) (count : Nat) : Prop where
  pos : 1 ≤ count
  plain : count ≤ plainCount links
  containers : ∀ index < count, Container.ofName? (nameAt first links index) ≠ none

/-- One more link makes a reference if it is plain and the name before it is a container; all names
before that are the containers of references already. -/
theorem resolves_succ_iff {first : List Char} {links : List Link} {link : Link} {count : Nat}
    (present : links[count]? = some link) :
    Resolves first links (count + 1) ↔
      link.isPlain = true ∧ Container.ofName? (nameAt first links count) ≠ none ∧
        (count = 0 ∨ Resolves first links count) := by
  constructor
  · rintro ⟨-, plain, containers⟩
    obtain ⟨earlier, last⟩ := (succ_le_plainCount_iff present).1 plain
    refine ⟨last, containers count (by omega), ?_⟩
    rcases Nat.eq_zero_or_pos count with none | pos
    · exact .inl none
    · exact .inr ⟨pos, earlier, fun index before => containers index (by omega)⟩
  · rintro ⟨last, known, rfl | ⟨pos, plain, containers⟩⟩
    · refine ⟨by omega, (succ_le_plainCount_iff present).2 ⟨Nat.zero_le _, last⟩, ?_⟩
      intro index before
      obtain rfl : index = 0 := by omega
      exact known
    · refine ⟨by omega, (succ_le_plainCount_iff present).2 ⟨plain, last⟩, ?_⟩
      intro index before
      rcases Nat.lt_succ_iff_lt_or_eq.1 before with earlier | rfl
      · exact containers index earlier
      · exact known

theorem chainTree_eq_token_iff {first name : List Char} {links : List Link} {kind : TokenKind} :
    chainTree first links = .token kind name ↔
      links = [] ∧ kind = .identifier ∧ first = name := by
  induction links using List.reverseRecOn with
  | nil => simp [eq_comm]
  | append_singleton links link ih => simp [Link.attach]

theorem reference?_take_iff {first : List Char} {links : List Link} {count : Nat}
    (within : count ≤ links.length) {container : Container} {member : List Char} :
    (chainTree first (links.take count)).reference? = some ⟨container, member⟩ ↔
      Resolves first links count ∧ nameAt first links count = member ∧
        Container.ofName? (nameAt first links (count - 1)) = some container := by
  induction count generalizing container member with
  | zero =>
    constructor
    · intro found
      simp [Tree.reference?] at found
    · rintro ⟨resolves, -⟩
      exact absurd resolves.pos (by decide)
  | succ count ih =>
    have present : links[count]? = some links[count] := List.getElem?_eq_getElem _
    have object := @ih (by omega)
    rw [List.take_add_one, present, Option.toList_some, chainTree_concat,
      Link.reference?_attach_iff, resolves_succ_iff present, nameAt_succ present,
      Nat.add_sub_cancel]
    cases count with
    | zero =>
      -- The first link stands behind a name.
      constructor
      · rintro ⟨plain, rfl, name, known, object | ⟨outer, found⟩⟩
        · obtain ⟨-, -, rfl⟩ := chainTree_eq_token_iff.1 object
          exact ⟨⟨plain, by simp [known], .inl rfl⟩, rfl, known⟩
        · simp [Tree.reference?] at found
      · rintro ⟨⟨plain, -, -⟩, rfl, known⟩
        exact ⟨plain, rfl, first, known, .inl rfl⟩
    | succ count =>
      -- Every other link stands behind a front part, which has to be a reference itself.
      constructor
      · rintro ⟨plain, rfl, name, known, token | ⟨outer, found⟩⟩
        · have empty := (chainTree_eq_token_iff.1 token).1
          simp at empty
          simp [empty] at within
        · obtain ⟨resolves, rfl, -⟩ := object.1 found
          exact ⟨⟨plain, by simp [known], .inr resolves⟩, rfl, known⟩
      · rintro ⟨⟨plain, -, resolves⟩, rfl, known⟩
        have resolves := resolves.resolve_left (by omega)
        obtain ⟨outer, outerKnown⟩ :=
          Option.ne_none_iff_exists'.1 (resolves.containers count (by omega))
        exact ⟨plain, rfl, _, known, .inr ⟨outer, object.2 ⟨resolves, rfl, outerKnown⟩⟩⟩

/-- A reference among the front parts of a chain ends where the plain links and containers end: at
the first name behind the first link that is no container, or where the plain links end. -/
structure StopsAt (first : List Char) (links : List Link) (stop : Nat) : Prop where
  pos : 1 ≤ stop
  plain : stop ≤ plainCount links
  containers : ∀ index, 1 ≤ index → index < stop →
    Container.ofName? (nameAt first links index) ≠ none
  last : stop = plainCount links ∨ Container.ofName? (nameAt first links stop) = none

/-- Behind a plain link there is a place to stop. -/
theorem exists_stopsAt (first : List Char) {links : List Link} (plain : plainCount links ≠ 0) :
    ∃ stop, StopsAt first links stop := by
  have ends : ∃ stop, 1 ≤ stop ∧
      (stop = plainCount links ∨ Container.ofName? (nameAt first links stop) = none) :=
    ⟨plainCount links, Nat.one_le_iff_ne_zero.2 plain, .inl rfl⟩
  classical
  obtain ⟨pos, last⟩ := Nat.find_spec ends
  refine ⟨Nat.find ends, pos, Nat.find_min' ends ⟨Nat.one_le_iff_ne_zero.2 plain, .inl rfl⟩, ?_, last⟩
  intro index after before none
  exact Nat.find_min ends before ⟨after, .inr none⟩

/-- The front parts that are references are those up to the stop. -/
theorem StopsAt.resolves_iff {first : List Char} {links : List Link} {stop count : Nat}
    (stops : StopsAt first links stop) (known : Container.ofName? first ≠ none) :
    Resolves first links count ↔ 1 ≤ count ∧ count ≤ stop := by
  constructor
  · rintro ⟨pos, plain, containers⟩
    refine ⟨pos, ?_⟩
    by_contra beyond
    rcases stops.last with last | unknown
    · omega
    · exact containers stop (by omega) unknown
  · rintro ⟨pos, le⟩
    refine ⟨pos, Nat.le_trans le stops.plain, ?_⟩
    intro index before
    rcases Nat.eq_zero_or_pos index with rfl | after
    · exact known
    · exact stops.containers index after (by omega)

/-- The front part up to the stop is a reference. -/
theorem StopsAt.reference?_take {first : List Char} {links : List Link} {stop : Nat}
    (stops : StopsAt first links stop) (known : Container.ofName? first ≠ none)
    {container : Container}
    (holder : Container.ofName? (nameAt first links (stop - 1)) = some container) :
    (chainTree first (links.take stop)).reference? =
      some ⟨container, nameAt first links stop⟩ :=
  (reference?_take_iff (le_plainCount_iff.1 stops.plain).1).2
    ⟨(stops.resolves_iff known).2 ⟨stops.pos, Nat.le_refl _⟩, rfl, holder⟩

/-- No front part beyond the stop is a reference. -/
theorem StopsAt.reference?_beyond {first : List Char} {links : List Link} {stop count : Nat}
    (stops : StopsAt first links stop) (known : Container.ofName? first ≠ none)
    (beyond : stop < count) (within : count ≤ links.length) :
    (chainTree first (links.take count)).reference? = none := by
  refine Option.eq_none_iff_forall_ne_some.2 fun target found => ?_
  obtain ⟨resolves, -⟩ := (reference?_take_iff within).1 found
  have := ((stops.resolves_iff known).1 resolves).2
  omega

/-! ### Places in a chain -/

/-- A subtree of a chain is a token or a front part of the chain. -/
theorem subtree?_chainTree {first : List Char} {links : List Link} {below : List Nat} {sub : Tree}
    (found : (chainTree first links).subtree? below = some sub) :
    (∃ kind text, sub = .token kind text) ∨
      ∃ count ≤ links.length, below = List.replicate (links.length - count) 0 ∧
        sub = chainTree first (links.take count) := by
  -- The last link is at the root, so the chain is taken apart from its end.
  induction links using List.reverseRecOn generalizing below with
  | nil =>
    cases below with
    | nil =>
      obtain rfl := Option.some.inj found
      exact .inl ⟨_, _, rfl⟩
    | cons index rest => simp at found
  | append_singleton links link ih =>
    rw [chainTree_concat, Link.attach] at found
    match below with
    | [] =>
      obtain rfl := Option.some.inj found
      refine .inr ⟨_, Nat.le_refl _, by simp, ?_⟩
      rw [List.take_length, chainTree_concat, Link.attach]
    | 0 :: rest =>
      rcases ih (by simpa using found) with token | ⟨count, within, rfl, rfl⟩
      · exact .inl token
      · refine .inr ⟨count, by simp; omega, ?_, by rw [List.take_append_of_le_length within]⟩
        rw [← List.replicate_succ]
        congr 1
        simp
        omega
    | (index + 1) :: rest =>
      -- Beside the object there are only the tokens of the link.
      left
      rw [Tree.subtree?_cons, Tree.children_node, List.getElem?_cons_succ] at found
      obtain ⟨child, present, inside⟩ := Option.bind_eq_some_iff.1 found
      obtain ⟨⟨kind, text⟩, -, rfl⟩ := List.mem_map.1 (List.mem_of_getElem? present)
      cases rest with
      | nil => exact ⟨kind, text, (Option.some.inj inside).symm⟩
      | cons index rest => simp at inside

/-- The front parts of a chain stand on its left. -/
theorem subtree?_replicate {first : List Char} {links : List Link} {count : Nat}
    (within : count ≤ links.length) :
    (chainTree first links).subtree? (List.replicate (links.length - count) 0) =
      some (chainTree first (links.take count)) := by
  induction links using List.reverseRecOn with
  | nil => simp
  | append_singleton links link ih =>
    rw [List.length_append, List.length_singleton] at within ⊢
    rcases Nat.lt_or_ge links.length count with whole | inside
    · obtain rfl : count = links.length + 1 := by omega
      rw [List.take_of_length_le (by simp)]
      simp
    · rw [Nat.succ_sub inside, List.replicate_succ, chainTree_concat, Link.attach,
        List.take_append_of_le_length inside]
      simpa using ih inside

theorem not_isOutermost_chainTree {first : List Char} {links : List Link}
    (free : plainCount links = 0 ∨ Container.ofName? first = none) (below : List Nat)
    (target : Reference) : ¬ (chainTree first links).IsOutermost below target := by
  intro outermost
  obtain ⟨sub, present, found⟩ := Option.bind_eq_some_iff.1 outermost.found
  rcases subtree?_chainTree present with ⟨kind, text, rfl⟩ | ⟨count, within, rfl, rfl⟩
  · simp [Tree.reference?] at found
  · obtain ⟨resolves, -, -⟩ := (reference?_take_iff within).1 found
    rcases free with none | unknown
    · have := Nat.le_trans resolves.pos resolves.plain
      omega
    · exact resolves.containers 0 resolves.pos unknown

/-- A chain has one outermost reference, which ends at the stop. -/
theorem isOutermost_chainTree_iff {first : List Char} {links : List Link} {stop : Nat}
    (stops : StopsAt first links stop) (known : Container.ofName? first ≠ none)
    {container : Container}
    (holder : Container.ofName? (nameAt first links (stop - 1)) = some container)
    (below : List Nat) (target : Reference) :
    (chainTree first links).IsOutermost below target ↔
      below = List.replicate (links.length - stop) 0 ∧
        target = ⟨container, nameAt first links stop⟩ := by
  have inside : stop ≤ links.length := (le_plainCount_iff.1 stops.plain).1
  have atStop := stops.reference?_take known holder
  constructor
  · intro outermost
    obtain ⟨sub, present, found⟩ := Option.bind_eq_some_iff.1 outermost.found
    rcases subtree?_chainTree present with ⟨kind, text, rfl⟩ | ⟨count, within, rfl, rfl⟩
    · simp [Tree.reference?] at found
    · obtain ⟨resolves, -⟩ := (reference?_take_iff within).1 found
      obtain ⟨pos, le⟩ := (stops.resolves_iff known).1 resolves
      rcases Nat.lt_or_eq_of_le le with shorter | rfl
      · -- The reference at the stop stands further out.
        have above := outermost.topmost (List.replicate (links.length - stop) 0)
          (List.replicate (stop - count) 0)
          (by rw [← List.replicate_add]; congr 1; omega)
          (by simp; omega)
        rw [subtree?_replicate inside, Option.bind_some, atStop] at above
        cases above
      · exact ⟨rfl, Option.some.inj (found.symm.trans atStop)⟩
  · rintro ⟨rfl, rfl⟩
    refine ⟨by rw [subtree?_replicate inside, Option.bind_some, atStop], ?_⟩
    intro front back whole nonempty
    obtain ⟨total, frontIs, -⟩ := List.append_eq_replicate_iff.1 whole
    have backPos := List.length_pos_iff.2 nonempty
    have place : front = List.replicate (links.length - (links.length - front.length)) 0 := by
      rw [frontIs]
      simp
      omega
    rw [place, subtree?_replicate (by omega), Option.bind_some]
    exact stops.reference?_beyond known (by omega) (by omega)

/-! ### The chain behind its reference -/

theorem Link.localize_attach {qualifyProps : Bool} {object : Tree} {link : Link}
    (absent : (link.attach object).reference? = none) :
    (link.attach object).localize qualifyProps = link.attach (object.localize qualifyProps) := by
  rw [attach, Tree.localize_of_none absent, localizeRow_cons, localizeRow_eq_map, attach]
  simp [row]

/-- Replacing the references of a chain puts the tree that stands for the reference in front of the
links behind it. -/
theorem localize_chainTree (qualifyProps : Bool) {first : List Char} {links : List Link}
    {stop : Nat} (stops : StopsAt first links stop) (known : Container.ofName? first ≠ none)
    {container : Container}
    (holder : Container.ofName? (nameAt first links (stop - 1)) = some container) :
    (chainTree first links).localize qualifyProps =
      (links.drop stop).foldl Link.attach
        ((Reference.mk container (nameAt first links stop)).localTree qualifyProps) := by
  have inside : stop ≤ links.length := (le_plainCount_iff.1 stops.plain).1
  have upTo (count : Nat) (behind : stop ≤ count) : count ≤ links.length →
      (chainTree first (links.take count)).localize qualifyProps =
        ((links.take count).drop stop).foldl Link.attach
          ((Reference.mk container (nameAt first links stop)).localTree qualifyProps) := by
    induction count, behind using Nat.le_induction with
    | base =>
      intro _
      simp [Tree.localize_of_found (stops.reference?_take known holder)]
    | succ count behind ih =>
      intro within
      have present : links[count]? = some links[count] := List.getElem?_eq_getElem _
      have absent := stops.reference?_beyond known (Nat.lt_succ_of_le behind) within
      rw [List.take_add_one, present, Option.toList_some, chainTree_concat] at absent ⊢
      rw [Link.localize_attach absent, ih (by omega),
        List.drop_append_of_le_length (by simp; omega), List.foldl_append]
      rfl
  simpa using upTo links.length inside (Nat.le_refl _)

/-- Behind the stop no plain link follows, or the name there is no container. -/
theorem StopsAt.behind {first : List Char} {links : List Link} {stop : Nat}
    (stops : StopsAt first links stop) :
    plainCount (links.drop stop) = 0 ∨ Container.ofName? (nameAt first links stop) = none := by
  rcases stops.last with rfl | unknown
  · left
    by_contra plain
    have next := (le_plainCount_iff.1 (Nat.one_le_iff_ne_zero.2 plain))
    have counted := le_plainCount_iff.1 (Nat.le_refl (plainCount links))
    -- One more plain link would have been counted.
    have more : plainCount links + 1 ≤ plainCount links := by
      refine le_plainCount_iff.2 ⟨by have := next.1; simp at this; omega, ?_⟩
      rw [List.take_add]
      exact List.forall_mem_append.2 ⟨counted.2, next.2⟩
    omega
  · exact .inr unknown

/-- The qualified prop in front of the links behind the reference is the only reference there. -/
theorem isOutermost_qualified {member : List Char} {links : List Link}
    (behind : plainCount links = 0 ∨ Container.ofName? member = none) {below : List Nat}
    {target : Reference}
    (outermost : (chainTree "props".toList (.plain member :: links)).IsOutermost below target) :
    target = ⟨.props, member⟩ := by
  have counted : plainCount (.plain member :: links) = plainCount links + 1 := by
    simp [plainCount]
  have stops : StopsAt "props".toList (.plain member :: links) 1 := by
    refine ⟨Nat.le_refl _, by omega, by omega, ?_⟩
    rcases behind with none | unknown
    · exact .inl (by omega)
    · exact .inr unknown
  have known : Container.ofName? "props".toList = some .props := by decide
  have isKnown : Container.ofName? "props".toList ≠ none := by decide
  exact ((isOutermost_chainTree_iff stops isKnown known below target).1 outermost).2

/-! ### A chain in a tree -/

/-- A chain inside of a reference is the object of a longer one. -/
theorem exists_longer_chain {outer : Tree} {target : Reference} {index : Nat} {below : List Nat}
    {first : List Char} {links : List Link} (found : outer.reference? = some target)
    (inside : outer.subtree? (index :: below) = some (chainTree first links)) :
    ∃ front link, index :: below = front ++ [0] ∧
      outer.subtree? front = some (chainTree first (links ++ [link])) := by
  -- The way down to a name or a member access can only lead from object to object.
  induction below generalizing outer target index with
  | nil =>
    obtain ⟨object, rfl, -⟩ := Tree.eq_member_of_reference? found
    match index with
    | 0 =>
      obtain rfl : object = chainTree first links := by simpa using inside
      exact ⟨[], .plain target.member, rfl, by rw [chainTree_concat]; rfl⟩
    | 1 | 2 =>
      have token := chainTree_eq_token_iff.1 (Option.some.inj inside).symm
      cases token.2.1
    | index + 3 => simp at inside
  | cons next below ih =>
    obtain ⟨object, rfl, objectIs⟩ := Tree.eq_member_of_reference? found
    match index with
    | 0 =>
      have inObject : object.subtree? (next :: below) = some (chainTree first links) := inside
      rcases objectIs with ⟨name, rfl, -⟩ | ⟨inner, innerFound, -⟩
      · simp at inObject
      · obtain ⟨front, link, place, longer⟩ := ih innerFound inObject
        exact ⟨0 :: front, link, by rw [place]; rfl, longer⟩
    | 1 | 2 | index + 3 => simp at inside

/-- The references in a chain that stands in a tree and is the object of no further link: none if
the first link is not plain or the first name is no container; otherwise just one, the front part up
to the stop. Once it is replaced, the chain holds no reference but a qualified prop, which is that
prop again. -/
theorem Tree.references_of_chain {tree : Tree} {place : List Nat} {first : List Char}
    {links : List Link} (here : tree.subtree? place = some (chainTree first links))
    (maximal : ∀ front link, place = front ++ [0] →
      tree.subtree? front ≠ some (chainTree first (links ++ [link]))) :
    (plainCount links = 0 ∨ Container.ofName? first = none →
      ∀ below target, ¬ tree.IsOutermost (place ++ below) target) ∧
    (plainCount links ≠ 0 → Container.ofName? first ≠ none →
      ∃ stop container, StopsAt first links stop ∧
        Container.ofName? (nameAt first links (stop - 1)) = some container ∧
        tree.subtree? (place ++ List.replicate (links.length - stop) 0) =
          some (chainTree first (links.take stop)) ∧
        (∀ below target, tree.IsOutermost (place ++ below) target ↔
          below = List.replicate (links.length - stop) 0 ∧
            target = ⟨container, nameAt first links stop⟩) ∧
        (∀ qualifyProps, (chainTree first links).localize qualifyProps =
          if container = .props ∧ qualifyProps = true then
            chainTree "props".toList (.plain (nameAt first links stop) :: links.drop stop)
          else chainTree (nameAt first links stop) (links.drop stop)) ∧
        (∀ below target, ¬ (chainTree (nameAt first links stop) (links.drop stop)).IsOutermost
          below target) ∧
        ∀ below target,
          (chainTree "props".toList
            (.plain (nameAt first links stop) :: links.drop stop)).IsOutermost below target →
          target = ⟨.props, nameAt first links stop⟩) := by
  -- A reference further out would hold the chain as the object of a longer one.
  have free : ∀ front back, front ++ back = place → back ≠ [] →
      (tree.subtree? front).bind Tree.reference? = none := by
    rintro front back rfl nonempty
    refine Option.eq_none_iff_forall_ne_some.2 fun target outermost => ?_
    obtain ⟨outer, present, found⟩ := Option.bind_eq_some_iff.1 outermost
    rw [Tree.subtree?_append, present, Option.bind_some] at here
    cases back with
    | nil => exact nonempty rfl
    | cons index below =>
      obtain ⟨path, link, whole, longer⟩ := exists_longer_chain found here
      refine maximal (front ++ path) link (by rw [whole, List.append_assoc]) ?_
      rw [Tree.subtree?_append, present, Option.bind_some, longer]
  constructor
  · intro unresolved below target
    rw [Tree.isOutermost_append here free]
    exact not_isOutermost_chainTree unresolved below target
  · intro plain known
    obtain ⟨stop, stops⟩ := exists_stopsAt first plain
    have resolves := (stops.resolves_iff known).2 ⟨stops.pos, Nat.le_refl _⟩
    obtain ⟨container, holder⟩ := Option.ne_none_iff_exists'.1
      (resolves.containers (stop - 1) (by have := stops.pos; omega))
    refine ⟨stop, container, stops, holder, ?_, ?_, ?_, ?_, ?_⟩
    · rw [Tree.subtree?_append, here, Option.bind_some,
        subtree?_replicate (le_plainCount_iff.1 stops.plain).1]
    · intro below target
      rw [Tree.isOutermost_append here free]
      exact isOutermost_chainTree_iff stops known holder below target
    · intro qualifyProps
      rw [localize_chainTree qualifyProps stops known holder]
      cases container <;> cases qualifyProps <;> rfl
    · exact not_isOutermost_chainTree stops.behind
    · intro below target
      exact isOutermost_qualified stops.behind

/-- The links of `state.props.x?.y`. -/
def optionalLinks : List Link :=
  [.plain "props".toList, .plain ['x'], ⟨[(.punctuator, ['?', '.'])], .propertyName, ['y']⟩]

/-- The tree of `-state.props.x?.y`. -/
def optionalTree : Tree :=
  .node .unary [.token .punctuator ['-'], chainTree "state".toList optionalLinks]

/-- The chain in `-state.props.x?.y` is maximal, and its only reference is the prop `x`. -/
theorem references_of_optionalTree :
    optionalTree.subtree? [1] = some (chainTree "state".toList optionalLinks) ∧
      (∀ front link, [1] = front ++ [0] →
        optionalTree.subtree? front ≠
          some (chainTree "state".toList (optionalLinks ++ [link]))) ∧
      ∀ below target, optionalTree.IsOutermost ([1] ++ below) target ↔
        below = [0] ∧ target = ⟨.props, ['x']⟩ := by
  have here : optionalTree.subtree? [1] = some (chainTree "state".toList optionalLinks) := rfl
  have maximal : ∀ front link, [1] = front ++ [0] → optionalTree.subtree? front ≠
      some (chainTree "state".toList (optionalLinks ++ [link])) := by
    intro front link same
    have last := congrArg List.getLast? same
    simp at last
  refine ⟨here, maximal, ?_⟩
  obtain ⟨stop, container, stops, holder, -, only, -⟩ :=
    (Tree.references_of_chain here maximal).2 (by decide) (by decide)
  obtain rfl : stop = 2 := by
    have atMost : stop ≤ 2 := stops.plain
    have atLeast := stops.pos
    by_contra other
    obtain rfl : stop = 1 := by omega
    exact absurd stops.last (by decide)
  obtain rfl : container = .props := by
    cases container
    · exact absurd holder (by decide)
    · rfl
  exact only

end ComponentCompiler.Script

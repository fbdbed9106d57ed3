import ComponentCompiler.Embedding
import ComponentCompiler.Proofs.Script.Localize
import Mathlib.Data.List.Basic

/-!
# Code that stays as it is

Code that has been brought into a context should stay as it is when it is brought there again. This
file says which texts stay. Replacing a reference takes away the dots of its containers, and renaming
keys adds no dots, so the dots of a text never become more. A text that stays as a whole therefore
has no reference that changes, and no key that changes either.

## Main definitions

* `keyed` — a text with the keys of its object literal written for a context
* `IsSettled` — a text without references and keys that would change in a context

## Main results

* `localizeReferences_eq_self_iff` — the texts that stay when references are replaced
* `embedText_eq_self_iff` — the texts that stay when they are brought into a context
-/

namespace ComponentCompiler

namespace Script

/-- The dots of a text. -/
def dots (text : List Char) : Nat :=
  text.count '.'

@[simp] theorem dots_nil : dots [] = 0 := rfl

@[simp] theorem dots_append (front back : List Char) :
    dots (front ++ back) = dots front + dots back :=
  List.count_append

theorem dots_cons (c : Char) (rest : List Char) :
    dots (c :: rest) = dots rest + if c = '.' then 1 else 0 := by
  simp [dots, List.count_cons]

/-! ### References -/

/-- The name of a container. -/
def Container.name : Container → List Char
  | .state => "state".toList
  | .props => "props".toList

theorem Container.eq_name_of_ofName? {name : List Char} {container : Container}
    (known : Container.ofName? name = some container) : name = container.name := by
  unfold Container.ofName? at known
  split at known
  · next same =>
    cases known
    exact same
  · split at known
    · next same =>
      cases known
      exact same
    · cases known

variable {qualifyProps : Bool}

/-- A reference holds a dot before its member. -/
theorem Tree.dots_of_reference? {tree : Tree} {reference : Reference}
    (found : tree.reference? = some reference) : dots reference.member < dots tree.text := by
  obtain ⟨object, rfl, -⟩ := Tree.eq_member_of_reference? found
  simp [dots_cons]
  omega

/-- The text that stands for a reference has fewer dots than the reference, unless they are the
same. -/
theorem Tree.dots_localText {tree : Tree} {reference : Reference}
    (found : tree.reference? = some reference) :
    reference.localText qualifyProps = tree.text ∨
      dots (reference.localText qualifyProps) < dots tree.text := by
  have fewer := Tree.dots_of_reference? found
  obtain ⟨object, rfl, objectIs⟩ := Tree.eq_member_of_reference? found
  obtain ⟨container, member⟩ := reference
  cases container with
  | state => exact .inr fewer
  | props =>
    cases qualifyProps with
    | false => exact .inr fewer
    | true =>
      rcases objectIs with ⟨name, rfl, known⟩ | ⟨inner, innerFound, known⟩
      · left
        obtain rfl := Container.eq_name_of_ofName? known
        simp [Reference.localText, Container.name]
      · right
        have innerDots := Tree.dots_of_reference? innerFound
        have qualified : dots (Reference.localText true ⟨.props, member⟩) = dots member + 1 := by
          simp [Reference.localText, dots_cons]
        rw [qualified]
        simp [dots_cons]
        omega

/-- A piece becomes a text with fewer dots, unless it stays. -/
def Piece.Shrinks (qualifyProps : Bool) (piece : Piece) : Prop :=
  piece.localText qualifyProps = piece.text ∨
    dots (piece.localText qualifyProps) < dots piece.text

mutual

theorem Tree.shrinks_of_mem_pieces : (tree : Tree) → ∀ piece ∈ tree.pieces,
    piece.Shrinks qualifyProps
  | .token kind text, piece, member => by
    obtain rfl : piece = .verbatim text := by simpa [Tree.pieces] using member
    exact .inl rfl
  | .node form children, piece, member => by
    unfold Tree.pieces at member
    split at member
    · next reference found =>
      obtain rfl := List.mem_singleton.1 member
      rw [← Tree.text_node form children]
      exact Tree.dots_localText found
    · exact shrinks_of_mem_piecesOf children piece member

theorem shrinks_of_mem_piecesOf : (row : List Tree) → ∀ piece ∈ piecesOf row,
    piece.Shrinks qualifyProps
  | [], piece, member => by simp [piecesOf] at member
  | tree :: rest, piece, member => by
    rw [piecesOf, List.mem_append] at member
    rcases member with here | later
    · exact Tree.shrinks_of_mem_pieces tree piece here
    · exact shrinks_of_mem_piecesOf rest piece later

end

theorem dots_localPieces {pieces : List Piece}
    (shrinks : ∀ piece ∈ pieces, piece.Shrinks qualifyProps) :
    dots (pieces.flatMap (Piece.localText qualifyProps)) ≤ dots (pieces.flatMap Piece.text) ∧
      (dots (pieces.flatMap (Piece.localText qualifyProps)) = dots (pieces.flatMap Piece.text) →
        ∀ piece ∈ pieces, piece.localText qualifyProps = piece.text) := by
  induction pieces with
  | nil => simp
  | cons piece rest ih =>
    obtain ⟨fewer, same⟩ := ih fun other member => shrinks other (List.mem_cons_of_mem _ member)
    simp only [List.flatMap_cons, dots_append]
    rcases shrinks piece List.mem_cons_self with stays | less
    · rw [stays]
      refine ⟨by omega, fun total other member => ?_⟩
      rcases List.mem_cons.1 member with rfl | later
      · exact stays
      · exact same (by omega) other later
    · refine ⟨by omega, fun total => ?_⟩
      omega

/-- Replacing references adds no dots to a text, and keeps their number only if every reference
stays. -/
theorem dots_localizeReferences (qualifyProps : Bool) (code : List Char) :
    dots (localizeReferences qualifyProps code) ≤ dots code ∧
      (dots (localizeReferences qualifyProps code) = dots code →
        ∀ piece ∈ (Snippet.ofCode code).tree.pieces,
          piece.localText qualifyProps = piece.text) := by
  have covered : (Snippet.ofCode code).tree.pieces.flatMap Piece.text = code := by
    rw [Tree.text_pieces, Snippet.text_ofCode]
  have counted := dots_localPieces (@Tree.shrinks_of_mem_pieces qualifyProps
    (Snippet.ofCode code).tree)
  rw [covered] at counted
  exact counted

/-- The texts that stay when references are replaced are those whose references all stay. -/
theorem localizeReferences_eq_self_iff {code : List Char} :
    localizeReferences qualifyProps code = code ↔
      ∀ text target, Piece.reference text target ∈ (Snippet.ofCode code).tree.pieces →
        target.localText qualifyProps = text := by
  constructor
  · intro same text target member
    exact (dots_localizeReferences qualifyProps code).2 (by rw [same]) _ member
  · intro stays
    have covered : (Snippet.ofCode code).tree.pieces.flatMap Piece.text = code := by
      rw [Tree.text_pieces, Snippet.text_ofCode]
    refine Eq.trans (List.flatMap_congr ?_) covered
    intro piece member
    cases piece with
    | verbatim text => rfl
    | reference text target => exact stays text target member

/-! ### Keys -/

end Script

theorem Text.mem_joinWith {c separator : Char} {parts : List (List Char)}
    (member : c ∈ Text.joinWith separator parts) : c = separator ∨ ∃ part ∈ parts, c ∈ part := by
  induction parts with
  | nil => cases member
  | cons first rest ih =>
    cases rest with
    | nil => exact .inr ⟨first, List.mem_singleton_self first, member⟩
    | cons second others =>
      rw [Text.joinWith, List.mem_append, List.mem_cons] at member
      rcases member with here | rfl | later
      · exact .inr ⟨first, List.mem_cons_self, here⟩
      · exact .inl rfl
      · rcases ih later with same | ⟨part, known, inside⟩
        · exact .inl same
        · exact .inr ⟨part, List.mem_cons_of_mem _ known, inside⟩

theorem Text.dot_not_mem_hexDigits (count n : Nat) : '.' ∉ Text.hexDigits count n := by
  induction count generalizing n with
  | zero => simp [Text.hexDigits]
  | succ count ih =>
    have digit : ∀ value, value < 16 → Text.hexDigit value ≠ '.' := by decide
    have last := digit (n % 16) (Nat.mod_lt _ (by decide))
    simp only [Text.hexDigits, List.mem_append, List.mem_singleton, not_or]
    exact ⟨ih (n / 16), Ne.symm last⟩

theorem Json.eq_dot_of_mem_escapeCharacter {c : Char} (member : '.' ∈ Json.escapeCharacter c) :
    c = '.' := by
  have free (n : Nat) : '.' ∉ Json.unitEscape n := by
    simp [Json.unitEscape, Text.dot_not_mem_hexDigits]
  unfold Json.escapeCharacter at member
  split at member
  · exact (List.mem_singleton.1 member).symm
  · split at member
    all_goals try simp at member
    split at member
    · exact absurd member (free _)
    · rcases List.mem_append.1 member with high | low
      · exact absurd high (free _)
      · exact absurd low (free _)

/-- Only a dot is a dot in small letters. -/
theorem Naming.eq_dot_of_toLower {c : Char} (small : c.toLower = '.') : c = '.' := by
  unfold Char.toLower at small
  split at small
  · next capital =>
    have value := congrArg (fun c : Char => c.val.toNat) small
    have least : 65 ≤ c.val.toNat := UInt32.le_iff_toNat_le.1 capital.1
    have most : c.val.toNat ≤ 90 := UInt32.le_iff_toNat_le.1 capital.2
    have same : c.toNat = c.val.toNat := rfl
    simp [UInt32.toNat_add] at value
    omega
  · exact small

theorem Naming.dot_not_mem_kebabCase (name : String) : '.' ∉ (Naming.kebabCase name).toList := by
  intro member
  rw [Naming.kebabCase, String.toList_ofList] at member
  rcases Text.mem_joinWith member with same | ⟨part, known, inside⟩
  · exact absurd same (by decide)
  · obtain ⟨word, isWord, rfl⟩ := List.mem_map.1 known
    obtain ⟨c, inWord, small⟩ := List.mem_map.1 inside
    have isPart : Naming.isWordPart c = true := by
      have inName : c ∈ (Naming.words name.toList).flatten :=
        List.mem_flatten.2 ⟨word, isWord, inWord⟩
      rw [Naming.flatten_words] at inName
      exact (List.mem_filter.1 inName).2
    obtain rfl := eq_dot_of_toLower small
    revert isPart
    decide

namespace Script

/-- A renamed key has no dots. -/
theorem dots_quotedKey (key : List Char) : dots (quotedKey kebabKey key) = 0 := by
  refine List.count_eq_zero.2 fun member => ?_
  rw [quotedKey, Json.quoteText, String.toList_ofList, List.mem_cons, List.mem_append] at member
  rcases member with quote | inside | quote
  · exact absurd quote (by decide)
  · obtain ⟨c, inKey, escaped⟩ := List.mem_flatMap.1 inside
    obtain rfl := Json.eq_dot_of_mem_escapeCharacter escaped
    rw [String.toList_ofList] at inKey
    exact Naming.dot_not_mem_kebabCase _ inKey
  · simp at quote

mutual

/-- Renaming the keys of a literal adds no dots. -/
theorem Tree.dots_renameKeys : (tree : Tree) →
    dots (tree.renameKeys kebabKey).text ≤ dots tree.text
  | .token kind text => by simp [Tree.renameKeys]
  | .node form children => by
    cases form with
    | object => simpa [Tree.renameKeys] using dots_renameEntries children
    | _ => simp [Tree.renameKeys]

theorem dots_renameEntries : (row : List Tree) →
    dots (textOf (renameEntries kebabKey row)) ≤ dots (textOf row)
  | [] => by simp [renameEntries]
  | .token kind text :: rest => by
    have later := dots_renameEntries rest
    by_cases isEntry : kind = .shorthand
    · subst isEntry
      simp [renameEntries, dots_cons, dots_quotedKey]
      omega
    · simp [renameEntries, isEntry]
      omega
  | .node form children :: rest => by
    have here := dots_renamePair children
    have later := dots_renameEntries rest
    by_cases isPair : form = .pair
    · subst isPair
      simp [renameEntries]
      omega
    · simp [renameEntries, isPair]
      omega

theorem dots_renamePair : (row : List Tree) →
    dots (textOf (renamePair kebabKey row)) ≤ dots (textOf row)
  | [] => by simp [renamePair]
  | .token kind text :: rest => by
    have later := dots_renamePair rest
    by_cases isKey : kind = .propertyName
    · subst isKey
      simp [renamePair, dots_quotedKey]
      omega
    · simp [renamePair, isKey]
      omega
  | .node form children :: rest => by
    have here := dots_renameEntries children
    have later := dots_renamePair rest
    by_cases isObject : form = .object
    · subst isObject
      simp [renamePair]
      omega
    · simp [renamePair, isObject]
      omega

end

/-- Renaming the keys of a text adds no dots. -/
theorem dots_of_renameKeys {code renamed : List Char}
    (done : renameKeys kebabKey code = .renamed renamed) : dots renamed ≤ dots code := by
  simp only [renameKeys] at done
  split at done
  · cases done
  · split at done
    · cases done
    · next focus found =>
      have covered := Snippet.whole_expression? (Option.filter_eq_some_iff.1 found).1
      rw [Snippet.text_ofExpression, Focus.whole] at covered
      have fewer := Tree.dots_renameKeys focus.tree
      cases done
      rw [← covered]
      simp only [dots_append]
      omega

end Script

open Script

/-- A text with the keys of its object literal written for a context. -/
def keyed (context : Context) (text : List Char) : List Char :=
  if context == .markup && opensBrace text then
    match renameKeys kebabKey text with
    | .renamed hyphenated => hyphenated
    | .unreadable | .notAnObject => text
  else text

theorem dots_keyed (context : Context) (text : List Char) : dots (keyed context text) ≤ dots text := by
  unfold keyed
  split
  · split
    · next done => exact dots_of_renameKeys done
    · exact Nat.le_refl _
    · exact Nat.le_refl _
  · exact Nat.le_refl _

/-- Code is brought into a context in two steps: its references are replaced, and then its keys are
written for the context. -/
theorem code_embedText (context : Context) (code : String) :
    (embedText context code).code =
      String.ofList (keyed context (localizeReferences (context == .setup) code.toList)) := by
  simp only [embedText, keyed]
  split
  · split <;> next done => simp [done, Embedded.ofChange]
  · rfl

/-- A text that has no reference and no key that would change in a context. -/
structure IsSettled (context : Context) (text : List Char) : Prop where
  references : ∀ written target,
    Piece.reference written target ∈ (Snippet.ofCode text).tree.pieces →
      target.localText (context == .setup) = written
  keys : keyed context text = text

/-- The texts that stay when they are brought into a context are the settled ones. -/
theorem embedText_eq_self_iff {context : Context} {code : String} :
    (embedText context code).code = code ↔ IsSettled context code.toList := by
  rw [code_embedText]
  constructor
  · intro same
    have stays : keyed context (localizeReferences (context == .setup) code.toList) = code.toList := by
      simpa using congrArg String.toList same
    -- The first step alone keeps the number of dots, so it changes nothing.
    obtain ⟨fewer, kept⟩ := dots_localizeReferences (context == .setup) code.toList
    have total : dots (localizeReferences (context == .setup) code.toList) = dots code.toList := by
      have still := dots_keyed context (localizeReferences (context == .setup) code.toList)
      rw [stays] at still
      omega
    have references : ∀ written target,
        Piece.reference written target ∈ (Snippet.ofCode code.toList).tree.pieces →
          target.localText (context == .setup) = written :=
      fun written target member => kept total _ member
    rw [localizeReferences_eq_self_iff.2 references] at stays
    exact ⟨references, stays⟩
  · intro settled
    rw [localizeReferences_eq_self_iff.2 settled.references, settled.keys, String.ofList_toList]

/-- Bringing code into a context a second time leaves it as it is exactly if what came of the first
time is settled. -/
theorem embedText_embedText_iff (context : Context) (code : String) :
    (embedText context (embedText context code).code).code = (embedText context code).code ↔
      IsSettled context (embedText context code).code.toList :=
  embedText_eq_self_iff

/-- A readable text that is not settled after the first time. It is read as statements at first, a
block and a regular expression; afterwards it is an expression that divides. -/
theorem embedText_embedText_ne :
    (Snippet.ofCode "{state.a}\n/state.x/g".toList).isFaulty = false ∧
      (embedText .setup "{state.a}\n/state.x/g").code = "{a}\n/state.x/g" ∧
      (embedText .setup "{a}\n/state.x/g").code = "{a}\n/x/g" := by
  decide +kernel

end ComponentCompiler

import Mathlib.Data.List.Nodup

/-!
# Changing a text through its bytes

A parser gives the places of a text as byte positions, so a text can be changed by splicing its
bytes. Each edit replaces a range of bytes, and edits that lie further back are made first: the
positions of the others stay right. A text that falls into parts, some of which are replaced, is
changed in the same way by the edits of its parts, whatever characters it holds and in whichever
order the edits are given. Only a part without text could spoil this: two edits that start at the
same place have no order.

## Main definitions

* `utf8` — the bytes of a text
* `Edit`, `applyEdits` — replace ranges of bytes, the later ones first
* `Part`, `editsFrom` — a part of a text, and the edits that replace the parts of a text

## Main results

* `disjoint_editsFrom` — the edits of the parts of a text do not overlap
* `applyEdits_of_perm` — the edits of its parts turn the bytes of a text into those of the new text
-/

namespace ComponentCompiler.Script

/-- The bytes of a text. -/
def utf8 (text : List Char) : List UInt8 :=
  text.flatMap String.utf8EncodeChar

@[simp] theorem utf8_append (front back : List Char) :
    utf8 (front ++ back) = utf8 front ++ utf8 back :=
  List.flatMap_append

theorem utf8_length_pos {text : List Char} (inside : text ≠ []) : 0 < (utf8 text).length := by
  cases text with
  | nil => exact absurd rfl inside
  | cons c rest =>
    have width := Char.utf8Size_pos c
    simp only [utf8, List.flatMap_cons, List.length_append, String.length_utf8EncodeChar]
    omega

/-- A range of bytes with the text that replaces it. -/
structure Edit where
  start : Nat
  stop : Nat
  text : List Char
deriving DecidableEq, Repr

/-- Replaces the range of an edit by its text. -/
def Edit.splice (bytes : List UInt8) (edit : Edit) : List UInt8 :=
  bytes.take edit.start ++ utf8 edit.text ++ bytes.drop edit.stop

/-- Makes the edits, those that start further back first. -/
def applyEdits (edits : List Edit) (bytes : List UInt8) : List UInt8 :=
  (edits.mergeSort fun edit other => other.start ≤ edit.start).foldl Edit.splice bytes

/-! ### The parts of a text -/

/-- A part of a text, with the text that replaces it if it is replaced. -/
structure Part where
  text : List Char
  replacement : Option (List Char)

/-- The text that stands for a part after the change. -/
def Part.newText (part : Part) : List Char :=
  part.replacement.getD part.text

/-- The edits that replace the parts of a text whose bytes start at the given position. -/
def editsFrom (start : Nat) : List Part → List Edit
  | [] => []
  | part :: rest =>
    let stop := start + (utf8 part.text).length
    (part.replacement.map (Edit.mk start stop)).toList ++ editsFrom stop rest

@[simp] theorem editsFrom_nil (start : Nat) : editsFrom start [] = [] := rfl

theorem editsFrom_append (start : Nat) (parts others : List Part) :
    editsFrom start (parts ++ others) =
      editsFrom start parts ++
        editsFrom (start + (utf8 (parts.flatMap Part.text)).length) others := by
  induction parts generalizing start with
  | nil => rfl
  | cons part rest ih => simp [editsFrom, ih, Nat.add_assoc]

/-- Making the edits from the last to the first changes the parts of the text, whatever stands in
front of them. -/
theorem foldr_splice_editsFrom (parts : List Part) (front : List UInt8) :
    (editsFrom front.length parts).foldr (fun edit bytes => edit.splice bytes)
        (front ++ utf8 (parts.flatMap Part.text)) =
      front ++ utf8 (parts.flatMap Part.newText) := by
  induction parts generalizing front with
  | nil => rfl
  | cons part rest ih =>
    -- The edits further back are made first, and to them this part belongs to the front.
    have later := ih (front ++ utf8 part.text)
    simp only [List.length_append, List.append_assoc] at later
    simp only [editsFrom, List.flatMap_cons, utf8_append, List.foldr_append, later]
    cases part with | mk text replacement =>
    cases replacement with
    | none => rfl
    | some new => simp [Edit.splice, Part.newText]

theorem le_start_of_mem_editsFrom {start : Nat} {parts : List Part} {edit : Edit}
    (member : edit ∈ editsFrom start parts) : start ≤ edit.start := by
  induction parts generalizing start with
  | nil => cases member
  | cons part rest ih =>
    rw [editsFrom, List.mem_append] at member
    rcases member with here | later
    · obtain ⟨new, -, rfl⟩ := Option.map_eq_some_iff.1 (Option.mem_toList.1 here)
      exact Nat.le_refl _
    · have := ih later
      omega

/-- The edits of the parts of a text replace ranges of bytes that do not overlap. -/
theorem disjoint_editsFrom (start : Nat) (parts : List Part) :
    (editsFrom start parts).Pairwise fun edit other => edit.stop ≤ other.start := by
  induction parts generalizing start with
  | nil => exact .nil
  | cons part rest ih =>
    rw [editsFrom]
    cases part.replacement with
    | none => exact ih _
    | some new =>
      exact List.pairwise_cons.2 ⟨fun other member => le_start_of_mem_editsFrom member, ih _⟩

/-- The edits of the parts of a text start one behind the other. -/
theorem pairwise_editsFrom {parts : List Part}
    (inside : ∀ part ∈ parts, part.replacement ≠ none → part.text ≠ []) (start : Nat) :
    (editsFrom start parts).Pairwise fun edit other => edit.start < other.start := by
  induction parts generalizing start with
  | nil => exact .nil
  | cons part rest ih =>
    have later := ih (fun other member => inside other (List.mem_cons_of_mem _ member))
      (start + (utf8 part.text).length)
    rw [editsFrom]
    cases replaced : part.replacement with
    | none => simpa using later
    | some new =>
      have width := utf8_length_pos (inside part List.mem_cons_self (by simp [replaced]))
      refine List.pairwise_cons.2 ⟨fun other member => ?_, later⟩
      have := le_start_of_mem_editsFrom member
      simp only
      omega

/-- Edits that start one behind the other are made from the last to the first. -/
theorem mergeSort_of_perm {edits ordered : List Edit} (same : edits.Perm ordered)
    (ascending : ordered.Pairwise fun edit other => edit.start < other.start) :
    (edits.mergeSort fun edit other => other.start ≤ edit.start) = ordered.reverse := by
  have sorted : (edits.mergeSort fun edit other => other.start ≤ edit.start).Pairwise
      fun edit other => decide (other.start ≤ edit.start) = true :=
    List.pairwise_mergeSort (fun _ _ _ first second => by simp at *; omega)
      (fun _ _ => by simp; omega) edits
  have descending : (edits.mergeSort fun edit other => other.start ≤ edit.start).Pairwise
      fun edit other => other.start ≤ edit.start :=
    sorted.imp of_decide_eq_true
  have reversed : ordered.reverse.Pairwise fun edit other => other.start ≤ edit.start :=
    List.pairwise_reverse.2 (ascending.imp Nat.le_of_lt)
  have moved := (List.mergeSort_perm edits fun edit other => other.start ≤ edit.start).trans same
  refine List.Perm.eq_of_pairwise ?_ descending reversed
    (moved.trans (List.reverse_perm ordered).symm)
  -- Edits that start at the same place are the same.
  intro edit other member held least most
  have distinct : (ordered.map Edit.start).Nodup :=
    List.pairwise_map.2 (ascending.imp Nat.ne_of_lt)
  exact List.inj_on_of_nodup_map distinct (moved.subset member) (List.mem_reverse.1 held)
    (Nat.le_antisymm most least)

/-- The edits of its parts, in whichever order they are given, turn the bytes of a text into the
bytes of the new text. -/
theorem applyEdits_of_perm {parts : List Part} {edits : List Edit}
    (inside : ∀ part ∈ parts, part.replacement ≠ none → part.text ≠ [])
    (same : edits.Perm (editsFrom 0 parts)) :
    applyEdits edits (utf8 (parts.flatMap Part.text)) = utf8 (parts.flatMap Part.newText) := by
  rw [applyEdits, mergeSort_of_perm same (pairwise_editsFrom inside 0), List.foldl_reverse]
  exact foldr_splice_editsFrom parts []

end ComponentCompiler.Script

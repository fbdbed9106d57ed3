import ComponentCompiler.Proofs.Script.Tandem

/-!
# Words that two cursors see

Rules decide by the next word, and sometimes by what follows it. Where a name must stand, two
cursors side by side see the same word with the same text behind it. Where an operand may start, the
one in the source can see a container in place of the member that the other one sees; a word that
cannot stand for itself is seen by both or by none.

## Main definitions

* `Agrees`, `Bares` — the same word comes next, or a container in place of its member

## Main results

* `Faces.words` — one of the two holds where an operand may start
* `Tracks.whenSees`, `Tracks.whenWord`, `Tracks.whenName` — decisions by what comes next
-/

namespace ComponentCompiler.Script

variable {source target : List Char} {s : Setting} {place onto middle : Place}

/-! ### Words that both cursors see -/

theorem Cursor.front_eq_or (c : Cursor source) (place : Place) :
    c.front place = place ∨ c.front place = .operand := by
  unfold Cursor.front
  split
  · exact .inr rfl
  · exact .inl rfl

/-- Two words at the front, with what follows them. -/
theorem Cursor.afterWord_of_split {c : Cursor source} (written : c.IsWritten) {token rest : List Char}
    (split : c.rest = token ++ rest) (whole : wordLength (token ++ rest) = token.length) :
    c.word = token ∧ c.afterWord = skipTrivia rest ∧ c.wordEndsLine = startsInNewLine rest := by
  have word : c.word = token := by
    rw [Cursor.word, written.upcoming, split, whole, List.take_left]
  have drop : c.rest.drop token.length = rest := by rw [split, List.drop_left]
  refine ⟨word, ?_, ?_⟩
  · rw [afterWord, word, lookahead.eq_def]
    split
    · next opening => exact absurd opening written.entered
    · rw [drop]
  · rw [wordEndsLine, word, drop]
    rfl

/-- The next word of the source is a container, and the member that replaces it is the next word of
the target. -/
structure Bares (c : Cursor source) (d : Cursor target) : Prop where
  container : isContainerName c.word = true
  point : ∃ after, c.afterWord = '.' :: after
  name : d.word ≠ []
  sturdy : isFragile d.word = false
  arrow : startsWith ['=', '>'] d.afterWord = false
  sameLine : d.wordEndsLine = false → wordAfter d.afterWord = [] ∨
    wordAfter d.afterWord = "in".toList ∨ wordAfter d.afterWord = "instanceof".toList ∨
    wordAfter d.afterWord = "of".toList ∧
      startsWith ['=', '>'] (skipTrivia (d.afterWord.drop 2)) = false

/-- The same word comes next in both texts. -/
structure Agrees (c : Cursor source) (d : Cursor target) : Prop where
  word : d.word = c.word
  after : Shortened .operand c.afterWord d.afterWord
  line : d.wordEndsLine = c.wordEndsLine

namespace Faces

variable {c : Cursor source} {d : Cursor target}

theorem of_name (faces : Faces s .name c d) (place : Place) : Faces s place c d := by
  refine ⟨faces.toBeside, ?_⟩
  have text := faces.text
  unfold Cursor.front at text ⊢
  split
  · next opening => rwa [if_pos opening] at text
  · next entered =>
    rw [if_neg entered] at text
    exact text.of_name place

theorem word_eq (faces : Faces s .name c d) : d.word = c.word := by
  change wordAfter d.upcoming = wordAfter c.upcoming
  generalize c.upcoming = old, d.upcoming = new, faces.upcoming = short
  cases short.fronts (by decide) with
  | none before after => rw [wordAfter, wordAfter, before, after, List.take_zero, List.take_zero]
  | word _ before after => rw [Shortened.wordAfter_whole before, Shortened.wordAfter_whole after]
  | bare here => exact absurd rfl here

theorem seesWord (faces : Faces s .operand c d) {text : String}
    (fragile : isFragile text.toList = true) : d.seesWord text = c.seesWord text := by
  rw [Cursor.seesWord, Cursor.seesWord, Bool.eq_iff_iff, beq_iff_eq, beq_iff_eq]
  exact faces.upcoming.wordAfter_eq_iff (.inr fragile)

theorem seesName (faces : Faces s .name c d) (text : String) : d.seesWord text = c.seesWord text := by
  rw [Cursor.seesWord, Cursor.seesWord, faces.word_eq]

theorem word_eq_nil_iff (faces : Faces s .operand c d) : d.word = [] ↔ c.word = [] :=
  faces.upcoming.wordAfter_eq_iff (.inl rfl)

theorem word_isEmpty (faces : Faces s .operand c d) : d.word.isEmpty = c.word.isEmpty := by
  rw [Bool.eq_iff_iff, List.isEmpty_iff, List.isEmpty_iff]
  exact faces.word_eq_nil_iff

theorem isReserved_word (faces : Faces s .operand c d) : isReserved d.word = isReserved c.word :=
  faces.upcoming.isReserved_wordAfter

theorem seesIdentifier (faces : Faces s .operand c d) : d.seesIdentifier = c.seesIdentifier := by
  rw [Cursor.seesIdentifier, Cursor.seesIdentifier, faces.word_isEmpty, faces.isReserved_word]

/-- The words at the front are the same, or one is a container and the other its member. -/
theorem fronts (faces : Faces s place c d) (plain : place ≠ .literal) (nonempty : c.word ≠ []) :
    Agrees c d ∨ place ≠ .name ∧ (place ≠ .tag → Bares c d) := by
  have written := Cursor.isWritten_of_word nonempty
  have text := faces.text
  rw [Cursor.front_of_ne written.entered] at text
  have newWritten : d.IsWritten := by
    refine Cursor.isWritten_of_rest (faces.enclosure ▸ written.entered) fun empty => nonempty ?_
    rw [Cursor.word, written.upcoming, text.nil_iff.2 empty]
    rfl
  generalize left : c.rest = old at text
  generalize newLeft : d.rest = new at text
  cases text.fronts plain with
  | none before =>
    refine absurd ?_ nonempty
    rw [Cursor.word, written.upcoming, left, before, List.take_zero]
  | word _ before after rest =>
    obtain ⟨word, behind, line⟩ := Cursor.afterWord_of_split written left before
    obtain ⟨newWord, newBehind, newLine⟩ := Cursor.afterWord_of_split newWritten newLeft after
    obtain ⟨gap, further, -⟩ := rest.splitTrivia (by decide)
    refine .inl ⟨newWord.trans word.symm, ?_, ?_⟩
    · rw [behind, newBehind]
      exact further
    · rw [line, newLine, startsInNewLine, startsInNewLine, gap]
  | bare here known named after safe =>
    refine .inr ⟨here, fun operand => ?_⟩
    obtain ⟨word, behind, -⟩ :=
      Cursor.afterWord_of_split written left (wordLength_container known _)
    obtain ⟨newWord, newBehind, newLine⟩ := Cursor.afterWord_of_split newWritten newLeft after
    obtain ⟨sturdy, follows⟩ := safe operand
    refine ⟨word ▸ known, ⟨_, behind.trans (skipTrivia_of_none rfl)⟩, newWord ▸ named,
      newWord ▸ sturdy, ?_, fun same => ?_⟩
    · rw [newBehind]
      exact follows.arrow
    · rw [newBehind]
      exact follows.word (newLine ▸ same)

theorem words (faces : Faces s .operand c d) (nonempty : c.word ≠ []) : Agrees c d ∨ Bares c d :=
  (faces.fronts (by decide) nonempty).imp_right fun ⟨_, bares⟩ => bares (by decide)

theorem agrees (faces : Faces s .name c d) (nonempty : c.word ≠ []) : Agrees c d :=
  (faces.fronts (by decide) nonempty).resolve_right fun ⟨other, _⟩ => other rfl

end Faces

/-! ### Steps of rules -/

theorem Cursor.not_startsComment {c : Cursor source} (other : c.next ≠ ['/'])
    (written : c.IsWritten) : startsComment c.rest = false := by
  by_contra comment
  rw [Bool.not_eq_false, ← written.upcoming] at comment
  exact other (punctuatorAt_of_startsComment comment)

theorem Cursor.word_ne_nil_of_sees {c : Cursor source} {text : String} (nonempty : text.toList ≠ [])
    (sees : c.seesWord text = true) : c.word ≠ [] := by
  rw [beq_iff_eq.1 sees]
  exact nonempty

namespace Tracks

variable {c : Cursor source} {d : Cursor target}
  {result other : Option (Cursor source)} {newResult newOther : Option (Cursor target)}

/-- A rule that starts with a name may be called anywhere. -/
theorem of_name (tracks : Tracks s .name onto c result d newResult) :
    Tracks s place onto c result d newResult := by
  intro e reached
  obtain ⟨ended, back⟩ := tracks e reached
  exact ⟨ended, fun placed => ⟨(back placed).1.of_name place, (back placed).2⟩⟩

/-- What follows an operand may be a name. -/
theorem to_name (tracks : Tracks s place .operand c result d newResult) :
    Tracks s place .name c result d newResult := by
  intro e reached
  obtain ⟨ended, back⟩ := tracks e reached
  exact ⟨ended.change (by decide) (by decide), fun placed => back (placed.of_name .operand)⟩

theorem mono (tracks : Tracks s place onto c result d newResult)
    (more : ∀ f ∈ newResult, f ∈ newOther) : Tracks s place onto c result d newOther := by
  intro e reached
  obtain ⟨ended, back⟩ := tracks e reached
  refine ⟨ended, fun placed => ⟨(back placed).1, fun beside => ?_⟩⟩
  obtain ⟨f, found, met⟩ := (back placed).2 beside
  exact ⟨f, more f found, met⟩

/-- The operator that comes next. -/
theorem pass (text : String) (sound : c.IsSound place)
    (known : text.toList ≠ [] ∧ text.toList ≠ ['/']) (sees : c.sees text = true) :
    Tracks s place .operand c (some c.shiftNext) d (some d.shiftNext) := by
  have next : c.next = text.toList := beq_iff_eq.1 sees
  exact shiftNext sound (next ▸ known.1) (Cursor.not_startsComment (next ▸ known.2))

/-- An operator, and what follows it. -/
theorem whenSees {text : String} (sound : c.IsSound place)
    (known : text.toList ≠ [] ∧ text.toList ≠ ['/'])
    (onward : c.shiftNext.IsSound .operand →
      Tracks s .operand onto c.shiftNext result d.shiftNext newResult)
    (otherwise : c.sees text = false → Tracks s place onto c other d newOther) :
    Tracks s place onto c (if c.sees text = true then result else other) d
      (if d.sees text = true then newResult else newOther) :=
  ite (fun faces => faces.sees text) (fun sees => (pass text sound known sees).through onward) otherwise

theorem expect {text : String} (sound : c.IsSound place)
    (known : text.toList ≠ [] ∧ text.toList ≠ ['/']) :
    Tracks s place .operand c (c.expect text) d (d.expect text) :=
  whenSees sound known here fun _ => none

/-- A word that means something here, and what follows it. -/
theorem whenWord {text : String} (sound : c.IsSound .operand)
    (fragile : isFragile text.toList = true)
    (onward : (c.shiftWord .keyword).IsSound .operand →
      Tracks s .operand onto (c.shiftWord .keyword) result (d.shiftWord .keyword) newResult)
    (otherwise : Tracks s .operand onto c other d newOther) :
    Tracks s .operand onto c (if c.seesWord text = true then result else other) d
      (if d.seesWord text = true then newResult else newOther) := by
  refine ite (fun faces => faces.seesWord fragile) (fun sees => ?_) fun _ => otherwise
  refine (shiftWord _ sound (Cursor.word_ne_nil_of_sees ?_ sees)).through onward
  intro none
  rw [none] at fragile
  cases fragile

/-- A word at a place for names, and what follows it. -/
theorem whenName {text : String} (sound : c.IsSound .name)
    (some : text.toList ≠ [])
    (onward : (c.shiftWord .keyword).IsSound .operand →
      Tracks s .operand onto (c.shiftWord .keyword) result (d.shiftWord .keyword) newResult)
    (otherwise : Tracks s .name onto c other d newOther) :
    Tracks s .name onto c (if c.seesWord text = true then result else other) d
      (if d.seesWord text = true then newResult else newOther) :=
  ite (fun faces => faces.seesName text)
    (fun sees => (shiftWord _ sound (Cursor.word_ne_nil_of_sees some sees)).through onward)
    fun _ => otherwise

theorem expectWord {text : String} (sound : c.IsSound .name) (some : text.toList ≠ []) :
    Tracks s place .operand c (c.expectWord text) d (d.expectWord text) :=
  of_name (whenName sound some here none)

theorem expectIdentifier (sound : c.IsSound .name) :
    Tracks s place .operand c c.expectIdentifier d d.expectIdentifier := by
  refine of_name (ite (fun faces => (faces.of_name .operand).seesIdentifier) (fun sees => ?_)
    fun _ => none)
  refine shiftWord _ sound fun empty => ?_
  rw [Cursor.seesIdentifier, empty] at sees
  cases sees

end Tracks

end ComponentCompiler.Script

import ComponentCompiler.Page.ClientScript
import ComponentCompiler.Proofs.Format.NormalForm
import ComponentCompiler.Proofs.Markup.Appearance
import ComponentCompiler.Proofs.Markup.EmbeddedCode
import ComponentCompiler.Proofs.Script.Lexical

/-!
# The delimiters behind embedded code

Code stands in front of a character that the compiler adds: the brace of a dynamic text, of an
attribute or of inner content, the parenthesis around spread values, and the semicolon of a hook.
This character is meant for what encloses the code. It is a token of its own unless the code ends in
a comment that reaches up to the end of its line: then it has become a part of the comment, with all
that follows it on the line.

## Main definitions

* `Page.Delimits` — the places where the compiler adds a character right behind code
* `Page.StandsAlone`, `Page.IsSwallowed` — the two things that can become of it

## Main results

* `Page.Delimits.outcome` — the compiler writes the code, and the character right behind it
* `Page.delimiter_standsAlone_iff` — when the character is a token of its own
* `Page.swallowed_brace` — a dynamic text that is never closed
-/

namespace ComponentCompiler

/-! ### Indenting with a further character -/

namespace Text

theorem isBlank_of_isLineBreak {c : Char} (ends : isLineBreak c = true) : isBlank c = true := by
  simp only [isLineBreak, isBlank, Bool.or_eq_true, Bool.and_eq_true, decide_eq_true_eq,
    beq_iff_eq] at ends ⊢
  omega

/-- A character right behind a text that does not end in a blank goes to its last line. -/
theorem keepLines_concat {text : List Char} {c d : Char} (last : text.getLast? = some c)
    (solid : isBlank c = false) (onward : isLineBreak d = false) :
    ∃ front line, keepLines text = front ++ [line] ∧ c ∈ line ∧
      keepLines (text ++ [d]) = front ++ [line ++ [d]] := by
  -- The further character makes no line end with a carriage return in front of it.
  have apart {first : Char} {rest : List Char}
      (plain : ∀ after, first = '\r' → rest = '\n' :: after → False) :
      ∀ after, first = '\r' → rest ++ [d] = '\n' :: after → False := by
    intro after isReturn same
    cases rest with
    | nil =>
      cases same
      cases onward
    | cons x rest =>
      cases same
      exact plain rest isReturn rfl
  fun_induction keepLines text with
  | case1 => cases last
  | case2 rest ih =>
    have some : rest ≠ [] := by
      rintro rfl
      cases last
      cases solid
    rw [List.getLast?_cons_cons, List.getLast?_cons_of_ne_nil some] at last
    obtain ⟨front, line, lines, member, more⟩ := ih last
    exact ⟨['\r', '\n'] :: front, line, by simp [lines], member, by simp [keepLines, more]⟩
  | case3 first rest plain ends ih =>
    have some : rest ≠ [] := by
      rintro rfl
      obtain rfl : first = c := Option.some.inj last
      rw [isBlank_of_isLineBreak ends] at solid
      cases solid
    rw [List.getLast?_cons_of_ne_nil some] at last
    obtain ⟨front, line, lines, member, more⟩ := ih last
    refine ⟨[first] :: front, line, by simp [lines], member, ?_⟩
    rw [List.cons_append, keepLines.eq_3 _ _ (apart plain), if_pos ends, more, List.cons_append]
  | case4 first rest plain ends ih =>
    rw [List.cons_append, keepLines.eq_3 _ _ (apart plain), if_neg ends]
    cases rest with
    | nil =>
      obtain rfl : first = c := Option.some.inj last
      exact ⟨[], [first], rfl, List.mem_singleton_self first, by
        simp [keepLines, onward, consToFirst]⟩
    | cons next rest =>
      rw [List.getLast?_cons_cons] at last
      obtain ⟨front, line, lines, member, more⟩ := ih last
      rw [lines, more]
      cases front with
      | nil => exact ⟨[], first :: line, rfl, List.mem_cons_of_mem _ member, rfl⟩
      | cons other front => exact ⟨(first :: other) :: front, line, rfl, member, rfl⟩

/-- A character right behind a text that does not end in a blank is not indented. -/
theorem indent_concat {text : List Char} {c d : Char} (last : text.getLast? = some c)
    (solid : isBlank c = false) (onward : isLineBreak d = false) (margin : List Char) :
    indent margin (text ++ [d]) = indent margin text ++ [d] := by
  obtain ⟨front, line, lines, member, more⟩ := keepLines_concat last solid onward
  have some {line : List Char} (member : c ∈ line) : indentLine margin line = margin ++ line := by
    have kept : isBlankText line = false := by
      simp only [isBlankText, List.all_eq_false]
      exact ⟨c, member, by simp [solid]⟩
    simp [indentLine, kept]
  simp [indent, lines, more, some member, some (List.mem_append_left [d] member)]

end Text

namespace Page

open Script (Tree Token Snippet Lexes endsInLineComment isCloser isLineEnd readProgram)
open Markup (margin dynamicText bindingAttribute braced)

/-- The code of a hook as it stands in the script, without the semicolon. -/
def hookCode (hook : Hook) : List Char :=
  Text.trim (embed .markup (some hook.code)).code.toList

/-- The places where the compiler adds a character right behind code: the step that writes the code,
the code as it is written there, and the character. -/
inductive Delimits : Run String → List Char → Char → Prop
  | text {node : Node} {binding : Binding} (bound : node.bindings.get? textKey = some binding) :
      Delimits (dynamicText node) (embed .markup binding.code).code.toList '\x7d'
  | value {key : String} {binding : Binding} (name code : String)
      (single : binding.isSpread = false) (shown : key ≠ "ref") :
      Delimits (bindingAttribute name key binding code) (embed .markup (some code)).code.toList
        '\x7d'
  | spread {binding : Binding} (name key code : String) (spread : binding.isSpread = true) :
      Delimits (bindingAttribute name key binding code) (embed .markup (some code)).code.toList ')'
  | inner {node : Node} {code : String} (settings : Markup.Settings)
      (element : node.kind = .element) (content : node.name ∉ Markup.voidTags)
      (active : node.activeCode? "innerHTML" = some code) :
      Delimits (Markup.render settings node) (embed .markup (some code)).code.toList '\x7d'
  | hook {hook : Hook} (unclosed : (hookCode hook).getLast? ≠ some ';') :
      Delimits (hookStatement hook) (Text.indent margin.toList (hookCode hook)) ';'

variable {run : Run String} {code : List Char} {closer : Char}

theorem Delimits.isCloser (place : Delimits run code closer) : isCloser closer = true := by
  cases place <;> rfl

/-- A text around embedded code. -/
theorem outcome_around (code : Option String) {around : String → String} {front behind : List Char}
    (framed : ∀ text, (around text).toList = front ++ text.toList ++ behind) :
    ∃ text, (around <$> embedCode .markup code).outcome = .ok text ∧
      text.toList = front ++ (embed .markup code).code.toList ++ behind :=
  ⟨_, Run.outcome_map_ok (outcome_embedCode _ _) around, framed _⟩

/-- An attribute other than spread values ends in its code and a brace. -/
theorem exists_bindingAttribute_eq {key : String} {binding : Binding} (name code : String)
    (single : binding.isSpread = false) (shown : key ≠ "ref") :
    ∃ start, bindingAttribute name key binding code =
      (fun text => start ++ text ++ "\x7d") <$> embedCode .markup (some code) := by
  have starts {around : String → String} (start : String)
      (same : ∀ text, around text = start ++ text ++ "\x7d") :
      ∃ start, around <$> embedCode .markup (some code) =
        (fun text => start ++ text ++ "\x7d") <$> embedCode .markup (some code) :=
    ⟨start, congrArg (· <$> embedCode .markup (some code)) (funext same)⟩
  unfold bindingAttribute
  simp only [single, if_neg shown]
  by_cases event : Naming.isEvent key = true
  · simpa [event] using starts _ fun text => by
      simp only [Markup.eventAttribute, braced, ← String.append_assoc]
      rfl
  · by_cases inner : key = "innerHTML"
    · subst inner
      simpa [event] using starts (" set:html=" ++ "\x7b") fun text => by
        simp only [braced, String.append_assoc]
    · simpa [event, inner] using starts (" " ++ key ++ "=" ++ "\x7b") fun text => by
        simp only [braced, String.append_assoc]

/-- A hook whose code does not end in a semicolon gets one right behind it. -/
theorem outcome_hookStatement {hook : Hook} (unclosed : (hookCode hook).getLast? ≠ some ';') :
    ∃ text front, (hookStatement hook).outcome = .ok text ∧
      text.toList = front ++ Text.indent margin.toList (hookCode hook) ++ [';'] := by
  have closed : (closeStatement (Text.trimmed (embed .markup (some hook.code)).code)).toList =
      hookCode hook ++ [';'] := by
    have plain : (Text.trimmed (embed .markup (some hook.code)).code).toList = hookCode hook :=
      String.toList_ofList
    rw [closeStatement, plain, if_neg (by simpa using unclosed), String.toList_append, plain]
    rfl
  have yielded : (hookStatement hook).outcome =
      .ok (String.ofList (Text.indent margin.toList (hookCode hook ++ [';']))) := by
    rw [← closed]
    exact Run.outcome_bind_ok (outcome_embedCode _ _) _
  cases last : (hookCode hook).getLast? with
  | none =>
    rw [List.getLast?_eq_none_iff] at last
    rw [last] at yielded ⊢
    exact ⟨_, margin.toList, yielded, rfl⟩
  | some c =>
    have solid : Text.isBlank c = false := isBlank_of_getLast?_trimEnd last
    rw [Text.indent_concat last solid (by decide)] at yielded
    exact ⟨_, [], yielded, by rw [String.toList_ofList, List.nil_append]⟩

/-- The compiler writes the code, and the character right behind it. -/
theorem Delimits.outcome (place : Delimits run code closer) :
    ∃ text front behind, run.outcome = .ok text ∧
      text.toList = front ++ code ++ closer :: behind := by
  cases place with
  | @text node binding bound =>
    obtain ⟨text, yielded, same⟩ := @outcome_around binding.code braced ['\x7b'] ['\x7d']
      fun text => by simp [braced]
    exact ⟨text, _, [], by simpa [dynamicText, bound] using yielded, same⟩
  | value name code single shown =>
    obtain ⟨start, written⟩ := exists_bindingAttribute_eq name code single shown
    obtain ⟨text, yielded, same⟩ := @outcome_around (some code)
      (fun text => start ++ text ++ "\x7d") start.toList ['\x7d'] fun text => by simp
    exact ⟨text, _, [], written ▸ yielded, same⟩
  | spread name key code spread =>
    obtain ⟨text, yielded, same⟩ := @outcome_around (some code)
      (fun text => " " ++ braced ("...(" ++ text ++ ")")) " \x7b...(".toList [')', '\x7d']
      fun text => by simp [braced]
    exact ⟨text, _, ['\x7d'], by simpa [bindingAttribute, spread] using yielded, same⟩
  | @inner node code settings element content active =>
    obtain ⟨start, opened, -⟩ := Markup.outcome_opening settings node
    refine ⟨start ++ ">" ++ braced (embed .markup (some code)).code ++ "</" ++ node.name ++ ">",
      start.toList ++ ">\x7b".toList, ("</" ++ node.name ++ ">").toList, ?_, by simp [braced]⟩
    have solid : Markup.voidTags.contains node.name = false := by simpa using content
    simp only [Markup.render_eq, element, Run.outcome_bind_ok opened, Markup.elementBody, active,
      solid]
    exact Run.outcome_bind_ok (Run.outcome_bind_ok (outcome_embedCode _ _) _) _
  | hook unclosed =>
    obtain ⟨text, front, yielded, same⟩ := outcome_hookStatement unclosed
    exact ⟨text, front, [], yielded, same⟩

/-! ### What becomes of the character -/

/-- From the code on, the text has the tokens of the code, and then the character as a token of its
own. -/
def StandsAlone (tokens : List Token) (code : List Char) (closer : Char) (behind : List Char) :
    Prop :=
  Lexes (code ++ closer :: behind) (tokens ++ [⟨.punctuator, [closer]⟩]) behind

/-- From the code on, the text has the tokens of the code, but the last of them is a comment that
goes on with the character and the rest of the line. -/
def IsSwallowed (tokens : List Token) (code : List Char) (closer : Char) (behind : List Char) :
    Prop :=
  ∃ before comment, tokens = before ++ [⟨.comment, comment⟩] ∧
    Lexes (code ++ closer :: behind)
      (before ++ [⟨.comment, comment ++ closer :: behind.takeWhile (fun c => !isLineEnd c)⟩])
      (behind.dropWhile fun c => !isLineEnd c)

/-- The compiler writes the code with the character right behind it. The tree of code that follows
the grammar holds its tokens. Whatever tokens the code has and whatever follows later, the character
is a token of its own if the last token of the code is no comment up to the end of its line, and
only then. Otherwise it is a part of this comment. -/
theorem delimiter_standsAlone_iff (place : Delimits run code closer) :
    ∃ text front behind, run.outcome = .ok text ∧ text.toList = front ++ code ++ closer :: behind ∧
      (∀ enclosed tree, readProgram enclosed code = some tree → Lexes code tree.tokens []) ∧
      ∀ tokens back, Lexes code tokens [] →
        (StandsAlone tokens code closer (behind ++ back) ↔ endsInLineComment tokens = false) ∧
        (endsInLineComment tokens = true → IsSwallowed tokens code closer (behind ++ back)) := by
  obtain ⟨text, front, behind, yielded, same⟩ := place.outcome
  refine ⟨text, front, behind, yielded, same, fun _ _ => Script.lexes_readProgram, ?_⟩
  intro tokens back lexes
  exact ⟨lexes.closer_iff place.isCloser _, fun ends => lexes.swallowed ends place.isCloser _⟩

/-- A text that shows the value of the given code. -/
def shown (code : String) : Node :=
  ⟨"div", ∅, Dictionary.ofList [(textKey, Binding.ofCode code)], [], none, ∅, ∅, .dynamicText⟩

theorem delimits_shown (code : String) :
    Delimits (dynamicText (shown code)) (embed .markup (some code)).code.toList '\x7d' :=
  @Delimits.text (shown code) (Binding.ofCode code) (by rfl)

theorem outcome_shown (code : String) : (dynamicText (shown code)).outcome =
    .ok (braced (embed .markup (some code)).code) :=
  Run.outcome_bind_ok (outcome_embedCode .markup (some code)) _

/-- A comment that ends before the code does leaves the brace alone. -/
theorem standsAlone_closedNote :
    ∃ front behind, (dynamicText (shown "x /* note */")).outcome =
        .ok (String.ofList (front ++ "x /* note */".toList ++ '\x7d' :: behind)) ∧
      StandsAlone [⟨.identifier, ['x']⟩, ⟨.blank, [' ']⟩, ⟨.comment, "/* note */".toList⟩]
        "x /* note */".toList '\x7d' behind := by
  have written : (embed .markup (some "x /* note */")).code = "x /* note */" := by decide +kernel
  have place := delimits_shown "x /* note */"
  rw [written] at place
  obtain ⟨text, front, behind, yielded, same, reads, apart⟩ := delimiter_standsAlone_iff place
  have reading : (readProgram true "x /* note */".toList).map Tree.tokens =
      some [⟨.identifier, ['x']⟩, ⟨.blank, [' ']⟩, ⟨.comment, "/* note */".toList⟩] := by
    decide +kernel
  obtain ⟨tree, read, tokens⟩ := Option.map_eq_some_iff.1 reading
  have lexes := reads true tree read
  rw [tokens] at lexes
  have alone := (apart _ [] lexes).1.2 (by decide)
  rw [List.append_nil] at alone
  exact ⟨front, behind, by rw [yielded, ← same, String.ofList_toList], alone⟩

/-- A single expression with a note behind it: the brace that should close the text belongs to the
note. -/
theorem swallowed_brace :
    (Snippet.ofExpression "x // note".toList).expression?.isSome = true ∧
      (dynamicText (shown "x // note")).outcome = .ok "\x7bx // note\x7d" ∧
      ∃ tree, readProgram true "x // note".toList = some tree ∧
        ¬StandsAlone tree.tokens "x // note".toList '\x7d' [] ∧
        IsSwallowed tree.tokens "x // note".toList '\x7d' [] := by
  have reading : (readProgram true "x // note".toList).map
      (fun tree => endsInLineComment tree.tokens) = some true := by
    decide +kernel
  obtain ⟨tree, read, ends⟩ := Option.map_eq_some_iff.1 reading
  have lexes := Script.lexes_readProgram read
  have written : (embed .markup (some "x // note")).code = "x // note" := by decide +kernel
  have yielded := outcome_shown "x // note"
  rw [written] at yielded
  refine ⟨by decide +kernel, yielded, tree, read, ?_, lexes.swallowed ends rfl []⟩
  rw [StandsAlone, lexes.closer_iff rfl, ends]
  decide

end Page

end ComponentCompiler

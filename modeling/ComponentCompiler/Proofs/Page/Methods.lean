import ComponentCompiler.Proofs.Page.LocalNames
import Mathlib.Data.List.Infix

/-!
# Methods that become functions

A state entry can hold the source of a method: a name, the parameters and the body, with the word
`async` in front if the method is asynchronous. The setup section declares it as a constant, and
there it has to be a function, with the word `function` before the name.

Whether the source is a method is told from its text, which may as well be that of a function or of
an arrow function. Some methods are mistaken for one of these and stay as they are: those whose name
starts with `function`, and those with an arrow anywhere in their parameters or their body. A method
of the name `async` is taken for an asynchronous one if a space follows, and an asynchronous method
is not seen as one if the white space after `async` does not start with a space.

## Main definitions

* `Page.Method` — the source of a method in its parts
* `Page.Method.function` — the function that the method stands for
* `Page.Method.IsPlain` — nothing in the source looks like something else than a method

## Main results

* `Page.functionOfMethod_code` — a method becomes its function exactly if it is plain
* `Page.declares_method_iff` — what the setup section declares for a method
* `Page.not_declares_callback` — a method with an arrow in its body that is declared as it is
-/

namespace ComponentCompiler.Page

open Script (isIdentifierPart isIdentifierStart wordLength wordTail runLength isHexDigit
  unicodeEscapeLength localizeReferences)

/-! ### The characters of words -/

/-- The characters that words are written with: those of identifiers, and those of escapes. -/
def isWordLetter (c : Char) : Bool :=
  isIdentifierPart c || c == '\\' || c == '\x7b' || c == '\x7d'

theorem isWordLetter_of_isHexDigit {c : Char} (digit : isHexDigit c = true) :
    isWordLetter c = true := by
  have lower : ∀ n, n < 128 → isHexDigit (Char.ofNat n) = true →
      isWordLetter (Char.ofNat n) = true := by
    decide +kernel
  have below : c.toNat < 128 := by
    simp only [isHexDigit, Script.isDigit, Bool.or_eq_true, Bool.and_eq_true,
      decide_eq_true_eq] at digit
    omega
  simpa [Char.ofNat_toNat] using lower c.toNat below (by simpa [Char.ofNat_toNat] using digit)

theorem isBlank_eq_false_of_isWordLetter {c : Char} (letter : isWordLetter c = true) :
    Text.isBlank c = false := by
  rw [← Bool.not_eq_true]
  intro blank
  simp only [isWordLetter, isIdentifierPart, isIdentifierStart, Script.isBlank, Script.isDigit,
    Text.isBlank, Bool.or_eq_true, Bool.and_eq_true, Bool.not_eq_true', Bool.or_eq_false_iff,
    Bool.and_eq_false_iff, beq_iff_eq, beq_eq_false_iff_ne, decide_eq_true_eq,
    decide_eq_false_iff_not] at letter blank
  rcases letter with (((⟨⟨⟨printable, -⟩, -⟩, solid⟩ | digit) | rfl) | rfl) | rfl
  · omega
  · omega
  all_goals
    revert blank
    decide

theorem of_mem_take_runLength {test : Char → Bool} {text : List Char} {c : Char}
    (member : c ∈ text.take (runLength test text)) : test c = true := by
  induction text with
  | nil => cases member
  | cons first rest ih =>
    unfold runLength at member
    split at member
    case isTrue passes =>
      rcases List.mem_cons.1 member with rfl | later
      · exact passes
      · exact ih later
    case isFalse => cases member

theorem isWordLetter_of_mem_escape {text : List Char} {c : Char}
    (member : c ∈ text.take (unicodeEscapeLength text)) : isWordLetter c = true := by
  have slash : isWordLetter '\\' = true := by decide
  have mark : isWordLetter 'u' = true := by decide
  have opening : isWordLetter '\x7b' = true := by decide
  have closing : isWordLetter '\x7d' = true := by decide
  have digits {rest : List Char} : ∀ c ∈ rest.take (runLength isHexDigit rest),
      isWordLetter c = true :=
    fun c inside => isWordLetter_of_isHexDigit (of_mem_take_runLength inside)
  unfold unicodeEscapeLength at member
  split at member
  case h_1 rest =>
    dsimp only at member
    split at member
    case isTrue closed =>
      simp only [Bool.and_eq_true, beq_iff_eq, List.head?_drop] at closed
      rw [List.take_succ_cons, List.take_succ_cons, List.take_succ_cons, List.take_add_one,
        closed.2] at member
      simp only [Option.toList_some, List.mem_cons, List.mem_append, List.not_mem_nil,
        or_false] at member
      rcases member with rfl | rfl | rfl | inside | rfl
      · exact slash
      · exact mark
      · exact opening
      · exact digits c inside
      · exact closing
    case isFalse => cases member
  case h_2 rest _ =>
    split at member
    case isTrue four =>
      simp only [List.take_succ_cons, List.mem_cons] at member
      rcases member with rfl | rfl | inside
      · exact slash
      · exact mark
      · exact digits c ((List.take_prefix_take_left four).subset inside)
    case isFalse => cases member
  case h_3 => cases member

theorem isWordLetter_of_mem_wordTail {passed : Nat} {text : List Char} {c : Char}
    (before : ∀ c ∈ text.take passed, isWordLetter c = true)
    (member : c ∈ text.take (wordTail passed text)) : isWordLetter c = true := by
  fun_induction wordTail passed text with
  | case1 => cases member
  | case2 passed first rest ih =>
    rcases List.mem_cons.1 member with rfl | later
    · exact before _ (by simp)
    · exact ih (fun c inside => before c (by simp [inside])) later
  | case3 first rest part ih =>
    rcases List.mem_cons.1 member with rfl | later
    · simp [isWordLetter, part]
    · exact ih (by simp) later
  | case4 first rest part none => cases member
  | case5 first rest part n escape ih =>
    have escaped : ∀ c ∈ (first :: rest).take (n + 1), isWordLetter c = true := by
      rw [← Nat.succ_eq_add_one, ← escape]
      exact fun c => isWordLetter_of_mem_escape
    rcases List.mem_cons.1 member with rfl | later
    · exact escaped _ (by simp)
    · exact ih (fun c inside => escaped c (by simp [inside])) later

theorem isWordLetter_of_mem_take_wordLength {text : List Char} {c : Char}
    (member : c ∈ text.take (wordLength text)) : isWordLetter c = true := by
  unfold wordLength at member
  split at member
  · cases member
  · split at member
    · exact isWordLetter_of_mem_wordTail (by simp) member
    · cases member

theorem wordTail_eq_wordLength {text : List Char} (some : wordLength text ≠ 0) :
    wordTail 0 text = wordLength text := by
  unfold wordLength at some ⊢
  split
  case h_1 => rfl
  case h_2 c rest =>
    split
    case isTrue => rfl
    case isFalse other => simp [other] at some

/-- A word reaches at least as far as the identifier characters at its front. -/
theorem length_le_wordTail {front : List Char} (rest : List Char)
    (part : ∀ c ∈ front, isIdentifierPart c = true) :
    front.length ≤ wordTail 0 (front ++ rest) := by
  induction front with
  | nil => exact Nat.zero_le _
  | cons c others ih =>
    rw [List.cons_append, wordTail, if_pos (part c (by simp)), List.length_cons]
    exact Nat.succ_le_succ (ih fun c inside => part c (by simp [inside]))

/-! ### Parts of texts -/

theorem occursIn_iff {part text : List Char} : occursIn part text = true ↔ part <:+: text := by
  induction text with
  | nil => simp [occursIn]
  | cons c rest ih => simp [occursIn, ih, List.infix_cons_iff]

theorem infix_append_iff_of_not_mem {c : Char} {part front rest : List Char} (absent : c ∉ front) :
    c :: part <:+: front ++ rest ↔ c :: part <:+: rest := by
  induction front with
  | nil => rfl
  | cons first others ih =>
    rw [List.mem_cons, not_or] at absent
    rw [List.cons_append, List.infix_cons_iff, ih absent.2, List.cons_prefix_cons]
    simp [absent.1]

/-! ### The source of a method -/

/-- The source of a method in its parts. -/
structure Method where
  /-- White space before the method. -/
  margin : List Char := []
  /-- The white space after the word `async`, if the method is asynchronous. -/
  pause : Option (List Char) := none
  name : List Char
  /-- The parameters and the body, as they are written. -/
  signature : List Char
  margin_blank : Text.isBlankText margin = true := by decide
  pause_blank : ∀ gap ∈ pause, gap ≠ [] ∧ Text.isBlankText gap = true := by decide
  name_ne_nil : name ≠ [] := by decide
  /-- The name is the whole first word. -/
  name_whole : wordLength (name ++ signature) = name.length := by decide

namespace Method

/-- The word `async` with the white space after it, if the method is asynchronous. -/
def mark (method : Method) : List Char :=
  match method.pause with
  | none => []
  | some gap => "async".toList ++ gap

/-- The source of a method from its name on. -/
def title (method : Method) : List Char :=
  method.name ++ method.signature

/-- The source of a method. -/
def code (method : Method) : List Char :=
  method.margin ++ (method.mark ++ method.title)

/-- The function that a method stands for. -/
def function (method : Method) : List Char :=
  (if method.pause.isSome then asyncStart else []) ++ (functionWord ++ ' ' :: method.title)

/-- Nothing in the source of a method looks like something else than a method. -/
def IsPlain (method : Method) : Prop :=
  ¬ functionWord <+: method.name ∧
    match method.pause with
    | none => ¬ arrowSign <:+: method.signature ∧
        ¬ (method.name = "async".toList ∧ method.signature.head? = some ' ')
    | some gap => gap.head? = some ' '

variable (method : Method)

theorem isWordLetter_of_mem_name {c : Char} (member : c ∈ method.name) :
    isWordLetter c = true := by
  have first : c ∈ method.title.take (wordLength method.title) := by
    rwa [title, method.name_whole, List.take_left]
  exact isWordLetter_of_mem_take_wordLength first

theorem isBlank_eq_false_of_mem_name {c : Char} (member : c ∈ method.name) :
    Text.isBlank c = false :=
  isBlank_eq_false_of_isWordLetter (method.isWordLetter_of_mem_name member)

theorem exists_name_eq_cons : ∃ c others, method.name = c :: others ∧ Text.isBlank c = false := by
  obtain ⟨c, others, spelled⟩ := List.exists_cons_of_ne_nil method.name_ne_nil
  exact ⟨c, others, spelled, method.isBlank_eq_false_of_mem_name (spelled ▸ List.mem_cons_self)⟩

theorem trimStart_title : Text.trimStart method.title = method.title := by
  obtain ⟨first, others, spelled, solid⟩ := method.exists_name_eq_cons
  simp [Text.trimStart, title, spelled, solid]

/-- The front of the source is part of the name as far as it is made of identifier characters. -/
theorem prefix_name_of_prefix_title {front : List Char} (starts : front <+: method.title)
    (part : front.all isIdentifierPart = true) : front <+: method.name := by
  obtain ⟨rest, whole⟩ := starts
  have nonzero : wordLength method.title ≠ 0 := by
    rw [title, method.name_whole]
    exact mt List.length_eq_zero_iff.1 method.name_ne_nil
  have tail : wordTail 0 method.title = method.name.length :=
    (wordTail_eq_wordLength nonzero).trans method.name_whole
  refine List.prefix_of_prefix_length_le ⟨rest, whole⟩ (List.prefix_append _ _) ?_
  rw [← tail, ← whole]
  exact length_le_wordTail rest (List.all_eq_true.1 part)

/-- The source of a method that is not asynchronous starts as that of an asynchronous one just if
its name is `async` and a space follows. -/
theorem asyncStart_prefix_title_iff : asyncStart <+: method.title ↔
    method.name = "async".toList ∧ method.signature.head? = some ' ' := by
  constructor
  · intro starts
    have word : "async".toList <+: method.title :=
      (List.prefix_append "async".toList [' ']).trans starts
    obtain ⟨tail, spelled⟩ := method.prefix_name_of_prefix_title word (by decide)
    have space : [' '] <+: tail ++ method.signature := by
      refine (List.prefix_append_right_inj "async".toList).1 ?_
      rwa [← List.append_assoc, spelled]
    cases tail with
    | nil =>
      refine ⟨by simpa using spelled.symm, ?_⟩
      obtain ⟨rest, whole⟩ := space
      rw [List.nil_append] at whole
      rw [← whole]
      rfl
    | cons c others =>
      obtain ⟨rfl, -⟩ := List.cons_prefix_cons.1 space
      have inside : ' ' ∈ method.name := spelled ▸ by simp
      exact absurd (method.isBlank_eq_false_of_mem_name inside) (by decide)
  · rintro ⟨spelled, space⟩
    obtain ⟨rest, whole⟩ := List.head?_eq_some_iff.1 space
    rw [title, spelled, whole]
    exact ⟨rest, rfl⟩

theorem functionWord_prefix_title_iff :
    functionWord <+: method.title ↔ functionWord <+: method.name :=
  ⟨fun starts => method.prefix_name_of_prefix_title starts (by decide),
    fun starts => starts.trans (List.prefix_append _ _)⟩

theorem arrowSign_infix_title_iff :
    arrowSign <:+: method.title ↔ arrowSign <:+: method.signature := by
  refine infix_append_iff_of_not_mem fun inside => ?_
  exact absurd (method.isWordLetter_of_mem_name inside) (by decide)

/-- A method is never written as its function: what stands before the name holds the word
`function` only there. -/
theorem code_ne_function : method.code ≠ method.function := by
  intro same
  have white := method.margin_blank
  cases reading : method.pause with
  | none =>
    have lead : method.margin = functionWord ++ [' '] := by
      refine List.append_cancel_right (?_ : _ ++ method.title = _ ++ method.title)
      simpa only [code, function, mark, reading, List.nil_append, List.append_assoc,
        List.cons_append, Option.isSome_none, Bool.false_eq_true, if_false] using same
    rw [lead] at white
    exact absurd white (by decide)
  | some gap =>
    have lead : method.margin ++ ("async".toList ++ gap) = asyncStart ++ functionWord ++ [' '] := by
      refine List.append_cancel_right (?_ : _ ++ method.title = _ ++ method.title)
      simpa only [code, function, mark, reading, List.nil_append, List.append_assoc,
        List.cons_append, Option.isSome_some, if_true] using same
    cases edge : method.margin with
    | nil =>
      rw [edge] at lead
      have word : gap = ' ' :: functionWord ++ [' '] :=
        List.append_cancel_left (show "async".toList ++ gap = "async".toList ++ _ from lead)
      have gapWhite := (method.pause_blank gap reading).2
      rw [word] at gapWhite
      exact absurd gapWhite (by decide)
    | cons c rest =>
      rw [edge] at lead white
      obtain rfl : c = 'a' := (List.cons.inj lead).1
      simp [Text.isBlankText, show Text.isBlank 'a' = false by decide] at white

theorem trimStart_code : Text.trimStart method.code = method.mark ++ method.title := by
  rw [code, Text.trimStart_append_of_blank _ method.margin_blank]
  cases asynchronous : method.pause with
  | none => simpa [mark, asynchronous] using method.trimStart_title
  | some gap =>
    have solid : Text.isBlank 'a' = false := by decide
    simp [mark, asynchronous, Text.trimStart, solid]

end Method

/-- How a source is read, in terms of what stands in it. -/
theorem functionOfMethod_eq_ite (code : List Char) :
    functionOfMethod code =
      if asyncStart <+: Text.trimStart code ∧
          ¬ functionWord <+: Text.trimStart ((Text.trimStart code).drop asyncStart.length) then
        asyncStart ++ functionWord ++
          ' ' :: Text.trimStart ((Text.trimStart code).drop asyncStart.length)
      else if functionWord <+: Text.trimStart code ∨ asyncStart <+: Text.trimStart code ∨
          arrowSign <:+: Text.trimStart code then code
      else functionWord ++ ' ' :: Text.trimStart code := by
  simp only [functionOfMethod, Bool.and_eq_true, Bool.or_eq_true, Bool.not_eq_true',
    ← Bool.not_eq_true, List.isPrefixOf_iff_prefix, occursIn_iff, or_assoc]

namespace Method

variable {method : Method}

theorem functionOfMethod_of_synchronous (synchronous : method.pause = none) :
    functionOfMethod method.code = method.function ↔ method.IsPlain := by
  have text : Text.trimStart method.code = method.title := by
    rw [trimStart_code, mark, synchronous, List.nil_append]
  have target : method.function = functionWord ++ ' ' :: method.title := by
    simp [function, synchronous]
  have plain : method.IsPlain ↔ ¬ functionWord <+: method.title ∧ ¬ asyncStart <+: method.title ∧
      ¬ arrowSign <:+: method.title := by
    rw [functionWord_prefix_title_iff, asyncStart_prefix_title_iff, arrowSign_infix_title_iff]
    simp only [IsPlain, synchronous]
    exact and_congr Iff.rfl and_comm
  rw [functionOfMethod_eq_ite, text, plain]
  split
  case isTrue mistaken =>
    have other : asyncStart ++ functionWord ++
        ' ' :: Text.trimStart (method.title.drop asyncStart.length) ≠ method.function := by
      rw [target]
      exact fun same => absurd (List.cons.inj same).1 (by decide)
    exact iff_of_false other fun free => free.2.1 mistaken.1
  case isFalse =>
    split
    case isTrue mistaken =>
      refine iff_of_false method.code_ne_function fun free => ?_
      rcases mistaken with starts | starts | arrow
      · exact free.1 starts
      · exact free.2.1 starts
      · exact free.2.2 arrow
    case isFalse free => exact iff_of_true target.symm (by simpa only [not_or] using free)

theorem functionOfMethod_of_asynchronous {gap : List Char} (asynchronous : method.pause = some gap) :
    functionOfMethod method.code = method.function ↔ method.IsPlain := by
  obtain ⟨some, white⟩ := method.pause_blank gap asynchronous
  have text : Text.trimStart method.code = "async".toList ++ (gap ++ method.title) := by
    rw [trimStart_code, mark, asynchronous, List.append_assoc]
  have target : method.function = asyncStart ++ (functionWord ++ ' ' :: method.title) := by
    simp [function, asynchronous]
  obtain ⟨c, rest, rfl⟩ := List.exists_cons_of_ne_nil some
  have spaced : asyncStart <+: "async".toList ++ (c :: rest ++ method.title) ↔ c = ' ' := by
    rw [show asyncStart = "async".toList ++ [' '] from rfl, List.prefix_append_right_inj]
    simp [eq_comm]
  have after : Text.trimStart (("async".toList ++ (c :: rest ++ method.title)).drop
      asyncStart.length) = method.title := by
    have blank : Text.isBlankText rest = true := by
      simp only [Text.isBlankText, List.all_cons, Bool.and_eq_true] at white
      exact white.2
    exact (Text.trimStart_append_of_blank _ blank).trans method.trimStart_title
  have plain : method.IsPlain ↔ c = ' ' ∧ ¬ functionWord <+: method.title := by
    rw [functionWord_prefix_title_iff]
    simp [IsPlain, asynchronous, and_comm]
  simp only [functionOfMethod_eq_ite, text, after, spaced, plain]
  split
  case isTrue regular => exact iff_of_true (by rw [target, List.append_assoc]) regular
  case isFalse mistaken =>
    refine iff_of_false ?_ mistaken
    split
    case isTrue => exact method.code_ne_function
    case isFalse =>
      rw [target]
      exact fun same => absurd (List.cons.inj same).1 (by decide)

/-- A method becomes its function exactly if it is plain. -/
theorem functionOfMethod_code (method : Method) :
    functionOfMethod method.code = method.function ↔ method.IsPlain := by
  cases reading : method.pause with
  | none => exact functionOfMethod_of_synchronous reading
  | some gap => exact functionOfMethod_of_asynchronous reading

/-- The state entry that holds a method. -/
def entry (method : Method) : StateEntry where
  value := .string (String.ofList method.code)
  role := "method"

theorem holdsFunction_function (method : Method) : holdsFunction method.function = true := by
  simp only [holdsFunction, Bool.or_eq_true]
  left
  cases reading : method.pause with
  | none =>
    simp only [function, reading, Option.isSome_none, Bool.false_eq_true, if_false, List.nil_append]
    rfl
  | some gap =>
    simp only [function, reading, Option.isSome_some, if_true]
    rfl

end Method

/-! ### What is declared -/

/-- Code as it stands in the setup section. -/
def localized (code : List Char) : String :=
  String.ofList (localizeReferences true code)

/-- The declaration of a method. -/
def methodLine (key : String) (method : Method) : String :=
  declarationLine (if holdsFunction (functionOfMethod method.code) then "const" else "let") key
    (localized (functionOfMethod method.code))

theorem code_embed_setup (code : List Char) :
    (embed .setup (some (String.ofList code))).code = localized code := by
  have setup : (Context.setup == .markup) = false := rfl
  simp [embedText, Embedded.ofChange, localized, setup]

theorem outcome_stateDeclaration_method (key : String) (method : Method) :
    (stateDeclaration key method.entry).outcome = .ok (some (methodLine key method)) := by
  simp only [stateDeclaration, Method.entry, Run.outcome_bind_ok (outcome_embedCode _ _),
    Run.outcome_pure, String.toList_ofList, if_true, code_embed_setup, methodLine, declarationLine]

theorem methodLine_of_plain (key : String) {method : Method} (plain : method.IsPlain) :
    methodLine key method = declarationLine "const" key (localized method.function) := by
  rw [methodLine, (Method.functionOfMethod_code method).2 plain, method.holdsFunction_function,
    if_pos rfl]

/-- A state entry is declared in the setup section of its component. -/
theorem infix_of_stateDeclaration (options : Options) {component : Component} {key line : String}
    {entry : StateEntry} (stated : (key, entry) ∈ component.state.toList)
    (declared : (stateDeclaration key entry).outcome = .ok (some line)) :
    ∃ written, (ownSetup options component).outcome = .ok written ∧
      line.toList <:+: written.toList := by
  obtain ⟨stateText, initLines, stateWritten, -, written⟩ := outcome_ownSetup options component
  obtain ⟨text, textWritten, held⟩ := outcome_statePart component
  obtain rfl := Except.ok.inj (stateWritten.symm.trans textWritten)
  refine ⟨_, written, (held key entry line stated declared).trans (infix_intercalate ?_)⟩
  have some : component.state.isEmpty = false :=
    List.isEmpty_eq_false_iff.2 (List.ne_nil_of_mem stated)
  simp [some]

/-- The setup section declares a method with the function that the method stands for, but for the
references in it, exactly if the method is plain. The function is then declared as a constant. -/
theorem declares_method_iff (options : Options) {component : Component} {key : String}
    {method : Method} (stated : (key, method.entry) ∈ component.state.toList) :
    ∃ written, (ownSetup options component).outcome = .ok written ∧
      (stateDeclaration key method.entry).outcome = .ok (some (methodLine key method)) ∧
      (methodLine key method).toList <:+: written.toList ∧
      (functionOfMethod method.code = method.function ↔ method.IsPlain) ∧
      (method.IsPlain →
        methodLine key method = declarationLine "const" key (localized method.function)) := by
  have declared := outcome_stateDeclaration_method key method
  obtain ⟨written, setupWritten, line⟩ := infix_of_stateDeclaration options stated declared
  exact ⟨written, setupWritten, declared, line, method.functionOfMethod_code,
    methodLine_of_plain key⟩

/-- A component with a method. -/
def withMethod (key : String) (method : Method) : Component where
  name := "Counter"
  state := Dictionary.ofList [(key, method.entry)]

/-- A method that waits before it adds to the state. -/
def increment : Method where
  pause := some [' ']
  name := "increment".toList
  signature := "(by) { await ready(() => by); state.count += by }".toList

/-- The method becomes an asynchronous function, although there is an arrow in its body. -/
theorem declares_increment :
    let component := withMethod "increment" increment
    ("increment", increment.entry) ∈ component.state.toList ∧ increment.IsPlain ∧
      (ownSetup {} component).outcome.toOption =
        some ("// Component state\nconst increment = async function increment(by) " ++
          "\x7b await ready(() => by); count += by \x7d;") := by
  intro component
  have stated : ("increment", increment.entry) ∈ component.state.toList :=
    List.mem_singleton.2 rfl
  obtain ⟨written, -, -, -, plain, -⟩ := declares_method_iff {} stated
  exact ⟨stated, plain.1 (by decide +kernel), by decide +kernel⟩

/-- A method that calls its argument back. -/
def callback : Method where
  name := "go".toList
  signature := "() { return [1].map(x => x) }".toList

/-- The arrow in the body hides that the source is a method, and it is declared as it is. -/
theorem not_declares_callback :
    callback.function = "function go() { return [1].map(x => x) }".toList ∧
      (ownSetup {} (withMethod "m" callback)).outcome.toOption =
        some "// Component state\nconst m = go() { return [1].map(x => x) };" := by
  decide +kernel

end ComponentCompiler.Page

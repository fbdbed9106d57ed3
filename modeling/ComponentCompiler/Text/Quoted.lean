import ComponentCompiler.Text.Hexadecimal
import ComponentCompiler.Text.Printable

/-!
# Quoted texts in messages

A message shows a text between quotes, with every character that cannot be seen written as an
escape. Single quotes are used unless the text holds one and no double quote.

## Main definitions

* `quoteMark` — the quote that a text is shown in
* `quote` — a text in its quotes

## Main results

* `quote_of_plain` — a text of plain characters is shown as it is
-/

namespace ComponentCompiler.Text

/-- The quote that a text is shown in. -/
def quoteMark (text : List Char) : Char :=
  if text.contains '\'' && !text.contains '"' then '"' else '\''

/-- How a character of a text is shown between the given quotes. -/
def quoteCharacter (mark c : Char) : List Char :=
  if c = mark || c = '\\' then ['\\', c]
  else if c = '\n' then ['\\', 'n']
  else if c = '\r' then ['\\', 'r']
  else if c = '\t' then ['\\', 't']
  else if isPrintable c then [c]
  else if c.toNat < 0x100 then '\\' :: 'x' :: hexDigits 2 c.toNat
  else if c.toNat < 0x10000 then '\\' :: 'u' :: hexDigits 4 c.toNat
  else '\\' :: 'U' :: hexDigits 8 c.toNat

/-- A text in its quotes. -/
def quote (text : String) : String :=
  let mark := quoteMark text.toList
  String.ofList (mark :: (text.toList.flatMap (quoteCharacter mark) ++ [mark]))

/-- A character that a quoted text shows as it is in single quotes. -/
def isPlain (c : Char) : Bool :=
  c != '\'' && c != '\\' && isPrintable c && c != '\n' && c != '\r' && c != '\t'

theorem quoteCharacter_of_plain {c : Char} (plain : isPlain c = true) :
    quoteCharacter '\'' c = [c] := by
  simp only [isPlain, Bool.and_eq_true, bne_iff_ne, ne_eq] at plain
  obtain ⟨⟨⟨⟨⟨notQuote, notBackslash⟩, printable⟩, notFeed⟩, notReturn⟩, notTab⟩ := plain
  simp [quoteCharacter, notQuote, notBackslash, printable, notFeed, notReturn, notTab]

theorem quote_of_plain {text : String} (plain : text.toList.all isPlain = true) :
    quote text = "'" ++ text ++ "'" := by
  have noQuote : text.toList.contains '\'' = false := by
    simp only [List.all_eq_true] at plain
    simp only [List.contains_eq_mem, decide_eq_false_iff_not]
    intro member
    exact absurd (plain _ member) (by simp [isPlain])
  have single : quoteMark text.toList = '\'' := by
    unfold quoteMark
    rw [noQuote]
    rfl
  have shown : text.toList.flatMap (quoteCharacter '\'') = text.toList := by
    generalize text.toList = characters at plain
    induction characters with
    | nil => rfl
    | cons c rest ih =>
      simp only [List.all_cons, Bool.and_eq_true] at plain
      simp [quoteCharacter_of_plain plain.1, ih plain.2]
  apply String.toList_inj.1
  simp [quote, single, shown]

end ComponentCompiler.Text

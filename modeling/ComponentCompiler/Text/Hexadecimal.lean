/-!
# Hexadecimal digits

Code points and digests are written in hexadecimal digits with small letters.

## Main definitions

* `hexDigit` — the digit for a value below sixteen
* `hexDigits` — a number in a given count of digits
* `hexValue?` — the value of a digit

## Main results

* `length_hexDigits` — the count of digits is the one asked for
* `hexValue?_hexDigit` — a digit reads back as its value
-/

namespace ComponentCompiler.Text

/-- The hexadecimal digit for a value below sixteen. -/
def hexDigit (value : Nat) : Char :=
  if value < 10 then Char.ofNat (0x30 + value) else Char.ofNat (0x57 + value)

/-- The last digits of a number, as many as asked for. -/
def hexDigits : Nat → Nat → List Char
  | 0, _ => []
  | count + 1, n => hexDigits count (n / 16) ++ [hexDigit (n % 16)]

/-- The value of a hexadecimal digit, with a small or a capital letter. -/
def hexValue? (c : Char) : Option Nat :=
  let n := c.toNat
  if 0x30 ≤ n && n ≤ 0x39 then some (n - 0x30)
  else if 0x61 ≤ n && n ≤ 0x66 then some (n - 0x57)
  else if 0x41 ≤ n && n ≤ 0x46 then some (n - 0x37)
  else none

theorem length_hexDigits (count n : Nat) : (hexDigits count n).length = count := by
  induction count generalizing n with
  | zero => rfl
  | succ count ih => simp [hexDigits, ih]

theorem hexValue?_hexDigit {value : Nat} (small : value < 16) :
    hexValue? (hexDigit value) = some value := by
  have table : ∀ v, v < 16 → hexValue? (hexDigit v) = some v := by decide
  exact table value small

end ComponentCompiler.Text

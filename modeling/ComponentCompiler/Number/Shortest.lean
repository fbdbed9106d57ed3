import ComponentCompiler.Number.Binary64

/-!
# The shortest digits of a number

A finite number is written with the fewest decimal digits that read back as the same number, and of
several such digit strings with the one nearest to it. The numbers that read back are those of an
interval around it, whose ends belong to it if the significand is even.

For each count of digits the two neighbours of the number on the grid of that many digits are
tested, in exact arithmetic on integers.

## Main definitions

* `Interval` — the decimal fractions that read back as a number
* `shortestDigits` — the digits and the place of the point
* `Layout`, `Binary64.render` — how the digits are laid out
-/

namespace ComponentCompiler.Number

/-- A positive number with the interval of the fractions that read back as it. All are integers over
the common denominator. -/
structure Interval where
  lower : Nat
  value : Nat
  upper : Nat
  denominator : Nat
  closed : Bool

/-- The interval of a positive finite number. Below a power of two the numbers lie twice as
close. -/
def Interval.around (significand : Nat) (exponent : Int) : Interval :=
  let near := significand == powerOfTwo 52 && leastExponent < exponent
  let scale := if 0 ≤ exponent then powerOfTwo exponent.toNat else 1
  let denominator := 4 * if 0 ≤ exponent then 1 else powerOfTwo (-exponent).toNat
  { lower := (4 * significand - if near then 1 else 2) * scale
    value := 4 * significand * scale
    upper := (4 * significand + 2) * scale
    denominator := denominator
    closed := significand % 2 == 0 }

/-- Whether the fraction with the given numerator and denominator lies in the interval. -/
def Interval.contains (i : Interval) (numerator denominator : Nat) : Bool :=
  let low := i.lower * denominator
  let high := i.upper * denominator
  let point := numerator * i.denominator
  if i.closed then low ≤ point && point ≤ high else low < point && point < high

/-- The least number of zeros to put behind a positive fraction below one that makes it at least
one tenth, counted up from the given one. -/
def zerosBehindPoint (numerator denominator : Nat) : Nat → Nat → Nat
  | 0, count => count
  | fuel + 1, count =>
    if denominator ≤ numerator * powerOfTen (count + 1) then count
    else zerosBehindPoint numerator denominator fuel (count + 1)

/-- The place of the decimal point: the least power of ten above a positive fraction. -/
def pointPlace (numerator denominator : Nat) : Int :=
  if denominator ≤ numerator then ((Nat.toDigits 10 (numerator / denominator)).length : Int)
  else -(zerosBehindPoint numerator denominator 400 0 : Int)

/-- The numerator and denominator of a count of units of a power of ten. -/
def tenths (count : Nat) (power : Int) : Nat × Nat :=
  if 0 ≤ power then (count * powerOfTen power.toNat, 1) else (count, powerOfTen (-power).toNat)

/-- The count of units of a power of ten below the value of an interval. -/
def Interval.floor (i : Interval) (power : Int) : Nat :=
  if 0 ≤ power then i.value / (i.denominator * powerOfTen power.toNat)
  else i.value * powerOfTen (-power).toNat / i.denominator

/-- Twice the value of an interval in units of a power of ten, compared with an odd count of half
units. -/
def Interval.compareHalf (i : Interval) (halves : Nat) (power : Int) : Ordering :=
  if 0 ≤ power then compare (2 * i.value) (halves * i.denominator * powerOfTen power.toNat)
  else compare (2 * i.value * powerOfTen (-power).toNat) (halves * i.denominator)

/-- The count of units of a power of ten that reads back as the number and is nearest to it. -/
def Interval.nearest? (i : Interval) (power : Int) : Option Nat :=
  let below := i.floor power
  let reads := fun count =>
    let fraction := tenths count power
    i.contains fraction.1 fraction.2
  match reads below, reads (below + 1) with
  | true, true =>
    match i.compareHalf (2 * below + 1) power with
    | .lt => some below
    | .gt => some (below + 1)
    | .eq => some (if below % 2 = 0 then below else below + 1)
  | true, false => some below
  | false, true => some (below + 1)
  | false, false => none

/-- Digits with the place of the decimal point: the value is `0.d₁d₂…` times ten to that place. -/
structure Digits where
  digits : List Char
  point : Int
deriving DecidableEq, Repr

/-- Tries the counts of digits from the given one up. -/
def Interval.search (i : Interval) (point : Int) : Nat → Nat → Nat × Int
  | 0, count => (i.floor (point - count), point - count)
  | fuel + 1, count =>
    match i.nearest? (point - count) with
    | some units => (units, point - count)
    | none => i.search point fuel (count + 1)

/-- The characters of a list without the zeros at its end. -/
def dropEndZeros (digits : List Char) : List Char :=
  (digits.reverse.dropWhile (· == '0')).reverse

/-- The fewest digits that read back as a positive finite number. -/
def shortestDigits (significand : Nat) (exponent : Int) : Digits :=
  let i := Interval.around significand exponent
  let found := i.search (pointPlace i.value i.denominator) 17 1
  let digits := Nat.toDigits 10 found.1
  { digits := dropEndZeros digits, point := digits.length + found.2 }

/-- The choices in laying out the digits of a number. -/
structure Layout where
  /-- The point lies behind this place in all numbers written without an exponent. -/
  leastPoint : Int
  /-- The greatest place of the point in numbers written without an exponent. -/
  greatestPoint : Int
  /-- The least count of digits of an exponent. -/
  exponentDigits : Nat
  /-- The text of positive infinity. -/
  infinity : String
  /-- The text of the undefined value. -/
  undefined : String

/-- Puts zeros before digits up to the given count. -/
def padded (count : Nat) (digits : List Char) : List Char :=
  List.replicate (count - digits.length) '0' ++ digits

/-- Digits without an exponent, with at least one digit on each side of the point. -/
def Digits.positional (d : Digits) : List Char :=
  if d.point ≤ 0 then
    '0' :: '.' :: (List.replicate (-d.point).toNat '0' ++ d.digits)
  else
    let whole := d.point.toNat
    if d.digits.length ≤ whole then
      d.digits ++ List.replicate (whole - d.digits.length) '0' ++ ['.', '0']
    else d.digits.take whole ++ '.' :: d.digits.drop whole

/-- Digits with an exponent; the point is left out if nothing follows it. -/
def Digits.scientific (exponentDigits : Nat) (d : Digits) : List Char :=
  let exponent := d.point - 1
  let mark := if exponent < 0 then '-' else '+'
  let magnitude := padded exponentDigits (Nat.toDigits 10 exponent.natAbs)
  let fraction := if d.digits.length ≤ 1 then [] else '.' :: d.digits.drop 1
  d.digits.take 1 ++ fraction ++ 'e' :: mark :: magnitude

/-- The text of a number in a layout. -/
def Binary64.render (layout : Layout) : Binary64 → String
  | .undefined => layout.undefined
  | .infinite negative => (if negative then "-" else "") ++ layout.infinity
  | .finite negative significand exponent =>
    let d := if significand = 0 then ⟨['0'], 1⟩ else shortestDigits significand exponent
    let text :=
      if layout.leastPoint < d.point && d.point ≤ layout.greatestPoint then d.positional
      else d.scientific layout.exponentDigits
    String.ofList (if negative then '-' :: text else text)

end ComponentCompiler.Number

/-!
# Numbers in 64-bit binary floating point

A number with a point or an exponent is kept as the nearest number that 64 bits can hold: a
significand of at most 53 bits times a power of two, with a half-way case going to the even
significand. Numbers are exact data here, so reading and writing them needs no machine arithmetic.

## Main definitions

* `Binary64` — signed finite numbers, infinities and the undefined value
* `roundQuotient` — the nearest integer to a quotient, ties to even
* `Binary64.ofDecimal` — the nearest number to a decimal fraction

## Main results

* `roundQuotient_le`, `le_roundQuotient` — rounding is within half a unit
-/

namespace ComponentCompiler.Number

/-- A number in 64-bit binary floating point. A finite number is the significand times two to the
power of the exponent. -/
inductive Binary64 where
  | finite (negative : Bool) (significand : Nat) (exponent : Int)
  | infinite (negative : Bool)
  | undefined
deriving DecidableEq, Repr, Inhabited

/-- A power of two. -/
def powerOfTwo (n : Nat) : Nat :=
  Nat.pow 2 n

/-- A power of ten. -/
def powerOfTen (n : Nat) : Nat :=
  Nat.pow 10 n

/-- The integer nearest to a quotient; a half goes to the even neighbour. -/
def roundQuotient (numerator denominator : Nat) : Nat :=
  let quotient := numerator / denominator
  let twice := 2 * (numerator % denominator)
  if twice < denominator then quotient
  else if denominator < twice then quotient + 1
  else if quotient % 2 = 0 then quotient
  else quotient + 1

theorem roundQuotient_le (numerator : Nat) {denominator : Nat} (positive : 0 < denominator) :
    2 * (denominator * roundQuotient numerator denominator) ≤ 2 * numerator + denominator := by
  have whole := Nat.div_add_mod numerator denominator
  have small := Nat.mod_lt numerator positive
  have grown := Nat.mul_add denominator (numerator / denominator) 1
  simp only [roundQuotient]
  split
  · omega
  · split
    · omega
    · split <;> omega

theorem le_roundQuotient (numerator : Nat) {denominator : Nat} (positive : 0 < denominator) :
    2 * numerator ≤ 2 * (denominator * roundQuotient numerator denominator) + denominator := by
  have whole := Nat.div_add_mod numerator denominator
  have small := Nat.mod_lt numerator positive
  have grown := Nat.mul_add denominator (numerator / denominator) 1
  simp only [roundQuotient]
  split
  · omega
  · split
    · omega
    · split <;> omega

/-- The exponent of the least bit of a subnormal number. -/
def leastExponent : Int := -1074

/-- The largest exponent of a finite number with an integer significand. -/
def greatestExponent : Int := 971

/-- The exponent at which a positive quotient has a significand of 53 bits, or one less. -/
def estimatedExponent (numerator denominator : Nat) : Int :=
  (Nat.log2 numerator : Int) - (Nat.log2 denominator : Int) - 53

/-- A quotient divided by a power of two, rounded to an integer. -/
def roundScaled (numerator denominator : Nat) (exponent : Int) : Nat :=
  if 0 ≤ exponent then roundQuotient numerator (denominator * powerOfTwo exponent.toNat)
  else roundQuotient (numerator * powerOfTwo (-exponent).toNat) denominator

/-- Whether a quotient divided by a power of two is below two to the 53rd. -/
def fits (numerator denominator : Nat) (exponent : Int) : Bool :=
  if 0 ≤ exponent then numerator < denominator * powerOfTwo (exponent.toNat + 53)
  else numerator * powerOfTwo (-exponent).toNat < denominator * powerOfTwo 53

/-- The least exponent from the given one on, and not more than two above it, at which the
significand of a quotient has at most 53 bits. -/
def fittingExponent (numerator denominator : Nat) (exponent : Int) : Int :=
  if fits numerator denominator exponent then exponent
  else if fits numerator denominator (exponent + 1) then exponent + 1
  else exponent + 2

namespace Binary64

/-- The nearest number to a positive quotient. -/
def ofQuotient (negative : Bool) (numerator denominator : Nat) : Binary64 :=
  let exponent := fittingExponent numerator denominator
    (max leastExponent (estimatedExponent numerator denominator))
  let significand := roundScaled numerator denominator exponent
  let carried := decide (significand = powerOfTwo 53)
  let exponent := if carried then exponent + 1 else exponent
  if greatestExponent < exponent then .infinite negative
  else .finite negative (if carried then powerOfTwo 52 else significand) exponent

/-- The zero with the given sign. -/
def zero (negative : Bool) : Binary64 :=
  .finite negative 0 leastExponent

/-- The nearest number to an integer times a power of ten. Numbers beyond the greatest one become
infinite, and numbers closer to zero than half the least one become zero. -/
def ofDecimal (negative : Bool) (digits : Nat) (exponent : Int) : Binary64 :=
  let places := (Nat.toDigits 10 digits).length
  -- The bounds keep the powers small; beyond them the answer is known.
  if digits = 0 then zero negative
  else if 310 < exponent + places then .infinite negative
  else if exponent + places < -330 then zero negative
  else if 0 ≤ exponent then ofQuotient negative (digits * powerOfTen exponent.toNat) 1
  else ofQuotient negative digits (powerOfTen (-exponent).toNat)

/-- Whether a number is zero, with either sign. -/
def isZero : Binary64 → Bool
  | .finite _ significand _ => significand == 0
  | _ => false

/-- One is the significand two to the 52nd at the exponent that makes up for it. -/
theorem ofDecimal_one : ofDecimal false 1 0 = .finite false (powerOfTwo 52) (-52) := by
  decide +kernel

/-- The least decimal fraction that is not zero is the least subnormal number. -/
theorem ofDecimal_least : ofDecimal false 5 (-324) = .finite false 1 (-1074) := by
  decide +kernel

/-- A number above the greatest one is infinite. -/
theorem ofDecimal_beyond : ofDecimal true 1 400 = .infinite true := by
  decide +kernel

end Binary64

end ComponentCompiler.Number

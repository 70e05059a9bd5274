/-!
# Double-precision numbers

A finite double-precision number is kept exactly, as an integer significand
times a power of two.  Reading a decimal rounds it to the nearest such number;
of two equally near ones the one with the even significand is taken.
-/

namespace ScriptBridge

/-- A finite double-precision number: `significand * 2 ^ exponent`, with its
sign kept apart so that zero has two forms. -/
structure Binary64 where
  negative : Bool
  significand : Nat
  exponent : Int
  deriving DecidableEq, Repr

namespace Binary64

/-- The smallest exponent, used by zero and the numbers next to it. -/
def leastExponent : Int := -1074

/-- The largest exponent of a finite number. -/
def greatestExponent : Int := 971

/-- The number of bits of a significand. -/
def precision : Nat := 53

/-- Zero with the given sign. -/
def zero (negative : Bool) : Binary64 :=
  ⟨negative, 0, leastExponent⟩

/-- A quotient rounded to the nearest integer, a half to the even neighbour. -/
def roundQuotient (numerator denominator : Nat) : Nat :=
  let quotient := numerator / denominator
  let twice := 2 * (numerator % denominator)
  if twice < denominator then quotient
  else if denominator < twice then quotient + 1
  else quotient + quotient % 2

/-- The largest power of two that does not exceed a positive ratio. -/
def binaryOrder (numerator denominator : Nat) : Int :=
  let estimate : Int := (numerator.log2 : Int) - denominator.log2
  let reached :=
    if 0 ≤ estimate then denominator * Nat.pow 2 estimate.toNat ≤ numerator
    else denominator ≤ numerator * Nat.pow 2 (-estimate).toNat
  if reached then estimate else estimate - 1

/-- The number nearest to a positive ratio, or nothing if it is out of range. -/
def ofRatio (negative : Bool) (numerator denominator : Nat) :
    Option Binary64 :=
  let order := binaryOrder numerator denominator
  let exponent := max (order - (precision - 1)) leastExponent
  let significand :=
    if 0 ≤ exponent then
      roundQuotient numerator (denominator * Nat.pow 2 exponent.toNat)
    else
      roundQuotient (numerator * Nat.pow 2 (-exponent).toNat) denominator
  let rounded : Binary64 :=
    if significand = Nat.pow 2 precision then
      ⟨negative, Nat.pow 2 (precision - 1), exponent + 1⟩
    else
      ⟨negative, significand, exponent⟩
  if greatestExponent < rounded.exponent then none else some rounded

/-- The number nearest to `coefficient * 10 ^ power`, or nothing if it is out
of range.  Powers far outside the range are settled without computing them. -/
def ofDecimal (negative : Bool) (coefficient : Nat) (power : Int) :
    Option Binary64 :=
  let order := (Nat.toDigits 10 coefficient).length + power
  if coefficient = 0 then some (zero negative)
  else if 310 < order then none
  else if order < -330 then some (zero negative)
  else if 0 ≤ power then ofRatio negative (coefficient * Nat.pow 10 power.toNat) 1
  else ofRatio negative coefficient (Nat.pow 10 (-power).toNat)

end Binary64

end ScriptBridge

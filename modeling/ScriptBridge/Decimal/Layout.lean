import ScriptBridge.Decimal.Binary64

/-!
# Decimal texts of numbers

Every double-precision number is the rounding of a whole interval of reals.
Its decimal digits are the fewest that name a point of that interval; among
equally few the point nearest to the number is taken, and of two that are
equally near the one whose last digit is even.  The digits are laid out either
positionally, always with a digit after the point, or with an exponent that
carries its sign.
-/

namespace ScriptBridge

/-- A positive decimal number: `coefficient * 10 ^ power`. -/
structure DecimalDigits where
  coefficient : Nat
  power : Int
  deriving DecidableEq, Repr

namespace Binary64

/-- The interval of reals that round to a number, over one denominator. -/
structure RoundingInterval where
  low : Nat
  value : Nat
  high : Nat
  denominator : Nat
  endsIncluded : Bool

/-- The interval of a number other than zero.  Below a power of two the gap to
the next smaller number is only half as wide. -/
def roundingInterval (number : Binary64) : RoundingInterval :=
  let scale := Nat.pow 2 number.exponent.toNat
  let narrow := number.significand = Nat.pow 2 (precision - 1) &&
    leastExponent < number.exponent
  let four := 4 * number.significand
  { low := (four - (if narrow then 1 else 2)) * scale
    value := four * scale
    high := (four + 2) * scale
    denominator := 4 * Nat.pow 2 (-number.exponent).toNat
    endsIncluded := number.significand % 2 = 0 }

namespace RoundingInterval

/-- The least power of ten that exceeds the value. -/
def decimalOrder (interval : RoundingInterval) : Int :=
  if interval.denominator ≤ interval.value then
    (Nat.toDigits 10 (interval.value / interval.denominator)).length
  else
    let zeros := (Nat.toDigits 10 (interval.denominator / interval.value)).length - 1
    if interval.denominator ≤ interval.value * Nat.pow 10 zeros then 1 - (zeros : Int)
    else - (zeros : Int)

/-- The point of the interval with the given number of digits that is nearest
to the value, if there is one. -/
def point? (interval : RoundingInterval) (count : Nat) : Option DecimalDigits :=
  let power := interval.decimalOrder - count
  let grow := Nat.pow 10 (-power).toNat
  let unit := interval.denominator * Nat.pow 10 power.toNat
  let inside (coefficient : Nat) : Bool :=
    if interval.endsIncluded then
      interval.low * grow ≤ coefficient * unit && coefficient * unit ≤ interval.high * grow
    else
      interval.low * grow < coefficient * unit && coefficient * unit < interval.high * grow
  let below := interval.value * grow / unit
  let remainder := interval.value * grow % unit
  match inside below, inside (below + 1) with
  | true, true =>
      let greater := unit < 2 * remainder || (unit = 2 * remainder && below % 2 = 1)
      some ⟨if greater then below + 1 else below, power⟩
  | true, false => some ⟨below, power⟩
  | false, true => some ⟨below + 1, power⟩
  | false, false => none

end RoundingInterval

/-- Drop up to `fuel` final zeros of a coefficient. -/
def dropZeros : Nat → DecimalDigits → DecimalDigits
  | 0, digits => digits
  | fuel + 1, ⟨coefficient, power⟩ =>
      if coefficient % 10 = 0 then dropZeros fuel ⟨coefficient / 10, power + 1⟩
      else ⟨coefficient, power⟩

/-- The fewest digits that read back as the number.  Seventeen always do. -/
def shortest (number : Binary64) : DecimalDigits :=
  if number.significand = 0 then ⟨0, 0⟩
  else
    let interval := number.roundingInterval
    match (List.range' 1 17).findSome? interval.point? with
    | some digits => dropZeros 17 digits
    | none => ⟨0, 0⟩

end Binary64

/-- Which decimal exponents are written positionally. -/
structure DecimalLayout where
  positional : Int → Bool

namespace DecimalLayout

/-- Positional from the fifth place after the point up to sixteen places before
it, scientific outside. -/
def json : DecimalLayout :=
  ⟨fun exponent => -5 ≤ exponent && exponent < 16⟩

/-- The digits without an exponent. -/
def positionalText (digits : List Char) (exponent : Int) : List Char :=
  if exponent < 0 then
    ['0', '.'] ++ List.replicate (-exponent - 1).toNat '0' ++ digits
  else
    let whole := exponent.toNat + 1
    let padded := digits ++ List.replicate (whole - digits.length) '0'
    let fraction := padded.drop whole
    padded.take whole ++ ['.'] ++ (if fraction.isEmpty then ['0'] else fraction)

/-- The digits with an exponent; a single digit stands without a point. -/
def scientificText (digits : List Char) (exponent : Int) : List Char :=
  let fraction := digits.drop 1
  digits.take 1 ++ (if fraction.isEmpty then [] else '.' :: fraction) ++
    ['e', if exponent < 0 then '-' else '+'] ++ Nat.toDigits 10 exponent.natAbs

/-- The text of a number. -/
def render (layout : DecimalLayout) (number : Binary64) : String :=
  let shortest := number.shortest
  let digits := Nat.toDigits 10 shortest.coefficient
  let exponent := shortest.power + digits.length - 1
  let sign := if number.negative then ['-'] else []
  let body :=
    if layout.positional exponent then positionalText digits exponent
    else scientificText digits exponent
  String.ofList (sign ++ body)

end DecimalLayout

end ScriptBridge

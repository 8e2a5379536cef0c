/-!
# Binary floating point, exactly

Words of a binary interchange format as natural numbers, and the two operations
that the library needs on them.  Every result is formed exactly first and then
rounded once, to the nearest word and to the even one when two are equally near.
-/

namespace ParameterServer.Ieee

/-- A binary format: its significant bits, the hidden one included, and the width
of its exponent field. -/
structure Format where
  precision : Nat
  exponentBits : Nat
deriving DecidableEq, Repr

/-- The 32-bit format. -/
def single : Format := ⟨24, 8⟩

/-- The 64-bit format. -/
def double : Format := ⟨53, 11⟩

/-- The power `2 ^ exponent`. -/
def twoPow (exponent : Nat) : Nat :=
  Nat.pow 2 exponent

/-- `numerator / denominator` to the nearest natural number, a half going to the
even neighbour. -/
def nearestEven (numerator denominator : Nat) : Nat :=
  let quotient := numerator / denominator
  let rest := numerator % denominator
  if denominator < 2 * rest ∨ (2 * rest = denominator ∧ quotient % 2 = 1) then
    quotient + 1
  else
    quotient

namespace Format

/-- The width of the fraction field. -/
def fractionBits (format : Format) : Nat :=
  format.precision - 1

/-- The word whose only bit is the sign. -/
def signBit (format : Format) : Nat :=
  twoPow (format.fractionBits + format.exponentBits)

/-- The word of positive infinity. -/
def infinity (format : Format) : Nat :=
  (twoPow format.exponentBits - 1) * twoPow format.fractionBits

/-- The first fraction bit, which a quiet NaN has set. -/
def quietBit (format : Format) : Nat :=
  twoPow (format.fractionBits - 1)

/-- The NaN of an invalid operation: quiet, negative, with no other fraction bit. -/
def invalid (format : Format) : Nat :=
  format.signBit + format.infinity + format.quietBit

/-- The exponent of the least positive value, a power of two. -/
def unitExponent (format : Format) : Int :=
  3 - twoPow (format.exponentBits - 1) - format.precision

/-- A word without its sign. -/
def magnitude (format : Format) (word : Nat) : Nat :=
  word % format.signBit

def isNegative (format : Format) (word : Nat) : Bool :=
  format.signBit ≤ word

def isNaN (format : Format) (word : Nat) : Bool :=
  format.infinity < format.magnitude word

def isFinite (format : Format) (word : Nat) : Bool :=
  format.magnitude word < format.infinity

def isZero (format : Format) (word : Nat) : Bool :=
  format.magnitude word = 0

/-- The magnitude `m` with the sign given. -/
def withSign (format : Format) (negative : Bool) (m : Nat) : Nat :=
  if negative then format.signBit + m else m

/-- The NaN `word` with its quiet bit set. -/
def quiet (format : Format) (word : Nat) : Nat :=
  word ||| format.quietBit

/-- The integer significand and the exponent of a finite magnitude, which equals
`significand * 2 ^ exponent`. -/
def parts (format : Format) (m : Nat) : Nat × Int :=
  let hidden := twoPow format.fractionBits
  let field := m / hidden
  if field = 0 then
    (m, format.unitExponent)
  else
    (m % hidden + hidden, format.unitExponent + field - 1)

/-- The magnitude nearest to `numerator / denominator`; infinity from half a unit
past the greatest finite one. -/
def roundQuotient (format : Format) (numerator denominator : Nat) : Nat :=
  if numerator = 0 then
    0
  else
    let unit := format.unitExponent
    let estimate : Int :=
      numerator.log2 - denominator.log2 - format.precision
    let quotientAt (exponent : Int) : Nat × Nat :=
      (numerator * twoPow (-exponent).toNat, denominator * twoPow exponent.toNat)
    let lower := max estimate unit
    let atLower := quotientAt lower
    let exponent :=
      if twoPow format.precision ≤ atLower.1 / atLower.2 then lower + 1 else lower
    let atExponent := quotientAt exponent
    let significand := nearestEven atExponent.1 atExponent.2
    min format.infinity
      ((exponent - unit).toNat * twoPow format.fractionBits + significand)

/-- The magnitude nearest to `significand * 2 ^ exponent`. -/
def roundScaled (format : Format) (significand : Nat) (exponent : Int) : Nat :=
  format.roundQuotient (significand * twoPow exponent.toNat) (twoPow (-exponent).toNat)

/-- The rounded product of two finite magnitudes. -/
def multiplyMagnitudes (format : Format) (left right : Nat) : Nat :=
  let (leftSignificand, leftExponent) := format.parts left
  let (rightSignificand, rightExponent) := format.parts right
  format.roundScaled (leftSignificand * rightSignificand)
    (leftExponent + rightExponent)

/-- The rounded quotient of two finite magnitudes, the second not zero. -/
def divideMagnitudes (format : Format) (left right : Nat) : Nat :=
  let (leftSignificand, leftExponent) := format.parts left
  let (rightSignificand, rightExponent) := format.parts right
  let exponent := leftExponent - rightExponent
  format.roundQuotient (leftSignificand * twoPow exponent.toNat)
    (rightSignificand * twoPow (-exponent).toNat)

/-- The NaN that an operation passes on, if an operand is one; the left one first. -/
def passedNaN? (format : Format) (left right : Nat) : Option Nat :=
  if format.isNaN left then some (format.quiet left)
  else if format.isNaN right then some (format.quiet right)
  else none

/-- The product of two words. -/
def multiply (format : Format) (left right : Nat) : Nat :=
  match format.passedNaN? left right with
  | some word => word
  | none =>
      let negative := format.isNegative left != format.isNegative right
      if format.isFinite left && format.isFinite right then
        format.withSign negative
          (format.multiplyMagnitudes (format.magnitude left)
            (format.magnitude right))
      else if format.isZero left || format.isZero right then
        format.invalid
      else
        format.withSign negative format.infinity

/-- The value of a finite word in units of `2 ^ exponent`, which must not exceed
the word's own exponent. -/
def unitsAt (format : Format) (word : Nat) (exponent : Int) : Int :=
  let (significand, own) := format.parts (format.magnitude word)
  let units := significand * twoPow (own - exponent).toNat
  if format.isNegative word then -units else units

/-- The sum of two words.  A sum that is exactly zero is negative only when both
operands are. -/
def add (format : Format) (left right : Nat) : Nat :=
  match format.passedNaN? left right with
  | some word => word
  | none =>
      let leftNegative := format.isNegative left
      let rightNegative := format.isNegative right
      if format.isFinite left && format.isFinite right then
        let exponent :=
          min (format.parts (format.magnitude left)).2
            (format.parts (format.magnitude right)).2
        let sum := format.unitsAt left exponent + format.unitsAt right exponent
        if sum = 0 then
          format.withSign (leftNegative && rightNegative) 0
        else
          format.withSign (sum < 0) (format.roundScaled sum.natAbs exponent)
      else if format.isFinite left then right
      else if format.isFinite right then left
      else if leftNegative = rightNegative then left
      else format.invalid

/-- The word of `target` nearest to a word of `source`. -/
def convert (source target : Format) (word : Nat) : Nat :=
  let negative := source.isNegative word
  let m := source.magnitude word
  if source.isFinite word then
    let (significand, exponent) := source.parts m
    target.withSign negative (target.roundScaled significand exponent)
  else if source.isNaN word then
    let fraction := (source.quiet m - source.infinity) * twoPow target.fractionBits
    target.withSign negative (target.infinity + fraction / twoPow source.fractionBits)
  else
    target.withSign negative target.infinity

end Format

end ParameterServer.Ieee

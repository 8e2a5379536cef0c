import ParameterServer.Ieee.Binary64

/-!
# Number literals

A literal keeps its digits, since the value read from it depends on where it is
read: an integer field takes integer literals only, and a floating point field
takes every literal whose value is in range.
-/

namespace ParameterServer.Text.Json

/-- A number as it is written.  Digits stand most significant first; there are no
fraction digits when there is no decimal point. -/
structure Number where
  negative : Bool
  whole : List Nat
  fraction : List Nat
  /-- Whether the exponent is negative, and its digits. -/
  exponent : Option (Bool × List Nat)
deriving DecidableEq, Repr

namespace Number

/-- The value of a decimal digit. -/
def digit? (c : Char) : Option Nat :=
  if '0' ≤ c ∧ c ≤ '9' then some (c.toNat - '0'.toNat) else none

/-- The character of a decimal digit. -/
def digitChar (digit : Nat) : Char :=
  Char.ofNat ('0'.toNat + digit)

/-- The digits at the front of a text, and the rest of it. -/
def splitDigits : List Char → List Nat × List Char
  | [] => ([], [])
  | c :: rest =>
      match digit? c with
      | some digit =>
          let (digits, after) := splitDigits rest
          (digit :: digits, after)
      | none => ([], c :: rest)

/-- The number that digits write. -/
def ofDigits (digits : List Nat) : Nat :=
  digits.foldl (fun value digit => 10 * value + digit) 0

/-- At least one digit, and no leading zero before another digit. -/
def isWhole : List Nat → Bool
  | [] => false
  | [_] => true
  | first :: _ => first != 0

/-- The sign of an exponent, and the text after it. -/
def splitExponentSign : List Char → Bool × List Char
  | '-' :: rest => (true, rest)
  | '+' :: rest => (false, rest)
  | rest => (false, rest)

/-- The fraction digits at the front of a text; a decimal point without a digit is
refused. -/
def splitFraction? : List Char → Option (List Nat × List Char)
  | '.' :: rest =>
      let (digits, after) := splitDigits rest
      if digits.isEmpty then none else some (digits, after)
  | rest => some ([], rest)

/-- The exponent that is the whole of a text; an `e` without a digit is refused. -/
def exponent? : List Char → Option (Option (Bool × List Nat))
  | [] => some none
  | mark :: rest =>
      if mark = 'e' ∨ mark = 'E' then
        let (negative, unsigned) := splitExponentSign rest
        let (digits, after) := splitDigits unsigned
        if digits.isEmpty || !after.isEmpty then none
        else some (some (negative, digits))
      else
        none

/-- The literal that a text is. -/
def ofChars? (chars : List Char) : Option Number := do
  let (negative, unsigned) :=
    match chars with
    | '-' :: rest => (true, rest)
    | rest => (false, rest)
  let (whole, afterWhole) := splitDigits unsigned
  guard (isWhole whole)
  let (fraction, afterFraction) ← splitFraction? afterWhole
  return ⟨negative, whole, fraction, ← exponent? afterFraction⟩

/-- The text of a literal. -/
def toChars (number : Number) : List Char :=
  let sign := if number.negative then ['-'] else []
  let point := if number.fraction.isEmpty then [] else ['.']
  let exponent :=
    match number.exponent with
    | none => []
    | some (negative, digits) =>
        'e' :: (if negative then ['-'] else []) ++ digits.map digitChar
  sign ++ number.whole.map digitChar ++ point ++ number.fraction.map digitChar
    ++ exponent

/-- The integer literal of an integer. -/
def ofInt (value : Int) : Number :=
  ⟨value < 0, (Nat.toDigits 10 value.natAbs).map (fun c => (digit? c).getD 0),
    [], none⟩

/-! ## Values -/

/-- The value of an integer literal.  A literal with a fraction or an exponent is
none, and neither is minus zero, which only a floating point field can hold. -/
def toInt? (number : Number) : Option Int :=
  let magnitude := ofDigits number.whole
  if !number.fraction.isEmpty || number.exponent.isSome then none
  else if number.negative then
    if magnitude = 0 then none else some (-magnitude)
  else
    some magnitude

/-- Appends digits to a significand while it stays below `2 ^ 64`, and returns the
digits left over. -/
def extend (significand : Nat) : List Nat → Nat × List Nat
  | [] => (significand, [])
  | digit :: rest =>
      let extended := 10 * significand + digit
      if extended < UInt64.size then extend extended rest
      else (significand, digit :: rest)

/-- The greatest exponent in one scaling step. -/
def scaleLimit : Nat := 308

/-- A power of ten up to `scaleLimit`, rounded. -/
def powerOfTen (exponent : Nat) : Nat :=
  Ieee.double.roundQuotient (Nat.pow 10 exponent) 1

/-- A magnitude over `10 ^ exponent`, in steps of at most `scaleLimit`, each
rounded. -/
def scaleDown (magnitude exponent : Nat) : Nat :=
  if exponent ≤ scaleLimit then
    Ieee.double.divideMagnitudes magnitude (powerOfTen exponent)
  else if magnitude = 0 then
    0
  else
    scaleDown (Ieee.double.divideMagnitudes magnitude (powerOfTen scaleLimit))
      (exponent - scaleLimit)
termination_by exponent
decreasing_by simp only [scaleLimit] at *; omega

/-- A magnitude times `10 ^ exponent`; `none` when that is out of range. -/
def scale? (magnitude : Nat) (exponent : Int) : Option Nat :=
  if magnitude = 0 then
    some 0
  else if exponent < 0 then
    some (scaleDown magnitude exponent.natAbs)
  else if exponent.natAbs ≤ scaleLimit then
    let scaled :=
      Ieee.double.multiplyMagnitudes magnitude (powerOfTen exponent.natAbs)
    if scaled < Ieee.double.infinity then some scaled else none
  else
    none

/-- The double precision number that a literal is read as; `none` when it is out of
range.  The significand is the digits that fit in 64 bits, so that the result can
differ from the nearest number in its last bits. -/
def toBinary64? (number : Number) : Option Ieee.Binary64 := do
  let (wholePart, wholeLeft) := extend 0 number.whole
  let (significand, fractionLeft) := extend wholePart number.fraction
  let shift : Int :=
    wholeLeft.length - (number.fraction.length - fractionLeft.length : Nat)
  let exponent : Int :=
    match number.exponent with
    | none => shift
    | some (true, digits) => shift - ofDigits digits
    | some (false, digits) => shift + ofDigits digits
  let magnitude ← scale? (Ieee.double.roundQuotient significand 1) exponent
  return .ofMagnitude number.negative magnitude

end Number

end ParameterServer.Text.Json

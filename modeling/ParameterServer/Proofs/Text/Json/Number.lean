import Mathlib.Data.List.Basic
import ParameterServer.Text.Json.Number

/-!
# Number literals are read as they are written

How a literal may be spelled: the mark of an exponent in either case, and its plus sign or none.
Every spelling of a literal is read as that literal.  The literal of a natural number is well
formed, and has the number as its value.
-/

namespace ParameterServer.Text.Json.Number

/-! ## Digits -/

def AreDigits (digits : List Nat) : Prop :=
  ∀ digit ∈ digits, digit < 10

/-- A text that does not go on with a digit. -/
def EndsDigits (chars : List Char) : Prop :=
  ∀ c ∈ chars.head?, digit? c = none

theorem digit?_digitChar {digit : Nat} (small : digit < 10) :
    digit? (digitChar digit) = some digit := by
  decide +revert

theorem splitDigits_of_ends {chars : List Char} (ends : EndsDigits chars) :
    splitDigits chars = ([], chars) := by
  cases chars with
  | nil => rfl
  | cons c rest => rw [splitDigits, ends c rfl]

/-- The digits at the front of a text are read to the last one. -/
theorem splitDigits_append {digits : List Nat} {rest : List Char} (areDigits : AreDigits digits)
    (ends : EndsDigits rest) :
    splitDigits (digits.map digitChar ++ rest) = (digits, rest) := by
  induction digits with
  | nil => exact splitDigits_of_ends ends
  | cons digit later inductionHypothesis =>
      obtain ⟨small, others⟩ := List.forall_mem_cons.mp areDigits
      have tail := inductionHypothesis others
      rw [List.map_cons, List.cons_append, splitDigits, digit?_digitChar small]
      simp only [tail]

theorem EndsDigits.cons {c : Char} (other : digit? c = none) (rest : List Char) :
    EndsDigits (c :: rest) := by
  rintro _ ⟨⟩
  exact other

theorem digitChar_ne_minus {digit : Nat} (small : digit < 10) : digitChar digit ≠ '-' := by
  decide +revert

theorem digitChar_ne_plus {digit : Nat} (small : digit < 10) : digitChar digit ≠ '+' := by
  decide +revert

/-! ## Spellings -/

/-- The spellings of the sign of an exponent. -/
inductive SignSpelling : Bool → List Char → Prop
  | minus : SignSpelling true ['-']
  | plus : SignSpelling false ['+']
  | absent : SignSpelling false []

/-- The spellings of an exponent. -/
inductive ExponentSpelling : Option (Bool × List Nat) → List Char → Prop
  | absent : ExponentSpelling none []
  | marked {mark : Char} {negative : Bool} {sign : List Char} {digits : List Nat}
      (marks : mark = 'e' ∨ mark = 'E') (signs : SignSpelling negative sign)
      (present : digits ≠ []) (areDigits : AreDigits digits) :
      ExponentSpelling (some (negative, digits)) (mark :: sign ++ digits.map digitChar)

/-- The decimal point and the digits after it, if there are any. -/
def fractionChars (fraction : List Nat) : List Char :=
  if fraction.isEmpty then [] else '.' :: fraction.map digitChar

/-- The spellings of a literal.  A literal has none if its digits are not those of a number. -/
inductive Spelling : Number → List Char → Prop
  | intro {negative : Bool} {whole fraction : List Nat} {exponent : Option (Bool × List Nat)}
      {chars : List Char} (form : isWhole whole = true) (wholeDigits : AreDigits whole)
      (fractionDigits : AreDigits fraction) (tail : ExponentSpelling exponent chars) :
      Spelling ⟨negative, whole, fraction, exponent⟩
        ((if negative then ['-'] else []) ++
          (whole.map digitChar ++ (fractionChars fraction ++ chars)))

theorem SignSpelling.split {negative : Bool} {sign : List Char}
    (spelling : SignSpelling negative sign) {digits : List Nat} (present : digits ≠ [])
    (areDigits : AreDigits digits) :
    splitExponentSign (sign ++ digits.map digitChar) = (negative, digits.map digitChar) := by
  cases spelling with
  | minus | plus => rfl
  | absent =>
      cases digits with
      | nil => exact absurd rfl present
      | cons digit rest =>
          have small := areDigits digit List.mem_cons_self
          have minus := digitChar_ne_minus small
          have plus := digitChar_ne_plus small
          simp [splitExponentSign, minus, plus]

namespace ExponentSpelling

variable {exponent : Option (Bool × List Nat)} {chars : List Char}

theorem endsDigits (spelling : ExponentSpelling exponent chars) : EndsDigits chars := by
  cases spelling with
  | absent => exact fun _ absent => nomatch absent
  | marked marks => rcases marks with rfl | rfl <;> exact .cons (by decide) _

theorem splitFraction? (spelling : ExponentSpelling exponent chars) :
    Number.splitFraction? chars = some ([], chars) := by
  cases spelling with
  | absent => rfl
  | marked marks => rcases marks with rfl | rfl <;> rfl

theorem exponent? (spelling : ExponentSpelling exponent chars) :
    Number.exponent? chars = some exponent := by
  cases spelling with
  | absent => rfl
  | @marked mark negative sign digits marks signs present areDigits =>
      have all : splitDigits (digits.map digitChar) = (digits, []) := by
        have atEnd : EndsDigits [] := fun _ absent => nomatch absent
        have split := splitDigits_append areDigits atEnd
        rwa [List.append_nil] at split
      rw [List.cons_append, Number.exponent?, if_pos marks, signs.split present areDigits]
      simp [all, present]

end ExponentSpelling

section Unsigned

variable {whole fraction : List Nat} {exponent : Option (Bool × List Nat)} {chars : List Char}

theorem splitFraction?_append (areDigits : AreDigits fraction)
    (tail : ExponentSpelling exponent chars) :
    splitFraction? (fractionChars fraction ++ chars) = some (fraction, chars) := by
  cases fraction with
  | nil => exact tail.splitFraction?
  | cons digit rest =>
      have shape : fractionChars (digit :: rest) ++ chars =
          '.' :: ((digit :: rest).map digitChar ++ chars) :=
        rfl
      rw [shape, splitFraction?, splitDigits_append areDigits tail.endsDigits]
      rfl

theorem endsDigits_fraction (fraction : List Nat) (tail : ExponentSpelling exponent chars) :
    EndsDigits (fractionChars fraction ++ chars) := by
  cases fraction with
  | nil => exact tail.endsDigits
  | cons digit rest => exact .cons (by decide) _

/-- The sign of a literal, and the text after it. -/
def splitSign : List Char → Bool × List Char
  | '-' :: rest => (true, rest)
  | rest => (false, rest)

/-- The literal of a given sign that the other characters are. -/
def ofUnsigned? (negative : Bool) (unsigned : List Char) : Option Number := do
  let (whole, afterWhole) := splitDigits unsigned
  guard (isWhole whole)
  let (fraction, afterFraction) ← splitFraction? afterWhole
  return ⟨negative, whole, fraction, ← exponent? afterFraction⟩

theorem ofChars?_eq (chars : List Char) :
    ofChars? chars = ofUnsigned? (splitSign chars).1 (splitSign chars).2 :=
  rfl

theorem ofChars?_of_ne {c : Char} (other : c ≠ '-') (rest : List Char) :
    ofChars? (c :: rest) = ofUnsigned? false (c :: rest) := by
  have unsigned : splitSign (c :: rest) = (false, c :: rest) := by simp [splitSign, other]
  rw [ofChars?_eq, unsigned]

theorem ofUnsigned?_append (negative : Bool) (form : isWhole whole = true)
    (wholeDigits : AreDigits whole) (fractionDigits : AreDigits fraction)
    (tail : ExponentSpelling exponent chars) :
    ofUnsigned? negative (whole.map digitChar ++ (fractionChars fraction ++ chars)) =
      some ⟨negative, whole, fraction, exponent⟩ := by
  rw [ofUnsigned?, splitDigits_append wholeDigits (endsDigits_fraction fraction tail)]
  refine Option.bind_eq_some_iff.mpr ⟨(), if_pos form, ?_⟩
  refine Option.bind_eq_some_iff.mpr ⟨_, splitFraction?_append fractionDigits tail, ?_⟩
  exact Option.bind_eq_some_iff.mpr ⟨_, tail.exponent?, rfl⟩

end Unsigned

/-- Every spelling of a literal is read as the literal. -/
theorem ofChars?_of_spelling {number : Number} {chars : List Char}
    (spelling : number.Spelling chars) : ofChars? chars = some number := by
  cases spelling with
  | @intro negative whole fraction exponent chars form wholeDigits fractionDigits tail =>
      have read := ofUnsigned?_append negative form wholeDigits fractionDigits tail
      cases negative with
      | true => exact (ofChars?_eq _).trans read
      | false =>
          cases whole with
          | nil => cases form
          | cons digit rest =>
              have minus := digitChar_ne_minus (wholeDigits digit List.mem_cons_self)
              exact (ofChars?_of_ne minus _).trans read

/-! ## Canonical spellings -/

theorem signSpelling_canonical (negative : Bool) :
    SignSpelling negative (if negative then ['-'] else []) := by
  cases negative with
  | true => exact .minus
  | false => exact .absent

/-- A literal whose digits are those of a number. -/
structure WellFormed (number : Number) : Prop where
  form : isWhole number.whole = true
  wholeDigits : AreDigits number.whole
  fractionDigits : AreDigits number.fraction
  exponentDigits : ∀ exponent ∈ number.exponent, exponent.2 ≠ [] ∧ AreDigits exponent.2

/-- A literal is written in one of its spellings. -/
theorem WellFormed.spelling {number : Number} (wellFormed : number.WellFormed) :
    number.Spelling number.toChars := by
  obtain ⟨negative, whole, fraction, exponent⟩ := number
  obtain ⟨form, wholeDigits, fractionDigits, exponentDigits⟩ := wellFormed
  have shape (tail : List Char) :
      (if negative then ['-'] else []) ++ whole.map digitChar ++
          (if fraction.isEmpty then [] else ['.']) ++ fraction.map digitChar ++ tail =
        (if negative then ['-'] else []) ++
          (whole.map digitChar ++ (fractionChars fraction ++ tail)) := by
    cases fraction <;> simp [fractionChars]
  unfold toChars
  rw [shape]
  cases exponent with
  | none => exact .intro form wholeDigits fractionDigits .absent
  | some exponent =>
      obtain ⟨present, areDigits⟩ := exponentDigits exponent rfl
      exact .intro form wholeDigits fractionDigits
        (.marked (.inl rfl) (signSpelling_canonical exponent.1) present areDigits)

/-! ## Natural numbers -/

/-- The decimal digits of a natural number. -/
def decimal (value : Nat) : List Nat :=
  (Nat.toDigits 10 value).map fun c => (digit? c).getD 0

theorem ofInt_natCast (value : Nat) :
    ofInt value = ⟨false, decimal value, [], none⟩ := by
  simp [ofInt, decimal]

theorem digit?_natDigitChar {digit : Nat} (small : digit < 10) :
    digit? digit.digitChar = some digit := by
  decide +revert

/-- All digits but the last one are those of the number without its last digit. -/
theorem decimal_eq (value : Nat) :
    decimal value =
      if value < 10 then [value] else decimal (value / 10) ++ [value % 10] := by
  rw [decimal, Nat.toDigits_eq_if (by decide)]
  split
  · simp [digit?_natDigitChar ‹_›]
  · simp [decimal, digit?_natDigitChar (Nat.mod_lt value (by decide : 10 > 0))]

theorem areDigits_decimal (value : Nat) : AreDigits (decimal value) := by
  induction value using Nat.strongRecOn with
  | ind value inductionHypothesis =>
      rw [decimal_eq]
      split
      · simpa [AreDigits]
      · intro digit member
        rcases List.mem_append.mp member with earlier | last
        · exact inductionHypothesis (value / 10) (by omega) digit earlier
        · rw [List.mem_singleton.mp last]
          omega

theorem ofDigits_decimal (value : Nat) : ofDigits (decimal value) = value := by
  induction value using Nat.strongRecOn with
  | ind value inductionHypothesis =>
      rw [decimal_eq]
      split
      · simp [ofDigits]
      · have earlier := inductionHypothesis (value / 10) (by omega)
        rw [ofDigits, List.foldl_append]
        change 10 * ofDigits (decimal (value / 10)) + value % 10 = value
        omega

/-- A positive number does not start with a zero. -/
theorem decimal_eq_cons {value : Nat} (positive : 0 < value) :
    ∃ digit rest, decimal value = digit :: rest ∧ digit ≠ 0 := by
  induction value using Nat.strongRecOn with
  | ind value inductionHypothesis =>
      rw [decimal_eq]
      split
      · exact ⟨value, [], rfl, by omega⟩
      · obtain ⟨digit, rest, shape, other⟩ :=
          inductionHypothesis (value / 10) (by omega) (by omega)
        exact ⟨digit, rest ++ [value % 10], by rw [shape, List.cons_append], other⟩

theorem isWhole_decimal (value : Nat) : isWhole (decimal value) = true := by
  rcases Nat.eq_zero_or_pos value with rfl | positive
  · rfl
  · obtain ⟨digit, rest, shape, other⟩ := decimal_eq_cons positive
    rw [shape]
    cases rest with
    | nil => rfl
    | cons => simpa [isWhole] using other

theorem wellFormed_ofInt (value : Nat) : (ofInt value).WellFormed := by
  rw [ofInt_natCast]
  exact
    { form := isWhole_decimal value
      wholeDigits := areDigits_decimal value
      fractionDigits := by simp [AreDigits]
      exponentDigits := by simp }

theorem toInt?_ofInt (value : Nat) : (ofInt value).toInt? = some value := by
  simp [ofInt_natCast, toInt?, ofDigits_decimal]

end ParameterServer.Text.Json.Number

import Mathlib.Data.List.Chain
import ParameterServer.Proofs.Text.Json.Number
import ParameterServer.Text.Json.Value

/-!
# Tokens are read as they are written

How a token may be spelled: a character of a quoted text may stand for itself or be escaped, and
blanks may stand between tokens.  Every spelling of tokens is read as these tokens, as long as no
two literals or numbers follow each other, which would run together.
-/

namespace ParameterServer.Text.Json

/-! ## Quoted texts -/

namespace Piece

/-- The characters that pieces stand for: a unit stands for a character, unless it is a surrogate;
two surrogates stand for one character. -/
inductive Denotes : List Piece → List Char → Prop
  | nil : Denotes [] []
  | char (c : Char) {pieces : List Piece} {chars : List Char} (later : Denotes pieces chars) :
      Denotes (.char c :: pieces) (c :: chars)
  | unit {value : Nat} (plain : isHigh value = false ∧ isLow value = false)
      {pieces : List Piece} {chars : List Char} (later : Denotes pieces chars) :
      Denotes (.unit value :: pieces) (Char.ofNat value :: chars)
  | pair {high low : Nat} (isHigh : isHigh high = true) (isLow : isLow low = true)
      {pieces : List Piece} {chars : List Char} (later : Denotes pieces chars) :
      Denotes (.unit high :: .unit low :: pieces)
        (Char.ofNat (0x10000 + (high - 0xD800) * 0x400 + (low - 0xDC00)) :: chars)

theorem decode_unit {value : Nat} (plain : isHigh value = false ∧ isLow value = false)
    (pieces : List Piece) :
    decode (.unit value :: pieces) = (Char.ofNat value :: ·) <$> decode pieces := by
  cases pieces with
  | nil => simp [decode, plain]
  | cons piece rest => cases piece <;> simp [decode, plain, map_eq_pure_bind]

theorem Denotes.decode {pieces : List Piece} {chars : List Char}
    (denotes : Denotes pieces chars) : Piece.decode pieces = some chars := by
  induction denotes with
  | nil => rfl
  | char c _ inductionHypothesis => simp [Piece.decode, inductionHypothesis]
  | unit plain _ inductionHypothesis => simp [decode_unit plain, inductionHypothesis]
  | pair high low _ inductionHypothesis => simp [Piece.decode, high, low, inductionHypothesis]

theorem denotes_of_decode {pieces : List Piece} {chars : List Char}
    (decoded : Piece.decode pieces = some chars) : Denotes pieces chars := by
  induction pieces using Piece.decode.induct generalizing chars with
  | case1 =>
      cases decoded
      exact .nil
  | case2 c rest inductionHypothesis =>
      simp only [Piece.decode, Option.bind_eq_bind, Option.bind_eq_some_iff, Option.pure_def,
        Option.some.injEq] at decoded
      obtain ⟨later, tail, rfl⟩ := decoded
      exact .char c (inductionHypothesis tail)
  | case3 high low rest isHigh isLow inductionHypothesis =>
      simp only [Piece.decode, isHigh, isLow, ↓reduceIte, Option.bind_eq_bind,
        Option.bind_eq_some_iff, Option.pure_def, Option.some.injEq] at decoded
      obtain ⟨later, tail, rfl⟩ := decoded
      exact .pair isHigh isLow (inductionHypothesis tail)
  | case4 high low rest isHigh notLow => simp [Piece.decode, isHigh, notLow] at decoded
  | case5 high low rest notHigh isLow => simp [Piece.decode, notHigh, isLow] at decoded
  | case6 high low rest notHigh notLow inductionHypothesis =>
      rw [decode_unit (by simp [notHigh, notLow])] at decoded
      obtain ⟨later, tail, rfl⟩ := Option.map_eq_some_iff.mp decoded
      exact .unit (by simp [notHigh, notLow]) (inductionHypothesis tail)
  | case7 value rest alone surrogate =>
      rw [Piece.decode.eq_4 value rest alone, if_pos surrogate] at decoded
      cases decoded
  | case8 value rest alone plain inductionHypothesis =>
      rw [decode_unit (by simpa using plain)] at decoded
      obtain ⟨later, tail, rfl⟩ := Option.map_eq_some_iff.mp decoded
      exact .unit (by simpa using plain) (inductionHypothesis tail)

theorem decode_eq_some {pieces : List Piece} {chars : List Char} :
    Piece.decode pieces = some chars ↔ Denotes pieces chars :=
  ⟨denotes_of_decode, Denotes.decode⟩

/-- The spellings of a piece. -/
inductive Spelling : Piece → List Char → Prop
  | plain {c : Char} (printable : 0x20 ≤ c.toNat) (notQuote : c ≠ '"') (notBackslash : c ≠ '\\') :
      Spelling (.char c) [c]
  | letter {letter c : Char} (stands : escaped? letter = some c) :
      Spelling (.char c) ['\\', letter]
  | unit {first second third fourth : Char} {a b c d : Nat} (firstDigit : hexDigit? first = some a)
      (secondDigit : hexDigit? second = some b) (thirdDigit : hexDigit? third = some c)
      (fourthDigit : hexDigit? fourth = some d) :
      Spelling (.unit (16 * (16 * (16 * a + b) + c) + d)) ['\\', 'u', first, second, third, fourth]

/-- The spellings of pieces, one after another. -/
inductive Spell : List Piece → List Char → Prop
  | nil : Spell [] []
  | cons {piece : Piece} {pieces : List Piece} {chars rest : List Char}
      (first : Spelling piece chars) (later : Spell pieces rest) :
      Spell (piece :: pieces) (chars ++ rest)

theorem Spelling.read {piece : Piece} {chars : List Char} (spelling : Spelling piece chars)
    (seen : List Piece) (rest : List Char) :
    tokensFrom (.quoted seen) (chars ++ rest) = tokensFrom (.quoted (piece :: seen)) rest := by
  cases spelling with
  | plain printable notQuote notBackslash =>
      simp [tokensFrom, advance, notQuote, notBackslash, Nat.not_lt.mpr printable]
  | @letter letter c stands =>
      have notUnit : letter ≠ 'u' := by
        rintro rfl
        cases stands
      simp [tokensFrom, advance, stands, notUnit]
  | unit firstDigit secondDigit thirdDigit fourthDigit =>
      simp [tokensFrom, advance, firstDigit, secondDigit, thirdDigit, fourthDigit]

theorem Spell.read {pieces : List Piece} {chars : List Char} (spell : Spell pieces chars)
    (seen : List Piece) (rest : List Char) :
    tokensFrom (.quoted seen) (chars ++ rest) =
      tokensFrom (.quoted (pieces.reverse ++ seen)) rest := by
  induction spell generalizing seen with
  | nil => rfl
  | cons first _ inductionHypothesis =>
      rw [List.append_assoc, first.read, inductionHypothesis]
      simp

end Piece

/-- A text in quotes is read to its closing quote. -/
theorem read_quoted {pieces : List Piece} {chars : List Char} (spell : Piece.Spell pieces chars)
    (rest : List Char) :
    tokensFrom .between ('"' :: chars ++ ['"'] ++ rest) =
      (.text (String.ofList <$> Piece.decode pieces) :: ·) <$> tokensFrom .between rest := by
  have opened : tokensFrom .between ('"' :: chars ++ ['"'] ++ rest) =
      tokensFrom (.quoted []) (chars ++ '"' :: rest) := by
    simp [tokensFrom, advance, enter, isBlank, punctuation?]
  rw [opened, spell.read, List.append_nil]
  simp [tokensFrom, advance, map_eq_pure_bind]

/-! ## Literals and numbers -/

theorem enter_of_isAtomChar {c : Char} (goesOn : isAtomChar c = true) :
    enter c = ([], .atom [c]) := by
  simp only [isAtomChar, Bool.and_eq_true, Bool.not_eq_true', bne_iff_ne, ne_eq,
    Option.isNone_iff_eq_none] at goesOn
  obtain ⟨⟨notBlank, notMark⟩, notQuote⟩ := goesOn
  simp [enter, notBlank, notMark, notQuote]

/-- A text that does not go on with an atom. -/
def EndsAtom (chars : List Char) : Prop :=
  ∀ c ∈ chars.head?, isAtomChar c = false

theorem read_letters {letters : List Char} (areLetters : ∀ c ∈ letters, isAtomChar c = true)
    (seen rest : List Char) :
    tokensFrom (.atom seen) (letters ++ rest) =
      tokensFrom (.atom (letters.reverse ++ seen)) rest := by
  induction letters generalizing seen with
  | nil => rfl
  | cons letter later inductionHypothesis =>
      obtain ⟨own, others⟩ := List.forall_mem_cons.mp areLetters
      have next := inductionHypothesis others (letter :: seen)
      simp [tokensFrom, advance, own, next]

/-- An atom is read to its last character. -/
theorem read_atom {letters : List Char} {token : Token}
    (areLetters : ∀ c ∈ letters, isAtomChar c = true) (present : letters ≠ [])
    (read : Token.ofAtom? letters = some token) {rest : List Char} (ends : EndsAtom rest) :
    tokensFrom .between (letters ++ rest) = (token :: ·) <$> tokensFrom .between rest := by
  have started : tokensFrom .between (letters ++ rest) =
      tokensFrom (.atom letters.reverse) rest := by
    cases letters with
    | nil => exact absurd rfl present
    | cons letter later =>
        obtain ⟨own, others⟩ := List.forall_mem_cons.mp areLetters
        have next := read_letters others [letter] rest
        simp [tokensFrom, advance, enter_of_isAtomChar own, next]
  rw [started]
  cases rest with
  | nil => simp [tokensFrom, finish, read]
  | cons c rest =>
      have ended := ends c rfl
      simp only [tokensFrom, advance, ended, Bool.false_eq_true, ↓reduceIte, List.reverse_reverse,
        read, Option.bind_eq_bind, Option.bind_some, Option.pure_def]
      cases tokensFrom (enter c).2 rest <;> rfl

theorem isAtomChar_digitChar {digit : Nat} (small : digit < 10) :
    isAtomChar (Number.digitChar digit) = true := by
  decide +revert

namespace Number

theorem isAtomChar_digits {digits : List Nat} (areDigits : AreDigits digits) :
    ∀ c ∈ digits.map digitChar, isAtomChar c = true := by
  intro c member
  obtain ⟨digit, listed, rfl⟩ := List.mem_map.mp member
  exact isAtomChar_digitChar (areDigits digit listed)

theorem ExponentSpelling.isAtomChar {exponent : Option (Bool × List Nat)} {chars : List Char}
    (spelling : ExponentSpelling exponent chars) : ∀ c ∈ chars, Json.isAtomChar c = true := by
  cases spelling with
  | absent => exact fun _ absent => nomatch absent
  | @marked mark negative sign digits marks signs present areDigits =>
      have ofMark : Json.isAtomChar mark = true := by rcases marks with rfl | rfl <;> decide
      have ofSign : ∀ c ∈ sign, Json.isAtomChar c = true := by
        cases signs <;> exact List.all_eq_true.mp rfl
      simp only [List.cons_append, List.forall_mem_cons, List.forall_mem_append]
      exact ⟨ofMark, ofSign, isAtomChar_digits areDigits⟩

/-- The characters of a number go on with an atom. -/
theorem Spelling.isAtomChar {number : Number} {chars : List Char}
    (spelling : number.Spelling chars) : ∀ c ∈ chars, Json.isAtomChar c = true := by
  cases spelling with
  | @intro negative whole fraction exponent chars form wholeDigits fractionDigits tail =>
      have sign : ∀ c ∈ (if negative then ['-'] else []), Json.isAtomChar c = true := by
        cases negative <;> exact List.all_eq_true.mp rfl
      have point : ∀ c ∈ fractionChars fraction, Json.isAtomChar c = true := by
        unfold fractionChars
        split
        · simp
        · exact List.forall_mem_cons.mpr ⟨by decide, isAtomChar_digits fractionDigits⟩
      simp only [List.forall_mem_append]
      exact ⟨sign, isAtomChar_digits wholeDigits, point, tail.isAtomChar⟩

end Number

theorem Number.Spelling.ne_nil {number : Number} {chars : List Char}
    (spelling : number.Spelling chars) : chars ≠ [] := by
  rintro rfl
  cases ofChars?_of_spelling spelling

/-- A number is not taken for a literal. -/
theorem Token.ofAtom?_of_spelling {number : Number} {chars : List Char}
    (spelling : number.Spelling chars) : Token.ofAtom? chars = some (.number number) := by
  have read := Number.ofChars?_of_spelling spelling
  have other {literal : List Char} (none : Number.ofChars? literal = none) :
      chars ≠ literal := by
    rintro rfl
    cases none.symm.trans read
  rw [ofAtom?, if_neg (other (by decide)), if_neg (other (by decide)), if_neg (other (by decide)),
    read]
  rfl

/-! ## Tokens -/

namespace Token

/-- Whether a token would run together with another one of this kind. -/
def isAtom : Token → Bool
  | null | bool _ | number _ => true
  | leftBrace | rightBrace | leftBracket | rightBracket | colon | comma | text _ => false

/-- The spellings of a token. -/
inductive Spelling : Token → List Char → Prop
  | punctuation {c : Char} {token : Token} (marks : punctuation? c = some token) :
      Spelling token [c]
  | null : Spelling .null ['n', 'u', 'l', 'l']
  | true : Spelling (.bool true) ['t', 'r', 'u', 'e']
  | false : Spelling (.bool false) ['f', 'a', 'l', 's', 'e']
  | number {number : Number} {chars : List Char} (spelling : number.Spelling chars) :
      Spelling (.number number) chars
  | text {pieces : List Piece} {chars : List Char} (spell : Piece.Spell pieces chars)
      {value : String} (denotes : Piece.Denotes pieces value.toList) :
      Spelling (.text (some value)) ('"' :: chars ++ ['"'])
  /-- A text with a surrogate that stands alone. -/
  | broken {pieces : List Piece} {chars : List Char} (spell : Piece.Spell pieces chars)
      (breaks : ∀ characters, ¬ Piece.Denotes pieces characters) :
      Spelling (.text none) ('"' :: chars ++ ['"'])

/-- A spelling of a token at the front of a text is read as the token. -/
theorem Spelling.read {token : Token} {chars : List Char} (spelling : Spelling token chars)
    {rest : List Char} (apart : token.isAtom = Bool.true → EndsAtom rest) :
    tokensFrom .between (chars ++ rest) = (token :: ·) <$> tokensFrom .between rest := by
  cases spelling with
  | @punctuation c _ marks =>
      have entered : enter c = ([token], .between) := by
        unfold punctuation? at marks
        split at marks <;> cases marks <;> rfl
      simp only [List.cons_append, List.nil_append, tokensFrom, advance, entered,
        Option.bind_eq_bind, Option.bind_some, Option.pure_def]
      cases tokensFrom .between rest <;> rfl
  | null | true | false =>
      exact read_atom (List.all_eq_true.mp rfl) (by decide) (by decide) (apart rfl)
  | number spelling =>
      exact read_atom spelling.isAtomChar spelling.ne_nil (ofAtom?_of_spelling spelling)
        (apart rfl)
  | text spell denotes =>
      have read := read_quoted spell rest
      rw [Piece.decode_eq_some.mpr denotes] at read
      simpa using read
  | broken spell breaks =>
      have read := read_quoted spell rest
      have none : Piece.decode _ = none :=
        Option.eq_none_iff_forall_ne_some.mpr fun characters decoded =>
          breaks characters (Piece.decode_eq_some.mp decoded)
      rw [none] at read
      exact read

/-- A token that is no atom is not taken for a part of one. -/
theorem Spelling.endsAtom {token : Token} {chars : List Char} (spelling : Spelling token chars)
    (plain : token.isAtom = Bool.false) (rest : List Char) : EndsAtom (chars ++ rest) := by
  cases spelling with
  | @punctuation c _ marks =>
      rintro _ ⟨⟩
      simp [isAtomChar, marks]
  | null | true | false | number => cases plain
  | text | broken =>
      rintro _ ⟨⟩
      decide

end Token

/-! ## Texts -/

def AreBlanks (chars : List Char) : Prop :=
  ∀ c ∈ chars, isBlank c = true

/-- The texts that spell tokens: spellings of the tokens, with blanks before each and at the
end. -/
inductive Spell : List Token → List Char → Prop
  | nil {blanks : List Char} (areBlanks : AreBlanks blanks) : Spell [] blanks
  | cons {token : Token} {tokens : List Token} {blanks chars rest : List Char}
      (areBlanks : AreBlanks blanks) (first : token.Spelling chars) (later : Spell tokens rest) :
      Spell (token :: tokens) (blanks ++ (chars ++ rest))

/-- No two atoms follow each other. -/
abbrev Separated (tokens : List Token) : Prop :=
  tokens.IsChain fun first next => ¬ (first.isAtom = true ∧ next.isAtom = true)

theorem read_blanks {blanks : List Char} (areBlanks : AreBlanks blanks) (rest : List Char) :
    tokensFrom .between (blanks ++ rest) = tokensFrom .between rest := by
  induction blanks with
  | nil => rfl
  | cons blank later inductionHypothesis =>
      obtain ⟨own, others⟩ := List.forall_mem_cons.mp areBlanks
      have next := inductionHypothesis others
      simp [tokensFrom, advance, enter, own, next]

theorem endsAtom_blanks {blanks : List Char} (areBlanks : AreBlanks blanks) {rest : List Char}
    (ends : EndsAtom rest) : EndsAtom (blanks ++ rest) := by
  cases blanks with
  | nil => exact ends
  | cons blank later =>
      rintro _ ⟨⟩
      simp [isAtomChar, areBlanks blank List.mem_cons_self]

/-- A text that spells tokens does not go on with an atom that came before them. -/
theorem Spell.endsAtom {tokens : List Token} {chars : List Char} (spell : Spell tokens chars)
    (plain : ∀ token ∈ tokens.head?, token.isAtom = false) : EndsAtom chars := by
  cases spell with
  | @nil blanks areBlanks =>
      have atEnd : EndsAtom [] := fun _ absent => nomatch absent
      have ends := endsAtom_blanks areBlanks atEnd
      rwa [List.append_nil] at ends
  | cons areBlanks first later =>
      exact endsAtom_blanks areBlanks (first.endsAtom (plain _ rfl) _)

/-- Every spelling of tokens is read as the tokens. -/
theorem tokens?_of_spell {tokens : List Token} {chars : List Char} (spell : Spell tokens chars)
    (separated : Separated tokens) : tokens? chars = some tokens := by
  unfold tokens?
  induction spell with
  | @nil blanks areBlanks =>
      have read := read_blanks areBlanks []
      rwa [List.append_nil] at read
  | @cons token tokens blanks chars rest areBlanks first later inductionHypothesis =>
      obtain ⟨apart, others⟩ := List.isChain_cons.mp separated
      rw [read_blanks areBlanks, first.read, inductionHypothesis others]
      · rfl
      · intro atom
        refine later.endsAtom fun next follows => ?_
        have notBoth := apart next follows
        simpa [atom] using notBoth

/-! ## Compact texts -/

/-- The compact spelling of a token. -/
def Token.toChars : Token → List Char
  | leftBrace => ['{']
  | rightBrace => ['}']
  | leftBracket => ['[']
  | rightBracket => [']']
  | colon => [':']
  | comma => [',']
  | null => ['n', 'u', 'l', 'l']
  | bool true => ['t', 'r', 'u', 'e']
  | bool false => ['f', 'a', 'l', 's', 'e']
  | number literal => literal.toChars
  | text value => quote value

/-- Whether a character in quotes is escaped with its code. -/
def IsCoded (c : Char) : Prop :=
  c.toNat < 0x20 ∧ c ≠ '\x08' ∧ c ≠ '\t' ∧ c ≠ '\n' ∧ c ≠ '\x0c' ∧ c ≠ '\r'

instance (c : Char) : Decidable (IsCoded c) :=
  inferInstanceAs (Decidable (_ ∧ _))

/-- The piece that is written for a character in quotes. -/
def quotedPiece (c : Char) : Piece :=
  if IsCoded c then .unit c.toNat else .char c

theorem hexDigit?_hexDigitChar {digit : Nat} (small : digit < 16) :
    hexDigit? (hexDigitChar digit) = some digit := by
  decide +revert

theorem quoteChar_of_isCoded {c : Char} (coded : IsCoded c) :
    quoteChar c =
      ['\\', 'u', '0', '0', hexDigitChar (c.toNat / 16), hexDigitChar (c.toNat % 16)] := by
  obtain ⟨small, notBackspace, notTab, notNewline, notFormFeed, notReturn⟩ := coded
  have notQuote : c ≠ '"' := by
    rintro rfl
    exact absurd small (by decide)
  have notBackslash : c ≠ '\\' := by
    rintro rfl
    exact absurd small (by decide)
  simp only [quoteChar, notQuote, notBackslash, notBackspace, notTab, notNewline, notFormFeed,
    notReturn, small, ↓reduceIte]

theorem spelling_quoteChar (c : Char) : (quotedPiece c).Spelling (quoteChar c) := by
  unfold quotedPiece
  split
  · next coded =>
    have small : c.toNat < 0x20 := coded.1
    have value : 16 * (16 * (16 * 0 + 0) + c.toNat / 16) + c.toNat % 16 = c.toNat := by omega
    have zero : hexDigit? '0' = some 0 := rfl
    have spelling := Piece.Spelling.unit zero zero
      (hexDigit?_hexDigitChar (by omega : c.toNat / 16 < 16))
      (hexDigit?_hexDigitChar (by omega : c.toNat % 16 < 16))
    rwa [value, ← quoteChar_of_isCoded coded] at spelling
  · next direct =>
    unfold quoteChar
    split_ifs with quote backslash backspace tab newline formFeed carriage small
    all_goals subst_vars
    iterate 7 exact .letter rfl
    · exact absurd ⟨small, backspace, tab, newline, formFeed, carriage⟩ direct
    · exact .plain (Nat.not_lt.mp small) quote backslash

theorem denotes_quotedPiece (chars : List Char) :
    Piece.Denotes (chars.map quotedPiece) chars := by
  induction chars with
  | nil => exact .nil
  | cons c rest inductionHypothesis =>
      rw [List.map_cons, quotedPiece]
      split
      · next coded =>
        have small : c.toNat < 0x20 := coded.1
        have plain : Piece.isHigh c.toNat = false ∧ Piece.isLow c.toNat = false := by
          simp only [Piece.isHigh, Piece.isLow, Bool.and_eq_false_iff, decide_eq_false_iff_not]
          omega
        have denotes := Piece.Denotes.unit plain inductionHypothesis
        rwa [Char.ofNat_toNat] at denotes
      · exact .char c inductionHypothesis

theorem spell_quoted (chars : List Char) :
    Piece.Spell (chars.map quotedPiece) (chars.flatMap quoteChar) := by
  induction chars with
  | nil => exact .nil
  | cons c rest inductionHypothesis => exact .cons (spelling_quoteChar c) inductionHypothesis

/-- A lone surrogate stands for no characters. -/
theorem not_denotes_surrogate (chars : List Char) : ¬ Piece.Denotes [.unit 0xD800] chars := by
  intro denotes
  cases denotes.decode

theorem Token.spelling_toChars (token : Token)
    (wellFormed : ∀ literal, token = .number literal → literal.WellFormed) :
    token.Spelling token.toChars := by
  cases token with
  | leftBrace | rightBrace | leftBracket | rightBracket | colon | comma => exact .punctuation rfl
  | null => exact .null
  | bool value =>
      cases value with
      | true => exact .true
      | false => exact .false
  | number literal => exact .number (wellFormed literal rfl).spelling
  | text value =>
      cases value with
      | some characters =>
          exact .text (spell_quoted characters.toList) (denotes_quotedPiece characters.toList)
      | none =>
          have spelled : Piece.Spell [.unit 0xD800] ['\\', 'u', 'd', '8', '0', '0'] :=
            .cons (.unit (a := 0xD) (b := 8) (c := 0) (d := 0) rfl rfl rfl rfl) .nil
          exact .broken spelled not_denotes_surrogate

/-- The compact spellings of tokens, one after another, spell the tokens. -/
theorem spell_toChars {tokens : List Token}
    (wellFormed : ∀ literal, .number literal ∈ tokens → literal.WellFormed) :
    Spell tokens (tokens.flatMap Token.toChars) := by
  induction tokens with
  | nil => exact .nil fun _ absent => nomatch absent
  | cons token rest inductionHypothesis =>
      have noBlanks : AreBlanks [] := fun _ absent => nomatch absent
      have own := token.spelling_toChars fun literal is =>
        wellFormed literal (is ▸ List.mem_cons_self)
      have later := inductionHypothesis fun literal member =>
        wellFormed literal (List.mem_cons_of_mem _ member)
      exact .cons noBlanks own later

end ParameterServer.Text.Json

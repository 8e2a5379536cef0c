import ParameterServer.Text.Json.Number

/-!
# Tokens of a JSON text

The characters of a text are read one at a time.  Outside quotes, a maximal run of
characters that are neither blank nor punctuation is an atom, which must be a
literal or a number.
-/

namespace ParameterServer.Text.Json

/-- A lexical unit.  A quoted text has no value when it holds the escape of a lone
surrogate. -/
inductive Token where
  | leftBrace
  | rightBrace
  | leftBracket
  | rightBracket
  | colon
  | comma
  | null
  | bool (value : Bool)
  | number (literal : Number)
  | text (value : Option String)
deriving DecidableEq, Repr

/-! ## Quoted texts -/

/-- A character of a quoted text, or a 16-bit unit written as an escape. -/
inductive Piece where
  | char (value : Char)
  | unit (value : Nat)
deriving DecidableEq, Repr

namespace Piece

def isHigh (value : Nat) : Bool := 0xD800 ≤ value && value < 0xDC00

def isLow (value : Nat) : Bool := 0xDC00 ≤ value && value < 0xE000

/-- The characters of a quoted text: two surrogate escapes in a row make one
character, and a surrogate escape on its own makes none. -/
def decode : List Piece → Option (List Char)
  | [] => some []
  | char c :: rest => do return c :: (← decode rest)
  | unit high :: unit low :: rest =>
      if isHigh high then
        if isLow low then do
          let value := 0x10000 + (high - 0xD800) * 0x400 + (low - 0xDC00)
          return Char.ofNat value :: (← decode rest)
        else
          none
      else if isLow high then none
      else do return Char.ofNat high :: (← decode (unit low :: rest))
  | unit value :: rest =>
      if isHigh value || isLow value then none
      else do return Char.ofNat value :: (← decode rest)

end Piece

/-- The character that a one-letter escape stands for. -/
def escaped? : Char → Option Char
  | '"' => some '"'
  | '\\' => some '\\'
  | '/' => some '/'
  | 'b' => some '\x08'
  | 'f' => some '\x0c'
  | 'n' => some '\n'
  | 'r' => some '\r'
  | 't' => some '\t'
  | _ => none

/-- The value of a hexadecimal digit of either case. -/
def hexDigit? (c : Char) : Option Nat :=
  if '0' ≤ c ∧ c ≤ '9' then some (c.toNat - '0'.toNat)
  else if 'a' ≤ c ∧ c ≤ 'f' then some (c.toNat - 'a'.toNat + 10)
  else if 'A' ≤ c ∧ c ≤ 'F' then some (c.toNat - 'A'.toNat + 10)
  else none

/-! ## The lexer -/

/-- What the characters read last are part of; what they hold stands in reverse. -/
inductive Mode where
  | between
  | atom (letters : List Char)
  | quoted (pieces : List Piece)
  | escape (pieces : List Piece)
  | unit (pieces : List Piece) (digits value : Nat)
deriving DecidableEq, Repr

def isBlank (c : Char) : Bool :=
  c = ' ' || c = '\t' || c = '\n' || c = '\r'

def punctuation? : Char → Option Token
  | '{' => some .leftBrace
  | '}' => some .rightBrace
  | '[' => some .leftBracket
  | ']' => some .rightBracket
  | ':' => some .colon
  | ',' => some .comma
  | _ => none

/-- Whether a character goes on with an atom. -/
def isAtomChar (c : Char) : Bool :=
  !isBlank c && (punctuation? c).isNone && c != '"'

/-- The token that an atom is. -/
def Token.ofAtom? (letters : List Char) : Option Token :=
  if letters = ['n', 'u', 'l', 'l'] then some .null
  else if letters = ['t', 'r', 'u', 'e'] then some (.bool true)
  else if letters = ['f', 'a', 'l', 's', 'e'] then some (.bool false)
  else Token.number <$> Number.ofChars? letters

/-- The tokens that a character completes outside quotes and atoms, and what it
starts. -/
def enter (c : Char) : List Token × Mode :=
  if isBlank c then ([], .between)
  else
    match punctuation? c with
    | some token => ([token], .between)
    | none => if c = '"' then ([], .quoted []) else ([], .atom [c])

/-- The tokens completed by one character, and the mode after it. -/
def advance (mode : Mode) (c : Char) : Option (List Token × Mode) :=
  match mode with
  | .between => some (enter c)
  | .atom letters =>
      if isAtomChar c then
        some ([], .atom (c :: letters))
      else do
        let token ← Token.ofAtom? letters.reverse
        let (tokens, next) := enter c
        return (token :: tokens, next)
  | .quoted pieces =>
      if c = '"' then
        some ([.text (String.ofList <$> Piece.decode pieces.reverse)], .between)
      else if c = '\\' then some ([], .escape pieces)
      else if c.toNat < 0x20 then none
      else some ([], .quoted (.char c :: pieces))
  | .escape pieces =>
      if c = 'u' then some ([], .unit pieces 0 0)
      else do return ([], .quoted (.char (← escaped? c) :: pieces))
  | .unit pieces digits value => do
      let extended := 16 * value + (← hexDigit? c)
      if digits = 3 then return ([], .quoted (.unit extended :: pieces))
      else return ([], .unit pieces (digits + 1) extended)

/-- The tokens that the end of the text completes. -/
def finish : Mode → Option (List Token)
  | .between => some []
  | .atom letters => do return [← Token.ofAtom? letters.reverse]
  | _ => none

/-- The tokens of a text whose first part has led to `mode`. -/
def tokensFrom (mode : Mode) : List Char → Option (List Token)
  | [] => finish mode
  | c :: rest => do
      let (tokens, next) ← advance mode c
      return tokens ++ (← tokensFrom next rest)

/-- The tokens of a text. -/
def tokens? (text : List Char) : Option (List Token) :=
  tokensFrom .between text

end ParameterServer.Text.Json

import ParameterServer.Text.Json.Token

/-!
# JSON values

Tokens are read by a machine with a stack of open arrays and objects, so that the
depth of a text is bounded only by its length.
-/

namespace ParameterServer.Text

/-- A JSON value.  The members of an object keep their order and their repetitions;
a text or a key with a lone surrogate has no value. -/
inductive Json where
  | null
  | bool (value : Bool)
  | number (literal : Json.Number)
  | text (value : Option String)
  | array (items : List Json)
  | object (members : List (Option String × Json))

namespace Json

/-! ## Reading -/

/-- An array or an object that is still open; what it holds stands in reverse. -/
inductive Frame where
  | array (items : List Json)
  | object (members : List (Option String × Json)) (key : Option String)

/-- What the tokens read last lead to. -/
inductive Phase where
  /-- A value must follow. -/
  | value
  /-- A first item or the end of the array must follow. -/
  | firstItem
  /-- A key must follow, or the end of an object that has no members yet. -/
  | key (members : List (Option String × Json))
  /-- A colon must follow the key. -/
  | colon (members : List (Option String × Json)) (key : Option String)
  /-- A value is complete. -/
  | complete (value : Json)

/-- The open arrays and objects, innermost first, and the phase. -/
structure Reader where
  stack : List Frame
  phase : Phase

namespace Reader

/-- The reader before the first token. -/
def start : Reader := ⟨[], .value⟩

/-- The reader after the first token of a value. -/
def open? (stack : List Frame) : Token → Option Reader
  | .null => some ⟨stack, .complete .null⟩
  | .bool value => some ⟨stack, .complete (.bool value)⟩
  | .number literal => some ⟨stack, .complete (.number literal)⟩
  | .text value => some ⟨stack, .complete (.text value)⟩
  | .leftBracket => some ⟨.array [] :: stack, .firstItem⟩
  | .leftBrace => some ⟨stack, .key []⟩
  | _ => none

/-- The reader after a token that follows a complete value. -/
def close? (value : Json) : List Frame → Token → Option Reader
  | .array items :: stack, .comma => some ⟨.array (value :: items) :: stack, .value⟩
  | .array items :: stack, .rightBracket =>
      some ⟨stack, .complete (.array (value :: items).reverse)⟩
  | .object members key :: stack, .comma => some ⟨stack, .key ((key, value) :: members)⟩
  | .object members key :: stack, .rightBrace =>
      some ⟨stack, .complete (.object ((key, value) :: members).reverse)⟩
  | _, _ => none

/-- The reader after one more token. -/
def step? (reader : Reader) (token : Token) : Option Reader :=
  match reader.phase with
  | .value => open? reader.stack token
  | .firstItem =>
      match reader.stack, token with
      | .array [] :: stack, .rightBracket => some ⟨stack, .complete (.array [])⟩
      | stack, token => open? stack token
  | .key members =>
      match members, token with
      | [], .rightBrace => some ⟨reader.stack, .complete (.object [])⟩
      | members, .text key => some ⟨reader.stack, .colon members key⟩
      | _, _ => none
  | .colon members key =>
      match token with
      | .colon => some ⟨.object members key :: reader.stack, .value⟩
      | _ => none
  | .complete value => close? value reader.stack token

/-- The value read, when nothing is open any more. -/
def result? (reader : Reader) : Option Json :=
  match reader.stack, reader.phase with
  | [], .complete value => some value
  | _, _ => none

end Reader

/-- The value that a sequence of tokens writes. -/
def ofTokens? (tokens : List Token) : Option Json := do
  (← tokens.foldlM Reader.step? Reader.start).result?

/-- The value that a text writes. -/
def parse? (text : String) : Option Json := do
  ofTokens? (← tokens? text.toList)

/-! ## Writing -/

/-- A lower-case hexadecimal digit. -/
def hexDigitChar (digit : Nat) : Char :=
  if digit < 10 then Char.ofNat ('0'.toNat + digit)
  else Char.ofNat ('a'.toNat + (digit - 10))

/-- A character inside quotes.  Only the quote, the backslash and the control
characters are escaped. -/
def quoteChar (c : Char) : List Char :=
  if c = '"' then ['\\', '"']
  else if c = '\\' then ['\\', '\\']
  else if c = '\x08' then ['\\', 'b']
  else if c = '\t' then ['\\', 't']
  else if c = '\n' then ['\\', 'n']
  else if c = '\x0c' then ['\\', 'f']
  else if c = '\r' then ['\\', 'r']
  else if c.toNat < 0x20 then
    ['\\', 'u', '0', '0', hexDigitChar (c.toNat / 16), hexDigitChar (c.toNat % 16)]
  else [c]

/-- A text in quotes; a text without a value is written as a lone surrogate. -/
def quote : Option String → List Char
  | some characters => '"' :: characters.toList.flatMap quoteChar ++ ['"']
  | none => ['"', '\\', 'u', 'd', '8', '0', '0', '"']

mutual

/-- The compact text of a value. -/
def toChars : Json → List Char
  | null => ['n', 'u', 'l', 'l']
  | bool true => ['t', 'r', 'u', 'e']
  | bool false => ['f', 'a', 'l', 's', 'e']
  | number literal => literal.toChars
  | text value => quote value
  | array items => '[' :: itemsToChars items ++ [']']
  | object members => '{' :: membersToChars members ++ ['}']

/-- Items with commas between them. -/
def itemsToChars : List Json → List Char
  | [] => []
  | [item] => toChars item
  | item :: rest => toChars item ++ ',' :: itemsToChars rest

/-- A key, a colon and a value. -/
def memberToChars : Option String × Json → List Char
  | (key, value) => quote key ++ ':' :: toChars value

/-- Members with commas between them. -/
def membersToChars : List (Option String × Json) → List Char
  | [] => []
  | [entry] => memberToChars entry
  | entry :: rest => memberToChars entry ++ ',' :: membersToChars rest

end

/-- The compact text of a value. -/
def render (value : Json) : String :=
  String.ofList value.toChars

end Json

end ParameterServer.Text

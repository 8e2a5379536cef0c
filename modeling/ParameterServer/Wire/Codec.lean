import ParameterServer.Text.Utf8

/-!
# The wire format

A codec is a writer and a reader of one type.  Numbers have a fixed width and
travel with the least significant byte first; text and lists are preceded by
their length as eight bytes.  A reader returns the bytes it did not use.
-/

namespace ParameterServer.Wire

/-- Why a reader refuses its bytes. -/
inductive Flaw where
  /-- A value of fixed width is cut short. -/
  | truncated
  /-- The bytes of a text are fewer than its length. -/
  | shortText
  | invalidText (flaw : Text.Utf8.Flaw)
  | invalidBool (byte : UInt8)
  | invalidPresence (byte : UInt8)
deriving DecidableEq, Repr

/-- The text shown for a flaw. -/
def Flaw.message : Flaw → String
  | truncated => "io error: unexpected end of file"
  | shortText => "io error: "
  | invalidText flaw => s!"string is not valid utf8: {flaw.message}"
  | invalidBool byte =>
      s!"invalid u8 while decoding bool, expected 0 or 1, found {byte}"
  | invalidPresence byte => s!"tag for enum is not valid, found {byte}"

/-- The `width` bytes of a number, least significant first. -/
def putWord : (width : Nat) → Nat → List UInt8
  | 0, _ => []
  | width + 1, value => UInt8.ofNat (value % 256) :: putWord width (value / 256)

/-- Reads a number of `width` bytes. -/
def takeWord : (width : Nat) → List UInt8 → Except Flaw (Nat × List UInt8)
  | 0, bytes => .ok (0, bytes)
  | _ + 1, [] => .error .truncated
  | width + 1, byte :: bytes => do
      let (high, rest) ← takeWord width bytes
      return (byte.toNat + 256 * high, rest)

/-- A writer and a reader of one type. -/
structure Codec (α : Type) where
  encode : α → List UInt8
  decode : List UInt8 → Except Flaw (α × List UInt8)

namespace Codec

/-- A 32-bit word. -/
def word32 : Codec UInt32 where
  encode value := putWord 4 value.toNat
  decode bytes := do
    let (value, rest) ← takeWord 4 bytes
    return (UInt32.ofNat value, rest)

/-- A 64-bit word. -/
def word64 : Codec UInt64 where
  encode value := putWord 8 value.toNat
  decode bytes := do
    let (value, rest) ← takeWord 8 bytes
    return (UInt64.ofNat value, rest)

/-- A truth value: the byte 1 or the byte 0. -/
def bool : Codec Bool where
  encode value := [if value then 1 else 0]
  decode
    | [] => .error .truncated
    | byte :: rest =>
        if byte = 0 then .ok (false, rest)
        else if byte = 1 then .ok (true, rest)
        else .error (.invalidBool byte)

/-- A text: the length of its bytes, then the bytes. -/
def text : Codec String where
  encode value :=
    let bytes := Text.Utf8.encode value
    putWord 8 bytes.length ++ bytes
  decode bytes := do
    let (length, body) ← takeWord 8 bytes
    if body.length < length then
      throw .shortText
    else
      match Text.Utf8.decode (body.take length) with
      | .ok value => return (value, body.drop length)
      | .error flaw => throw (.invalidText flaw)

/-- Reads `count` values one after another. -/
def decodeMany {α : Type} (decode : List UInt8 → Except Flaw (α × List UInt8)) :
    (count : Nat) → List UInt8 → Except Flaw (List α × List UInt8)
  | 0, bytes => .ok ([], bytes)
  | count + 1, bytes => do
      let (value, middle) ← decode bytes
      let (values, rest) ← decodeMany decode count middle
      return (value :: values, rest)

/-- A list: its length, then its elements. -/
def list {α : Type} (element : Codec α) : Codec (List α) where
  encode values := putWord 8 values.length ++ values.flatMap element.encode
  decode bytes := do
    let (count, body) ← takeWord 8 bytes
    decodeMany element.decode count body

/-- A value that may be absent: the byte 0, or the byte 1 and the value. -/
def option {α : Type} (element : Codec α) : Codec (Option α) where
  encode
    | none => [0]
    | some value => 1 :: element.encode value
  decode
    | [] => .error .truncated
    | byte :: bytes =>
        if byte = 0 then
          .ok (none, bytes)
        else if byte = 1 then do
          let (value, rest) ← element.decode bytes
          return (some value, rest)
        else
          .error (.invalidPresence byte)

/-- Two values in order. -/
def pair {α β : Type} (first : Codec α) (second : Codec β) : Codec (α × β) where
  encode value := first.encode value.1 ++ second.encode value.2
  decode bytes := do
    let (left, middle) ← first.decode bytes
    let (right, rest) ← second.decode middle
    return ((left, right), rest)

/-- No bytes at all. -/
def unit : Codec Unit where
  encode _ := []
  decode bytes := .ok ((), bytes)

/-- The codec of a type that another one stands for. -/
def via {α β : Type} (codec : Codec α) (wrap : α → β) (unwrap : β → α) :
    Codec β where
  encode value := codec.encode (unwrap value)
  decode bytes := do
    let (value, rest) ← codec.decode bytes
    return (wrap value, rest)

end Codec

end ParameterServer.Wire

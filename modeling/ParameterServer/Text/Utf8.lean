/-!
# UTF-8

Reading text from bytes, one byte at a time.  A sequence that is still open is
kept as a `Pending` value with the range its next byte must lie in, so that
overlong forms, surrogates and values past `U+10FFFF` are refused at the first
byte that gives them away.
-/

namespace ParameterServer.Text.Utf8

/-- Why bytes are not text.  `index` counts the bytes before the faulty sequence,
all of which are text; `width` counts the bytes that are certainly broken. -/
inductive Flaw where
  | broken (width index : Nat)
  | incomplete (index : Nat)
deriving DecidableEq, Repr

/-- The text shown for a flaw. -/
def Flaw.message : Flaw → String
  | broken width index =>
      s!"invalid utf-8 sequence of {width} bytes from index {index}"
  | incomplete index => s!"incomplete utf-8 byte sequence from index {index}"

/-- A sequence whose first bytes have been read. -/
structure Pending where
  /-- Bytes still to come; at least one. -/
  missing : Nat
  /-- Least value the next byte may have. -/
  low : UInt8
  /-- Greatest value the next byte may have. -/
  high : UInt8
  /-- Bytes read so far. -/
  seen : Nat
  /-- The bits collected so far. -/
  value : Nat
deriving DecidableEq, Repr

/-- The sequence that a byte above `0x7F` opens, if it opens one. -/
def lead? (byte : UInt8) : Option Pending :=
  let value := byte.toNat
  if byte < 0xC2 then none
  else if byte < 0xE0 then some ⟨1, 0x80, 0xBF, 1, value - 0xC0⟩
  else if byte = 0xE0 then some ⟨2, 0xA0, 0xBF, 1, value - 0xE0⟩
  else if byte = 0xED then some ⟨2, 0x80, 0x9F, 1, value - 0xE0⟩
  else if byte < 0xF0 then some ⟨2, 0x80, 0xBF, 1, value - 0xE0⟩
  else if byte = 0xF0 then some ⟨3, 0x90, 0xBF, 1, value - 0xF0⟩
  else if byte < 0xF4 then some ⟨3, 0x80, 0xBF, 1, value - 0xF0⟩
  else if byte = 0xF4 then some ⟨3, 0x80, 0x8F, 1, value - 0xF0⟩
  else none

/-- Reads characters from `bytes`; `index` bytes of complete characters and the
bytes of `pending` have been read before. -/
def decodeFrom (index : Nat) (pending : Option Pending) :
    List UInt8 → Except Flaw (List Char)
  | [] =>
      match pending with
      | none => .ok []
      | some _ => .error (.incomplete index)
  | byte :: rest =>
      match pending with
      | none =>
          if byte < 0x80 then do
            return Char.ofNat byte.toNat :: (← decodeFrom (index + 1) none rest)
          else
            match lead? byte with
            | none => .error (.broken 1 index)
            | some opened => decodeFrom index (some opened) rest
      | some opened =>
          if opened.low ≤ byte ∧ byte ≤ opened.high then
            let value := opened.value * 64 + byte.toNat % 64
            if opened.missing ≤ 1 then do
              return Char.ofNat value ::
                (← decodeFrom (index + opened.seen + 1) none rest)
            else
              let grown : Pending :=
                ⟨opened.missing - 1, 0x80, 0xBF, opened.seen + 1, value⟩
              decodeFrom index (some grown) rest
          else
            .error (.broken opened.seen index)

/-- The text that `bytes` hold, or the first flaw. -/
def decode (bytes : List UInt8) : Except Flaw String := do
  return String.ofList (← decodeFrom 0 none bytes)

/-- The bytes of a text. -/
def encode (text : String) : List UInt8 :=
  text.toList.flatMap String.utf8EncodeChar

end ParameterServer.Text.Utf8

import ParameterServer.Error
import ParameterServer.Text.Json.Value

/-!
# JSON forms of types

How values of the library's types are written as JSON and read back.  A record may
be written as an object, with unknown members ignored and known ones at most once,
or as an array of its fields in the order of their declaration.
-/

namespace ParameterServer.Text

/-- A type whose values have a JSON form. -/
class JsonForm (α : Type) where
  toJson : α → Json
  ofJson? : Json → Option α

namespace Json

/-! ## Scalars -/

def toBool? : Json → Option Bool
  | bool value => some value
  | _ => none

/-- The text of a quoted text without lone surrogates. -/
def toText? : Json → Option String
  | text value => value
  | _ => none

/-- The integer of an integer literal. -/
def toInt? : Json → Option Int
  | number literal => literal.toInt?
  | _ => none

/-- The natural number of an integer literal, when it lies below `limit`. -/
def toNatBelow? (limit : Nat) (json : Json) : Option Nat := do
  let value ← json.toInt?
  if 0 ≤ value ∧ value < limit then some value.toNat else none

def toUInt32? (json : Json) : Option UInt32 :=
  UInt32.ofNat <$> json.toNatBelow? UInt32.size

def toUInt64? (json : Json) : Option UInt64 :=
  UInt64.ofNat <$> json.toNatBelow? UInt64.size

def toBinary64? : Json → Option Ieee.Binary64
  | number literal => literal.toBinary64?
  | _ => none

def toItems? : Json → Option (List Json)
  | array items => some items
  | _ => none

def ofText (value : String) : Json := text (some value)

def ofInt (value : Int) : Json := number (.ofInt value)

def ofNat (value : Nat) : Json := ofInt value

/-! ## Records -/

/-- An object with the given members. -/
def record (members : List (String × Json)) : Json :=
  object (members.map (fun entry => (some entry.1, entry.2)))

/-- The known fields that were given, each at most once. -/
abbrev Fields := List (String × Json)

/-- Adds a member to the fields read so far. -/
def addField? (names : List String) (fields : Fields)
    (entry : Option String × Json) : Option Fields := do
  let name ← entry.1
  if name ∈ names then
    if (fields.lookup name).isSome then none
    else some (fields ++ [(name, entry.2)])
  else
    some fields

/-- The fields of a record with the given field names. -/
def fields? (names : List String) : Json → Option Fields
  | object members => members.foldlM (addField? names) []
  | array items =>
      if items.length ≤ names.length then some (names.zip items) else none
  | _ => none

/-- A field that must be given. -/
def Fields.required? {α : Type} (fields : Fields) (name : String)
    (decode : Json → Option α) : Option α := do
  decode (← fields.lookup name)

/-- A field that stands for `default` when it is absent. -/
def Fields.orDefault? {α : Type} (fields : Fields) (name : String) (default : α)
    (decode : Json → Option α) : Option α :=
  match fields.lookup name with
  | none => some default
  | some json => decode json

/-! ## Alternatives -/

/-- The name of an alternative and its contents: a text, or an object with a single
member. -/
def alternative? : Json → Option (String × Option Json)
  | text (some name) => some (name, none)
  | object [(some name, contents)] => some (name, some contents)
  | _ => none

/-- The name of an alternative without contents. -/
def plainAlternative? (json : Json) : Option String := do
  match ← json.alternative? with
  | (name, none) | (name, some null) => some name
  | _ => none

end Json

/-- The compact JSON text of a value. -/
def toJsonText {α : Type} [JsonForm α] (value : α) : String :=
  (JsonForm.toJson value).render

/-- The value that a JSON text writes. -/
def ofJsonText (α : Type) [JsonForm α] (text : String) : Except Error α :=
  match Json.parse? text with
  | none => .error (.serialization "not a JSON text")
  | some json =>
      match JsonForm.ofJson? json with
      | none => .error (.serialization "not of the expected form")
      | some value => .ok value

end ParameterServer.Text

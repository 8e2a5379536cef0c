import ParameterServer.Ieee.Binary32
import ParameterServer.Message
import ParameterServer.Wire.Codec

/-!
# Records

The structured payloads that members exchange, their wire form, and the reading
of a received payload.  Bytes after a record are ignored.
-/

namespace ParameterServer

open Wire (Codec)

/-- A stored parameter: its contents and the number of changes made to it. -/
structure ParamValue where
  version : UInt64 := 0
  data : List Ieee.Binary32 := []
deriving DecidableEq, Repr

/-- A put or an update of one key. -/
structure PutRequest where
  key : String
  value : ParamValue
deriving DecidableEq, Repr

/-- A question for the value of one key. -/
structure GetRequest where
  key : String
deriving DecidableEq, Repr

/-- The answer to a put or an update. -/
structure PutResponse where
  key : String
  accepted : Bool
deriving DecidableEq, Repr

/-- The answer to a get; there is no value when the key is unknown or the handler
declines. -/
structure GetResponse where
  key : String
  value : Option ParamValue
deriving DecidableEq, Repr

/-- The owners of the shards of one table, as pairs of a shard and a rank. -/
structure ShardAssignment where
  table : UInt32
  assignments : List (UInt32 × UInt64)
deriving DecidableEq, Repr

/-- A record without contents, for acknowledgements and shutdown. -/
structure EmptyMessage where
deriving DecidableEq, Repr

/-! ## Wire forms -/

/-- The wire form of a record type. -/
class WireRecord (α : Type) where
  codec : Codec α

namespace Wire

/-- The bytes of a record. -/
def encode {α : Type} [WireRecord α] (record : α) : Payload :=
  (WireRecord.codec : Codec α).encode record

/-- The record at the front of a payload; a refusal names the message's tag. -/
def decode (α : Type) [WireRecord α] (tag : Tag) (payload : Payload) :
    Except Error α :=
  match (WireRecord.codec : Codec α).decode payload with
  | .ok (record, _) => .ok record
  | .error flaw => .error (.malformedMessage tag flaw.message)

end Wire

instance : WireRecord ParamValue where
  codec :=
    (Codec.word64.pair (.list (Codec.word32.via Ieee.Binary32.mk (·.bits)))).via
      (fun fields => ⟨fields.1, fields.2⟩)
      (fun value => (value.version, value.data))

instance : WireRecord PutRequest where
  codec :=
    (Codec.text.pair WireRecord.codec).via
      (fun fields => ⟨fields.1, fields.2⟩)
      (fun record => (record.key, record.value))

instance : WireRecord GetRequest where
  codec := Codec.text.via GetRequest.mk (·.key)

instance : WireRecord PutResponse where
  codec :=
    (Codec.text.pair .bool).via
      (fun fields => ⟨fields.1, fields.2⟩)
      (fun record => (record.key, record.accepted))

instance : WireRecord GetResponse where
  codec :=
    (Codec.text.pair (.option WireRecord.codec)).via
      (fun fields => ⟨fields.1, fields.2⟩)
      (fun record => (record.key, record.value))

instance : WireRecord ShardAssignment where
  codec :=
    (Codec.word32.pair (.list (Codec.word32.pair .word64))).via
      (fun fields => ⟨fields.1, fields.2⟩)
      (fun record => (record.table, record.assignments))

instance : WireRecord EmptyMessage where
  codec := Codec.unit.via (fun _ => EmptyMessage.mk) (fun _ => ())

/-! ## Any record -/

/-- A record of any type. -/
inductive Record where
  | param (value : ParamValue)
  | put (record : PutRequest)
  | get (record : GetRequest)
  | putResponse (record : PutResponse)
  | getResponse (record : GetResponse)
  | shard (record : ShardAssignment)
  | empty (record : EmptyMessage)
deriving DecidableEq, Repr

namespace Record

/-- The types a record can have. -/
inductive Kind where
  | param
  | put
  | get
  | putResponse
  | getResponse
  | shard
  | empty
deriving DecidableEq, Repr

/-- The bytes of a record. -/
def encode : Record → Payload
  | param value => Wire.encode value
  | put record => Wire.encode record
  | get record => Wire.encode record
  | putResponse record => Wire.encode record
  | getResponse record => Wire.encode record
  | shard record => Wire.encode record
  | empty record => Wire.encode record

/-- The record of the given type at the front of a payload. -/
def decode (kind : Kind) (tag : Tag) (payload : Payload) : Except Error Record :=
  match kind with
  | .param => param <$> Wire.decode ParamValue tag payload
  | .put => put <$> Wire.decode PutRequest tag payload
  | .get => get <$> Wire.decode GetRequest tag payload
  | .putResponse => putResponse <$> Wire.decode PutResponse tag payload
  | .getResponse => getResponse <$> Wire.decode GetResponse tag payload
  | .shard => shard <$> Wire.decode ShardAssignment tag payload
  | .empty => empty <$> Wire.decode EmptyMessage tag payload

end Record

end ParameterServer

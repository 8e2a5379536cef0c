import ParameterServer.Record

/-!
# Requests

A request asks for one key.  `Request.ofMessage` reads a whole request, as a
handler gets it; `routingKey` reads only the key, as the queue needs it.
-/

namespace ParameterServer

/-- What a request asks for. -/
inductive Request.Action where
  | put (value : ParamValue)
  | update (value : ParamValue)
  | get
deriving DecidableEq, Repr

/-- A request of `source` for `key`. -/
structure Request where
  source : Rank
  key : String
  action : Request.Action
deriving DecidableEq, Repr

namespace Request

/-- The tag that the action travels under. -/
def tag (request : Request) : Tag :=
  match request.action with
  | .put _ => .putRequest
  | .update _ => .updateRequest
  | .get => .getRequest

/-- The value that a put or an update carries. -/
def value? (request : Request) : Option ParamValue :=
  match request.action with
  | .put value | .update value => some value
  | .get => none

/-- Reads the request that a message holds. -/
def ofMessage (message : Message) : Except Error Request :=
  match message.tag with
  | .putRequest => do
      let body ← Wire.decode PutRequest message.tag message.payload
      return ⟨message.source, body.key, .put body.value⟩
  | .getRequest => do
      let body ← Wire.decode GetRequest message.tag message.payload
      return ⟨message.source, body.key, .get⟩
  | .updateRequest => do
      let body ← Wire.decode PutRequest message.tag message.payload
      return ⟨message.source, body.key, .update body.value⟩
  | other => .error (.unknownTag other)

end Request

/-- The key that a request payload is scheduled under. -/
def routingKey (tag : Tag) (payload : Payload) : Except Error String :=
  match tag with
  | .getRequest => (·.key) <$> Wire.decode GetRequest tag payload
  | .putRequest | .updateRequest => (·.key) <$> Wire.decode PutRequest tag payload
  | other => .error (.unknownTag other)

/-- The key that a request message is scheduled under. -/
def Message.routingKey (message : Message) : Except Error String :=
  ParameterServer.routingKey message.tag message.payload

end ParameterServer

import ParameterServer.Handler.Registry
import ParameterServer.Request

/-!
# Table servers

A table server keeps one value per key and answers every request with one reply.
What becomes of the values is decided by its handler.
-/

namespace ParameterServer

/-- What a table server has counted.  `rejected` counts the requests that the
handler, or the lack of a value, declined. -/
structure TableStats where
  puts : Nat := 0
  gets : Nat := 0
  updates : Nat := 0
  rejected : Nat := 0
  checkpointsDue : Nat := 0
  keys : Nat := 0
deriving DecidableEq, Repr

/-- The answer to a request. -/
inductive Reply where
  | put (response : PutResponse)
  | get (response : GetResponse)
deriving DecidableEq, Repr

namespace Reply

/-- The tag that the answer travels under. -/
def tag : Reply → Tag
  | put _ => .putResponse
  | get _ => .getResponse

def payload : Reply → Payload
  | put response => Wire.encode response
  | get response => Wire.encode response

end Reply

/-- A table with its handler's state. -/
structure TableServer (η : Type) where
  handler : η
  /-- The stored values, in the order of their first appearance. -/
  table : List (String × ParamValue) := []
  stats : TableStats := {}
deriving DecidableEq, Repr

namespace TableServer

variable {η : Type}

/-! ## Construction -/

/-- A server for a handler, which is set up with a valid configuration. -/
def ofHandler (handler : ValueHandler η) (config : TableConfig) (fresh : η) :
    Except Error (TableServer η) := do
  config.validate
  return { handler := ← handler.setup config fresh }

/-- A server for the handler that a valid configuration names. -/
def ofRegistry (handler : ValueHandler η) (registry : HandlerRegistry η)
    (config : TableConfig) : Except Error (TableServer η) := do
  config.validate
  return { handler := ← registry.createConfigured handler config }

/-! ## The table -/

/-- The stored value of a key. -/
def value? (key : String) (server : TableServer η) : Option ParamValue :=
  server.table.lookup key

/-- The number of stored keys. -/
def size (server : TableServer η) : Nat :=
  server.table.length

/-- Stores a value in place of the key's earlier one, or at the end. -/
def store (key : String) (value : ParamValue) :
    List (String × ParamValue) → List (String × ParamValue)
  | [] => [(key, value)]
  | (other, earlier) :: rest =>
      if other = key then (other, value) :: rest
      else (other, earlier) :: store key value rest

/-! ## Requests -/

/-- Merges a value into the stored one.  What the handler leaves is stored even when
it declines. -/
def merge (handler : ValueHandler η) (key : String) (stored incoming : ParamValue)
    (server : TableServer η) : Bool × TableServer η :=
  let verdict := handler.update stored incoming server.handler
  (verdict.accepted,
    { server with
      handler := verdict.handler
      table := store key verdict.value server.table })

/-- Gives a key its first value, if the handler accepts it. -/
def initialise (handler : ValueHandler η) (key : String) (incoming : ParamValue)
    (server : TableServer η) : Bool × TableServer η :=
  let verdict := handler.put key {} incoming server.handler
  let asked := { server with handler := verdict.handler }
  if verdict.accepted then
    let table := store key verdict.value server.table
    (true, { asked with table, stats := { server.stats with keys := table.length } })
  else
    (false, asked)

/-- Asks whether the value of a key is due for a checkpoint, and counts it. -/
def checkCheckpoint (handler : ValueHandler η) (key : String)
    (server : TableServer η) : TableServer η :=
  match server.value? key with
  | none => server
  | some value =>
      let (due, asked) := handler.checkpointNow key value server.handler
      { server with
        handler := asked
        stats :=
          { server.stats with
            checkpointsDue := server.stats.checkpointsDue + due.toNat } }

/-- Counts a declined request. -/
def reject (server : TableServer η) : TableServer η :=
  { server with stats := { server.stats with rejected := server.stats.rejected + 1 } }

/-- The reply to a put or an update, after which an accepted value is considered for
a checkpoint. -/
def conclude (handler : ValueHandler η) (key : String)
    (outcome : Bool × TableServer η) : Reply × TableServer η :=
  let (accepted, server) := outcome
  (.put ⟨key, accepted⟩,
    if accepted then server.checkCheckpoint handler key else server.reject)

/-- Answers a put: the first one of a key gives it a value, and a later one counts
as an update of it. -/
def answerPut (handler : ValueHandler η) (key : String) (incoming : ParamValue)
    (server : TableServer η) : Reply × TableServer η :=
  let counted :=
    { server with stats := { server.stats with puts := server.stats.puts + 1 } }
  conclude handler key <|
    match counted.value? key with
    | some stored => counted.merge handler key stored incoming
    | none => counted.initialise handler key incoming

/-- Answers an update, which is declined for an unknown key. -/
def answerUpdate (handler : ValueHandler η) (key : String) (incoming : ParamValue)
    (server : TableServer η) : Reply × TableServer η :=
  let counted :=
    { server with stats := { server.stats with updates := server.stats.updates + 1 } }
  conclude handler key <|
    match counted.value? key with
    | some stored => counted.merge handler key stored incoming
    | none => (false, counted)

/-- Answers a get.  An unknown key has no value and does not count as declined. -/
def answerGet (handler : ValueHandler η) (key : String) (server : TableServer η) :
    Reply × TableServer η :=
  let counted :=
    { server with stats := { server.stats with gets := server.stats.gets + 1 } }
  match counted.value? key with
  | none => (.get ⟨key, none⟩, counted)
  | some stored =>
      let verdict := handler.get key stored {} counted.handler
      let asked := { counted with handler := verdict.handler }
      if verdict.accepted then (.get ⟨key, some verdict.value⟩, asked)
      else (.get ⟨key, none⟩, asked.reject)

/-- Answers a request. -/
def answer (handler : ValueHandler η) (request : Request) (server : TableServer η) :
    Reply × TableServer η :=
  match request.action with
  | .put incoming => server.answerPut handler request.key incoming
  | .update incoming => server.answerUpdate handler request.key incoming
  | .get => server.answerGet handler request.key

end TableServer

end ParameterServer

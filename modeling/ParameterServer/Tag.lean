/-!
# Message tags

A tag is a small integer that fixes what a message means.  Tags below
`Tag.limit` are known to the engine; three of them are requests, which are
scheduled, and two are control messages, which are announced before they are
buffered.
-/

namespace ParameterServer

/-- The integer that fixes what a message means. -/
structure Tag where
  code : Int
deriving DecidableEq, Repr

namespace Tag

@[match_pattern] abbrev putRequest : Tag := ⟨1⟩
@[match_pattern] abbrev getRequest : Tag := ⟨2⟩
@[match_pattern] abbrev putResponse : Tag := ⟨3⟩
@[match_pattern] abbrev getResponse : Tag := ⟨4⟩
@[match_pattern] abbrev updateRequest : Tag := ⟨5⟩
@[match_pattern] abbrev shardAssignment : Tag := ⟨6⟩
@[match_pattern] abbrev registerWorker : Tag := ⟨7⟩
@[match_pattern] abbrev workerShutdown : Tag := ⟨8⟩

/-- The tag of a barrier acknowledgement. -/
@[match_pattern] abbrev empty : Tag := ⟨9⟩

/-- Every known tag lies below this bound. -/
def limit : Nat := 32

/-- The position of a known tag; `none` for a tag outside `0, ..., limit - 1`. -/
def index? (tag : Tag) : Option Nat :=
  if 0 ≤ tag.code ∧ tag.code < limit then some tag.code.toNat else none

/-- Whether the engine knows the tag. -/
def isKnown (tag : Tag) : Bool :=
  tag.index?.isSome

/-- Requests go through the request queue. -/
def isRequest : Tag → Bool
  | putRequest | getRequest | updateRequest => true
  | _ => false

/-- Control messages reach their callback before they are buffered. -/
def isControl : Tag → Bool
  | shardAssignment | workerShutdown => true
  | _ => false

/-- The name of a tag that has a meaning; every other tag is `UNKNOWN`. -/
def name : Tag → String
  | putRequest => "PUT_REQUEST"
  | getRequest => "GET_REQUEST"
  | putResponse => "PUT_RESPONSE"
  | getResponse => "GET_RESPONSE"
  | updateRequest => "UPDATE_REQUEST"
  | shardAssignment => "SHARD_ASSIGNMENT"
  | registerWorker => "REGISTER_WORKER"
  | workerShutdown => "WORKER_SHUTDOWN"
  | empty => "EMPTY"
  | _ => "UNKNOWN"

/-- The written form: the name, then the code in parentheses. -/
def describe (tag : Tag) : String :=
  s!"{tag.name}({tag.code})"

end Tag

end ParameterServer

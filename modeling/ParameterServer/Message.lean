import ParameterServer.Error

/-!
# Messages

A message is an opaque payload with its tag and the rank it came from.
-/

namespace ParameterServer

/-- The bytes of a message, in the order they travel. -/
abbrev Payload := List UInt8

/-- A payload with its tag and the rank it came from. -/
structure Message where
  tag : Tag
  source : Rank
  payload : Payload
deriving DecidableEq, Repr

end ParameterServer

import ParameterServer.Rank
import ParameterServer.Tag

/-!
# Errors

The causes for which an operation fails, their wording, and which of them stop
an engine instead of costing one message.
-/

namespace ParameterServer

/-- The cause of a failed operation. -/
inductive Error where
  | transport (reason : String)
  | invalidRank (rank : Rank) (size : Nat)
  | malformedMessage (tag : Tag) (reason : String)
  | unknownTag (tag : Tag)
  | noHandler (tag : Tag)
  | capacityExceeded (key queue : String) (capacity : Nat)
  | inactive
  | stopped
  | handlerNotFound (name : String)
  | handlerFailed (reason : String)
  | invalidConfig (reason : String)
  | serialization (reason : String)
  | internal (reason : String)
  | inputOutput (reason : String)
deriving DecidableEq, Repr

namespace Error

/-- The text shown for an error. -/
def message : Error → String
  | transport reason => s!"Transport failure: {reason}"
  | invalidRank rank size =>
      s!"Peer rank {rank} out of range for group of {size}"
  | malformedMessage tag reason =>
      s!"Malformed message with tag {tag.code}: {reason}"
  | unknownTag tag => s!"Unknown message tag {tag.code}"
  | noHandler tag => s!"No handler bound for tag {tag.code}"
  | capacityExceeded key queue capacity =>
      s!"Capacity exceeded for key '{key}': {queue} sub-queue already holds {capacity} requests"
  | inactive => "Network engine is not active"
  | stopped => "Network engine stopped"
  | handlerNotFound name => s!"Handler not found: {name}"
  | handlerFailed reason => s!"Handler failed: {reason}"
  | invalidConfig reason => s!"Invalid configuration: {reason}"
  | serialization reason => s!"Serialization error: {reason}"
  | internal reason => s!"Internal error: {reason}"
  | inputOutput reason => s!"IO error: {reason}"

/-- Whether the error stops the engine instead of costing one message. -/
def isFatal : Error → Bool
  | capacityExceeded .. | internal _ => true
  | _ => false

end Error

end ParameterServer

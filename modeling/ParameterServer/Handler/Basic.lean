import ParameterServer.Config.Table
import ParameterServer.Record

/-!
# Value handlers

A handler owns the policy of a table: how a key gets its first value, how a value
changes and what a reader sees.  It is a state machine, described by a record of
operations on its state `η`.
-/

namespace ParameterServer

/-- What a handler makes of a value: whether it accepts the request, the value it
leaves and its state afterwards. -/
structure Verdict (η : Type) where
  accepted : Bool
  value : ParamValue
  handler : η

/-- The operations of a handler. -/
structure ValueHandler (η : Type) where
  name : η → String
  /-- Prepares the handler before the first request. -/
  setup : TableConfig → η → Except Error η
  /-- Gives a new key its first value. -/
  put : (key : String) → (target incoming : ParamValue) → η → Verdict η
  /-- Produces the value that a reader gets. -/
  get : (key : String) → (stored out : ParamValue) → η → Verdict η
  /-- Merges a value into a stored one. -/
  update : (target incoming : ParamValue) → η → Verdict η
  /-- Whether a value is due for a checkpoint, and the state after the question. -/
  checkpointNow : (key : String) → ParamValue → η → Bool × η

/-- The verdict with the handler's state wrapped. -/
def Verdict.map {η θ : Type} (wrap : η → θ) (verdict : Verdict η) : Verdict θ :=
  ⟨verdict.accepted, verdict.value, wrap verdict.handler⟩

end ParameterServer

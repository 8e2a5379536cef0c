import ParameterServer.Handler.Basic
import ParameterServer.Handler.Checkpoint

/-!
# The accumulating handler

Keeps the first value of a key and adds every later one to it, element by element,
scaled by the parameter `scale`.
-/

namespace ParameterServer

open Ieee (Binary32 Binary64)

/-- The state of an accumulating handler. -/
structure Accumulate where
  scale : Binary32 := .one
  checkpoints : CheckpointSchedule := {}
deriving DecidableEq, Repr

namespace Accumulate

/-- One element: the product is rounded, and then the sum. -/
def merge (scale target incoming : Binary32) : Binary32 :=
  target.add (scale.multiply incoming)

/-- Values of different lengths are declined. -/
def update (target incoming : ParamValue) (state : Accumulate) :
    Verdict Accumulate :=
  if target.data.length = incoming.data.length then
    let data := List.zipWith (merge state.scale) target.data incoming.data
    ⟨true, ⟨target.version + 1, data⟩, state⟩
  else
    ⟨false, target, state⟩

/-- The accumulating handler. -/
def handler : ValueHandler Accumulate where
  name _ := "accumulate"
  setup config _ :=
    .ok ⟨(config.parameter "scale" .one).toBinary32, .ofConfig config⟩
  put _ _ incoming state := ⟨true, { data := incoming.data }, state⟩
  get _ stored _ state := ⟨true, stored, state⟩
  update := update
  checkpointNow _ value state := (state.checkpoints.isDue value.version, state)

end Accumulate

end ParameterServer

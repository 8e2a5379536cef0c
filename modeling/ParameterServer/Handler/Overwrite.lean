import ParameterServer.Handler.Basic
import ParameterServer.Handler.Checkpoint

/-!
# The overwriting handler

Keeps the contents of the last value given for a key.
-/

namespace ParameterServer

/-- The state of an overwriting handler. -/
structure Overwrite where
  checkpoints : CheckpointSchedule := {}
deriving DecidableEq, Repr

namespace Overwrite

/-- The overwriting handler; a `scale` parameter would have no effect, and is
refused. -/
def handler : ValueHandler Overwrite where
  name _ := "overwrite"
  setup config _ :=
    if (config.parameters.lookup "scale").isSome then
      .error (.invalidConfig "overwrite handler takes no scale parameter")
    else
      .ok ⟨.ofConfig config⟩
  put _ _ incoming state := ⟨true, { data := incoming.data }, state⟩
  get _ stored _ state := ⟨true, stored, state⟩
  update target incoming state := ⟨true, ⟨target.version + 1, incoming.data⟩, state⟩
  checkpointNow _ value state := (state.checkpoints.isDue value.version, state)

end Overwrite

end ParameterServer

import ParameterServer.Handler.Basic

/-!
# The picky handler

A handler that declines some requests of every kind and keeps what it declines, for
exercising a table server.
-/

namespace ParameterServer

/-- The picky handler has no state. -/
structure Picky where
deriving DecidableEq, Repr

namespace Picky

/-- The version that every reader sees. -/
def shownVersion : UInt64 := 77

/-- The incoming version that an update is declined for. -/
def declinedVersion : UInt64 := 9

/-- The picky handler: its setup fails when the parameter `fail` is not zero. -/
def handler : ValueHandler Picky where
  name _ := "picky"
  setup config state :=
    if (config.parameter "fail" .zero).isZero then .ok state
    else .error (.handlerFailed "picky setup")
  put key _ incoming state := ⟨!key.startsWith "deny", incoming, state⟩
  get _ stored _ state := ⟨!stored.data.isEmpty, ⟨shownVersion, stored.data⟩, state⟩
  update target incoming state :=
    ⟨incoming.version != declinedVersion,
      { target with data := target.data ++ incoming.data }, state⟩
  checkpointNow _ _ state := (false, state)

end Picky

end ParameterServer

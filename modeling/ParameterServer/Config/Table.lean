import ParameterServer.Text.Json.Form

/-!
# Table server configuration

The handler of a table server, its numeric parameters and its checkpoint schedule.
-/

namespace ParameterServer

open Text (Json JsonForm)
open Ieee (Binary64)

/-- Entries with distinct names, in the order of their first setting. -/
abbrev Parameters := List (String × Binary64)

/-- Sets a parameter, in place of an earlier value of the same name. -/
def Parameters.set (parameters : Parameters) (name : String) (value : Binary64) :
    Parameters :=
  if (parameters.lookup name).isSome then
    parameters.map (fun entry => if entry.1 = name then (name, value) else entry)
  else
    parameters ++ [(name, value)]

/-- The settings of a table server. -/
structure TableConfig where
  /-- The registered name of the handler. -/
  handler : String := "accumulate"
  parameters : Parameters := []
  /-- The first version that is due for a checkpoint. -/
  checkpointAfter : UInt64 := 0
  /-- Versions from one checkpoint to the next; none at all when zero. -/
  checkpointFrequency : UInt64 := 0
deriving DecidableEq, Repr

namespace TableConfig

/-- A parameter, or `default` when it is not set. -/
def parameter (config : TableConfig) (name : String) (default : Binary64) : Binary64 :=
  (config.parameters.lookup name).getD default

/-- Refuses an unnamed handler and parameters that are not finite. -/
def validate (config : TableConfig) : Except Error Unit :=
  if config.handler = "" then
    .error (.invalidConfig "handler name must not be empty")
  else
    match config.parameters.find? (fun entry => !entry.2.isFinite) with
    | some (name, _) => .error (.invalidConfig s!"parameter '{name}' is not finite")
    | none => .ok ()

/-- Reads named numbers; of two with one name the later counts. -/
def parameters? : Json → Option Parameters
  | .object members =>
      members.foldlM
        (fun parameters entry => do
          return Parameters.set parameters (← entry.1) (← entry.2.toBinary64?))
        []
  | _ => none

/-- The settings that a JSON value writes. -/
def ofJson? (json : Json) : Option TableConfig := do
  let fields ← json.fields?
    ["handler", "params", "checkpoint_after", "checkpoint_frequency"]
  let initial : TableConfig := {}
  return {
    handler := ← fields.orDefault? "handler" initial.handler Json.toText?
    parameters := ← fields.orDefault? "params" initial.parameters parameters?
    checkpointAfter :=
      ← fields.orDefault? "checkpoint_after" initial.checkpointAfter Json.toUInt64?
    checkpointFrequency :=
      ← fields.orDefault? "checkpoint_frequency" initial.checkpointFrequency
          Json.toUInt64? }

/-- The valid settings that a JSON text writes. -/
def load (text : String) : Except Error TableConfig := do
  match Json.parse? text >>= ofJson? with
  | none => throw (.serialization "not a table server configuration")
  | some config =>
      config.validate
      return config

end TableConfig

end ParameterServer

import ParameterServer.Text.Json.Form

/-!
# Engine configuration

The settings of an engine, their defaults and their JSON form.  `ofText` reads any
settings; `load` also refuses those that an engine cannot run with.
-/

namespace ParameterServer

open Text (Json JsonForm)

/-- How waiting requests are scheduled. -/
inductive UpdateMode where
  /-- First come, first served for each key. -/
  | sync
  /-- Rounds of puts and rounds of gets for each key. -/
  | async
deriving DecidableEq, Repr

/-- The name of a mode. -/
def UpdateMode.name : UpdateMode → String
  | sync => "sync"
  | async => "async"

instance : JsonForm UpdateMode where
  toJson mode := .ofText mode.name
  ofJson? json := do
    match ← json.plainAlternative? with
    | "sync" => some .sync
    | "async" => some .async
    | _ => none

/-- The settings of an engine. -/
structure EngineConfig where
  /-- The pause between two polls that find no work, in microseconds. -/
  sleepMicros : UInt64 := 1000
  updateMode : UpdateMode := .sync
  /-- How many members send requests for one key. -/
  memoryServers : UInt64 := 1
  /-- Whether the first put of a key opens its first round of gets. -/
  firstPutFlips : Bool := true
  /-- The environment variable whose presence activates an engine. -/
  activationVariable : String := "OMPI_COMM_WORLD_RANK"
deriving DecidableEq, Repr

namespace EngineConfig

/-- Settings for the asynchronous discipline. -/
def asynchronous (memoryServers : UInt64) : EngineConfig :=
  { updateMode := .async, memoryServers }

/-- The settings with a new pause; microseconds that do not fit in 64 bits become
the greatest number that does. -/
def withSleep (config : EngineConfig) (seconds nanoseconds : Nat) : EngineConfig :=
  let micros := seconds * 1000000 + nanoseconds / 1000
  { config with sleepMicros := UInt64.ofNat (min micros (UInt64.size - 1)) }

/-- The pause as whole seconds and the nanoseconds above them. -/
def sleep (config : EngineConfig) : Nat × Nat :=
  let micros := config.sleepMicros.toNat
  (micros / 1000000, micros % 1000000 * 1000)

/-- Refuses settings that an engine cannot run with; the first fault is named. -/
def validate (config : EngineConfig) : Except Error Unit :=
  if config.sleepMicros = 0 then
    .error (.invalidConfig "sleep_time_us must be positive")
  else if config.memoryServers = 0 then
    .error (.invalidConfig "num_memory_servers must be at least 1")
  else if config.activationVariable = "" then
    .error (.invalidConfig "activation_env must not be empty")
  else
    .ok ()

/-- The names of the fields, in the order in which they are written. -/
def fieldNames : List String :=
  ["sleep_time_us", "update_mode", "num_memory_servers", "first_put_flips_phase",
    "activation_env"]

instance : JsonForm EngineConfig where
  toJson config := .record
    [("sleep_time_us", .ofNat config.sleepMicros.toNat),
      ("update_mode", JsonForm.toJson config.updateMode),
      ("num_memory_servers", .ofNat config.memoryServers.toNat),
      ("first_put_flips_phase", .bool config.firstPutFlips),
      ("activation_env", .ofText config.activationVariable)]
  ofJson? json := do
    let fields ← json.fields? fieldNames
    let initial : EngineConfig := {}
    return {
      sleepMicros :=
        ← fields.orDefault? "sleep_time_us" initial.sleepMicros Json.toUInt64?
      updateMode :=
        ← fields.orDefault? "update_mode" initial.updateMode JsonForm.ofJson?
      memoryServers :=
        ← fields.orDefault? "num_memory_servers" initial.memoryServers Json.toUInt64?
      firstPutFlips :=
        ← fields.orDefault? "first_put_flips_phase" initial.firstPutFlips Json.toBool?
      activationVariable :=
        ← fields.orDefault? "activation_env" initial.activationVariable Json.toText? }

/-- The settings that a JSON text writes, whether or not an engine can run with
them. -/
def ofText (text : String) : Except Error EngineConfig :=
  Text.ofJsonText EngineConfig text

/-- The valid settings that a JSON text writes. -/
def load (text : String) : Except Error EngineConfig := do
  let config ← ofText text
  config.validate
  return config

end EngineConfig

end ParameterServer

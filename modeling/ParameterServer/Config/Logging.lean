import ParameterServer.Text.Json.Form

/-!
# Logging configuration

Levels, formats and their JSON forms.
-/

namespace ParameterServer

open Text (Json JsonForm)

/-- The severity of an event, least severe first. -/
inductive LogLevel where
  | trace
  | debug
  | info
  | warn
  | error
deriving DecidableEq, Repr

namespace LogLevel

/-- The name that filters and JSON texts use. -/
def directive : LogLevel → String
  | trace => "trace"
  | debug => "debug"
  | info => "info"
  | warn => "warn"
  | error => "error"

/-- The name shown in a log line. -/
def describe : LogLevel → String
  | trace => "TRACE"
  | debug => "DEBUG"
  | info => "INFO"
  | warn => "WARN"
  | error => "ERROR"

/-- The position in the order of severity. -/
def severity : LogLevel → Nat
  | trace => 0
  | debug => 1
  | info => 2
  | warn => 3
  | error => 4

/-- An ASCII capital in lower case; every other character unchanged. -/
def lowerAscii (c : Char) : Char :=
  if 'A' ≤ c ∧ c ≤ 'Z' then Char.ofNat (c.toNat + 32) else c

/-- The level of a name in any mixture of cases; `warning` is `warn`. -/
def ofName (name : String) : Except Error LogLevel :=
  match name.map lowerAscii with
  | "trace" => .ok trace
  | "debug" => .ok debug
  | "info" => .ok info
  | "warn" | "warning" => .ok warn
  | "error" => .ok error
  | other => .error (.invalidConfig s!"unknown log level '{other}'")

instance : JsonForm LogLevel where
  toJson level := .ofText level.directive
  ofJson? json := do
    match ← json.plainAlternative? with
    | "trace" => some .trace
    | "debug" => some .debug
    | "info" => some .info
    | "warn" => some .warn
    | "error" => some .error
    | _ => none

end LogLevel

/-- The layout of log lines. -/
inductive LogFormat where
  | text
  | compact
  | json
deriving DecidableEq, Repr

/-- The name of a layout. -/
def LogFormat.name : LogFormat → String
  | text => "text"
  | compact => "compact"
  | json => "json"

instance : JsonForm LogFormat where
  toJson layout := .ofText layout.name
  ofJson? json := do
    match ← json.plainAlternative? with
    | "text" => some .text
    | "compact" => some .compact
    | "json" => some .json
    | _ => none

/-- The settings of the logger. -/
structure LoggerConfig where
  level : LogLevel := .info
  format : LogFormat := .text
  /-- Whether lines name the module of their event. -/
  withTarget : Bool := true
deriving DecidableEq, Repr

instance : JsonForm LoggerConfig where
  toJson config := .record
    [("level", JsonForm.toJson config.level), ("format", JsonForm.toJson config.format),
      ("with_target", .bool config.withTarget)]
  ofJson? json := do
    let fields ← json.fields? ["level", "format", "with_target"]
    let initial : LoggerConfig := {}
    return {
      level := ← fields.orDefault? "level" initial.level JsonForm.ofJson?
      format := ← fields.orDefault? "format" initial.format JsonForm.ofJson?
      withTarget := ← fields.orDefault? "with_target" initial.withTarget Json.toBool? }

/-- The filter that shows events from the configured level on. -/
def LoggerConfig.filter (config : LoggerConfig) : String :=
  config.level.directive

end ParameterServer

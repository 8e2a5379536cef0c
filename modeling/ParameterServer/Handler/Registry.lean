import ParameterServer.Handler.Stock

/-!
# The handler registry

Fresh handlers by name.
-/

namespace ParameterServer

/-- Names with the state of a fresh handler. -/
structure HandlerRegistry (η : Type) where
  entries : List (String × η) := []
deriving DecidableEq, Repr

namespace HandlerRegistry

variable {η : Type}

/-- Registers a handler; a name can be taken once. -/
def register (name : String) (fresh : η) (registry : HandlerRegistry η) :
    Except Error (HandlerRegistry η) :=
  if (registry.entries.lookup name).isSome then
    .error (.invalidConfig s!"Handler {name} is already registered")
  else
    .ok ⟨registry.entries ++ [(name, fresh)]⟩

/-- A fresh handler, not yet set up. -/
def create (name : String) (registry : HandlerRegistry η) : Except Error η :=
  match registry.entries.lookup name with
  | some fresh => .ok fresh
  | none => .error (.handlerNotFound name)

/-- The handler that a configuration names, set up with that configuration. -/
def createConfigured (handler : ValueHandler η) (config : TableConfig)
    (registry : HandlerRegistry η) : Except Error η := do
  handler.setup config (← registry.create config.handler)

def contains (name : String) (registry : HandlerRegistry η) : Bool :=
  (registry.entries.lookup name).isSome

/-- The registered names in the order of their characters. -/
def names (registry : HandlerRegistry η) : List String :=
  (registry.entries.map (·.1)).mergeSort (fun left right => left ≤ right)

/-- The accumulating and the overwriting handler. -/
def builtins : HandlerRegistry StockHandler :=
  ⟨[("accumulate", .accumulate {}), ("overwrite", .overwrite {})]⟩

end HandlerRegistry

end ParameterServer

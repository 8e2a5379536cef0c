import ParameterServer.Outbox

/-!
# Bindings

The handlers and callbacks of an engine.  They are collected before the engine
starts and do not change afterwards; a tag has at most one of each.
-/

namespace ParameterServer

/-- The handlers and callbacks of an engine, by tag. -/
structure Bindings (ω : Type) where
  handlers : List (Tag × Handler ω) := []
  callbacks : List (Tag × Callback ω) := []

namespace Bindings

variable {ω : Type}

def handler? (tag : Tag) (bindings : Bindings ω) : Option (Handler ω) :=
  bindings.handlers.lookup tag

def callback? (tag : Tag) (bindings : Bindings ω) : Option (Callback ω) :=
  bindings.callbacks.lookup tag

/-- Binds the handler of a request tag. -/
def onRequest (tag : Tag) (handler : Handler ω) (bindings : Bindings ω) :
    Except Error (Bindings ω) :=
  if !tag.isRequest then
    .error (.invalidConfig s!"{tag.describe} is not a request tag")
  else if (bindings.handler? tag).isSome then
    .error (.invalidConfig s!"handler for {tag.describe} already bound")
  else
    .ok { bindings with handlers := bindings.handlers ++ [(tag, handler)] }

/-- Binds the callback of a known tag. -/
def onMessage (tag : Tag) (callback : Callback ω) (bindings : Bindings ω) :
    Except Error (Bindings ω) :=
  if !tag.isKnown then
    .error (.unknownTag tag)
  else if (bindings.callback? tag).isSome then
    .error (.invalidConfig s!"callback for {tag.describe} already bound")
  else
    .ok { bindings with callbacks := bindings.callbacks ++ [(tag, callback)] }

end Bindings

/-- The handler that works on a part of the memory. -/
def Handler.focus {ω α : Type} (part : ω → α) (replace : α → ω → ω)
    (handler : Handler α) : Handler ω :=
  fun seat request memory => do
    let (outcome, changed) ← handler seat request (part memory)
    return (outcome, replace changed memory)

end ParameterServer

import ParameterServer.Request

/-!
# Outbox programs

What a handler or a callback may do with the engine it runs on: queue sends, learn
whether each was accepted, and stop the engine.  A program is a value, so that an
engine that runs one is reached through these operations only.
-/

namespace ParameterServer

/-- The place of a member in its group. -/
structure Seat where
  rank : Rank
  size : Nat
deriving DecidableEq, Repr

namespace Outbox

/-- A sequence of operations on an engine that ends in a value. -/
inductive Program (α : Type) where
  | done (value : α)
  | send (destination : Rank) (tag : Tag) (payload : Payload)
      (next : Except Error Unit → Program α)
  | stop (next : Program α)

namespace Program

variable {α β : Type}

/-- Goes on with the value that a program ends in. -/
def bind : Program α → (α → Program β) → Program β
  | done value, next => next value
  | send destination tag payload middle, next =>
      .send destination tag payload (fun outcome => (middle outcome).bind next)
  | stop middle, next => .stop (middle.bind next)

instance : Monad Program where
  pure := done
  bind := bind

/-- Sends to several destinations in order, up to the first refusal. -/
def sendEach (tag : Tag) (payload : Payload) : List Rank → Program (Except Error Unit)
  | [] => .done (.ok ())
  | destination :: rest =>
      .send destination tag payload fun
        | .ok () => sendEach tag payload rest
        | .error error => .done (.error error)

/-- Sends to every rank but the last, which is the coordinator. -/
def broadcast (size : Nat) (tag : Tag) (payload : Payload) :
    Program (Except Error Unit) :=
  sendEach tag payload (List.range (size - 1))

end Program

end Outbox

/-- What to do with a scheduled request, given the memory `ω` that the handlers of an
engine share. -/
abbrev Handler (ω : Type) :=
  Seat → Request → ω → Outbox.Program (Except Error Unit × ω)

/-- What to do with a received message. -/
abbrev Callback (ω : Type) :=
  Seat → Message → ω → Outbox.Program ω

end ParameterServer

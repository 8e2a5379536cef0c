import ParameterServer.Engine.Bindings
import ParameterServer.TableServer.Binding

/-!
# Scripted handlers

Handlers and callbacks that carry out a list of actions and record what came of
them.
-/

namespace ParameterServer.Simulation

/-- What a scripted handler or callback can do.  Without a destination a send goes to
the source of the message. -/
inductive Action where
  | send (destination : Option Rank) (tag : Tag) (payload : Payload)
  | broadcast (tag : Tag) (payload : Payload)
  /-- Confirms the key of the request. -/
  | echoKey (destination : Option Rank) (tag : Tag)
  | stop
  | fail (reason : String)
deriving DecidableEq, Repr

/-- An action, which can be limited to requests for one key. -/
structure GuardedAction where
  key : Option String
  action : Action
deriving DecidableEq, Repr

/-- The message that a handler or a callback was called with. -/
inductive Occasion where
  | request (request : Request)
  | message (message : Message)
deriving DecidableEq, Repr

namespace Occasion

def source : Occasion → Rank
  | request asked => asked.source
  | message received => received.source

/-- The key asked for, which a callback does not know. -/
def key? : Occasion → Option String
  | request asked => some asked.key
  | message _ => none

end Occasion

/-- A call of a scripted handler or callback, with the outcomes of the actions it has
tried. -/
structure Event where
  seat : Seat
  occasion : Occasion
  outcomes : List (Except Error Unit)

/-- The memory of a simulated engine: its table server, and the events since they
were last collected. -/
structure Memory where
  server : TableServer StockHandler
  events : List Event := []

namespace Memory

def record (event : Event) (memory : Memory) : Memory :=
  { memory with events := memory.events ++ [event] }

end Memory

open Outbox (Program)

namespace Action

/-- Carries out one action. -/
def perform (seat : Seat) (occasion : Occasion) : Action → Program (Except Error Unit)
  | send destination tag payload =>
      .send (destination.getD occasion.source) tag payload .done
  | broadcast tag payload => .broadcast seat.size tag payload
  | echoKey destination tag =>
      let response : PutResponse := ⟨occasion.key?.getD "", true⟩
      .send (destination.getD occasion.source) tag (Wire.encode response) .done
  | stop => .stop (.done (.ok ()))
  | fail reason => .done (.error (.handlerFailed reason))

end Action

/-- Carries out actions in order and lists their outcomes.  Actions limited to
another key are left out. -/
def performAll (seat : Seat) (occasion : Occasion) (stopAtFailure : Bool) :
    List GuardedAction → Program (List (Except Error Unit))
  | [] => .done []
  | guarded :: rest =>
      if guarded.key.isSome && guarded.key != occasion.key? then
        performAll seat occasion stopAtFailure rest
      else do
        let outcome ← guarded.action.perform seat occasion
        if stopAtFailure && !outcome.isOk then
          return [outcome]
        else
          return outcome :: (← performAll seat occasion stopAtFailure rest)

/-- The first failure among some outcomes. -/
def firstFailure : List (Except Error Unit) → Except Error Unit
  | [] => .ok ()
  | .error error :: _ => .error error
  | .ok () :: rest => firstFailure rest

/-- A request handler that carries out actions up to the first failure, which it
returns. -/
def scriptedHandler (actions : List GuardedAction) : Handler Memory :=
  fun seat request memory => do
    let outcomes ← performAll seat (.request request) true actions
    return (firstFailure outcomes, memory.record ⟨seat, .request request, outcomes⟩)

/-- A callback that carries out all of its actions. -/
def scriptedCallback (actions : List GuardedAction) : Callback Memory :=
  fun seat message memory => do
    let outcomes ← performAll seat (.message message) false actions
    return memory.record ⟨seat, .message message, outcomes⟩

end ParameterServer.Simulation

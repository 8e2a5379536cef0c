import ParameterServer.Outbox
import ParameterServer.Queue.Basic
import ParameterServer.ResponseTable
import ParameterServer.SendTracker

/-!
# Engines

The state of one member's engine and the operations that do not touch the network:
sending, stopping and failing.  An engine without a network is inert; one with a
network is active, and runs until it is stopped for good.
-/

namespace ParameterServer

/-- What an engine has counted. -/
structure EngineCounters where
  /-- Messages received, of whatever tag. -/
  received : Nat := 0
  /-- Requests accepted by the request queue. -/
  enqueued : Nat := 0
  /-- Payloads kept for readers. -/
  buffered : Nat := 0
  /-- Requests given to a handler. -/
  processed : Nat := 0
  /-- Requests that cannot be read. -/
  malformed : Nat := 0
  /-- Messages with an unknown tag. -/
  unknown : Nat := 0
  /-- Requests that no handler is bound for. -/
  unbound : Nat := 0
  /-- Requests whose handler failed. -/
  handlerErrors : Nat := 0
deriving DecidableEq, Repr

/-- The engine of one member. -/
structure Engine where
  config : EngineConfig
  seat : Seat
  /-- Whether the engine was started on a network. -/
  active : Bool
  running : Bool
  queue : RequestQueue
  responses : ResponseTable
  sends : SendTracker := {}
  /-- The first error that stopped the engine. -/
  fatal : Option Error := none
  /-- Whether the network has been given up. -/
  finalized : Bool := false
  counters : EngineCounters := {}
deriving DecidableEq, Repr

namespace Engine

/-! ## Construction -/

/-- An engine at a place, active or not. -/
def atSeat (config : EngineConfig) (seat : Seat) (active : Bool) : Engine where
  config
  seat
  active
  running := active
  queue := .ofConfig config
  responses := { size := seat.size }

/-- An engine without a network: the only member of its group. -/
def inert (config : EngineConfig) : Engine :=
  atSeat config ⟨0, 1⟩ false

/-- Starts an engine on a network, with settings it can run with. -/
def start (config : EngineConfig) (seat : Seat) : Except Error Engine := do
  config.validate
  return atSeat config seat true

/-- Starts an engine if its activation variable is present, and otherwise leaves it
inert.  Only in the first case is the network connected. -/
def startFromEnvironment (config : EngineConfig) (isPresent : String → Bool)
    (connect : Except Error Seat) : Except Error Engine :=
  if isPresent config.activationVariable then do
    start config (← connect)
  else
    .ok (inert config)

/-! ## Stopping -/

/-- Stops an engine: it takes no more sends, and its request queue is closed. -/
def stop (engine : Engine) : Engine :=
  if engine.running then
    { engine with running := false, queue := engine.queue.close }
  else
    engine

/-- Stops an engine for an error; the first such error is kept. -/
def fail (error : Error) (engine : Engine) : Engine :=
  stop { engine with fatal := engine.fatal <|> some error }

/-! ## Sending -/

/-- Refuses a send that the engine cannot take; the first fault is named. -/
def checkSendable (destination : Rank) (engine : Engine) : Except Error Unit :=
  if !engine.active then .error .inactive
  else if !engine.running then .error .stopped
  else if engine.seat.size ≤ destination then
    .error (.invalidRank destination engine.seat.size)
  else
    .ok ()

/-- Queues a payload for a member, to be handed to the network later. -/
def send (destination : Rank) (tag : Tag) (payload : Payload) (engine : Engine) :
    Except Error Unit × Engine :=
  match engine.checkSendable destination with
  | .error error => (.error error, engine)
  | .ok () =>
      (.ok (), { engine with sends := engine.sends.push { destination, tag, payload } })

/-- Runs a program on an engine. -/
def run {α : Type} : Outbox.Program α → Engine → α × Engine
  | .done value, engine => (value, engine)
  | .send destination tag payload next, engine =>
      let (outcome, after) := engine.send destination tag payload
      run (next outcome) after
  | .stop next, engine => run next engine.stop

/-- Queues a payload for every member but the coordinator. -/
def broadcast (tag : Tag) (payload : Payload) (engine : Engine) :
    Except Error Unit × Engine :=
  engine.run (.broadcast engine.seat.size tag payload)

/-! ## Observation -/

/-- The text of the error that stopped the engine. -/
def fatalText? (engine : Engine) : Option String :=
  engine.fatal.map Error.message

/-- The number of requests that wait for a handler. -/
def pendingRequests (engine : Engine) : Nat :=
  engine.queue.pending

end Engine

end ParameterServer

import ParameterServer.Config.Engine
import ParameterServer.Queue.Fifo
import ParameterServer.Queue.Phased
import ParameterServer.Request

/-!
# The request queue

Requests wait under the key they ask for, and are scheduled by the discipline that
the configuration names.
-/

namespace ParameterServer

open Queue

/-- Waiting requests under one of the two disciplines. -/
inductive RequestQueue where
  | sync (slots : RoundRobin Fifo)
  | async (rounds : Rounds) (slots : RoundRobin PhasedSlot)
deriving DecidableEq, Repr

/-- What asking for the next request leads to. -/
inductive NextRequest where
  | request (message : Message)
  /-- Nothing can be served yet, and the caller waits. -/
  | blocked
  /-- The queue is closed. -/
  | closed
deriving DecidableEq, Repr

namespace RequestQueue

/-- An empty queue that serves the messages of a key in the order of arrival. -/
def synchronous : RequestQueue :=
  .sync {}

/-- An empty queue that serves a key in rounds of `memoryServers` requests; zero
counts as one. -/
def asynchronous (memoryServers : Nat) (firstPutFlips : Bool) : RequestQueue :=
  .async ⟨max memoryServers 1, firstPutFlips⟩ {}

/-- The queue that a configuration asks for. -/
def ofConfig (config : EngineConfig) : RequestQueue :=
  match config.updateMode with
  | .sync => synchronous
  | .async => asynchronous config.memoryServers.toNat config.firstPutFlips

/-- How many requests of one kind may wait under one key, when that is bounded. -/
def capacity? : RequestQueue → Option Nat
  | .sync _ => none
  | .async rounds _ => some rounds.size

/-- Accepts a request under the key it asks for, or refuses it and changes
nothing. -/
def enqueue (message : Message) : RequestQueue → Except Error RequestQueue
  | .sync slots => do
      let key ← message.routingKey
      return .sync (← slots.push Fifo.discipline key message)
  | .async rounds slots => do
      let key ← message.routingKey
      return .async rounds (← slots.push (PhasedSlot.discipline rounds) key message)

/-- Takes the next request in turn, without waiting. -/
def tryNext : RequestQueue → Option Message × RequestQueue
  | .sync slots =>
      let (found, rest) := slots.scan Fifo.discipline
      (found, .sync rest)
  | .async rounds slots =>
      let (found, rest) := slots.scan (PhasedSlot.discipline rounds)
      (found, .async rounds rest)

/-- Releases a waiting caller for good.  Requests can still be accepted and taken
without waiting. -/
def close : RequestQueue → RequestQueue
  | .sync slots => .sync slots.close
  | .async rounds slots => .async rounds slots.close

def isClosed : RequestQueue → Bool
  | .sync slots => slots.closed
  | .async _ slots => slots.closed

/-- The number of keys seen so far. -/
def keyCount : RequestQueue → Nat
  | .sync slots => slots.keyCount
  | .async _ slots => slots.keyCount

/-- The number of waiting requests. -/
def pending : RequestQueue → Nat
  | .sync slots => slots.pending
  | .async _ slots => slots.pending

/-- Asks for the next request: a closed queue yields nothing, and an open one that
has nothing to serve keeps the caller waiting.  Nothing happens between the look whether
the queue is closed and the search. -/
def nextRequest (queue : RequestQueue) : NextRequest × RequestQueue :=
  if queue.isClosed then
    (.closed, queue)
  else
    match queue.tryNext with
    | (some message, rest) => (.request message, rest)
    | (none, rest) => (.blocked, rest)

/-- Takes requests until nothing more can be served. -/
def drainFor : (limit : Nat) → RequestQueue → List Message × RequestQueue
  | 0, queue => ([], queue)
  | limit + 1, queue =>
      match queue.tryNext with
      | (none, rest) => ([], rest)
      | (some message, rest) =>
          let (messages, last) := drainFor limit rest
          (message :: messages, last)

/-- All requests that can be served now, in turn. -/
def drain (queue : RequestQueue) : List Message × RequestQueue :=
  queue.drainFor (queue.pending + 1)

/-- A caller waits for the next request while `message` arrives.  If that makes
nothing servable, the queue is closed to release the caller. -/
def nextDuring (message : Message) (queue : RequestQueue) :
    Except Error Unit × Option Message × RequestQueue :=
  let (accepted, filled) : Except Error Unit × RequestQueue :=
    match queue.enqueue message with
    | .ok filled => (.ok (), filled)
    | .error error => (.error error, queue)
  match filled.nextRequest with
  | (.request found, rest) => (accepted, some found, rest)
  | (.blocked, rest) => (accepted, none, rest.close)
  | (.closed, rest) => (accepted, none, rest)

end RequestQueue

end ParameterServer

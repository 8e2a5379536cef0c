import ParameterServer.Engine.Basic
import ParameterServer.Engine.Bindings

/-!
# The loops of an engine

An engine has two loops.  The network loop receives at most one message, routes it,
offers the pending sends to the network and collects those that are complete.  The
process loop takes one request from the queue and gives it to its handler.  Both are
functions on a host, which is an engine with the memory of its handlers.
-/

namespace ParameterServer

/-- An engine with the memory that its handlers and callbacks share. -/
structure Host (ω : Type) where
  engine : Engine
  memory : ω
deriving DecidableEq, Repr

namespace Host

variable {ω σ : Type}

/-! ## Routing -/

/-- Runs a callback on a message. -/
def announce (callback : Callback ω) (message : Message) (host : Host ω) : Host ω :=
  let (memory, engine) :=
    host.engine.run (callback host.engine.seat message host.memory)
  ⟨engine, memory⟩

/-- What became of a routed message. -/
inductive Delivery where
  | delivered
  /-- The message stopped the engine. -/
  | fatal
deriving DecidableEq, Repr

/-- Gives a message of a known tag to the request queue or to the readers.  A request
that cannot be read is dropped; one that exceeds the queue's capacity stops the
engine. -/
def deliver (message : Message) (engine : Engine) : Delivery × Engine :=
  let counters := engine.counters
  if message.tag.isRequest then
    match engine.queue.enqueue message with
    | .ok queue =>
        (.delivered,
          { engine with
            queue
            counters := { counters with enqueued := counters.enqueued + 1 } })
    | .error error =>
        if error.isFatal then
          (.fatal, engine.fail error)
        else
          (.delivered,
            { engine with
              counters := { counters with malformed := counters.malformed + 1 } })
  else
    match engine.responses.push message.tag message.source message.payload with
    | .ok responses =>
        (.delivered,
          { engine with
            responses
            counters := { counters with buffered := counters.buffered + 1 } })
    | .error _ =>
        (.delivered,
          { engine with counters := { counters with unknown := counters.unknown + 1 } })

/-- Delivers a received message and runs the callback of its tag: before the delivery
for a control message, and otherwise after it, unless the message stopped the
engine. -/
def route (bindings : Bindings ω) (message : Message) (host : Host ω) : Host ω :=
  if message.tag.isKnown then
    match bindings.callback? message.tag with
    | none =>
        { host with engine := (deliver message host.engine).2 }
    | some callback =>
        if message.tag.isControl then
          let announced := host.announce callback message
          { announced with engine := (deliver message announced.engine).2 }
        else
          match deliver message host.engine with
          | (.fatal, engine) => { host with engine }
          | (.delivered, engine) => announce callback message { host with engine }
  else
    let counters := host.engine.counters
    { host with
      engine :=
        { host.engine with
          counters := { counters with unknown := counters.unknown + 1 } } }

/-! ## The network loop -/

/-- Looks for a message, receives and routes it.  A failure costs nothing but the
attempt. -/
def poll (transport : Transport σ) (bindings : Bindings ω) (host : Host ω)
    (network : σ) : Host ω × σ :=
  match transport.probe network with
  | (.ok (some header), probed) =>
      match transport.receive header probed with
      | (.ok payload, received) =>
          let counters := host.engine.counters
          let counted :=
            { host.engine with
              counters := { counters with received := counters.received + 1 } }
          (route bindings ⟨header.tag, header.source, payload⟩
            { host with engine := counted }, received)
      | (.error _, received) => (host, received)
  | (.ok none, probed) => (host, probed)
  | (.error _, probed) => (host, probed)

/-- Offers the pending sends to the network and collects the complete ones. -/
def transmit (transport : Transport σ) (host : Host ω) (network : σ) : Host ω × σ :=
  let (issued, offered) := host.engine.sends.issuePending transport network
  let (sends, tested) := issued.collectActive transport offered
  ({ host with engine := { host.engine with sends } }, tested)

/-- The body of the network loop. -/
def networkPass (transport : Transport σ) (bindings : Bindings ω) (host : Host ω)
    (network : σ) : Host ω × σ :=
  let (polled, received) := host.poll transport bindings network
  polled.transmit transport received

/-- Gives the network up, once; an inert engine has none. -/
def finalize (transport : Transport σ) (host : Host ω) (network : σ) : Host ω × σ :=
  if host.engine.active && !host.engine.finalized then
    let (_, after) := transport.finalize network
    ({ host with engine := { host.engine with finalized := true } }, after)
  else
    (host, network)

/-- One turn of the network loop: the body while the engine runs, and the end of the
loop once it is stopped. -/
def networkStep (transport : Transport σ) (bindings : Bindings ω) (host : Host ω)
    (network : σ) : Host ω × σ :=
  if host.engine.running then host.networkPass transport bindings network
  else host.finalize transport network

/-! ## The process loop -/

/-- What the process loop finds to do. -/
inductive Duty (ω : Type) where
  /-- A request and its handler. -/
  | call (handler : Handler ω) (request : Request)
  /-- A request was dropped. -/
  | dropped
  /-- Nothing can be served yet. -/
  | idle
  /-- The engine is stopped. -/
  | ended

/-- What is to be done with a request that has been taken from the queue.  A request without
a handler and one that cannot be read are dropped, and so is any by a stopped engine. -/
def judge (bindings : Bindings ω) (message : Message) (engine : Engine) : Duty ω × Engine :=
  let counters := engine.counters
  if engine.running then
    match bindings.handler? message.tag with
    | none =>
        (.dropped,
          { engine with counters := { counters with unbound := counters.unbound + 1 } })
    | some handler =>
        match Request.ofMessage message with
        | .error _ =>
            (.dropped,
              { engine with
                counters := { counters with malformed := counters.malformed + 1 } })
        | .ok request => (.call handler request, engine)
  else
    (.ended, engine)

/-- Takes the next request from the queue and finds out what is to be done with it, when
nothing happens in between. -/
def nextDuty (bindings : Bindings ω) (engine : Engine) : Duty ω × Engine :=
  match engine.queue.nextRequest with
  | (.closed, queue) => (.ended, { engine with queue })
  | (.blocked, queue) => (.idle, { engine with queue })
  | (.request message, queue) => judge bindings message { engine with queue }

/-- Gives a request to its handler; a failure is counted and has no other effect. -/
def call (handler : Handler ω) (request : Request) (host : Host ω) : Host ω :=
  let ((outcome, memory), engine) :=
    host.engine.run (handler host.engine.seat request host.memory)
  let counters := engine.counters
  let failures :=
    match outcome with
    | .ok () => counters.handlerErrors
    | .error _ => counters.handlerErrors + 1
  let counted :=
    { counters with handlerErrors := failures, processed := counters.processed + 1 }
  ⟨{ engine with counters := counted }, memory⟩

/-- One turn of the process loop. -/
def processStep (bindings : Bindings ω) (host : Host ω) : Host ω :=
  match nextDuty bindings host.engine with
  | (.call handler request, engine) => call handler request { host with engine }
  | (_, engine) => { host with engine }

end Host

end ParameterServer

import ParameterServer.Engine.Reading
import ParameterServer.Proofs.Engine.Program

/-!
# What a member does

The steps that a member takes on its own engine: iterations of the two loops, and the
calls that send, read, stop and shut down.  Each step comes with what an observer
notes of it.
-/

namespace ParameterServer

/-- What an observer of a member notes. -/
inductive Observation where
  /-- The engine has accepted a send. -/
  | accepted (send : Outgoing)
  /-- The network loop has received a message and delivered it. -/
  | received (message : Message)
  /-- A reader has taken a payload. -/
  | taken (tag : Tag) (source : Rank) (payload : Payload)
  /-- A handler has served a request, and these sends of it were accepted. -/
  | served (request : Request) (sends : List Outgoing)
deriving DecidableEq, Repr

/-- A step of a member. -/
inductive Activity where
  /-- An iteration of the network loop; of a stopped engine, the end of the loop. -/
  | network
  /-- An iteration of the process loop. -/
  | process
  | send (destination : Rank) (tag : Tag) (payload : Payload)
  | broadcast (tag : Tag) (payload : Payload)
  /-- One attempt of a read, whether or not the reader waits for another one. -/
  | read (source : Source) (tag : Tag)
  | stop
  | shutdown
deriving DecidableEq, Repr

variable {σ ω : Type}

/-- Looks for a message and receives it. -/
def Transport.next (transport : Transport σ) (network : σ) :
    Option Message × σ :=
  match transport.probe network with
  | (.ok (some header), probed) =>
      match transport.receive header probed with
      | (.ok payload, received) =>
          (some ⟨header.tag, header.source, payload⟩, received)
      | (.error _, received) => (none, received)
  | (.ok none, probed) => (none, probed)
  | (.error _, probed) => (none, probed)

namespace Host

/-! ## Observed steps -/

/-- The host that has counted a received message. -/
def counting (host : Host ω) : Host ω :=
  let counters := host.engine.counters
  { host with
    engine :=
      { host.engine with
        counters := { counters with received := counters.received + 1 } } }

def announceNotes (callback : Callback ω) (message : Message) (host : Host ω) :
    List Observation :=
  (host.engine.acceptedSends
    (callback host.engine.seat message host.memory)).map .accepted

def routeNotes (bindings : Bindings ω) (message : Message) (host : Host ω) :
    List Observation :=
  if message.tag.isKnown then
    match bindings.callback? message.tag with
    | none => [.received message]
    | some callback =>
        if message.tag.isControl then
          host.announceNotes callback message ++ [.received message]
        else
          match deliver message host.engine with
          | (.fatal, _) => [.received message]
          | (.delivered, engine) =>
              .received message ::
                announceNotes callback message { host with engine }
  else
    [.received message]

def networkNotes (transport : Transport σ) (bindings : Bindings ω)
    (host : Host ω) (network : σ) : List Observation :=
  if host.engine.running then
    match (transport.next network).1 with
    | none => []
    | some message => routeNotes bindings message host.counting
  else
    []

def processNotes (bindings : Bindings ω) (host : Host ω) : List Observation :=
  match nextDuty bindings host.engine with
  | (.call handler request, engine) =>
      [.served request
        (engine.acceptedSends (handler engine.seat request host.memory))]
  | _ => []

/-- Takes a step, and notes what an observer sees of it. -/
def act (transport : Transport σ) (bindings : Bindings ω) (activity : Activity)
    (host : Host ω) (network : σ) : List Observation × Host ω × σ :=
  let engine := host.engine
  match activity with
  | .network =>
      (host.networkNotes transport bindings network,
        host.networkStep transport bindings network)
  | .process =>
      (host.processNotes bindings, host.processStep bindings, network)
  | .send destination tag payload =>
      ((engine.acceptedSends (.send destination tag payload .done)).map .accepted,
        { host with engine := (engine.send destination tag payload).2 }, network)
  | .broadcast tag payload =>
      ((engine.acceptedSends (.broadcast engine.seat.size tag payload)).map .accepted,
        { host with engine := (engine.broadcast tag payload).2 }, network)
  | .read source tag =>
      match engine.tryRead source tag with
      | (.ok (some (rank, payload)), engine) =>
          ([.taken tag rank payload], { host with engine }, network)
      | (_, engine) => ([], { host with engine }, network)
  | .stop => ([], { host with engine := engine.stop }, network)
  | .shutdown =>
      ([], { host with engine := engine.stop }.finalize transport network)

/-- Takes steps in order, each of which finds the network in some state; returns all
that is noted of them, and the host. -/
def follow (transport : Transport σ) (bindings : Bindings ω) (host : Host ω)
    (steps : List (Activity × σ)) : List Observation × Host ω :=
  steps.foldl
    (fun (seen, current) (activity, network) =>
      let (noted, after, _) := current.act transport bindings activity network
      (seen ++ noted, after))
    ([], host)

section Follow

variable (transport : Transport σ) (bindings : Bindings ω) (host : Host ω)

theorem follow_cons (step : Activity × σ) (rest : List (Activity × σ)) :
    host.follow transport bindings (step :: rest) =
      let (noted, after, _) := host.act transport bindings step.1 step.2
      let (seen, last) := after.follow transport bindings rest
      (noted ++ seen, last) := by
  -- What has been noted before is carried along unread.
  have carried (seen : List Observation) (host : Host ω) (steps : List (Activity × σ)) :
      steps.foldl
          (fun (seen, current) (activity, network) =>
            let (noted, after, _) := current.act transport bindings activity network
            (seen ++ noted, after))
          (seen, host) =
        (seen ++ (host.follow transport bindings steps).1,
          (host.follow transport bindings steps).2) := by
    unfold follow
    induction steps generalizing seen host with
    | nil =>
        simp
    | cons first rest inductionHypothesis =>
        simp only [List.foldl_cons]
        rw [inductionHypothesis, inductionHypothesis ([] ++ _)]
        simp
  exact carried _ _ rest

end Follow

end Host

end ParameterServer

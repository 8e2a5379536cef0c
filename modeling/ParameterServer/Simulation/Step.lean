import ParameterServer.Simulation.Group

/-!
# Steps of a simulation

What can be asked of a simulated group, and what is answered.
-/

namespace ParameterServer.Simulation

/-- A step.  All but `settle` are taken at one member. -/
inductive Step where
  | settle
  | rawSend (rank destination : Rank) (tag : Tag) (payload : Payload)
  | rawReceive (rank : Rank)
  | rawDrop (rank : Rank)
  | send (rank destination : Rank) (tag : Tag) (payload : Payload)
  | broadcast (rank : Rank) (tag : Tag) (payload : Payload)
  | tryRead (rank : Rank) (source : Source) (tag : Tag) (kind : Option Record.Kind)
  | read (rank : Rank) (source : Source) (tag : Tag) (kind : Option Record.Kind)
  | barrier (rank : Rank) (tag reply : Tag) (payload : Payload)
  | waitForReplies (rank : Rank) (reply : Tag) (count : Nat)
  | flush (rank : Rank)
  | stop (rank : Rank)
  | shutdown (rank : Rank)
  | hold (rank : Rank)
  | release (rank : Rank)
  | fault (rank : Rank) (added : FaultPlan)
  | info (rank : Rank)
  | table (rank : Rank) (key : String)
deriving DecidableEq, Repr

/-- What is known of a member with an engine. -/
structure NodeInfo where
  engine : Engine
  finalizations : Nat
  table : Option TableStats
deriving DecidableEq, Repr

/-- A payload that was read, as it is or as a record. -/
inductive Content where
  | bytes (payload : Payload)
  | record (record : Record)
deriving DecidableEq, Repr

/-- The answer to a step. -/
inductive Answer where
  | nothing
  | outcome (result : Except Error Unit)
  | handle (result : Except Error SendHandle)
  | received (messages : List (Except Error Message))
  | popped (result : Except Error (Option (Rank × Content)))
  | running (value : Bool)
  | info (info : Option NodeInfo)
  | table (value : Option ParamValue) (size : Nat) (stats : TableStats)

namespace Node

/-- The table server of a member that has one. -/
def server? (node : Node) : Option (TableServer StockHandler) :=
  if node.hasTable then node.host.map (·.memory.server) else none

def info? (node : Node) : Option NodeInfo :=
  node.host.map fun host =>
    ⟨host.engine, node.faults.finalizations, node.server?.map (·.stats)⟩

end Node

namespace Group

/-- Reads a payload as a record, when one is asked for. -/
def interpret (tag : Tag) (kind : Option Record.Kind) :
    Option (Rank × Payload) → Except Error (Option (Rank × Content))
  | none => .ok none
  | some (rank, payload) =>
      match kind with
      | none => .ok (some (rank, .bytes payload))
      | some kind => do
          return some (rank, .record (← Record.decode kind tag payload))

/-- Takes one step. -/
def take (group : Group) : Step → Answer × Group
  | .settle => (.nothing, group.settle)
  | .rawSend rank destination tag payload =>
      let (handle, mesh) := group.mesh.send rank destination tag payload
      (.handle handle, { group with mesh })
  | .rawReceive rank =>
      let (messages, mesh) := group.mesh.receiveAll rank
      (.received messages, { group with mesh })
  | .rawDrop rank => (.nothing, { group with mesh := group.mesh.drop rank })
  | .send rank destination tag payload =>
      let (outcome, after) :=
        group.withEngine rank (.error .inactive) (Engine.send destination tag payload)
      (.outcome outcome, after)
  | .broadcast rank tag payload =>
      let (outcome, after) :=
        group.withEngine rank (.error .inactive) (Engine.broadcast tag payload)
      (.outcome outcome, after)
  | .tryRead rank source tag kind =>
      let (found, after) :=
        group.withEngine rank (.error .inactive) (Engine.tryRead source tag)
      (.popped (found >>= interpret tag kind), after)
  | .read rank source tag kind =>
      let (found, after) := group.read rank source tag
      (.popped (found >>= fun pair => interpret tag kind (some pair)), after)
  | .barrier rank tag reply payload =>
      let (outcome, after) := group.barrier rank tag reply payload
      (.outcome outcome, after)
  | .waitForReplies rank reply count =>
      let (outcome, after) := group.waitForReplies rank reply count
      (.outcome outcome, after)
  | .flush rank =>
      let (outcome, after) := group.flush rank
      (.outcome outcome, after)
  | .stop rank =>
      let (_, after) := group.withEngine rank () (fun engine => ((), engine.stop))
      (.nothing, after)
  | .shutdown rank =>
      let after := group.shutdown rank
      (.running ((after.node rank).host.any (·.engine.running)), after)
  | .hold rank =>
      (.nothing, group.change rank (fun node mesh => ({ node with hold := true }, mesh)))
  | .release rank =>
      (.nothing, group.change rank (fun node mesh => (node.release, mesh)))
  | .fault rank added =>
      (.nothing,
        group.change rank (fun node mesh =>
          ({ node with faults := node.faults.extend added }, mesh)))
  | .info rank => (.info (group.node rank).info?, group)
  | .table rank key =>
      match (group.node rank).server? with
      | none => (.nothing, group)
      | some server => (.table (server.value? key) server.size server.stats, group)

/-- Takes a step and collects its events. -/
def step (group : Group) (step : Step) : (Answer × List Event) × Group :=
  let (answer, after) := group.take step
  ((answer, after.events), { after with events := [] })

/-- Takes steps in order. -/
def steps (group : Group) : List Step → List (Answer × List Event) × Group
  | [] => ([], group)
  | next :: rest =>
      let (answer, after) := group.step next
      let (answers, last) := after.steps rest
      (answer :: answers, last)

end Group

end ParameterServer.Simulation

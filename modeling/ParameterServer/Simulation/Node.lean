import ParameterServer.Engine.Host
import ParameterServer.Simulation.Fault
import ParameterServer.Simulation.Script
import ParameterServer.Transport.Mesh

/-!
# Simulated members

A member of a simulated group: its engine, if it has one, and the state of the loops
that drive it.  The loops are advanced one iteration at a time.
-/

namespace ParameterServer.Simulation

/-! ## Description -/

/-- How the engine of a member is started. -/
inductive Mode where
  /-- Not at all. -/
  | inert
  | engine
  /-- With a table server that is bound before the start. -/
  | serve
  /-- If the activation variable is present. -/
  | environment
deriving DecidableEq, Repr

/-- The table server of a member: made for a handler, or by the registry. -/
structure TableSpec where
  ofRegistry : Bool
  handler : StockHandler
  config : Except Error TableConfig

/-- One binding of a member's engine. -/
inductive BindingSpec where
  | request (tag : Tag) (actions : List GuardedAction)
  | message (tag : Tag) (actions : List GuardedAction)
  | table

/-- A member with an engine, to be set up. -/
structure NodeSpec where
  mode : Mode
  config : EngineConfig := {}
  table : Option TableSpec := none
  bindings : List BindingSpec := []
  /-- Whether the network refuses the connection. -/
  refuses : Bool := false

/-! ## State -/

/-- A member. -/
structure Node where
  host : Option (Host Memory) := none
  bindings : Bindings Memory := {}
  hasTable : Bool := false
  faults : FaultPlan := {}
  /-- Whether the network loop has not ended. -/
  looping : Bool := false
  /-- Whether the next handler called is to be parked. -/
  hold : Bool := false
  /-- The call that is parked at its start. -/
  parked : Option (Handler Memory × Request) := none

namespace Node

/-! ## Setting up -/

/-- The handlers that a simulated registry knows. -/
def registry : HandlerRegistry StockHandler :=
  ⟨HandlerRegistry.builtins.entries ++ [("picky", .picky {})]⟩

/-- The table server that a description asks for. -/
def tableServer (spec : TableSpec) : Except Error (TableServer StockHandler) := do
  let config ← spec.config
  if spec.ofRegistry then
    TableServer.ofRegistry StockHandler.handler registry config
  else
    TableServer.ofHandler StockHandler.handler config spec.handler

/-- Binds the member's table server. -/
def bindTable (bindings : Bindings Memory) : Except Error (Bindings Memory) :=
  TableServer.bind StockHandler.handler Memory.server
    (fun server memory => { memory with server }) bindings

/-- Adds one binding. -/
def bindOne (bindings : Bindings Memory) : BindingSpec → Except Error (Bindings Memory)
  | .request tag actions => bindings.onRequest tag (scriptedHandler actions)
  | .message tag actions => bindings.onMessage tag (scriptedCallback actions)
  | .table => bindTable bindings

/-- Starts the engine of a member. -/
def startEngine (seat : Seat) (isPresent : String → Bool) (spec : NodeSpec) :
    Except Error Engine :=
  let connect : Except Error Seat :=
    if spec.refuses then .error (.transport "connect refused") else .ok seat
  match spec.mode with
  | .inert => .ok (.inert spec.config)
  | .engine | .serve => Engine.start spec.config seat
  | .environment => Engine.startFromEnvironment spec.config isPresent connect

/-- Sets up a member at a place of the mesh.  Its table server comes first, then its
bindings, and its engine last; the first failure leaves it without an engine.  Returns
the engine as it was started, and the member. -/
def ofSpec (seat : Seat) (isPresent : String → Bool) (spec : NodeSpec) :
    Except Error (Engine × Node) := do
  let server ← spec.table.mapM tableServer
  let bound ← spec.bindings.foldlM bindOne {}
  let bindings ← if spec.mode = .serve then bindTable bound else pure bound
  let engine ← startEngine seat isPresent spec
  let memory : Memory := { server := server.getD { handler := .accumulate {} } }
  return (engine,
    { host := some ⟨engine, memory⟩
      bindings
      hasTable := server.isSome
      looping := engine.active })

/-! ## The process loop -/

/-- Gives a request to its handler. -/
def call (handler : Handler Memory) (request : Request) (node : Node) : Node :=
  { node with host := node.host.map (Host.call handler request) }

/-- Serves requests until the queue yields nothing or a call is parked, at most
`limit` of them. -/
def serveFor : (limit : Nat) → Node → Node
  | 0, node => node
  | limit + 1, node =>
      match node.host, node.parked with
      | some host, none =>
          let (duty, engine) := Host.nextDuty node.bindings host.engine
          let taken := { node with host := some { host with engine } }
          match duty with
          | .idle | .ended => taken
          | .dropped => serveFor limit taken
          | .call handler request =>
              if node.hold then { taken with parked := some (handler, request) }
              else serveFor limit (taken.call handler request)
      | _, _ => node

/-- Serves every request that can be served now. -/
def serve (node : Node) : Node :=
  match node.host with
  | none => node
  | some host => node.serveFor (host.engine.pendingRequests + 1)

/-- Lets a parked call go, and serves what follows it. -/
def release (node : Node) : Node :=
  let opened := { node with hold := false, parked := none }
  match node.parked with
  | none => opened
  | some (handler, request) => (opened.call handler request).serve

/-! ## The network loop -/

/-- The member's share of the mesh, with its faults. -/
def transport (rank : Rank) : Transport (FaultPlan × Mesh) :=
  faulty (Mesh.transport rank)

/-- One pass of the network loop, which ends the loop if the engine is stopped by
then. -/
def networkIteration (rank : Rank) (node : Node) (mesh : Mesh) : Node × Mesh :=
  match node.host with
  | none => (node, mesh)
  | some host =>
      if node.looping then
        let (passed, faults, after) :=
          host.networkPass (transport rank) node.bindings (node.faults, mesh)
        if passed.engine.running then
          ({ node with host := some passed, faults }, after)
        else
          let (ended, faults, last) := passed.finalize (transport rank) (faults, after)
          ({ node with host := some ended, faults, looping := false }, last)
      else
        (node, mesh)

/-- One pass of the network loop, and the requests that it makes servable. -/
def iterate (rank : Rank) (node : Node) (mesh : Mesh) : Node × Mesh :=
  let (passed, after) := node.networkIteration rank mesh
  (passed.serve, after)

/-- Stops the engine, ends its loops and gives the network up.  A parked call is let
go afterwards. -/
def shutdown (rank : Rank) (node : Node) (mesh : Mesh) : Node × Mesh :=
  let halt (host : Host Memory) : Host Memory :=
    { host with engine := host.engine.stop }
  let stopped := { node with host := node.host.map halt }
  let (ended, after) := stopped.networkIteration rank mesh
  (ended.release, after)

/-! ## Observation -/

/-- What the end of a turn is recognised by: the counters, the faults to come and
whether the network loop goes on. -/
def mark (node : Node) : Option (EngineCounters × SendStats) × FaultPlan × Bool :=
  (node.host.map (fun host => (host.engine.counters, host.engine.sends.stats)),
    node.faults, node.looping)

end Node

end ParameterServer.Simulation

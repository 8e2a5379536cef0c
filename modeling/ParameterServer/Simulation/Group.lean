import ParameterServer.Engine.Reading
import ParameterServer.Simulation.Node

/-!
# Simulated groups

Members on one mesh, advanced in a fixed order: a member's turn is over when an
iteration of its network loop changes nothing, and the group is settled when a turn
of every member changes nothing.
-/

namespace ParameterServer.Simulation

/-- The members of a group, in the order of their ranks, on their mesh. -/
structure Group where
  mesh : Mesh
  nodes : List Node
  /-- The events since they were last collected, the oldest first. -/
  events : List Event := []

namespace Group

/-- A member; past the end of the group, one without an engine. -/
def node (group : Group) (rank : Rank) : Node :=
  group.nodes.getD rank {}

/-- Changes a member and the mesh, and collects the events of the change. -/
def change (rank : Rank) (action : Node → Mesh → Node × Mesh) (group : Group) :
    Group :=
  let (changed, mesh) := action (group.node rank) group.mesh
  match changed.host with
  | none => { group with mesh, nodes := group.nodes.set rank changed }
  | some host =>
      let collected := { host with memory := { host.memory with events := [] } }
      { mesh
        nodes := group.nodes.set rank { changed with host := some collected }
        events := group.events ++ host.memory.events }

/-- Changes the engine of a member and yields a result; `default` stands for the
result of a member without an engine. -/
def withEngine {α : Type} (rank : Rank) (default : α)
    (action : Engine → α × Engine) (group : Group) : α × Group :=
  match (group.node rank).host with
  | none => (default, group)
  | some host =>
      let (result, engine) := action host.engine
      (result,
        group.change rank (fun node mesh =>
          ({ node with host := some { host with engine } }, mesh)))

/-! ## Schedule -/

/-- The greatest number of iterations in one turn, and of passes in one settling. -/
def scheduleLimit : Nat := 100000

/-- Repeats iterations of one member until nothing changes or its loop has ended. -/
def turnFor (rank : Rank) : (limit : Nat) → Group → Group
  | 0, group => group
  | limit + 1, group =>
      let before := group.node rank
      if before.looping then
        let after := group.change rank (Node.iterate rank)
        if (after.node rank).mark = before.mark then after
        else turnFor rank limit after
      else
        group

/-- A turn of every member, in the order of their ranks. -/
def pass (group : Group) : Group :=
  (List.range group.nodes.length).foldl
    (fun current rank => current.turnFor rank scheduleLimit) group

/-- Repeats passes until one changes nothing. -/
def settleFor : (limit : Nat) → Group → Group
  | 0, group => group
  | limit + 1, group =>
      let after := group.pass
      if after.nodes.map Node.mark = group.nodes.map Node.mark then after
      else settleFor limit after

/-- Advances the group until nothing changes any more. -/
def settle (group : Group) : Group :=
  group.settleFor scheduleLimit

/-- Shuts the engine of a member down. -/
def shutdown (rank : Rank) (group : Group) : Group :=
  group.change rank (Node.shutdown rank)

/-! ## Blocking calls -/

def isActive (rank : Rank) (group : Group) : Bool :=
  (group.node rank).host.any (·.engine.active)

/-- The outcome of an attempt that cannot be repeated. -/
def conclude {α : Type} : Attempt α → Except Error α
  | .done value => .ok value
  | .failed error => .error error
  | .waiting => .error .stopped

/-- Settles the group for an active engine; calls on an inert one end at once. -/
def settleFirst (rank : Rank) (group : Group) : Group :=
  if group.isActive rank then group.settle else group

/-- A blocking call: when its attempt has to wait although the group is settled,
nothing more can release it, and the engine is shut down. -/
def await {α : Type} (rank : Rank) (attempt : Engine → Attempt α × Engine)
    (group : Group) : Except Error α × Group :=
  match group.withEngine rank (.failed .inactive) attempt with
  | (.waiting, waited) =>
      let (last, final) :=
        (waited.shutdown rank).withEngine rank (.failed .inactive) attempt
      (conclude last, final)
  | (outcome, after) => (conclude outcome, after)

/-- A blocking read. -/
def read (rank : Rank) (source : Source) (tag : Tag) (group : Group) :
    Except Error (Rank × Payload) × Group :=
  (group.settleFirst rank).await rank (Engine.attemptRead source tag)

/-- Waits until every send is complete. -/
def flush (rank : Rank) (group : Group) : Except Error Unit × Group :=
  (group.settleFirst rank).await rank (fun engine => (engine.attemptFlush, engine))

/-- One attempt of a barrier, which returns the number of replies still needed. -/
def attemptBarrier (rank : Rank) (reply : Tag) (count : Nat) (group : Group) :
    (Attempt Unit × Nat) × Group :=
  group.withEngine rank (.failed .inactive, count) fun engine =>
    let (attempt, needed, after) := engine.attemptBarrier reply count
    ((attempt, needed), after)

/-- Goes on with a barrier after `progress`, and shuts the engine down when that has
not released it. -/
def finishBarrier (rank : Rank) (reply : Tag) (count : Nat)
    (progress : Group → Group) (group : Group) : Except Error Unit × Group :=
  match group.attemptBarrier rank reply count with
  | ((.waiting, needed), waited) =>
      match (progress waited).attemptBarrier rank reply needed with
      | ((.waiting, left), stuck) =>
          let ((last, _), final) := (stuck.shutdown rank).attemptBarrier rank reply left
          (conclude last, final)
      | ((outcome, _), after) => (conclude outcome, after)
  | ((outcome, _), after) => (conclude outcome, after)

/-- Waits for a number of replies. -/
def waitForReplies (rank : Rank) (reply : Tag) (count : Nat) (group : Group) :
    Except Error Unit × Group :=
  finishBarrier rank reply count id (group.settleFirst rank)

/-- Broadcasts and waits for as many replies as there are members but one. -/
def barrier (rank : Rank) (tag reply : Tag) (payload : Payload) (group : Group) :
    Except Error Unit × Group :=
  match (group.settleFirst rank).withEngine rank (.error .inactive)
      (Engine.broadcast tag payload) with
  | (.error error, after) => (.error error, after)
  | (.ok (), after) =>
      let count := ((after.node rank).host.map (·.engine.barrierSize)).getD 0
      finishBarrier rank reply count settle after

/-! ## Setting up -/

/-- What became of a member's description. -/
inductive SetupOutcome where
  /-- The member has no engine, and its share of the mesh is used directly. -/
  | raw
  | failed (error : Error)
  | started (engine : Engine)

/-- Sets up one member; one without a description is raw. -/
def setUp (seat : Seat) (isPresent : String → Bool) :
    Option NodeSpec → SetupOutcome × Node
  | none => (.raw, {})
  | some spec =>
      match Node.ofSpec seat isPresent spec with
      | .error error => (.failed error, {})
      | .ok (engine, node) => (.started engine, node)

/-- Sets up a group.  Members whose description fails have no engine. -/
def ofSpecs (isPresent : String → Bool) (specs : List (Option NodeSpec)) :
    List SetupOutcome × Group :=
  let size := specs.length
  let built := specs.mapIdx (fun rank spec => setUp ⟨rank, size⟩ isPresent spec)
  (built.map Prod.fst, { mesh := .ofSize size, nodes := built.map Prod.snd })

end Group

end ParameterServer.Simulation

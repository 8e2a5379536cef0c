import Mathlib.Logic.Function.Basic
import ParameterServer.Proofs.Transport.Mesh

/-!
# Clusters

Engines on all ranks of one mesh.  One member takes a step at a time, in any order,
and what it notes of its steps is kept beside the state.
-/

namespace ParameterServer

/-- Members on one mesh, each with what it has noted so far. -/
structure Cluster (ω : Type) where
  mesh : Mesh
  hosts : Rank → Host ω
  seen : Rank → List Observation

namespace Cluster

variable {ω : Type}

/-- Engines that have just been started on a new mesh of `size` members. -/
def start (size : Nat) (config : Rank → EngineConfig) (memory : Rank → ω) :
    Cluster ω where
  mesh := .ofSize size
  hosts rank := ⟨.atSeat (config rank) ⟨rank, size⟩ true, memory rank⟩
  seen _ := []

/-- One member takes a step. -/
def step (bindings : Rank → Bindings ω) (cluster : Cluster ω)
    (event : Rank × Activity) : Cluster ω :=
  let (rank, activity) := event
  if rank < cluster.mesh.size then
    let (noted, host, mesh) :=
      (cluster.hosts rank).act (Mesh.transport rank) (bindings rank) activity
        cluster.mesh
    { mesh
      hosts := Function.update cluster.hosts rank host
      seen := Function.update cluster.seen rank (cluster.seen rank ++ noted) }
  else
    cluster

/-- Members take steps in the given order. -/
def run (bindings : Rank → Bindings ω) (cluster : Cluster ω)
    (events : List (Rank × Activity)) : Cluster ω :=
  events.foldl (step bindings) cluster

theorem run_invariant {bindings : Rank → Bindings ω} {motive : Cluster ω → Prop}
    (preserve : ∀ {cluster : Cluster ω} (event : Rank × Activity),
      motive cluster → motive (cluster.step bindings event))
    {cluster : Cluster ω} (initial : motive cluster)
    (events : List (Rank × Activity)) : motive (cluster.run bindings events) := by
  induction events generalizing cluster with
  | nil => exact initial
  | cons event rest inductionHypothesis =>
      exact inductionHypothesis (preserve event initial)

/-- What the moves of one member preserve, and does not depend on its sends, holds of
the member throughout. -/
theorem host_invariant {bindings : Rank → Bindings ω} {rank : Rank}
    {motive : List Observation → Host ω → Prop}
    (move : ∀ {host after : Host ω} {seen noted : List Observation},
      Host.Move (bindings rank) host noted after → motive seen host →
        motive (seen ++ noted) after)
    (transmit : ∀ {host : Host ω} {seen : List Observation} (sends : SendTracker),
      motive seen host →
        motive seen { host with engine := { host.engine with sends } })
    {cluster : Cluster ω} (initial : motive (cluster.seen rank) (cluster.hosts rank))
    (events : List (Rank × Activity)) :
    motive ((cluster.run bindings events).seen rank)
      ((cluster.run bindings events).hosts rank) := by
  refine run_invariant (motive := fun cluster =>
    motive (cluster.seen rank) (cluster.hosts rank)) ?_ initial events
  intro cluster event holds
  obtain ⟨acting, activity⟩ := event
  simp only [step]
  split
  · by_cases own : rank = acting
    · subst acting
      simp only [Function.update_self]
      exact Host.act_preserve (bindings rank) (cluster.hosts rank) move transmit
        _ activity cluster.mesh _ holds
    · simpa only [Function.update_of_ne own] using holds
  · exact holds

end Cluster

end ParameterServer

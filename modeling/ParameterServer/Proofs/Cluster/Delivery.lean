import ParameterServer.Proofs.Cluster.Basic

/-!
# Delivery

Nothing that a member of a cluster accepts for another one is lost, duplicated,
altered or reordered on its way: it is received, in flight or pending.  What is
received and is not a request is taken by a reader or waits for one.
-/

namespace ParameterServer

open Observation

variable {ω : Type}

/-! ## One step of one member -/

namespace Host

variable {mesh : Mesh} {rank : Rank} {size : Nat} {host : Host ω}

/-- A step of a member keeps the account of its own sends and of all that is in
flight.  In the account of a pair of members, pending and accepted sends count if the
member that acts is the source, and received messages if it is the destination. -/
structure Settles (rank : Rank) (size : Nat) (noted : List Observation)
    (host after : Host ω) (mesh next : Mesh) : Prop where
  whole : Mesh.Whole size next
  inside : after.engine.PendingInside
  account : ∀ source destination,
    mesh.inFlight source destination ++
        (if source = rank then
          host.engine.sends.pendingTo destination ++ sentTo destination noted
        else []) =
      (if destination = rank then receivedFrom source noted else []) ++
        next.inFlight source destination ++
        if source = rank then after.engine.sends.pendingTo destination else []

/-- A step that receives nothing and does nothing to the network but, possibly, give
it up. -/
theorem settles_of_moves {bindings : Bindings ω} {noted : List Observation}
    {after : Host ω} {next : Mesh} (whole : Mesh.Whole size mesh)
    (member : rank < size) (inside : host.engine.PendingInside)
    (moves : Moves bindings host noted after)
    (silent : ∀ source, receivedFrom source noted = [])
    (kept : next = mesh ∨ next = (mesh.finalize rank).2) :
    Settles rank size noted host after mesh next := by
  have given := Mesh.finalize_transport whole (whole.size_eq ▸ member)
  have flight (source destination : Rank) :
      next.inFlight source destination = mesh.inFlight source destination := by
    rcases kept with rfl | rfl
    · rfl
    · exact (given source destination).2
  refine ⟨?_, moves.pendingInside inside, ?_⟩
  · rcases kept with rfl | rfl
    · exact whole
    · exact (given 0 0).1
  · intro source destination
    simp [silent, flight, moves.pendingTo destination]

theorem transmit_mesh (whole : Mesh.Whole size mesh) (member : rank < size)
    (seat : host.engine.seat.size = size) (inside : host.engine.PendingInside) :
    let sent := host.transmit (Mesh.transport rank) mesh
    Mesh.Whole size sent.2 ∧ sent.1.engine.PendingInside ∧
      ∀ source destination,
        sent.2.inFlight source destination ++
            (if source = rank then sent.1.engine.sends.pendingTo destination
            else []) =
          mesh.inFlight source destination ++
            if source = rank then host.engine.sends.pendingTo destination
            else [] := by
  intro sent
  obtain ⟨issuedWhole, issuedInside, account⟩ :=
    Mesh.issuePending_transport whole member host.engine.sends
      (seat ▸ inside)
  let issued := host.engine.sends.issuePending (Mesh.transport rank) mesh
  have network : sent.2 = issued.2 :=
    (Mesh.collectActive_transport issued.1).2
  have pending : sent.1.engine.sends.pending = issued.1.pending := rfl
  refine ⟨network ▸ issuedWhole, ?_, ?_⟩
  · intro send listed
    rw [pending] at listed
    exact Nat.lt_of_lt_of_eq (issuedInside send listed) seat.symm
  · intro source destination
    rw [network]
    exact account source destination

theorem settles_networkPass (bindings : Bindings ω) (whole : Mesh.Whole size mesh)
    (member : rank < size) (seat : host.engine.seat.size = size)
    (inside : host.engine.PendingInside) (live : host.engine.running = true) :
    let passed := host.networkPass (Mesh.transport rank) bindings mesh
    Settles rank size (host.networkNotes (Mesh.transport rank) bindings mesh)
      host passed.1 mesh passed.2 := by
  intro passed
  have moves := moves_poll bindings host (Mesh.transport rank) mesh live
  have received := Mesh.next_transport whole (whole.size_eq ▸ member)
  obtain ⟨sentWhole, sentInside, sent⟩ :=
    transmit_mesh (received 0 0).1 member
      (seat ▸ congrArg Seat.size moves.frame.1) (moves.pendingInside inside)
  have same : (host.poll (Mesh.transport rank) bindings mesh).1.transmit
      (Mesh.transport rank) ((Mesh.transport rank).next mesh).2 = passed := by
    simp only [passed, networkPass, poll_eq]
  rw [same] at sentWhole sentInside sent
  refine ⟨sentWhole, sentInside, ?_⟩
  intro source destination
  rw [(received source destination).2, List.append_assoc, List.append_assoc,
    sent source destination, ← moves.pendingTo destination]
  congr 1
  rw [receivedFrom_networkNotes _ _ live]

/-- Every step of a member of a mesh keeps the accounts. -/
theorem settles_act (bindings : Bindings ω) (whole : Mesh.Whole size mesh)
    (member : rank < size) (seat : host.engine.seat.size = size)
    (inside : host.engine.PendingInside) (activity : Activity) :
    let result := host.act (Mesh.transport rank) bindings activity mesh
    Settles rank size result.1 host result.2.1 mesh result.2.2 := by
  intro result
  by_cases other : activity = .network
  · subst activity
    by_cases live : host.engine.running = true
    · have passed := settles_networkPass bindings whole member seat
        inside live
      simp only [result, act, networkStep, live, ↓reduceIte]
      exact passed
    · have ended := settles_of_moves whole member inside
        (moves_finalize bindings host (Mesh.transport rank) mesh) (fun _ => rfl)
        (network_finalize host (Mesh.transport rank) mesh)
      simp only [result, act, networkStep, networkNotes, live, ↓reduceIte,
        Bool.false_eq_true]
      exact ended
  · exact settles_of_moves whole member inside
      (moves_act_of_ne bindings host other (Mesh.transport rank) mesh)
      (receivedFrom_act other (Mesh.transport rank) mesh)
      (network_act_of_ne bindings host other (Mesh.transport rank) mesh)

end Host

/-! ## Every run -/

namespace Cluster

/-- Everything accepted is received, in flight or pending. -/
structure Conserves (size : Nat) (cluster : Cluster ω) : Prop where
  whole : Mesh.Whole size cluster.mesh
  outside : ∀ rank, size ≤ rank → cluster.seen rank = []
  seat : ∀ rank, (cluster.hosts rank).engine.seat.size = size
  inside : ∀ rank, (cluster.hosts rank).engine.PendingInside
  account : ∀ source destination,
    sentTo destination (cluster.seen source) =
      receivedFrom source (cluster.seen destination) ++
        cluster.mesh.inFlight source destination ++
        (cluster.hosts source).engine.sends.pendingTo destination

theorem conserves_start (size : Nat) (config : Rank → EngineConfig)
    (memory : Rank → ω) : Conserves size (start size config memory) where
  whole := Mesh.whole_ofSize size
  outside _ _ := rfl
  seat _ := rfl
  inside _ _ member := by simp [start, Engine.atSeat] at member
  account source destination := by
    have flight := Mesh.inFlight_ofSize source destination size
    simp [start, flight, Engine.atSeat, SendTracker.pendingTo, sentTo,
      receivedFrom]

theorem received_update (seen : Rank → List Observation) (rank : Rank)
    (noted : List Observation) (source destination : Rank) :
    receivedFrom source
        (Function.update seen rank (seen rank ++ noted) destination) =
      receivedFrom source (seen destination) ++
        if destination = rank then receivedFrom source noted else [] := by
  by_cases own : destination = rank
  · subst destination
    simp
  · simp [own]

theorem Conserves.step {size : Nat} {bindings : Rank → Bindings ω}
    {cluster : Cluster ω} (conserves : Conserves size cluster)
    (event : Rank × Activity) :
    Conserves size (cluster.step bindings event) := by
  obtain ⟨rank, activity⟩ := event
  simp only [Cluster.step]
  split
  · rename_i member
    have frame := Host.act_preserve (bindings rank) (cluster.hosts rank)
      (motive := fun _ host => host.engine.seat.size = size)
      (fun move known => (congrArg Seat.size move.frame.1).trans known)
      (fun _ known => known) (Mesh.transport rank) activity cluster.mesh
      [] (conserves.seat rank)
    have settles := Host.settles_act (bindings rank) conserves.whole
      (conserves.whole.size_eq ▸ member) (conserves.seat rank)
      (conserves.inside rank) activity
    refine ⟨settles.whole, ?_, ?_, ?_, ?_⟩
    · intro other beyond
      have apart : other ≠ rank := by
        rintro rfl
        exact absurd (conserves.whole.size_eq ▸ member) (Nat.not_lt.mpr beyond)
      simpa [apart] using conserves.outside other beyond
    · intro other
      by_cases own : other = rank
      · subst other
        simpa using frame
      · simpa [own] using conserves.seat other
    · intro other
      by_cases own : other = rank
      · subst other
        simpa using settles.inside
      · simpa [own] using conserves.inside other
    · intro source destination
      have before := conserves.account source destination
      have account := settles.account source destination
      rw [received_update]
      -- Only the member that acts accepts and receives; the others keep what they had.
      by_cases own : source = rank
      · subst source
        simp only [↓reduceIte, Function.update_self, sentTo_append,
          List.append_assoc] at account before ⊢
        rw [before, List.append_assoc, List.append_assoc, account]
      · simp only [own, ↓reduceIte, List.append_nil, ne_eq, not_false_eq_true,
          Function.update_of_ne] at account ⊢
        rw [before, account]
        simp only [List.append_assoc]
  · exact conserves

theorem conserves_run (size : Nat) (config : Rank → EngineConfig)
    (memory : Rank → ω) (bindings : Rank → Bindings ω)
    (events : List (Rank × Activity)) :
    Conserves size ((start size config memory).run bindings events) :=
  run_invariant (fun event holds => holds.step event)
    (conserves_start size config memory) events

theorem answers_run (size : Nat) (config : Rank → EngineConfig)
    (memory : Rank → ω) (bindings : Rank → Bindings ω)
    (events : List (Rank × Activity)) (destination source : Rank) {tag : Tag}
    (known : tag.isKnown = true) (plain : tag.isRequest = false) :
    let cluster := (start size config memory).run bindings events
    payloadsOf tag (receivedFrom source (cluster.seen destination)) =
      takenFrom tag source (cluster.seen destination) ++
        (cluster.hosts destination).engine.responses.waiting tag source := by
  refine host_invariant
    (motive := fun seen host =>
      payloadsOf tag (receivedFrom source seen) =
        takenFrom tag source seen ++ host.engine.responses.waiting tag source)
    ?_ (fun _ holds => holds) rfl events
  intro host after seen noted move holds
  rw [receivedFrom_append, takenFrom_append, payloadsOf_append, holds,
    List.append_assoc, move.responses known plain source, List.append_assoc]

/-- Engines on one mesh, whatever their members do and in whatever order.  For every
pair of members, the sends that the source has accepted for the destination are what
the destination has received from it, then what is in flight, then what is pending.
Of these, the payloads of a tag that readers read are those taken from its lane, then
those that wait there.  Once every send is complete, nothing is pending. -/
theorem delivery (size : Nat) (config : Rank → EngineConfig) (memory : Rank → ω)
    (bindings : Rank → Bindings ω) (events : List (Rank × Activity)) :
    let cluster := (start size config memory).run bindings events
    (∀ source destination,
      sentTo destination (cluster.seen source) =
        receivedFrom source (cluster.seen destination) ++
          cluster.mesh.inFlight source destination ++
          (cluster.hosts source).engine.sends.pendingTo destination) ∧
    (∀ source destination tag,
      tag.isKnown = true → tag.isRequest = false →
        payloadsOf tag (receivedFrom source (cluster.seen destination)) =
          takenFrom tag source (cluster.seen destination) ++
            (cluster.hosts destination).engine.responses.waiting tag source) ∧
    (∀ source destination,
      (cluster.hosts source).engine.attemptFlush = .done () →
        sentTo destination (cluster.seen source) =
          receivedFrom source (cluster.seen destination) ++
            cluster.mesh.inFlight source destination) := by
  intro cluster
  have conserves := conserves_run size config memory bindings events
  refine ⟨conserves.account, ?_, ?_⟩
  · intro source destination tag known plain
    exact answers_run size config memory bindings events destination source
      known plain
  · intro source destination flushed
    have active : (cluster.hosts source).engine.active = true :=
      host_invariant (motive := fun _ host => host.engine.active = true)
        (fun move holds => move.frame.2.trans holds) (fun _ holds => holds) rfl
        events
    rw [conserves.account, SendTracker.pendingTo,
      ((Engine.attemptFlush_eq_done active).mp flushed).1]
    exact List.append_nil _

end Cluster

end ParameterServer

import ParameterServer.Proofs.Engine.Accounts
import ParameterServer.Proofs.Engine.Barrier

/-!
# Broadcasts

A broadcast is one send after another, up to the first refusal.  The engine does not change in
between but for the sends that it has accepted, so that either all of them are accepted or the
first one is refused.  Whether the engine takes sends at all is found out by its first send: a
broadcast to nobody is never refused.
-/

namespace ParameterServer

variable {σ ω : Type}

namespace Engine

open Outbox (Program)

variable {engine : Engine}

/-- The sends of a broadcast, in order: one to every member but the coordinator. -/
def broadcastSends (size : Nat) (tag : Tag) (payload : Payload) : List Outgoing :=
  (List.range (size - 1)).map (⟨·, tag, payload⟩)

/-- Why an engine takes no sends. -/
def closure? (engine : Engine) : Option Error :=
  if !engine.active then some .inactive
  else if !engine.running then some .stopped
  else none

theorem closure?_eq_none :
    engine.closure? = none ↔ engine.active = true ∧ engine.running = true := by
  unfold closure?
  cases engine.active <;> cases engine.running <;> simp

theorem checkSendable_of_closed {error : Error} (closed : engine.closure? = some error)
    (destination : Rank) : engine.checkSendable destination = .error error := by
  unfold closure? at closed
  unfold checkSendable
  cases active : engine.active with
  | false => simpa [active] using closed
  | true =>
      cases running : engine.running with
      | false => simpa [active, running] using closed
      | true => simp [active, running] at closed

theorem checkSendable_of_open (opened : engine.closure? = none) {destination : Rank}
    (inside : destination < engine.seat.size) : engine.checkSendable destination = .ok () := by
  obtain ⟨active, running⟩ := closure?_eq_none.mp opened
  exact checkSendable_eq_ok_iff.mpr ⟨active, running, inside⟩

/-! ## Sends to several members -/

variable (tag : Tag) (payload : Payload)

/-- An engine that takes sends takes all that go to members of its group. -/
theorem run_sendEach_of_open (opened : engine.closure? = none) (destinations : List Rank)
    (inside : ∀ destination ∈ destinations, destination < engine.seat.size) :
    engine.run (Program.sendEach tag payload destinations) =
      (.ok (), engine.queueing (destinations.map (⟨·, tag, payload⟩))) := by
  induction destinations generalizing engine with
  | nil => rfl
  | cons destination rest inductionHypothesis =>
      have sendable := checkSendable_of_open opened (inside destination List.mem_cons_self)
      rw [Program.sendEach, run, send_of_ok tag payload sendable, List.map_cons, queueing_cons]
      exact inductionHypothesis opened fun other later =>
        inside other (List.mem_cons_of_mem _ later)

/-- An engine that takes no sends refuses the first one, if there is one. -/
theorem run_sendEach_of_closed {error : Error} (closed : engine.closure? = some error)
    (destinations : List Rank) :
    engine.run (Program.sendEach tag payload destinations) =
      (if destinations = [] then .ok () else .error error, engine) := by
  cases destinations with
  | nil => rfl
  | cons destination rest =>
      have refused := checkSendable_of_closed closed destination
      rw [Program.sendEach, run, send_of_error tag payload refused]
      rfl

theorem broadcast_of_open (opened : engine.closure? = none) :
    engine.broadcast tag payload =
      (.ok (), engine.queueing (broadcastSends engine.seat.size tag payload)) := by
  refine run_sendEach_of_open tag payload opened _ fun destination listed => ?_
  exact Nat.lt_of_lt_of_le (List.mem_range.mp listed) (Nat.sub_le _ 1)

theorem broadcast_of_closed {error : Error} (closed : engine.closure? = some error) :
    engine.broadcast tag payload =
      (if engine.seat.size ≤ 1 then .ok () else .error error, engine) := by
  rw [broadcast, Program.broadcast, run_sendEach_of_closed tag payload closed]
  simp only [List.range_eq_nil, Nat.sub_eq_zero_iff_le]

end Engine

namespace Host

open Engine (broadcastSends)

variable (transport : Transport σ) (bindings : Bindings ω)

theorem syncBroadcast_of_closed {host : Host ω} {error : Error}
    (closed : host.engine.closure? = some error) (tag reply : Tag) (payload : Payload)
    (meanwhile : List (Pause σ)) :
    host.syncBroadcast transport bindings tag reply payload meanwhile =
      (if host.engine.seat.size ≤ 1 then .done () else .failed error, [], host) := by
  rw [syncBroadcast, Engine.broadcast_of_closed tag payload closed]
  by_cases alone : host.engine.seat.size ≤ 1
  · have nobody : host.engine.barrierSize = 0 := Nat.sub_eq_zero_of_le alone
    simp only [alone, ↓reduceIte, nobody]
    rw [awaitReplies]
  · simp only [alone, ↓reduceIte]

/-- What a broadcast does, in any state of the engine.  If the engine is active and runs, one
send to every member but the coordinator is queued behind the pending ones, in the order of the
ranks, and nothing else changes.  If not, nothing is queued, and the broadcast and the wait for
replies fail with the reason, unless the group has no member but the coordinator: then there is
nobody to send to, and both succeed. -/
theorem broadcast_all_or_nothing (host : Host ω) (tag reply : Tag) (payload : Payload)
    (meanwhile : List (Pause σ)) :
    let engine := host.engine
    let sends := broadcastSends engine.seat.size tag payload
    let called := engine.broadcast tag payload
    match engine.closure? with
    | none =>
        called = (.ok (), engine.queueing sends) ∧
          called.2.sends.pending =
            engine.sends.pending ++
              (List.range (engine.seat.size - 1)).map fun rank =>
                { destination := rank, tag, payload }
    | some error =>
        called = (if engine.seat.size ≤ 1 then .ok () else .error error, engine) ∧
          host.syncBroadcast transport bindings tag reply payload meanwhile =
            (if engine.seat.size ≤ 1 then .done () else .failed error, [], host) := by
  intro engine sends called
  cases open? : engine.closure? with
  | none =>
      have sent : called = _ := Engine.broadcast_of_open tag payload open?
      refine ⟨sent, ?_⟩
      rw [sent, Engine.pending_queueing, Engine.broadcastSends, List.map_map]
      rfl
  | some error =>
      exact ⟨Engine.broadcast_of_closed tag payload open?,
        syncBroadcast_of_closed transport bindings open? tag reply payload meanwhile⟩

/-- An engine that is not active takes no sends, and yet its broadcast and its wait for replies
succeed, since its group has no other member.  So does a broadcast of a stopped engine that is
the only member of its group. -/
theorem broadcast_succeeds_inert :
    let inert : Host Unit := ⟨.inert {}, ()⟩
    let stopped : Host Unit := ⟨(Engine.atSeat {} ⟨0, 1⟩ true).stop, ()⟩
    inert.engine.send 0 .empty [] = (.error .inactive, inert.engine) ∧
      stopped.engine.send 0 .empty [] = (.error .stopped, stopped.engine) ∧
      ∀ host ∈ [inert, stopped],
        (host.engine.broadcast .empty []).1 = .ok () ∧
          (host.syncBroadcast (Mesh.transport 0) {} .empty .empty [] []).1 = .done () := by
  decide +kernel

end Host

end ParameterServer

import ParameterServer.Transport.Basic

/-!
# Outbound sends

A send is pending until the network accepts it and active until the network reports
it complete.  Refused sends stay pending in their order, and are offered again.
-/

namespace ParameterServer

/-- A message on its way out. -/
structure PendingSend where
  destination : Rank
  tag : Tag
  payload : Payload
  /-- How often the network has refused the send or failed a test of it; after its greatest
  value the count starts again from zero. -/
  failures : UInt32 := 0
deriving DecidableEq, Repr

/-- A send that the network has accepted. -/
structure ActiveSend where
  send : PendingSend
  handle : SendHandle
deriving DecidableEq, Repr

/-- How many sends were queued, accepted and completed, and how many calls failed. -/
structure SendStats where
  queued : Nat := 0
  issued : Nat := 0
  completed : Nat := 0
  failures : Nat := 0
deriving DecidableEq, Repr

/-- The sends that are not complete. -/
structure SendTracker where
  /-- Sends that the network has not accepted, in the order of the next attempt. -/
  pending : List PendingSend := []
  active : List ActiveSend := []
  stats : SendStats := {}
deriving DecidableEq, Repr

namespace SendTracker

variable {σ : Type}

/-- Queues a send. -/
def push (tracker : SendTracker) (send : PendingSend) : SendTracker :=
  { tracker with
    pending := tracker.pending ++ [send]
    stats := { tracker.stats with queued := tracker.stats.queued + 1 } }

/-- Whether a send is pending or active. -/
def isBusy (tracker : SendTracker) : Bool :=
  !tracker.pending.isEmpty || !tracker.active.isEmpty

/-! ## Offering pending sends -/

/-- Offers sends in order.  The tracker holds no pending send but those refused so
far. -/
def offer (transport : Transport σ) :
    List PendingSend → SendTracker → σ → SendTracker × σ
  | [], tracker, network => (tracker, network)
  | send :: rest, tracker, network =>
      let stats := tracker.stats
      match transport.send send.destination send.tag send.payload network with
      | (.ok handle, after) =>
          offer transport rest
            { tracker with
              active := tracker.active ++ [⟨send, handle⟩]
              stats := { stats with issued := stats.issued + 1 } }
            after
      | (.error _, after) =>
          offer transport rest
            { tracker with
              pending := tracker.pending ++ [{ send with failures := send.failures + 1 }]
              stats := { stats with failures := stats.failures + 1 } }
            after

/-- Offers every pending send to the network once. -/
def issuePending (transport : Transport σ) (tracker : SendTracker) (network : σ) :
    SendTracker × σ :=
  offer transport tracker.pending { tracker with pending := [] } network

/-! ## Collecting complete sends -/

/-- The list without its head, whose place the last element takes. -/
def replaceHead {α : Type} (rest : List α) : List α :=
  match rest.getLast? with
  | none => []
  | some last => last :: rest.dropLast

theorem length_replaceHead {α : Type} (rest : List α) :
    (replaceHead rest).length = rest.length := by
  unfold replaceHead
  cases rest with
  | nil => rfl
  | cons head tail => simp [List.getLast?_cons]

/-- Tests sends one after another.  The place of a complete send is taken by the last
send that is not yet tested; the others are kept in `kept`. -/
def testEach (transport : Transport σ) (kept : List ActiveSend) (stats : SendStats) :
    List ActiveSend → σ → List ActiveSend × SendStats × σ
  | [], network => (kept, stats, network)
  | current :: rest, network =>
      match transport.test current.handle network with
      | (.ok true, after) =>
          testEach transport kept { stats with completed := stats.completed + 1 }
            (replaceHead rest) after
      | (.ok false, after) =>
          testEach transport (kept ++ [current]) stats rest after
      | (.error _, after) =>
          let failed := { current.send with failures := current.send.failures + 1 }
          testEach transport (kept ++ [{ current with send := failed }])
            { stats with failures := stats.failures + 1 } rest after
termination_by untested => untested.length
decreasing_by
  · simp [length_replaceHead]
  · simp
  · simp

/-- Tests every active send once and removes those that are complete. -/
def collectActive (transport : Transport σ) (tracker : SendTracker) (network : σ) :
    SendTracker × σ :=
  let (active, stats, after) :=
    testEach transport [] tracker.stats tracker.active network
  ({ tracker with active, stats }, after)

/-! ## Waiting -/

/-- Waits for a tracker that nobody drains: asks `patience` times whether to go on
before giving up.  Returns whether it is drained, and how often it asked. -/
def waitDrained (tracker : SendTracker) (patience : Nat) : Bool × Nat :=
  if tracker.isBusy then (false, patience + 1) else (true, 0)

end SendTracker

end ParameterServer

import ParameterServer.Proofs.Engine.Program
import ParameterServer.Proofs.Transport.Calls

/-!
# Passes over the sends of a tracker

A pass makes one call of the network for each send that it finds: an offer for a
pending one, a test for an active one.  To tell equal sends apart, they are numbered in
the order in which they were queued.  A pass is known by its calls and their answers:
they say which sends stay, and which counters move.
-/

namespace ParameterServer

/-- The send as it was queued. -/
def PendingSend.outgoing (send : PendingSend) : Outgoing :=
  ⟨send.destination, send.tag, send.payload⟩

variable {σ : Type}

namespace SendTracker

/-! ## Calls of the network -/

/-- A call that a tracker makes of the network, with the answer. -/
inductive Call where
  /-- An offer of a send, which gives it a handle unless the network refuses it. -/
  | offered (send : Outgoing) (answer : Option SendHandle)
  /-- A test, which says whether the send is complete unless it fails. -/
  | tested (handle : SendHandle) (answer : Option Bool)
deriving DecidableEq, Repr

def Call.isFailure : Call → Bool
  | offered _ answer => answer.isNone
  | tested _ answer => answer.isNone

/-- A call, with the number of the send that it is made for. -/
structure Event where
  number : Nat
  call : Call
deriving DecidableEq, Repr

end SendTracker

open SendTracker (Call Event)

/-- The transport that notes the offers and the tests with their answers. -/
def Transport.noted (transport : Transport σ) : Transport (List Call × σ) where
  probe := fun (calls, network) =>
    let (found, after) := transport.probe network
    (found, calls, after)
  receive header := fun (calls, network) =>
    let (payload, after) := transport.receive header network
    (payload, calls, after)
  send destination tag payload := fun (calls, network) =>
    let (answer, after) := transport.send destination tag payload network
    (answer, calls ++ [.offered ⟨destination, tag, payload⟩ answer.toOption], after)
  test handle := fun (calls, network) =>
    let (answer, after) := transport.test handle network
    (answer, calls ++ [.tested handle answer.toOption], after)
  finalize := fun (calls, network) =>
    let (outcome, after) := transport.finalize network
    (outcome, calls, after)

theorem Transport.noted_send (transport : Transport σ) {destination : Rank} {tag : Tag}
    {payload : Payload} {network after : σ} {answer : Except Error SendHandle}
    (answered : transport.send destination tag payload network = (answer, after))
    (calls : List Call) :
    transport.noted.send destination tag payload (calls, network) =
      (answer, calls ++ [.offered ⟨destination, tag, payload⟩ answer.toOption],
        after) := by
  simp only [noted, answered]

theorem Transport.noted_test (transport : Transport σ) {handle : SendHandle}
    {network after : σ} {answer : Except Error Bool}
    (answered : transport.test handle network = (answer, after)) (calls : List Call) :
    transport.noted.test handle (calls, network) =
      (answer, calls ++ [.tested handle answer.toOption], after) := by
  simp only [noted, answered]

/-- Noting makes no difference to the answers. -/
theorem Transport.agree_noted (transport : Transport σ) :
    Agree (fun noted network => noted.2 = network) transport.noted transport where
  probe := by
    rintro ⟨calls, network⟩ _ rfl
    exact ⟨rfl, rfl⟩
  receive := by
    rintro header ⟨calls, network⟩ _ rfl
    exact ⟨rfl, rfl⟩
  send := by
    rintro destination tag payload ⟨calls, network⟩ _ rfl
    exact ⟨rfl, rfl⟩
  test := by
    rintro handle ⟨calls, network⟩ _ rfl
    exact ⟨rfl, rfl⟩

namespace SendTracker

/-! ## Offers -/

/-- An offer of a numbered send; the answer is a handle unless the network refuses. -/
structure Offer where
  number : Nat
  send : PendingSend
  answer : Option SendHandle

namespace Offer

def event (offer : Offer) : Event :=
  ⟨offer.number, .offered offer.send.outgoing offer.answer⟩

/-- The send, if it stays pending. -/
def refused? (offer : Offer) : Option (Nat × PendingSend) :=
  match offer.answer with
  | none => some (offer.number, { offer.send with failures := offer.send.failures + 1 })
  | some _ => none

/-- The send, if it becomes active. -/
def accepted? (offer : Offer) : Option (Nat × ActiveSend) :=
  offer.answer.map fun handle => (offer.number, ⟨offer.send, handle⟩)

end Offer

/-- The offers of a pass over numbered sends. -/
def offers (transport : Transport σ) : List (Nat × PendingSend) → σ → List Offer
  | [], _ => []
  | (number, send) :: rest, network =>
      match transport.send send.destination send.tag send.payload network with
      | (.ok handle, after) =>
          ⟨number, send, some handle⟩ :: offers transport rest after
      | (.error _, after) => ⟨number, send, none⟩ :: offers transport rest after

/-- Every pending send is offered once, in order. -/
theorem map_offers (transport : Transport σ) (numbered : List (Nat × PendingSend))
    (network : σ) :
    (offers transport numbered network).map (fun offer => (offer.number, offer.send)) =
      numbered := by
  fun_induction offers transport numbered network with
  | case1 => rfl
  | case2 number send rest network handle after answered inductionHypothesis =>
      rw [List.map_cons, inductionHypothesis]
  | case3 number send rest network error after answered inductionHypothesis =>
      rw [List.map_cons, inductionHypothesis]

/-- Offering sends calls the network as the offers say, keeps those that it refuses and
makes the others active. -/
theorem offer_noted (transport : Transport σ) (numbered : List (Nat × PendingSend))
    (tracker : SendTracker) (calls : List Call) (network : σ) :
    let pass := offers transport numbered network
    let events := pass.map Offer.event
    let accepted := (pass.filterMap Offer.accepted?).map Prod.snd
    let stats := tracker.stats
    let offered :=
      offer transport.noted (numbered.map Prod.snd) tracker (calls, network)
    offered.1 =
        { pending := tracker.pending ++ (pass.filterMap Offer.refused?).map Prod.snd
          active := tracker.active ++ accepted
          stats :=
            { stats with
              issued := stats.issued + accepted.length
              failures :=
                stats.failures + events.countP fun event => event.call.isFailure } } ∧
      offered.2.1 = calls ++ events.map Event.call := by
  fun_induction offers transport numbered network generalizing tracker calls with
  | case1 network =>
      simp [offer]
  | case2 number send rest network handle after answered inductionHypothesis =>
      have noted : transport.noted.send send.destination send.tag send.payload
          (calls, network) =
            (.ok handle, calls ++ [.offered send.outgoing (some handle)], after) :=
        transport.noted_send answered calls
      obtain ⟨last, made⟩ := inductionHypothesis
        { tracker with
          active := tracker.active ++ [⟨send, handle⟩]
          stats := { tracker.stats with issued := tracker.stats.issued + 1 } }
        (calls ++ [.offered send.outgoing (some handle)])
      simp only [List.map_cons, offer, noted, last, made]
      simp [List.filterMap_cons, Offer.refused?, Offer.accepted?, Offer.event,
        Call.isFailure, Nat.add_assoc, Nat.add_comm 1]
  | case3 number send rest network error after answered inductionHypothesis =>
      have noted : transport.noted.send send.destination send.tag send.payload
          (calls, network) = (.error error, calls ++ [.offered send.outgoing none], after) :=
        transport.noted_send answered calls
      obtain ⟨last, made⟩ := inductionHypothesis
        { tracker with
          pending := tracker.pending ++ [{ send with failures := send.failures + 1 }]
          stats := { tracker.stats with failures := tracker.stats.failures + 1 } }
        (calls ++ [.offered send.outgoing none])
      simp only [List.map_cons, offer, noted, last, made]
      simp [List.filterMap_cons, Offer.refused?, Offer.accepted?, Offer.event,
        Call.isFailure, Nat.add_assoc, Nat.add_comm 1]

theorem mem_of_offers {transport : Transport σ} {numbered : List (Nat × PendingSend)}
    {network : σ} {offer : Offer} (member : offer ∈ offers transport numbered network) :
    (offer.number, offer.send) ∈ numbered := by
  have listed :=
    List.mem_map_of_mem (f := fun offer : Offer => (offer.number, offer.send)) member
  rwa [map_offers] at listed

theorem of_mem_refused {transport : Transport σ} {numbered : List (Nat × PendingSend)}
    {network : σ} {entry : Nat × PendingSend}
    (member : entry ∈ (offers transport numbered network).filterMap Offer.refused?) :
    ∃ send, (entry.1, send) ∈ numbered ∧ entry.2.outgoing = send.outgoing ∧
      ⟨entry.1, .offered send.outgoing none⟩ ∈
        (offers transport numbered network).map Offer.event := by
  obtain ⟨⟨number, send, _ | handle⟩, offered, stays⟩ := List.mem_filterMap.mp member
  · cases stays
    exact ⟨send, mem_of_offers offered, rfl,
      List.mem_map_of_mem (f := Offer.event) offered⟩
  · cases stays

theorem of_mem_accepted {transport : Transport σ} {numbered : List (Nat × PendingSend)}
    {network : σ} {entry : Nat × ActiveSend}
    (member : entry ∈ (offers transport numbered network).filterMap Offer.accepted?) :
    (entry.1, entry.2.send) ∈ numbered ∧
      ⟨entry.1, .offered entry.2.send.outgoing (some entry.2.handle)⟩ ∈
        (offers transport numbered network).map Offer.event := by
  obtain ⟨⟨number, send, _ | handle⟩, offered, leaves⟩ := List.mem_filterMap.mp member
  · cases leaves
  · cases leaves
    exact ⟨mem_of_offers offered, List.mem_map_of_mem (f := Offer.event) offered⟩

theorem numbers_offers (transport : Transport σ) (numbered : List (Nat × PendingSend))
    (network : σ) :
    ((offers transport numbered network).map Offer.event).map Event.number =
      numbered.map Prod.fst := by
  rw [List.map_map]
  have offered := congrArg (List.map Prod.fst) (map_offers transport numbered network)
  rwa [List.map_map] at offered

/-- Issuing the pending sends makes one offer for each of them. -/
theorem issuePending_noted (transport : Transport σ) {tracker : SendTracker}
    {numbered : List (Nat × PendingSend)}
    (pending : tracker.pending = numbered.map Prod.snd) (network : σ) :
    let pass := offers transport numbered network
    let events := pass.map Offer.event
    let accepted := (pass.filterMap Offer.accepted?).map Prod.snd
    let stats := tracker.stats
    (tracker.issuePending transport network).1 =
        { pending := (pass.filterMap Offer.refused?).map Prod.snd
          active := tracker.active ++ accepted
          stats :=
            { stats with
              issued := stats.issued + accepted.length
              failures :=
                stats.failures + events.countP fun event => event.call.isFailure } } ∧
      (tracker.issuePending transport.noted ([], network)).2.1 =
        events.map Event.call := by
  obtain ⟨noted, made⟩ :=
    offer_noted transport numbered { tracker with pending := [] } [] network
  have beside : (([], network) : List Call × σ).2 = network := rfl
  have same := (transport.agree_noted.offer beside (numbered.map Prod.snd)
    { tracker with pending := [] }).1
  simp only [issuePending, pending]
  exact ⟨same.symm.trans noted, made⟩

/-- Every send that is offered stays pending or becomes active. -/
theorem perm_offers (pass : List Offer) :
    ((pass.filterMap Offer.refused?).map Prod.fst ++
        (pass.filterMap Offer.accepted?).map Prod.fst).Perm
      ((pass.map Offer.event).map Event.number) := by
  induction pass with
  | nil => exact List.Perm.refl _
  | cons offer rest inductionHypothesis =>
      obtain ⟨number, send, _ | handle⟩ := offer
      · exact inductionHypothesis.cons number
      · exact List.perm_middle.trans (inductionHypothesis.cons number)

/-- The refused sends keep their order. -/
theorem sublist_refused (pass : List Offer) :
    ((pass.filterMap Offer.refused?).map Prod.fst).Sublist
      ((pass.map Offer.event).map Event.number) := by
  induction pass with
  | nil => exact List.Sublist.refl _
  | cons offer rest inductionHypothesis =>
      obtain ⟨number, send, _ | handle⟩ := offer
      · exact inductionHypothesis.cons_cons number
      · exact inductionHypothesis.cons number

/-! ## Tests -/

/-- A test of a numbered send; the answer is missing if the test fails. -/
structure Test where
  number : Nat
  send : ActiveSend
  answer : Option Bool

namespace Test

def event (test : Test) : Event :=
  ⟨test.number, .tested test.send.handle test.answer⟩

/-- The send, if it stays active. -/
def unfinished? (test : Test) : Option (Nat × ActiveSend) :=
  let send := test.send.send
  match test.answer with
  | some true => none
  | some false => some (test.number, test.send)
  | none =>
      some (test.number,
        { test.send with send := { send with failures := send.failures + 1 } })

end Test

/-- The tests of a pass over numbered sends.  The place of a complete send is taken by
the last one that is not yet tested. -/
def tests (transport : Transport σ) : List (Nat × ActiveSend) → σ → List Test
  | [], _ => []
  | (number, send) :: rest, network =>
      match transport.test send.handle network with
      | (.ok true, after) =>
          ⟨number, send, some true⟩ :: tests transport (replaceHead rest) after
      | (.ok false, after) => ⟨number, send, some false⟩ :: tests transport rest after
      | (.error _, after) => ⟨number, send, none⟩ :: tests transport rest after
termination_by untested => untested.length
decreasing_by
  · simp [length_replaceHead]
  · simp
  · simp

theorem perm_replaceHead {α : Type} (rest : List α) : (replaceHead rest).Perm rest := by
  rcases List.eq_nil_or_concat rest with rfl | ⟨before, last, rfl⟩
  · exact List.Perm.refl _
  · rw [List.concat_eq_append, replaceHead, List.getLast?_append_of_ne_nil _ (by simp)]
    simpa using (List.perm_append_singleton last before).symm

theorem map_replaceHead {α β : Type} (change : α → β) (rest : List α) :
    (replaceHead rest).map change = replaceHead (rest.map change) := by
  unfold replaceHead
  rw [List.getLast?_map]
  cases rest.getLast? <;> simp

/-- Every active send is tested once. -/
theorem perm_map_tests (transport : Transport σ) (numbered : List (Nat × ActiveSend))
    (network : σ) :
    ((tests transport numbered network).map fun test => (test.number, test.send)).Perm
      numbered := by
  fun_induction tests transport numbered network with
  | case1 => exact List.Perm.refl _
  | case2 number send rest network after answered inductionHypothesis =>
      exact (inductionHypothesis.trans (perm_replaceHead rest)).cons (number, send)
  | case3 number send rest network after answered inductionHypothesis =>
      exact inductionHypothesis.cons (number, send)
  | case4 number send rest network error after answered inductionHypothesis =>
      exact inductionHypothesis.cons (number, send)

def Event.completed? (event : Event) : Option Nat :=
  match event.call with
  | .tested _ (some true) => some event.number
  | _ => none

/-- The sends that a test has found to be complete. -/
def completedIn (events : List Event) : List Nat :=
  events.filterMap Event.completed?

/-- Testing sends calls the network as the tests say and keeps those that are not
complete. -/
theorem testEach_noted (transport : Transport σ) (numbered : List (Nat × ActiveSend))
    (kept : List ActiveSend) (stats : SendStats) (calls : List Call) (network : σ) :
    let pass := tests transport numbered network
    let events := pass.map Test.event
    let tested :=
      testEach transport.noted kept stats (numbered.map Prod.snd) (calls, network)
    tested.1 = kept ++ (pass.filterMap Test.unfinished?).map Prod.snd ∧
      tested.2.1 =
        { stats with
          completed := stats.completed + (completedIn events).length
          failures :=
            stats.failures + events.countP fun event => event.call.isFailure } ∧
      tested.2.2.1 = calls ++ events.map Event.call := by
  fun_induction tests transport numbered network generalizing kept stats calls with
  | case1 network =>
      simp [testEach, completedIn]
  | case2 number send rest network after answered inductionHypothesis =>
      have noted : transport.noted.test send.handle (calls, network) =
          (.ok true, calls ++ [.tested send.handle (some true)], after) :=
        transport.noted_test answered calls
      obtain ⟨last, counted, made⟩ := inductionHypothesis kept
        { stats with completed := stats.completed + 1 }
        (calls ++ [.tested send.handle (some true)])
      rw [map_replaceHead] at last counted made
      rw [List.map_cons, testEach]
      simp only [noted, last, counted, made]
      simp [List.filterMap_cons, Test.unfinished?, Test.event, completedIn,
        Event.completed?, Call.isFailure, Nat.add_assoc, Nat.add_comm 1]
  | case3 number send rest network after answered inductionHypothesis =>
      have noted : transport.noted.test send.handle (calls, network) =
          (.ok false, calls ++ [.tested send.handle (some false)], after) :=
        transport.noted_test answered calls
      obtain ⟨last, counted, made⟩ := inductionHypothesis (kept ++ [send]) stats
        (calls ++ [.tested send.handle (some false)])
      rw [List.map_cons, testEach]
      simp only [noted, last, counted, made]
      simp [List.filterMap_cons, Test.unfinished?, Test.event, completedIn,
        Event.completed?, Call.isFailure]
  | case4 number send rest network error after answered inductionHypothesis =>
      have noted : transport.noted.test send.handle (calls, network) =
          (.error error, calls ++ [.tested send.handle none], after) :=
        transport.noted_test answered calls
      obtain ⟨last, counted, made⟩ := inductionHypothesis
        (kept ++
          [{ send with
            send := { send.send with failures := send.send.failures + 1 } }])
        { stats with failures := stats.failures + 1 }
        (calls ++ [.tested send.handle none])
      rw [List.map_cons, testEach]
      simp only [noted, last, counted, made]
      simp [List.filterMap_cons, Test.unfinished?, Test.event, completedIn,
        Event.completed?, Call.isFailure, Nat.add_assoc, Nat.add_comm 1]

theorem mem_of_tests {transport : Transport σ} {numbered : List (Nat × ActiveSend)}
    {network : σ} {test : Test} (member : test ∈ tests transport numbered network) :
    (test.number, test.send) ∈ numbered :=
  (perm_map_tests transport numbered network).subset
    (List.mem_map_of_mem (f := fun test : Test => (test.number, test.send)) member)

theorem of_mem_unfinished {transport : Transport σ} {numbered : List (Nat × ActiveSend)}
    {network : σ} {entry : Nat × ActiveSend}
    (member : entry ∈ (tests transport numbered network).filterMap Test.unfinished?) :
    ∃ send, (entry.1, send) ∈ numbered ∧
      entry.2.send.outgoing = send.send.outgoing ∧ entry.2.handle = send.handle := by
  obtain ⟨⟨number, send, _ | _ | _⟩, tested, stays⟩ := List.mem_filterMap.mp member
  · cases stays
    exact ⟨send, mem_of_tests tested, rfl, rfl⟩
  · cases stays
    exact ⟨send, mem_of_tests tested, rfl, rfl⟩
  · cases stays

theorem numbers_tests (transport : Transport σ) (numbered : List (Nat × ActiveSend))
    (network : σ) :
    (((tests transport numbered network).map Test.event).map Event.number).Perm
      (numbered.map Prod.fst) := by
  rw [List.map_map]
  have tested := (perm_map_tests transport numbered network).map Prod.fst
  rwa [List.map_map] at tested

/-- Collecting the active sends makes one test for each of them. -/
theorem collectActive_noted (transport : Transport σ) {tracker : SendTracker}
    {numbered : List (Nat × ActiveSend)}
    (active : tracker.active = numbered.map Prod.snd) (network : σ) :
    let pass := tests transport numbered network
    let events := pass.map Test.event
    let stats := tracker.stats
    (tracker.collectActive transport network).1 =
        { tracker with
          active := (pass.filterMap Test.unfinished?).map Prod.snd
          stats :=
            { stats with
              completed := stats.completed + (completedIn events).length
              failures :=
                stats.failures + events.countP fun event => event.call.isFailure } } ∧
      (tracker.collectActive transport.noted ([], network)).2.1 =
        events.map Event.call := by
  obtain ⟨kept, counted, made⟩ :=
    testEach_noted transport numbered [] tracker.stats [] network
  have beside : (([], network) : List Call × σ).2 = network := rfl
  obtain ⟨sameActive, sameStats, _⟩ :=
    transport.agree_noted.testEach beside [] (numbered.map Prod.snd) tracker.stats
  simp only [collectActive, active]
  rw [← sameActive, ← sameStats, kept, counted]
  exact ⟨rfl, made⟩

/-- Every send that is tested stays active or is complete. -/
theorem perm_tests (pass : List Test) :
    ((pass.filterMap Test.unfinished?).map Prod.fst ++
        completedIn (pass.map Test.event)).Perm
      ((pass.map Test.event).map Event.number) := by
  induction pass with
  | nil => exact List.Perm.refl _
  | cons test rest inductionHypothesis =>
      obtain ⟨number, send, _ | _ | _⟩ := test
      · exact inductionHypothesis.cons number
      · exact inductionHypothesis.cons number
      · exact List.perm_middle.trans (inductionHypothesis.cons number)

end SendTracker

end ParameterServer

import ParameterServer.Proofs.Cluster.Linearization
import ParameterServer.Proofs.TableServer.Replies

/-!
# One reply for each request

A member of a cluster that hosts a table server replies to every request that it
serves, and only to these.  When nothing is left on the way, every client has received
one reply for each request that it has sent and that can be read.
-/

namespace ParameterServer

open Observation
open scoped List

variable {η ω : Type}

namespace Observation

/-- The requests that a member has had accepted for another one and that can be read,
in order. -/
def readableSent (source destination : Rank) (seen : List Observation) :
    List Request :=
  (sentTo destination seen).filterMap fun content =>
    Request.ofMessage? ⟨content.1, source, content.2⟩

theorem readableSent_append (source destination : Rank) (seen noted : List Observation) :
    readableSent source destination (seen ++ noted) =
      readableSent source destination seen ++ readableSent source destination noted := by
  rw [readableSent, sentTo_append, List.filterMap_append]
  rfl

/-- The replies that handlers have queued for a client. -/
def repliesTo (client : Rank) (seen : List Observation) : List Outgoing :=
  ((servings seen).flatMap Prod.snd).filter fun send => send.destination = client

/-- What a client has received from a member under the tags of replies, in order. -/
def repliesFrom (server : Rank) (seen : List Observation) : List Content :=
  (receivedFrom server seen).filter fun content => content.1.isReply

/-- Every handler that has served a request has sent one reply, to the source of the
request. -/
def RepliesOnce (seen : List Observation) : Prop :=
  ∀ serving ∈ servings seen, ∃ reply : Content,
    serving.1.AnsweredBy reply ∧ serving.2 = [⟨serving.1.source, reply.1, reply.2⟩]

/-- A send that was not made by a handler. -/
def accepted? : Observation → Option Outgoing
  | accepted send => some send
  | _ => none

/-- Nothing but handlers sends under the tags of replies. -/
def OnlyHandlersReply (seen : List Observation) : Prop :=
  ∀ send ∈ seen.filterMap accepted?, send.tag.isReply = false

instance (seen : List Observation) : Decidable (OnlyHandlersReply seen) :=
  inferInstanceAs (Decidable (∀ send ∈ seen.filterMap accepted?, _))

namespace RepliesOnce

variable {seen : List Observation}

theorem length_repliesTo (once : RepliesOnce seen) (client : Rank) :
    (repliesTo client seen).length =
      (servings seen).countP fun serving => serving.1.source = client := by
  unfold RepliesOnce at once
  unfold repliesTo
  generalize servings seen = served at once ⊢
  induction served with
  | nil => rfl
  | cons serving rest inductionHypothesis =>
      obtain ⟨reply, _, shape⟩ := once serving List.mem_cons_self
      have later := inductionHypothesis fun other member =>
        once other (List.mem_cons_of_mem _ member)
      rw [List.flatMap_cons, List.filter_append, List.length_append, later, shape,
        List.countP_cons]
      by_cases own : serving.1.source = client <;> simp [own, Nat.add_comm]

/-- What a member has sent to a client under the tags of replies answers the requests
of the client that it has served, one by one. -/
theorem answers (once : RepliesOnce seen) (only : OnlyHandlersReply seen)
    (client : Rank) :
    List.Forall₂ Request.AnsweredBy
      (((servings seen).map Prod.fst).filter fun request => request.source = client)
      ((sentTo client seen).filter fun content => content.1.isReply) := by
  induction seen with
  | nil => exact .nil
  | cons note rest inductionHypothesis =>
      have later := inductionHypothesis
        (fun serving member => once serving (by
          rw [← List.singleton_append, servings_append]
          exact List.mem_append_right _ member))
        (fun send member => only send (by
          rw [← List.singleton_append, List.filterMap_append]
          exact List.mem_append_right _ member))
      rw [← List.singleton_append, servings_append, sentTo_append, List.map_append,
        List.filter_append, List.filter_append]
      refine List.rel_append ?_ later
      cases note with
      | accepted send =>
          have plain := only send (by simp [accepted?])
          by_cases own : send.destination = client <;>
            simp [servings, served?, sentTo, sends, Outgoing.contentTo?, own, plain]
      | received | taken => exact .nil
      | served request sends =>
          obtain ⟨reply, answers, shape⟩ := once (request, sends) (by
            simp [servings, served?])
          simp only at answers shape
          rw [sentTo_served, shape, servings_served]
          by_cases own : request.source = client
          · simp [Outgoing.contentTo?, own, answers.isReply, answers]
          · simp [Outgoing.contentTo?, own]

end RepliesOnce

end Observation

namespace TableServer.Replies

variable {seat : Seat} {seen : List Observation} {engine : Engine}

/-- What is served has been received. -/
theorem mem_requests (replies : Replies seat seen engine)
    {serving : Request × List Outgoing} (member : serving ∈ servings seen) :
    serving.1 ∈ requests seen := by
  have listed : serving.1 ∈ (servings seen).map Prod.fst ++ engine.queue.waiting :=
    List.mem_append_left _ (List.mem_map_of_mem member)
  exact List.mem_of_mem_take (replies.settled.symm.subset listed)

/-- Requests from within the group are answered without failure. -/
theorem once_of_inside (replies : Replies seat seen engine)
    (inside : ∀ request ∈ requests seen, request.source < seat.size) :
    RepliesOnce seen ∧ engine.counters.handlerErrors = 0 := by
  refine ⟨?_, ?_⟩
  · intro serving member
    obtain ⟨reply, answers, shape⟩ := replies.replied serving member
    have own := inside _ (replies.mem_requests member)
    exact ⟨(reply.tag, reply.payload), answers, by rw [shape, sendsOf, if_pos own]⟩
  · rw [replies.failed, List.countP_eq_zero]
    intro serving member
    simpa using inside _ (replies.mem_requests member)

/-- The enqueued requests of a client wait or have been replied to. -/
theorem countP_enqueuedRequests (replies : Replies seat seen engine)
    (once : RepliesOnce seen) (client : Rank) :
    ((engine.enqueuedRequests seen).countP fun request => request.source = client) =
      (engine.queue.buffered.countP fun message => message.source = client) +
        (repliesTo client seen).length := by
  rw [replies.settled.countP_eq, List.countP_append, List.countP_map,
    RequestQueue.waiting,
    Request.countP_filterMap_ofMessage? replies.balanced.stocked.routed,
    once.length_repliesTo, Nat.add_comm]
  rfl

/-- When no request waits and no error has stopped the engine, all requests that were
received have been served. -/
theorem perm_requests (replies : Replies seat seen engine)
    (healthy : engine.fatal = none) (idle : engine.pendingRequests = 0) :
    ((servings seen).map Prod.fst).Perm (requests seen) := by
  have empty : engine.queue.buffered = [] := by
    rw [← List.length_eq_zero_iff, ← replies.balanced.stocked.pending]
    exact idle
  have settled := replies.settled
  rw [replies.balanced.enqueuedRequests_of_healthy healthy, RequestQueue.waiting,
    empty, List.filterMap_nil, List.append_nil] at settled
  exact settled.symm

end TableServer.Replies

namespace Cluster

/-- Nothing is left on the way from one member to another: no send is pending and
none is in flight. -/
def Drained (source destination : Rank) (cluster : Cluster ω) : Prop :=
  (cluster.hosts source).engine.sends.pendingTo destination = [] ∧
    cluster.mesh.inFlight source destination = []

instance (source destination : Rank) (cluster : Cluster ω) :
    Decidable (cluster.Drained source destination) :=
  inferInstanceAs (Decidable (_ ∧ _))

theorem Conserves.received_of_drained {size : Nat} {cluster : Cluster ω}
    (conserves : Conserves size cluster) {source destination : Rank}
    (drained : cluster.Drained source destination) :
    receivedFrom source (cluster.seen destination) =
      sentTo destination (cluster.seen source) := by
  rw [conserves.account, drained.1, drained.2, List.append_nil, List.append_nil]

/-- A member of a cluster that hosts a table server of any handler, whatever the
members do and in whatever order.  Each request that it processes makes it send one
reply, to the source of the request, and neither fails nor finds no handler.  The
requests of a client that it has enqueued wait in its queue or have been replied to.
Once it has recorded no fatal error and has nothing in its queue, and nothing is left
between it and a client, the replies that the client has received answer the readable
requests that the client has sent, one by one, unless other code at the member sends
under the tags of replies. -/
theorem one_reply (size : Nat) (config : Rank → EngineConfig) (memory : Rank → ω)
    (bindings : Rank → Bindings ω) (server : Rank) {handler : ValueHandler η}
    {part : ω → TableServer η} {replace : TableServer η → ω → ω} {base : Bindings ω}
    (bound : TableServer.bind handler part replace base = .ok (bindings server))
    (events : List (Rank × Activity)) :
    let cluster := (start size config memory).run bindings events
    let seen := cluster.seen server
    let engine := (cluster.hosts server).engine
    (engine.counters.processed = (servings seen).length ∧ RepliesOnce seen) ∧
    (engine.counters.handlerErrors = 0 ∧ engine.counters.unbound = 0) ∧
    ((engine.enqueuedRequests seen).length = engine.counters.enqueued ∧
      ∀ client,
        ((engine.enqueuedRequests seen).countP fun request => request.source = client) =
          (engine.queue.buffered.countP fun message => message.source = client) +
            (repliesTo client seen).length) ∧
    (∀ client,
      engine.fatalText? = none → engine.pendingRequests = 0 →
      cluster.Drained client server → cluster.Drained server client →
      OnlyHandlersReply seen →
        ∃ answered : List Request,
          answered.Perm (readableSent client server (cluster.seen client)) ∧
            List.Forall₂ Request.AnsweredBy answered
              (repliesFrom server (cluster.seen client))) := by
  intro cluster seen engine
  have conserves := conserves_run size config memory bindings events
  have replies : TableServer.Replies ⟨server, size⟩ seen engine :=
    host_invariant
      (motive := fun seen host => TableServer.Replies ⟨server, size⟩ seen host.engine)
      (TableServer.replies_move bound) (fun sends replies => replies.transmit sends)
      (TableServer.Replies.atSeat (config server) ⟨server, size⟩) events
  obtain ⟨once, flawless⟩ :=
    replies.once_of_inside fun request => conserves.source_lt
  refine ⟨⟨replies.processed, once⟩, ⟨flawless, replies.bound⟩,
    ⟨replies.balanced.length_enqueuedRequests, replies.countP_enqueuedRequests once⟩, ?_⟩
  intro client healthy idle incoming outgoing only
  refine ⟨((servings seen).map Prod.fst).filter fun request => request.source = client,
    ?_, ?_⟩
  · have served := replies.perm_requests (Option.map_eq_none_iff.mp healthy) idle
    rw [readableSent, ← conserves.received_of_drained incoming, ← filter_requests]
    exact served.filter _
  · rw [repliesFrom, conserves.received_of_drained outgoing]
    exact once.answers only client

/-- A client puts a value to a table server and receives one reply. -/
theorem one_reply_sole :
    (repliesFrom 0
      (((start 2 (fun _ => {}) fun _ => TableServer.sole).run
        (fun _ => TableServer.soleBindings)
        [(1, .send 0 .putRequest (Wire.encode (⟨"w", ⟨7, [.one]⟩⟩ : PutRequest))),
          (1, .network), (0, .network), (0, .process), (0, .network),
          (1, .network)]).seen 1)).length = 1 := by
  obtain ⟨_, _, _, settled⟩ := one_reply 2 (fun _ => {}) (fun _ => TableServer.sole)
    (fun _ => TableServer.soleBindings) 0
    (show TableServer.bind StockHandler.handler id (fun server _ => server) {} =
      .ok TableServer.soleBindings from rfl)
    [(1, .send 0 .putRequest (Wire.encode (⟨"w", ⟨7, [.one]⟩⟩ : PutRequest))),
      (1, .network), (0, .network), (0, .process), (0, .network), (1, .network)]
  obtain ⟨answered, sent, answers⟩ := settled 1 (by decide +kernel) (by decide +kernel)
    (by decide +kernel) (by decide +kernel) (by decide +kernel)
  rw [← answers.length_eq, sent.length_eq]
  decide +kernel

end Cluster

end ParameterServer

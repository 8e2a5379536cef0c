import ParameterServer.Proofs.Cluster.Replies
import ParameterServer.Proofs.Queue.Sources
import ParameterServer.Proofs.TableServer.Refusal
import ParameterServer.Proofs.Throughout

/-!
# Clients that wait for their replies

A client that asks for more only when it has read the reply to its last request of the
same key and class has one such request on its way at most: pending, in flight, waiting
at the member it has asked, or answered by a reply that is on its way back.  No more
clients than a round has requests therefore never fill a list of an asynchronous queue.
-/

namespace ParameterServer

open Observation

variable {η ω : Type}

/-- The tag of the replies to requests of a class. -/
def Queue.Phase.replyTag : Queue.Phase → Tag
  | put => .putResponse
  | get => .getResponse

/-! ## Replies that are read -/

namespace Observation

/-- The request that sends were made for. -/
def cause? : Observation → Option Request
  | served request _ => some request
  | _ => none

/-- What a member has had accepted for a client under a tag, in order, with the request
that each send was made for. -/
def sentUnder (tag : Tag) (client : Rank) (seen : List Observation) :
    List (Option Request × Payload) :=
  seen.flatMap fun note =>
    (note.sends.filter fun send => send.destination = client ∧ send.tag = tag).map
      fun send => (note.cause?, send.payload)

theorem sentUnder_append (tag : Tag) (client : Rank) (seen noted : List Observation) :
    sentUnder tag client (seen ++ noted) =
      sentUnder tag client seen ++ sentUnder tag client noted :=
  List.flatMap_append

theorem map_snd_sentUnder (tag : Tag) (client : Rank) (seen : List Observation) :
    (sentUnder tag client seen).map Prod.snd = payloadsOf tag (sentTo client seen) := by
  induction seen with
  | nil => rfl
  | cons note rest inductionHypothesis =>
      rw [← List.singleton_append, sentUnder_append, sentTo_append, payloadsOf_append,
        List.map_append, inductionHypothesis]
      congr 1
      simp only [sentUnder, sentTo, List.flatMap_singleton]
      induction note.sends with
      | nil => rfl
      | cons send others earlier =>
          by_cases own : send.destination = client
          · by_cases same : send.tag = tag
            · simpa [payloadsOf, Outgoing.contentTo?, own, same] using earlier
            · simpa [payloadsOf, Outgoing.contentTo?, own, same] using earlier
          · simpa [payloadsOf, Outgoing.contentTo?, own] using earlier

/-- Not more replies answer requests of a client than such requests were served. -/
theorem RepliesOnce.countP_sentUnder {seen : List Observation} (once : RepliesOnce seen)
    (tag : Tag) (client : Rank) (chosen : Request → Bool) :
    ((sentUnder tag client seen).countP fun reply => reply.1.any chosen) ≤
      ((servings seen).map Prod.fst).countP fun request =>
        request.source = client && chosen request := by
  induction seen with
  | nil => exact Nat.le_refl 0
  | cons note rest inductionHypothesis =>
      have later := inductionHypothesis fun serving member => once serving (by
        rw [← List.singleton_append, servings_append]
        exact List.mem_append_right _ member)
      rw [← List.singleton_append, sentUnder_append, servings_append, List.map_append,
        List.countP_append, List.countP_append]
      apply Nat.add_le_add _ later
      cases note with
      | accepted send =>
          have none : ∀ reply ∈ sentUnder tag client [.accepted send],
              ¬ reply.1.any chosen = true := by
            intro reply member
            simp only [sentUnder, List.flatMap_singleton, List.mem_map] at member
            obtain ⟨_, _, rfl⟩ := member
            simp [cause?]
          rw [List.countP_eq_zero.mpr none]
          exact Nat.zero_le _
      | received | taken => simp [sentUnder, Observation.sends]
      | served request sends =>
          obtain ⟨reply, _, shape⟩ := once (request, sends) (by simp [servings, served?])
          simp only at shape
          subst shape
          by_cases own : request.source = client
          · by_cases same : reply.1 = tag <;>
              simp [sentUnder, cause?, Observation.sends, own, same]
          · simp [sentUnder, Observation.sends, own]

/-- The replies that a client has read from a member under a tag, in order, each with the
request that it answers, from what the member and what the client has noted. -/
def repliesRead (tag : Tag) (server client : Rank) (sender reader : List Observation) :
    List (Option Request × Payload) :=
  (sentUnder tag client sender).take (takenFrom tag server reader).length

/-- A client asks a member for more under a key only when it has read the replies to all
requests for that key and of the same class that it has sent before. -/
def Patient (server client : Rank) (sender : List Observation) (seen : List Observation) :
    Prop :=
  Throughout
    (fun before note =>
      ∀ request ∈ readableSent client server [note],
        (readableSent client server (before ++ [note])).countP
            (Request.asks request.key request.phase) ≤
          ((repliesRead request.phase.replyTag server client sender before).countP
            fun reply => reply.1.any (Request.asks request.key request.phase)) + 1)
    seen

instance (server client : Rank) (sender seen : List Observation) :
    Decidable (Patient server client sender seen) :=
  inferInstanceAs (Decidable (Throughout _ _))

/-- A patient client misses the reply to one request for a key and of a class, at most. -/
theorem Patient.countP_readableSent {server client : Rank}
    {sender seen : List Observation} (patient : Patient server client sender seen)
    (key : String) (phase : Queue.Phase) :
    (readableSent client server seen).countP (Request.asks key phase) ≤
      ((repliesRead phase.replyTag server client sender seen).countP fun reply =>
        reply.1.any (Request.asks key phase)) + 1 := by
  induction seen using List.reverseRecOn with
  | nil => exact Nat.zero_le _
  | append_singleton seen note inductionHypothesis =>
      have ⟨earlier, last⟩ := throughout_concat.mp patient
      have more : ((repliesRead phase.replyTag server client sender seen).countP fun reply =>
            reply.1.any (Request.asks key phase)) ≤
          (repliesRead phase.replyTag server client sender (seen ++ [note])).countP
            fun reply => reply.1.any (Request.asks key phase) := by
        apply List.Sublist.countP_le
        apply List.take_sublist_take_left
        simp
      by_cases asks : ∃ request ∈ readableSent client server [note],
          request.asks key phase = true
      · -- The replies to all that was sent before have been read.
        obtain ⟨request, sent, own⟩ := asks
        simp only [Request.asks, Bool.and_eq_true, decide_eq_true_eq] at own
        have answered := last request sent
        rw [own.1, own.2] at answered
        omega
      · have unchanged : (readableSent client server [note]).countP
            (Request.asks key phase) = 0 :=
          List.countP_eq_zero.mpr fun request sent own => asks ⟨request, sent, own⟩
        have before := inductionHypothesis earlier
        rw [readableSent_append, List.countP_append]
        omega

end Observation

namespace Cluster

/-- What a client reads is what was sent to it, from the first on. -/
theorem map_snd_repliesRead (size : Nat) (config : Rank → EngineConfig)
    (memory : Rank → ω) (bindings : Rank → Bindings ω)
    (events : List (Rank × Activity)) (server client : Rank) {tag : Tag}
    (known : tag.isKnown = true) (plain : tag.isRequest = false) :
    let cluster := (start size config memory).run bindings events
    (repliesRead tag server client (cluster.seen server) (cluster.seen client)).map
        Prod.snd =
      takenFrom tag server (cluster.seen client) := by
  intro cluster
  have conserves := conserves_run size config memory bindings events
  have answers := answers_run size config memory bindings events client server known plain
  have first : takenFrom tag server (cluster.seen client) <+:
      payloadsOf tag (sentTo client (cluster.seen server)) := by
    rw [conserves.account, List.append_assoc, payloadsOf_append, answers,
      List.append_assoc]
    exact List.prefix_append _ _
  rw [repliesRead, List.map_take, map_snd_sentUnder]
  exact (List.prefix_iff_eq_take.mp first).symm

/-! ## Clients in order -/

/-- Only some clients send requests to a member, and these are patient. -/
structure Orderly (server : Rank) (clients : Finset Rank) (cluster : Cluster ω) :
    Prop where
  inside : ∀ client < cluster.mesh.size, client ∉ clients →
    readableSent client server (cluster.seen client) = []
  patient : ∀ client ∈ clients,
    Patient server client (cluster.seen server) (cluster.seen client)

instance (server : Rank) (clients : Finset Rank) (cluster : Cluster ω) :
    Decidable (cluster.Orderly server clients) :=
  decidable_of_iff (_ ∧ _)
    ⟨fun both => ⟨both.1, both.2⟩, fun orderly => ⟨orderly.inside, orderly.patient⟩⟩

/-- The requests on their way from a client to a member, in flight or pending. -/
def underway (client server : Rank) (cluster : Cluster ω) : List Request :=
  (cluster.mesh.inFlight client server ++
    (cluster.hosts client).engine.sends.pendingTo server).filterMap fun content =>
      Request.ofMessage? ⟨content.1, client, content.2⟩

section Count

variable {size : Nat} {cluster : Cluster ω} {server : Rank} {clients : Finset Rank}
  (conserves : Conserves size cluster) (orderly : cluster.Orderly server clients)

include conserves orderly

theorem Orderly.mem_clients {client : Rank} {request : Request}
    (sent : request ∈ readableSent client server (cluster.seen client)) :
    client ∈ clients := by
  by_contra stranger
  rcases Nat.lt_or_ge client size with member | beyond
  · rw [orderly.inside client (conserves.whole.size_eq ▸ member) stranger] at sent
    cases sent
  · rw [conserves.outside client beyond] at sent
    cases sent

/-- A client has sent one request for a key and of a class more than it has had served,
at most. -/
theorem Orderly.countP_readableSent (once : RepliesOnce (cluster.seen server))
    (client : Rank) (key : String) (phase : Queue.Phase) :
    (readableSent client server (cluster.seen client)).countP (Request.asks key phase) ≤
      (((servings (cluster.seen server)).map Prod.fst).countP fun request =>
        request.source = client && request.asks key phase) + 1 := by
  by_cases none : (readableSent client server (cluster.seen client)).countP
      (Request.asks key phase) = 0
  · omega
  · have ⟨request, sent, _⟩ := List.countP_pos_iff.mp (Nat.pos_of_ne_zero none)
    have patient := orderly.patient client (orderly.mem_clients conserves sent)
    calc _
      _ ≤ ((repliesRead phase.replyTag server client (cluster.seen server)
            (cluster.seen client)).countP fun reply =>
              reply.1.any (Request.asks key phase)) + 1 :=
        patient.countP_readableSent key phase
      _ ≤ ((sentUnder phase.replyTag client (cluster.seen server)).countP fun reply =>
            reply.1.any (Request.asks key phase)) + 1 :=
        Nat.add_le_add_right (List.take_sublist _ _).countP_le 1
      _ ≤ _ := Nat.add_le_add_right (once.countP_sentUnder phase.replyTag client _) 1

omit orderly in
/-- What a client has sent to a member has arrived there or is on its way. -/
theorem Conserves.readableSent_eq (client server : Rank) :
    readableSent client server (cluster.seen client) =
      ((requests (cluster.seen server)).filter fun request => request.source = client) ++
        cluster.underway client server := by
  rw [readableSent, conserves.account, List.append_assoc, List.filterMap_append,
    filter_requests]
  rfl

omit orderly in
theorem Conserves.countP_readableSent (client server : Rank) (key : String)
    (phase : Queue.Phase) :
    (readableSent client server (cluster.seen client)).countP (Request.asks key phase) =
      ((requests (cluster.seen server)).countP fun request =>
          request.source = client && request.asks key phase) +
        (cluster.underway client server).countP (Request.asks key phase) := by
  rw [conserves.readableSent_eq, List.countP_append, List.countP_filter]
  simp only [Bool.and_comm (Request.asks key phase _)]

variable (replies : TableServer.Replies ⟨server, size⟩ (cluster.seen server)
  (cluster.hosts server).engine)

include replies

/-- If a client has sent a request that the member has not enqueued, then fewer requests
for its key and of its class wait there than there are clients. -/
theorem Orderly.length_waiting_lt {client : Rank} {key : String} {phase : Queue.Phase}
    (behind :
      (((cluster.hosts server).engine.enqueuedRequests (cluster.seen server)).countP
          fun request => request.source = client && request.asks key phase) <
        (readableSent client server (cluster.seen client)).countP
          (Request.asks key phase)) :
    ((cluster.hosts server).engine.queue.waiting.filter (Request.asks key phase)).length <
      clients.card := by
  have ⟨once, _⟩ := replies.once_of_inside fun request => conserves.source_lt
  let waiting :=
    (cluster.hosts server).engine.queue.waiting.filter (Request.asks key phase)
  let enqueued (rank : Rank) : Nat :=
    ((cluster.hosts server).engine.enqueuedRequests (cluster.seen server)).countP
      fun request => request.source = rank && request.asks key phase
  let sent (rank : Rank) : Nat :=
    (readableSent rank server (cluster.seen rank)).countP (Request.asks key phase)
  have behind : enqueued client < sent client := behind
  have arrived (rank : Rank) : enqueued rank ≤ sent rank := by
    simp only [enqueued, sent]
    rw [conserves.countP_readableSent rank server]
    exact (List.take_sublist _ _).countP_le.trans (Nat.le_add_right _ _)
  have held (rank : Rank) :
      (waiting.countP fun request => request.source = rank) + sent rank ≤
        enqueued rank + 1 := by
    have bound := orderly.countP_readableSent conserves once rank key phase
    simp only [enqueued, sent, waiting]
    rw [replies.settled.countP_eq, List.countP_append, List.countP_filter]
    omega
  have inside : ∀ request ∈ waiting, request.source ∈ clients := by
    intro request waits
    have settled : request ∈ (cluster.hosts server).engine.enqueuedRequests
        (cluster.seen server) :=
      replies.settled.symm.subset (List.mem_append_right _ (List.mem_of_mem_filter waits))
    apply orderly.mem_clients conserves
    rw [conserves.readableSent_eq request.source server]
    exact List.mem_append_left _
      (List.mem_filter.mpr ⟨List.mem_of_mem_take settled, by simp⟩)
  have member : client ∈ clients := by
    have ⟨request, listed, _⟩ := List.countP_pos_iff.mp (Nat.zero_lt_of_lt behind)
    exact orderly.mem_clients conserves listed
  apply Queue.length_lt_card Request.source inside _ member
  · have bound := held client
    omega
  · intro rank
    have bound := held rank
    have more := arrived rank
    omega

/-- No list of the queue is full for a request that the member has received and not
enqueued. -/
theorem Orderly.length_waiting_lt_of_dropped {request : Request}
    (dropped : request ∈ (requests (cluster.seen server)).drop
      (cluster.hosts server).engine.counters.enqueued) :
    ((cluster.hosts server).engine.queue.waiting.filter
        (Request.asks request.key request.phase)).length < clients.card := by
  let own (other : Request) : Bool :=
    other.source = request.source && other.asks request.key request.phase
  have counted : 0 < ((requests (cluster.seen server)).drop
      (cluster.hosts server).engine.counters.enqueued).countP own :=
    List.countP_pos_iff.mpr ⟨request, dropped, by simp [own, Request.asks]⟩
  have whole : (requests (cluster.seen server)).countP own =
      ((cluster.hosts server).engine.enqueuedRequests (cluster.seen server)).countP own +
        ((requests (cluster.seen server)).drop
          (cluster.hosts server).engine.counters.enqueued).countP own := by
    rw [← List.countP_append, Engine.enqueuedRequests, List.take_append_drop]
  have sent := conserves.countP_readableSent request.source server request.key request.phase
  apply orderly.length_waiting_lt conserves replies
  rw [sent]
  exact Nat.lt_of_lt_of_le (whole ▸ Nat.lt_add_of_pos_right counted) (Nat.le_add_right _ _)

/-- Nor is one for a request that is on its way. -/
theorem Orderly.length_waiting_lt_of_underway {client : Rank} {request : Request}
    (underway : request ∈ cluster.underway client server) :
    ((cluster.hosts server).engine.queue.waiting.filter
        (Request.asks request.key request.phase)).length < clients.card := by
  have counted : 0 < (cluster.underway client server).countP
      (Request.asks request.key request.phase) :=
    List.countP_pos_iff.mpr ⟨request, underway, by simp [Request.asks]⟩
  have sent := conserves.countP_readableSent client server request.key request.phase
  have early (own : Request → Bool) :
      ((cluster.hosts server).engine.enqueuedRequests (cluster.seen server)).countP own ≤
        (requests (cluster.seen server)).countP own :=
    (List.take_sublist _ _).countP_le
  apply orderly.length_waiting_lt conserves replies
  rw [sent]
  exact Nat.lt_of_le_of_lt (early _) (Nat.lt_add_of_pos_right counted)

end Count

/-- The message that a member receives next is on its way. -/
theorem Conserves.mem_underway {size : Nat} {cluster : Cluster ω} {server : Rank}
    (conserves : Conserves size cluster) (member : server < size) {message : Message}
    {request : Request}
    (next : ((Mesh.transport server).next cluster.mesh).1 = some message)
    (read : Request.ofMessage message = .ok request) :
    request ∈ cluster.underway message.source server := by
  have ⟨_, flight⟩ := Mesh.next_transport conserves.whole
    (conserves.whole.size_eq ▸ member) message.source server
  have oldest : (message.tag, message.payload) ∈
      cluster.mesh.inFlight message.source server := by
    rw [flight, next]
    simp [Message.contentFrom?]
  exact List.mem_filterMap.mpr ⟨(message.tag, message.payload),
    List.mem_append_left _ oldest, Request.ofMessage?_eq_some.mpr read⟩

/-- An asynchronous member of a cluster hosts a table server of any handler, and not more
clients send requests to it than its rounds have requests.  If each of them asks for more
only when it has read the reply to its last request for the same key and of the same
class, then no error stops the member, and its queue does not overflow with the message
that it receives next.  The replies that a client has read are the payloads that it has taken
under their tag, in order. -/
theorem never_overflows (size : Nat) (config : Rank → EngineConfig) (memory : Rank → ω)
    (bindings : Rank → Bindings ω) {server : Rank} (member : server < size)
    {handler : ValueHandler η} {part : ω → TableServer η}
    {replace : TableServer η → ω → ω} {base : Bindings ω}
    (bound : TableServer.bind handler part replace base = .ok (bindings server))
    (mode : (config server).updateMode = .async) (clients : Finset Rank)
    (few : clients.card ≤ (config server).memoryServers.toNat)
    (events : List (Rank × Activity))
    (orderly : ((start size config memory).run bindings events).Orderly server clients) :
    let cluster := (start size config memory).run bindings events
    let engine := (cluster.hosts server).engine
    engine.fatalText? = none ∧
      (∀ message, ((Mesh.transport server).next cluster.mesh).1 = some message →
        ¬ engine.queue.Overflows message) ∧
      ∀ client (phase : Queue.Phase),
        (repliesRead phase.replyTag server client (cluster.seen server)
            (cluster.seen client)).map Prod.snd =
          takenFrom phase.replyTag server (cluster.seen client) := by
  intro cluster engine
  have conserves : Conserves size cluster :=
    conserves_run size config memory bindings events
  have guarded :
      TableServer.Guarded (config server) ⟨server, size⟩ (cluster.seen server) engine :=
    host_invariant
      (motive := fun seen host =>
        TableServer.Guarded (config server) ⟨server, size⟩ seen host.engine)
      (TableServer.guarded_move bound mode) (fun sends holds => holds.transmit sends)
      (TableServer.Guarded.atSeat (config server) ⟨server, size⟩) events
  refine ⟨?_, ?_, fun client phase => ?_⟩
  · rw [Engine.fatalText?, Option.map_eq_none_iff]
    by_contra failed
    obtain ⟨request, dropped, full⟩ := guarded.refused failed
    have room := orderly.length_waiting_lt_of_dropped conserves guarded.replies dropped
    exact Nat.lt_irrefl _ (Nat.lt_of_lt_of_le room (few.trans full))
  · intro message next overflows
    obtain ⟨key, routed⟩ := RequestQueue.routingKey_of_overflows overflows
    obtain ⟨request, read⟩ := Request.ofMessage_of_routingKey routed
    obtain ⟨_, _, tracks, _⟩ := guarded.schedules.tracked
    have policy := guarded.schedules.rounds
    simp only [RequestQueue.ofConfig, mode, RequestQueue.asynchronous] at policy
    have full := tracks.size_le_of_overflows policy read overflows
    have room := orderly.length_waiting_lt_of_underway conserves guarded.replies
      (conserves.mem_underway member next read)
    have fits : clients.card ≤ max (config server).memoryServers.toNat 1 :=
      few.trans (Nat.le_max_left _ _)
    exact Nat.lt_irrefl _ (Nat.lt_of_lt_of_le room (fits.trans full))
  · apply map_snd_repliesRead
    · cases phase <;> rfl
    · cases phase <;> rfl

/-- Two clients put a value, and the first one of them asks for it and, once it has read
the reply to its put, puts another one. -/
theorem never_overflows_sole :
    (((start 3 (fun _ => .asynchronous 2) fun _ => TableServer.sole).run
      (fun _ => TableServer.soleBindings)
      [(1, .send 0 .putRequest (Wire.encode (⟨"w", ⟨7, [.one]⟩⟩ : PutRequest))),
        (2, .send 0 .putRequest (Wire.encode (⟨"w", ⟨7, [.one]⟩⟩ : PutRequest))),
        (1, .network), (2, .network), (0, .network), (0, .network), (0, .process),
        (1, .send 0 .getRequest (Wire.encode (⟨"w"⟩ : GetRequest))),
        (0, .network), (1, .network), (1, .read .any .putResponse),
        (1, .send 0 .putRequest (Wire.encode (⟨"w", ⟨7, [.one]⟩⟩ : PutRequest))),
        (1, .network)]).hosts 0).engine.fatalText? = none := by
  refine (never_overflows 3 (fun _ => .asynchronous 2) (fun _ => TableServer.sole)
    (fun _ => TableServer.soleBindings) (by decide)
    (show TableServer.bind StockHandler.handler id (fun server _ => server) {} =
      .ok TableServer.soleBindings from rfl) rfl {1, 2} (by decide) _ ?_).1
  decide +kernel

end Cluster

end ParameterServer

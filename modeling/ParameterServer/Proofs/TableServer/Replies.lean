import ParameterServer.Proofs.Engine.Balance
import ParameterServer.Proofs.TableServer.Binding

/-!
# The replies of a member

A member with a table server, of any handler, serves every request that it takes from
its queue and sends one reply to each.  The requests that its queue has accepted are
those that it has served and those that wait.
-/

namespace ParameterServer

variable {η ω : Type}

open Observation
open scoped List

namespace Request

variable {messages : List Message}

/-- Messages that can be scheduled hold as many requests of each source. -/
theorem countP_filterMap_ofMessage?
    (routed : ∀ message ∈ messages, ∃ key, message.routingKey = .ok key)
    (source : Rank) :
    ((messages.filterMap ofMessage?).countP fun request => request.source = source) =
      messages.countP fun message => message.source = source := by
  induction messages with
  | nil => rfl
  | cons message rest inductionHypothesis =>
      obtain ⟨key, own⟩ := routed message List.mem_cons_self
      obtain ⟨request, read⟩ := ofMessage_of_routingKey own
      have later := inductionHypothesis fun other member =>
        routed other (List.mem_cons_of_mem _ member)
      simp [ofMessage?_eq_some.mpr read, List.countP_cons, later,
        (routingKey_of_ofMessage read).2.1]

end Request

namespace RequestQueue

/-- The requests that wait in a queue. -/
def waiting (queue : RequestQueue) : List Request :=
  queue.buffered.filterMap Request.ofMessage?

variable {queue rest : RequestQueue} {message : Message} {request : Request}

theorem waiting_enqueue (enqueued : queue.enqueue message = .ok rest)
    (read : Request.ofMessage? message = some request) :
    rest.waiting.Perm (queue.waiting ++ [request]) := by
  have grows := (buffered_enqueue enqueued).1.filterMap Request.ofMessage?
  rw [List.filterMap_cons, read] at grows
  exact grows.trans (List.perm_append_singleton request queue.waiting).symm

theorem waiting_tryNext (found : queue.tryNext = (some message, rest))
    (read : Request.ofMessage? message = some request) :
    queue.waiting.Perm (request :: rest.waiting) := by
  have shrinks := (buffered_tryNext_some found).1.filterMap Request.ofMessage?
  rw [List.filterMap_cons, read] at shrinks
  exact shrinks

end RequestQueue

namespace Engine

/-- The requests that an engine has enqueued: as many as it has counted, the first
that were received and can be read. -/
def enqueuedRequests (seen : List Observation) (engine : Engine) : List Request :=
  (requests seen).take engine.counters.enqueued

theorem Balanced.length_enqueuedRequests {engine : Engine} {seen : List Observation}
    (balanced : Balanced seen engine) :
    (engine.enqueuedRequests seen).length = engine.counters.enqueued := by
  have long := balanced.readable
  rw [enqueuedRequests, List.length_take]
  omega

/-- Requests that arrive later do not change those that were enqueued. -/
theorem Balanced.enqueuedRequests_append {engine after : Engine} {seen : List Observation}
    (balanced : Balanced seen engine)
    (same : after.counters.enqueued = engine.counters.enqueued)
    (noted : List Observation) :
    after.enqueuedRequests (seen ++ noted) = engine.enqueuedRequests seen := by
  have long := balanced.readable
  rw [enqueuedRequests, enqueuedRequests, requests_append, same,
    List.take_append_of_le_length (by omega)]

/-- An engine without a fatal error has enqueued all requests that can be read. -/
theorem Balanced.enqueuedRequests_of_healthy {engine : Engine} {seen : List Observation}
    (balanced : Balanced seen engine) (healthy : engine.fatal = none) :
    engine.enqueuedRequests seen = requests seen := by
  have long := balanced.readable
  rw [healthy] at long
  exact List.take_of_length_le (Nat.le_of_eq long)

end Engine

open Engine

namespace TableServer

/-- The member has answered what it has served, and the requests that it has enqueued
are those served and those that wait. -/
structure Replies (seat : Seat) (seen : List Observation) (engine : Engine) :
    Prop where
  place : engine.seat = seat
  active : engine.active = true
  balanced : Balanced seen engine
  processed : engine.counters.processed = (servings seen).length
  bound : engine.counters.unbound = 0
  failed : engine.counters.handlerErrors =
    (servings seen).countP fun serving => seat.size ≤ serving.1.source
  replied : ∀ serving ∈ servings seen, ∃ reply : Reply,
    serving.1.AnsweredBy (reply.tag, reply.payload) ∧
      serving.2 = sendsOf seat serving.1 reply
  settled : (engine.enqueuedRequests seen).Perm
    ((servings seen).map Prod.fst ++ engine.queue.waiting)

namespace Replies

variable {seat : Seat} {seen noted : List Observation} {engine after : Engine}

theorem atSeat (config : EngineConfig) (seat : Seat) :
    Replies seat [] (.atSeat config seat true) where
  place := rfl
  active := rfl
  balanced := .atSeat config seat
  processed := rfl
  bound := rfl
  failed := rfl
  replied _ member := by simp [servings] at member
  settled := by
    have empty : (RequestQueue.ofConfig config).buffered = [] := by
      unfold RequestQueue.ofConfig
      split <;> rfl
    simp [Engine.atSeat, RequestQueue.waiting, empty, enqueuedRequests, requests,
      servings]

/-- What neither serves nor enqueues a request changes nothing about the replies. -/
theorem congr (replies : Replies seat seen engine)
    (frame : after.seat = engine.seat ∧ after.active = engine.active)
    (balanced : Balanced (seen ++ noted) after) (served : servings noted = [])
    (counted : after.counters.enqueued = engine.counters.enqueued ∧
      after.counters.processed = engine.counters.processed ∧
      after.counters.unbound = engine.counters.unbound ∧
      after.counters.handlerErrors = engine.counters.handlerErrors)
    (buffered : after.queue.buffered = engine.queue.buffered) :
    Replies seat (seen ++ noted) after := by
  obtain ⟨same, processed, unbound, failed⟩ := counted
  have servings : servings (seen ++ noted) = servings seen := by simp [served]
  constructor
  case place => exact frame.1.trans replies.place
  case active => exact frame.2.trans replies.active
  case balanced => exact balanced
  case processed => rw [processed, servings, replies.processed]
  case bound => rw [unbound, replies.bound]
  case failed => rw [failed, servings, replies.failed]
  case replied =>
    rw [servings]
    exact replies.replied
  case settled =>
    rw [servings, RequestQueue.waiting, buffered,
      replies.balanced.enqueuedRequests_append same]
    exact replies.settled

/-- A running member enqueues a request that it can read, or is stopped by it. -/
theorem deliver {message : Message} {host : Host ω}
    (replies : Replies seat seen host.engine)
    (live : message.tag.isRequest = true → host.engine.running = true)
    (delivers : Host.Delivers host.counting.engine message after) :
    Replies seat (seen ++ [.received message]) after := by
  have balanced := delivers.balanced live replies.balanced
  have frame := delivers.frame
  cases delivers with
  | enqueued queue request accepted =>
      obtain ⟨key, routed⟩ := RequestQueue.routingKey_of_enqueue accepted
      obtain ⟨found, whole⟩ := Request.ofMessage_of_routingKey routed
      have read := Request.ofMessage?_eq_some.mpr whole
      have healthy := replies.balanced.healthy (live request)
      have before := replies.balanced.enqueuedRequests_of_healthy healthy
      have after := balanced.enqueuedRequests_of_healthy healthy
      have settled :
          (requests seen ++ [found]).Perm
            ((servings seen).map Prod.fst ++ queue.waiting) := by
        rw [← before]
        calc _
          _ ~ ((servings seen).map Prod.fst ++ host.engine.queue.waiting) ++ [found] :=
            replies.settled.append_right _
          _ = (servings seen).map Prod.fst ++ (host.engine.queue.waiting ++ [found]) :=
            List.append_assoc ..
          _ ~ (servings seen).map Prod.fst ++ queue.waiting :=
            (RequestQueue.waiting_enqueue accepted read).symm.append_left _
      exact
        { place := replies.place
          active := replies.active
          balanced
          processed := by simpa [Host.counting] using replies.processed
          bound := replies.bound
          failed := by simpa [Host.counting] using replies.failed
          replied := by simpa using replies.replied
          settled := by
            rw [after]
            simpa [read] using settled }
  | fatal error =>
      exact replies.congr ⟨frame.1, frame.2.1⟩ balanced rfl
        (by simp [Engine.fail, Host.counting]) (by simp [Engine.fail, Host.counting])
  | malformed | buffered | unknown =>
      exact replies.congr ⟨frame.1, frame.2.1⟩ balanced rfl ⟨rfl, rfl, rfl, rfl⟩ rfl

/-- A request that is taken from the queue is served, with one reply to its source. -/
theorem serve (replies : Replies seat seen engine) {message : Message}
    {queue : RequestQueue} {request : Request}
    (asked : engine.queue.nextRequest = (.request message, queue))
    (read : Request.ofMessage message = .ok request) {reply : Reply}
    (answers : request.AnsweredBy (reply.tag, reply.payload)) :
    Replies seat (seen ++ [.served request (sendsOf seat request reply)])
      { engine with
        queue
        counters :=
          { engine.counters with
            handlerErrors := engine.counters.handlerErrors +
              if seat.size ≤ request.source then 1 else 0
            processed := engine.counters.processed + 1 } } := by
  obtain ⟨_, _, accounted⟩ := replies.balanced.yield asked
  have found := (RequestQueue.tryNext_of_nextRequest asked).2
  have shrinks := RequestQueue.waiting_tryNext found (Request.ofMessage?_eq_some.mpr read)
  constructor
  case place => exact replies.place
  case active => exact replies.active
  case balanced =>
    exact (accounted (engine.counters.processed + 1) engine.counters.unbound _
      (by omega)).congr rfl rfl rfl rfl rfl (receptions_served request _)
        (takings_served request _)
  case processed => simp [replies.processed]
  case bound => exact replies.bound
  case failed => simp [replies.failed, List.countP_append]
  case replied =>
    intro serving member
    rw [servings_append, List.mem_append] at member
    rcases member with earlier | own
    · exact replies.replied serving earlier
    · obtain rfl : serving = _ := List.mem_singleton.mp own
      exact ⟨reply, answers, rfl⟩
  case settled =>
    calc _
      _ = engine.enqueuedRequests seen := replies.balanced.enqueuedRequests_append rfl _
      _ ~ (servings seen).map Prod.fst ++ engine.queue.waiting := replies.settled
      _ ~ (servings seen).map Prod.fst ++ (request :: queue.waiting) :=
        shrinks.append_left _
      _ = _ := by simp

theorem stop (replies : Replies seat seen engine) : Replies seat seen engine.stop := by
  have frame : engine.stop.seat = engine.seat ∧ engine.stop.active = engine.active := by
    simp [Engine.stop_eq]
  have balanced : Balanced (seen ++ []) engine.stop := by
    simpa using replies.balanced.stop
  simpa using replies.congr frame balanced rfl (by simp) (by simp)

theorem transmit (replies : Replies seat seen engine) (sends : SendTracker) :
    Replies seat seen { engine with sends } := by
  have same : Replies seat (seen ++ []) { engine with sends } :=
    replies.congr ⟨rfl, rfl⟩ (replies.balanced.congr rfl rfl rfl rfl rfl rfl rfl) rfl
      ⟨rfl, rfl, rfl, rfl⟩ rfl
  simpa using same

end Replies

/-- Whatever a member does, it answers what it serves. -/
theorem replies_move {handler : ValueHandler η} {part : ω → TableServer η}
    {replace : TableServer η → ω → ω} {base bindings : Bindings ω}
    (bound : bind handler part replace base = .ok bindings) {seat : Seat}
    {seen noted : List Observation} {host after : Host ω}
    (move : Host.Move bindings host noted after)
    (replies : Replies seat seen host.engine) :
    Replies seat (seen ++ noted) after.engine := by
  have frame := move.frame
  have balanced := move.balanced replies.balanced
  cases move with
  | finalize | remember | take =>
      exact replies.congr frame balanced rfl ⟨rfl, rfl, rfl, rfl⟩ rfl
  | accept sends =>
      exact replies.congr frame balanced (servings_accepted sends)
        ⟨rfl, rfl, rfl, rfl⟩ rfl
  | stop => simpa using replies.stop
  | deliver message engine live delivers => exact replies.deliver live delivers
  | miss outcome queue asked nothing =>
      have same : queue.buffered = host.engine.queue.buffered := by
        rcases RequestQueue.of_nextRequest_none asked nothing with rfl | missed
        · rfl
        · exact (RequestQueue.buffered_tryNext_none missed).1
      exact replies.congr frame balanced rfl ⟨rfl, rfl, rfl, rfl⟩ same
  | drop message queue counters asked reason =>
      -- The engine runs, every request has a handler, and what is queued can be read.
      exfalso
      obtain ⟨live, ⟨request, read⟩, _⟩ := replies.balanced.yield asked
      cases reason with
      | stopped halted => simp [live] at halted
      | unbound missing =>
          have found := handler?_of_bind handler part replace bound
            (Request.isRequest_of_ofMessage read)
          cases missing.symm.trans found
      | unreadable broken => exact broken request read
  | serve message queue called request asked live known read =>
      obtain rfl : focusedHandler handler part replace = called :=
        Option.some.inj <| (handler?_of_bind handler part replace bound
          (Request.isRequest_of_ofMessage read)).symm.trans known
      have sent := acceptedSends_focusedHandler handler part replace
        { host.engine with queue } replies.active live request host.memory
      have failed := failures_focusedHandler handler part replace
        { host.engine with queue } replies.active live request host.memory
      have served := replies.serve asked read
        (answeredBy_answer handler request (part host.memory))
      obtain ⟨_, rfl | rfl, counted⟩ := Host.call_engine
        (focusedHandler handler part replace) request
        { host with engine := { host.engine with queue } }
      · rw [counted, failed, sent, replies.place]
        exact served.transmit _
      · rw [counted, failed, sent, replies.place, ← Engine.stop_counters]
        exact (served.transmit _).stop

end TableServer

end ParameterServer

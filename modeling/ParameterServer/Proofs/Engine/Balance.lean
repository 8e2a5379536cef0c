import ParameterServer.Proofs.Engine.Schedule
import ParameterServer.Proofs.Queue.Waiting

/-!
# The balance of a member

The counters of an engine account for all that it has received.  A message is queued,
kept for readers, or counted as lost, unless it is the one that has stopped the
engine; a queued request waits until it is served or found to have no handler; and a
payload waits until a reader takes it.
-/

namespace ParameterServer

variable {σ ω : Type}

/-! ## What is counted -/

namespace Message

/-- Whether a message is a request that can be read. -/
def isReadable (message : Message) : Bool :=
  (Request.ofMessage? message).isSome

/-- Whether a message is a request that cannot be read. -/
def isMalformed (message : Message) : Bool :=
  message.tag.isRequest && !message.isReadable

/-- Whether the tag of a message is unknown. -/
def isForeign (message : Message) : Bool :=
  !message.tag.isKnown

variable {message : Message}

theorem isForeign_of_isRequest (request : message.tag.isRequest = true) :
    message.isForeign = false := by
  by_contra foreign
  have plain : message.tag.isRequest = false :=
    Tag.isRequest_of_unknown (by simpa [isForeign] using foreign)
  simp [plain] at request

/-- A request that can be scheduled can be read. -/
theorem readable_of_routingKey {key : String}
    (routed : message.routingKey = .ok key) :
    message.isReadable = true ∧ message.isMalformed = false ∧
      message.isForeign = false := by
  obtain ⟨request, read⟩ := Request.ofMessage_of_routingKey routed
  have readable : message.isReadable = true := by
    rw [isReadable, Request.ofMessage?_eq_some.mpr read, Option.isSome_some]
  exact ⟨readable, by simp [isMalformed, readable],
    isForeign_of_isRequest (Request.isRequest_of_ofMessage read)⟩

theorem malformed_of_unrouted (request : message.tag.isRequest = true)
    (unrouted : ∀ key, message.routingKey ≠ .ok key) :
    message.isReadable = false ∧ message.isMalformed = true ∧
      message.isForeign = false := by
  have unread : message.isReadable = false := by
    rw [isReadable, Request.ofMessage?_eq_none unrouted, Option.isSome_none]
  exact ⟨unread, by simp [isMalformed, request, unread], isForeign_of_isRequest request⟩

theorem unread_of_plain (plain : message.tag.isRequest = false) :
    message.isReadable = false ∧ message.isMalformed = false := by
  rw [isMalformed, isReadable, Request.ofMessage?_of_plain plain, plain]
  exact ⟨rfl, rfl⟩

end Message

namespace Observation

def isTaken : Observation → Bool
  | taken .. => true
  | _ => false

/-- What has been received, in order. -/
def receptions (seen : List Observation) : List Message :=
  seen.filterMap received?

/-- The number of payloads that readers have taken. -/
def takings (seen : List Observation) : Nat :=
  seen.countP isTaken

variable (seen noted : List Observation)

theorem receptions_nil : receptions [] = [] :=
  rfl

theorem takings_nil : takings [] = 0 :=
  rfl

@[simp]
theorem receptions_append :
    receptions (seen ++ noted) = receptions seen ++ receptions noted :=
  List.filterMap_append

@[simp]
theorem receptions_accepted (sends : List Outgoing) :
    receptions (sends.map accepted) = [] := by
  simp [receptions, received?, List.filterMap_eq_nil_iff]

@[simp]
theorem receptions_received (message : Message) :
    receptions [.received message] = [message] :=
  rfl

@[simp]
theorem takings_received (message : Message) : takings [.received message] = 0 :=
  rfl

@[simp]
theorem takings_append : takings (seen ++ noted) = takings seen + takings noted :=
  List.countP_append

@[simp]
theorem takings_accepted (sends : List Outgoing) :
    takings (sends.map accepted) = 0 := by
  simp [takings, isTaken, List.countP_map, Function.comp_def]

@[simp]
theorem receptions_served (request : Request) (sends : List Outgoing) :
    receptions [.served request sends] = [] :=
  rfl

@[simp]
theorem takings_served (request : Request) (sends : List Outgoing) :
    takings [.served request sends] = 0 :=
  rfl

section Taken

variable (tag : Tag) (source : Rank) (payload : Payload)

@[simp]
theorem requests_taken : requests [.taken tag source payload] = [] :=
  rfl

@[simp]
theorem receptions_taken : receptions [.taken tag source payload] = [] :=
  rfl

@[simp]
theorem takings_taken : takings [.taken tag source payload] = 1 :=
  rfl

end Taken

end Observation

open Observation

/-! ## The balance -/

namespace Engine

@[simp]
theorem buffered_stop (engine : Engine) :
    engine.stop.queue.buffered = engine.queue.buffered := by
  unfold stop
  split
  · exact engine.queue.buffered_close
  · rfl

/-- What a member has noted agrees with what its engine has counted and holds. -/
structure Balanced (seen : List Observation) (engine : Engine) : Prop where
  closed : engine.queue.isClosed = !engine.running
  /-- The error that is kept is what has stopped the engine. -/
  healthy : engine.running = true → engine.fatal = none
  stocked : engine.queue.Stocked
  received : engine.counters.received = (receptions seen).length
  sorted : engine.counters.received =
    engine.counters.enqueued + engine.counters.buffered + engine.counters.malformed +
      engine.counters.unknown + engine.fatal.toList.length
  readable : (requests seen).length =
    engine.counters.enqueued + engine.fatal.toList.length
  enqueued : engine.counters.enqueued =
    engine.queue.pending + engine.counters.processed + engine.counters.unbound
  buffered : engine.counters.buffered = takings seen + engine.responses.total
  malformed : engine.counters.malformed =
    (receptions seen).countP Message.isMalformed
  unknown : engine.counters.unknown = (receptions seen).countP Message.isForeign

namespace Balanced

variable {seen noted : List Observation} {engine after : Engine}

theorem atSeat (config : EngineConfig) (seat : Seat) :
    Balanced [] (.atSeat config seat true) where
  closed := by
    simp only [Engine.atSeat, RequestQueue.ofConfig]
    split <;> rfl
  healthy _ := rfl
  stocked := RequestQueue.Stocked.ofConfig config
  received := rfl
  sorted := rfl
  readable := rfl
  enqueued := by
    simp only [Engine.atSeat, RequestQueue.ofConfig]
    split <;> rfl
  buffered := (ResponseTable.total_empty seat.size).symm
  malformed := rfl
  unknown := rfl

/-- Sends are of no concern, nor is what is noted of them. -/
theorem congr (balanced : Balanced seen engine)
    (queue : after.queue = engine.queue) (running : after.running = engine.running)
    (fatal : after.fatal = engine.fatal)
    (responses : after.responses = engine.responses)
    (counters : after.counters = engine.counters)
    (received : receptions noted = []) (taken : takings noted = 0) :
    Balanced (seen ++ noted) after := by
  have nothing : requests noted = [] := by
    rw [requests, show noted.filterMap received? = [] from received, List.filterMap_nil]
  constructor <;>
    simp only [queue, running, fatal, responses, counters, receptions_append,
      requests_append, takings_append, received, taken, nothing, List.append_nil,
      Nat.add_zero]
  · exact balanced.closed
  · exact balanced.healthy
  · exact balanced.stocked
  · exact balanced.received
  · exact balanced.sorted
  · exact balanced.readable
  · exact balanced.enqueued
  · exact balanced.buffered
  · exact balanced.malformed
  · exact balanced.unknown

theorem transmit (balanced : Balanced seen engine) (sends : SendTracker) :
    Balanced seen { engine with sends } := by
  have same : Balanced (seen ++ []) { engine with sends } :=
    balanced.congr rfl rfl rfl rfl rfl receptions_nil takings_nil
  rwa [List.append_nil] at same

theorem stop (balanced : Balanced seen engine) : Balanced seen engine.stop := by
  cases running : engine.running with
  | false =>
      rw [Engine.stop_of_stopped running]
      exact balanced
  | true =>
      rw [Engine.stop, if_pos running]
      exact
        { closed := RequestQueue.isClosed_close engine.queue
          healthy := by simp
          stocked := balanced.stocked.close
          received := balanced.received
          sorted := balanced.sorted
          readable := balanced.readable
          enqueued := by simpa using balanced.enqueued
          buffered := balanced.buffered
          malformed := balanced.malformed
          unknown := balanced.unknown }

/-- A queue that yields nothing is as it was, up to the place it looks at next. -/
theorem miss (balanced : Balanced seen engine) {outcome : NextRequest}
    {queue : RequestQueue} (asked : engine.queue.nextRequest = (outcome, queue))
    (nothing : ∀ message, outcome ≠ .request message) :
    Balanced seen { engine with queue } := by
  rcases RequestQueue.of_nextRequest_none asked nothing with rfl | missed
  · exact balanced
  · have frame := engine.queue.tryNext_frame.2
    rw [missed] at frame
    have pending := (RequestQueue.buffered_tryNext_none missed).2
    exact
      { balanced with
        closed := frame.trans balanced.closed
        stocked := balanced.stocked.tryNext_none missed
        enqueued := by simpa [pending] using balanced.enqueued }

/-- A request that the queue yields can be read, and is accounted for when it is
served or found to have no handler. -/
theorem yield (balanced : Balanced seen engine) {message : Message}
    {queue : RequestQueue}
    (asked : engine.queue.nextRequest = (.request message, queue)) :
    engine.running = true ∧ (∃ request, Request.ofMessage message = .ok request) ∧
      ∀ processed unbound failures : Nat,
        processed + unbound =
            engine.counters.processed + engine.counters.unbound + 1 →
          Balanced seen
            { engine with
              queue
              counters :=
                { engine.counters with
                  processed
                  unbound
                  handlerErrors := failures } } := by
  obtain ⟨opened, found⟩ := RequestQueue.tryNext_of_nextRequest asked
  obtain ⟨stocked, pending, key, routed⟩ := balanced.stocked.tryNext_some found
  have frame := engine.queue.tryNext_frame.2
  rw [found] at frame
  have live : engine.running = true := by simpa [balanced.closed] using opened
  refine ⟨live, Request.ofMessage_of_routingKey routed, ?_⟩
  intro processed unbound failures total
  have counted := balanced.enqueued
  exact
    { balanced with
      closed := frame.trans balanced.closed
      stocked
      enqueued := by
        simp only
        omega }

/-- A received message adds one to what it counts as. -/
theorem of_received {message : Message} (balanced : Balanced seen engine)
    (closed : after.queue.isClosed = !after.running)
    (healthy : after.running = true → after.fatal = none)
    (stocked : after.queue.Stocked)
    (received : after.counters.received = engine.counters.received + 1)
    (sorted : after.counters.received =
      after.counters.enqueued + after.counters.buffered + after.counters.malformed +
        after.counters.unknown + after.fatal.toList.length)
    (readable : after.counters.enqueued + after.fatal.toList.length =
      engine.counters.enqueued + engine.fatal.toList.length + message.isReadable.toNat)
    (enqueued : after.counters.enqueued =
      after.queue.pending + after.counters.processed + after.counters.unbound)
    (buffered : after.counters.buffered + engine.responses.total =
      engine.counters.buffered + after.responses.total)
    (malformed : after.counters.malformed =
      engine.counters.malformed + message.isMalformed.toNat)
    (unknown : after.counters.unknown =
      engine.counters.unknown + message.isForeign.toNat) :
    Balanced (seen ++ [.received message]) after where
  closed := closed
  healthy := healthy
  stocked := stocked
  received := by
    rw [receptions_append, receptions_received, List.length_append, received,
      balanced.received, List.length_singleton]
  sorted := sorted
  readable := by
    rw [requests_append, requests_received, List.length_append, readable,
      balanced.readable, Message.isReadable]
    cases Request.ofMessage? message <;> rfl
  enqueued := enqueued
  buffered := by
    have before := balanced.buffered
    rw [takings_append, takings_received]
    omega
  malformed := by
    rw [receptions_append, receptions_received, List.countP_append, malformed,
      balanced.malformed, List.countP_singleton]
    cases message.isMalformed <;> rfl
  unknown := by
    rw [receptions_append, receptions_received, List.countP_append, unknown,
      balanced.unknown, List.countP_singleton]
    cases message.isForeign <;> rfl

theorem take (balanced : Balanced seen engine) {source : Source} {tag : Tag}
    {rank : Rank} {payload : Payload} {responses : ResponseTable}
    (popped : engine.responses.pop source tag = .ok (some (rank, payload), responses)) :
    Balanced (seen ++ [.taken tag rank payload]) { engine with responses } where
  closed := balanced.closed
  healthy := balanced.healthy
  stocked := balanced.stocked
  received := by simpa using balanced.received
  sorted := balanced.sorted
  readable := by simpa using balanced.readable
  enqueued := balanced.enqueued
  buffered := by
    have counted := balanced.buffered
    rw [ResponseTable.total_of_pop popped] at counted
    simp only [takings_append, takings_taken]
    omega
  malformed := by simpa using balanced.malformed
  unknown := by simpa using balanced.unknown

end Balanced

end Engine

open Engine

namespace Host

variable {bindings : Bindings ω} {host after : Host ω} {seen noted : List Observation}

/-- A received message is queued, kept or lost, and counted as such. -/
theorem Delivers.balanced {message : Message} {engine : Engine}
    (delivers : Delivers host.counting.engine message engine)
    (live : message.tag.isRequest = true → host.engine.running = true)
    (balanced : Balanced seen host.engine) :
    Balanced (seen ++ [.received message]) engine := by
  have closed := balanced.closed
  have healthy := balanced.healthy
  have stocked := balanced.stocked
  have sorted := balanced.sorted
  have enqueued := balanced.enqueued
  cases delivers with
  | enqueued queue request accepted =>
      obtain ⟨key, routed⟩ := RequestQueue.routingKey_of_enqueue accepted
      obtain ⟨readable, proper, known⟩ := Message.readable_of_routingKey routed
      have pending := (RequestQueue.buffered_enqueue accepted).2
      refine balanced.of_received ((RequestQueue.enqueue_frame accepted).2.trans closed)
        healthy (stocked.enqueue accepted) rfl ?_ ?_ ?_ rfl ?_ ?_
      all_goals
        simp only [counting, readable, proper, known, Bool.toNat_true,
          Bool.toNat_false] at pending ⊢
        omega
  | fatal error request refused severe =>
      obtain ⟨key, routed⟩ := RequestQueue.routingKey_of_fatal refused severe
      obtain ⟨readable, proper, known⟩ := Message.readable_of_routingKey routed
      -- The engine has been running, so that no error is kept yet: this is the one
      -- message that no counter but that of the received ones accounts for.
      have running := live request
      have first := healthy running
      rw [Engine.fail, Engine.stop_eq]
      refine balanced.of_received ?_ ?_ ?_ rfl ?_ ?_ ?_ rfl ?_ ?_
      case refine_1 => simp [counting, running]
      case refine_2 => simp
      case refine_3 => simpa [counting, running] using stocked.close
      all_goals
        simp [counting, running, first, readable, proper, known] at sorted ⊢ <;>
          omega
  | malformed error request refused mild =>
      obtain ⟨unread, broken, known⟩ := Message.malformed_of_unrouted request
        (RequestQueue.routingKey_of_enqueue_error refused mild)
      refine balanced.of_received closed healthy stocked rfl ?_ ?_ enqueued rfl ?_ ?_
      all_goals
        simp only [counting, unread, broken, known, Bool.toNat_true, Bool.toNat_false] <;>
          omega
  | buffered responses plain pushed =>
      obtain ⟨unread, proper⟩ := Message.unread_of_plain plain
      have known : message.isForeign = false := by
        rw [Message.isForeign, ResponseTable.isKnown_of_push pushed, Bool.not_true]
      have waiting := ResponseTable.total_of_push pushed
      refine balanced.of_received closed healthy stocked rfl ?_ ?_ enqueued ?_ ?_ ?_
      all_goals
        simp only [counting, unread, proper, known, Bool.toNat_false] at waiting ⊢
        omega
  | unknown plain unknown =>
      obtain ⟨unread, proper⟩ := Message.unread_of_plain plain
      have foreign : message.isForeign = true := by
        rw [Message.isForeign, unknown, Bool.not_false]
      refine balanced.of_received closed healthy stocked rfl ?_ ?_ enqueued rfl ?_ ?_
      all_goals
        simp only [counting, unread, proper, foreign, Bool.toNat_true, Bool.toNat_false] <;>
          omega

/-- Whatever a member does keeps the balance. -/
theorem Move.balanced (move : Move bindings host noted after)
    (balanced : Balanced seen host.engine) :
    Balanced (seen ++ noted) after.engine := by
  cases move with
  | finalize => exact balanced.congr rfl rfl rfl rfl rfl rfl rfl
  | remember => exact balanced.congr rfl rfl rfl rfl rfl rfl rfl
  | accept sends =>
      exact balanced.congr rfl rfl rfl rfl rfl (receptions_accepted sends)
        (takings_accepted sends)
  | stop => simpa using balanced.stop
  | deliver message engine live delivers => exact delivers.balanced live balanced
  | miss outcome queue asked nothing => simpa using balanced.miss asked nothing
  | drop message queue counters asked reason =>
      obtain ⟨live, ⟨request, read⟩, accounted⟩ := balanced.yield asked
      rw [List.append_nil]
      cases reason with
      | stopped halted => simp [live] at halted
      | unbound => exact accounted _ _ _ (by omega)
      | unreadable broken => exact absurd read (broken request)
  | serve message queue handler request asked =>
      obtain ⟨_, left, called⟩ := call_engine handler request
        { host with engine := { host.engine with queue } }
      obtain ⟨_, _, accounted⟩ := balanced.yield asked
      have counted := fun failures => accounted (host.engine.counters.processed + 1)
        host.engine.counters.unbound failures (by omega)
      rw [called]
      rcases left with rfl | rfl
      · exact (counted _).congr rfl rfl rfl rfl rfl (receptions_served request _)
          (takings_served request _)
      · rw [← Engine.stop_counters]
        refine Balanced.stop ?_
        exact (counted _).congr rfl rfl rfl rfl rfl (receptions_served request _)
          (takings_served request _)
  | take source tag rank payload responses popped => exact balanced.take popped

/-- The engine of a started member is balanced at every point. -/
theorem balanced_follow (config : EngineConfig) (seat : Seat) (transport : Transport σ)
    (bindings : Bindings ω) (memory : ω) (steps : List (Activity × σ)) :
    let outcome :=
      Host.follow transport bindings ⟨.atSeat config seat true, memory⟩ steps
    Balanced outcome.1 outcome.2.engine :=
  follow_invariant bindings _ (motive := fun seen host => Balanced seen host.engine)
    Move.balanced (fun sends balanced => balanced.transmit sends) transport
    (Balanced.atSeat config seat) steps

theorem receptions_processNotes (bindings : Bindings ω) (host : Host ω) :
    receptions (host.processNotes bindings) = [] := by
  unfold processNotes
  split <;> rfl

/-- The process loop finds every request that the queue yields readable. -/
theorem malformed_processStep (balanced : Balanced seen host.engine) :
    (host.processStep bindings).engine.counters.malformed =
      host.engine.counters.malformed := by
  have after : Balanced (seen ++ host.processNotes bindings)
      (host.processStep bindings).engine :=
    (moves_process bindings host).preserve
      (motive := fun seen host => Balanced seen host.engine) Move.balanced balanced
  rw [after.malformed, balanced.malformed, receptions_append, receptions_processNotes,
    List.append_nil]

/-- The accounts of an engine that has been started, after any steps and on any
network.  A received message is queued, kept for readers, counted as malformed or
unknown, or has stopped the engine; a queued request waits, has been processed or had
no handler; and a payload that was kept has been taken or waits still.  Requests are
malformed exactly when they cannot be read on arrival, so that the process loop finds
no more of them, and no payload of a known tag is refused. -/
theorem accounts (config : EngineConfig) (seat : Seat) (transport : Transport σ)
    (bindings : Bindings ω) (memory : ω) (steps : List (Activity × σ)) :
    let outcome :=
      Host.follow transport bindings ⟨.atSeat config seat true, memory⟩ steps
    let engine := outcome.2.engine
    let counters := engine.counters
    (counters.received =
      counters.enqueued + counters.buffered + counters.malformed + counters.unknown +
        (if engine.fatalText?.isSome then 1 else 0)) ∧
    (counters.enqueued =
      engine.pendingRequests + counters.processed + counters.unbound) ∧
    (counters.buffered = takings outcome.1 + engine.responses.total) ∧
    ((outcome.2.processStep bindings).engine.counters.malformed = counters.malformed) ∧
    (∀ message : Message, message.tag.isKnown = true →
      ∃ responses, engine.responses.push message.tag message.source message.payload =
        .ok responses) ∧
    (counters.received = (receptions outcome.1).length) ∧
    (counters.malformed = (receptions outcome.1).countP Message.isMalformed) ∧
    counters.unknown = (receptions outcome.1).countP Message.isForeign := by
  intro outcome engine counters
  have balanced : Balanced outcome.1 engine :=
    balanced_follow config seat transport bindings memory steps
  have stopped : (if engine.fatalText?.isSome then 1 else 0) =
      engine.fatal.toList.length := by
    cases fatal : engine.fatal <;> simp [Engine.fatalText?, fatal]
  refine ⟨?_, balanced.enqueued, balanced.buffered, malformed_processStep balanced, ?_,
    balanced.received, balanced.malformed, balanced.unknown⟩
  · rw [stopped]
    exact balanced.sorted
  · intro message known
    exact ResponseTable.push_of_known known message.source message.payload _

end Host

end ParameterServer

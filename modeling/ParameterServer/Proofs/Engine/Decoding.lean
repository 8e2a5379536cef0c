import ParameterServer.Proofs.Engine.Balance
import ParameterServer.Proofs.Queue.Draining
import ParameterServer.Proofs.Queue.Representation
import ParameterServer.Transport.Mesh

/-!
# Scheduling and decoding agree

The key of a message is read when it comes into the queue, and the whole request when it
leaves it.  Both readings succeed on the same messages, with the same key, and fail on the
others with the same error.  A message that the queue returns comes from the slot of the
key that its request has, and the process loop never finds a request that it cannot read.
-/

namespace ParameterServer

open Queue

variable {σ ω : Type}

/-! ## Two readings of a message -/

/-- The key of a message is that of the request that it holds. -/
theorem Message.routingKey_eq (message : Message) :
    message.routingKey = Request.key <$> Request.ofMessage message := by
  obtain ⟨tag, source, payload⟩ := message
  unfold Message.routingKey ParameterServer.routingKey Request.ofMessage
  simp only
  split
  case h_1 => cases Wire.decode GetRequest .getRequest payload <;> rfl
  case h_2 => cases Wire.decode PutRequest .putRequest payload <;> rfl
  case h_3 => cases Wire.decode PutRequest .updateRequest payload <;> rfl
  case h_4 notGet notPut notUpdate =>
    split
    · exact (notPut rfl).elim
    · exact (notGet rfl).elim
    · exact (notUpdate rfl).elim
    · rfl

theorem Message.routingKey_eq_ok_iff {message : Message} {key : String} :
    message.routingKey = .ok key ↔
      ∃ request, Request.ofMessage message = .ok request ∧ request.key = key := by
  rw [routingKey_eq, Outcome.map_eq_ok]

theorem routingKey_eq_ok_iff (tag : Tag) (source : Rank) (payload : Payload) (key : String) :
    routingKey tag payload = .ok key ↔
      ∃ request, Request.ofMessage ⟨tag, source, payload⟩ = .ok request ∧
        request.key = key ∧ request.tag = tag ∧ request.source = source := by
  refine Iff.trans (@Message.routingKey_eq_ok_iff ⟨tag, source, payload⟩ key) ?_
  refine exists_congr fun request => and_congr_right fun read => ?_
  obtain ⟨_, sender, kind⟩ := Request.routingKey_of_ofMessage read
  exact (and_iff_left ⟨kind, sender⟩).symm

theorem routingKey_eq_error_iff (tag : Tag) (source : Rank) (payload : Payload)
    (error : Error) :
    routingKey tag payload = .error error ↔
      Request.ofMessage ⟨tag, source, payload⟩ = .error error := by
  have agree : routingKey tag payload = _ := Message.routingKey_eq ⟨tag, source, payload⟩
  rw [agree]
  cases Request.ofMessage ⟨tag, source, payload⟩ <;> simp [Functor.map, Except.map]

/-! ## Messages that leave a queue -/

/-- A scan takes a message from the slot of one key. -/
theorem Queue.RoundRobin.slot_of_scan {ς : Type} {discipline : Discipline ς}
    {queue rest : RoundRobin ς} {message : Message}
    (distinct : (queue.slots.map Prod.fst).Nodup)
    (found : queue.scan discipline = (some message, rest)) :
    ∃ key, discipline.take (queue.slot discipline key) =
      some (message, rest.slot discipline key) := by
  obtain ⟨position, key, before, after, occupied, taken, slots, _⟩ := scanFor_some found
  refine ⟨key, ?_⟩
  rw [slot_of_getElem? discipline distinct occupied, taken, slot, slots,
    Association.set_eq_assign distinct occupied, Association.lookup_assign, if_pos rfl]
  rfl

namespace RequestQueue

variable {queue rest : RequestQueue} {accepted returned : List Message} {message : Message}

/-- A message that a queue returns was the first one of the list that it has waited in
under its key. -/
theorem Tracks.lane_of_tryNext (tracks : queue.Tracks accepted returned)
    (found : queue.tryNext = (some message, rest)) :
    ∃ key, message.routingKey = .ok key ∧
      queue.lane key message.phase = message :: rest.lane key message.phase := by
  cases queue with
  | sync slots =>
      obtain ⟨after, scanned, rfl⟩ := tryNext_sync.mp found
      obtain ⟨key, taken⟩ := RoundRobin.slot_of_scan (RoundRobin.Tracks.distinct tracks) scanned
      have oldest := Fifo.of_take taken
      have waits : message ∈ (RequestQueue.sync slots).lane key message.phase := by
        rw [lane, oldest]
        exact List.mem_cons_self
      exact ⟨key, (tracks.mem_lane_iff.mp waits).2.1, oldest⟩
  | async rounds slots =>
      obtain ⟨after, scanned, rfl⟩ := tryNext_async.mp found
      obtain ⟨key, taken⟩ := RoundRobin.slot_of_scan tracks.2.distinct scanned
      have oldest := (PhasedSlot.of_take taken).1
      have waits : message ∈ (RequestQueue.async rounds slots).lane key
          (slots.slot (PhasedSlot.discipline rounds) key).phase := by
        rw [lane, oldest]
        exact List.mem_cons_self
      obtain ⟨_, routed, own⟩ := tracks.mem_lane_iff.mp waits
      refine ⟨key, routed, ?_⟩
      rw [own (by simp [rounds?])]
      exact oldest

/-- Whether calls lead to a queue from the fresh one of a configuration. -/
def Reached (config : EngineConfig) (queue : RequestQueue) : Prop :=
  ∃ calls, queue = (History.run (.ofConfig config) calls).queue

namespace Reached

variable {config : EngineConfig}

theorem step (reached : queue.Reached config) (call : Call) :
    ((⟨queue, [], []⟩ : History).step call).queue.Reached config := by
  obtain ⟨calls, rfl⟩ := reached
  refine ⟨calls ++ [call], ?_⟩
  rw [History.run_concat]
  cases call with
  | enqueue message =>
      simp only [History.step]
      split <;> rfl
  | tryNext | nextRequest => simp only [History.step_tryNext, History.step_nextRequest]
  | close => rfl

theorem enqueue (reached : queue.Reached config)
    (enqueued : queue.enqueue message = .ok rest) : rest.Reached config := by
  simpa [History.step, enqueued] using reached.step (.enqueue message)

theorem nextRequest (reached : queue.Reached config) {outcome : NextRequest}
    (asked : queue.nextRequest = (outcome, rest)) : rest.Reached config := by
  simpa [History.step_nextRequest, asked] using reached.step .nextRequest

theorem close (reached : queue.Reached config) : queue.close.Reached config :=
  reached.step .close

theorem tracks (reached : queue.Reached config) :
    ∃ accepted returned, queue.Tracks accepted returned := by
  obtain ⟨calls, rfl⟩ := reached
  exact ⟨_, _, History.tracked_run (Tracks.ofConfig config) calls⟩

/-- What waits under a key is a request for that key. -/
theorem read_of_mem_lane (reached : queue.Reached config) {key : String} {phase : Phase}
    (waits : message ∈ queue.lane key phase) :
    ∃ request, Request.ofMessage message = .ok request ∧ request.key = key := by
  obtain ⟨_, _, tracks⟩ := reached.tracks
  exact Message.routingKey_eq_ok_iff.mp (tracks.mem_lane_iff.mp waits).2.1

/-- What is returned is a request for the key under which it has waited. -/
theorem read_of_tryNext (reached : queue.Reached config)
    (found : queue.tryNext = (some message, rest)) :
    ∃ request, Request.ofMessage message = .ok request ∧
      queue.lane request.key message.phase =
        message :: rest.lane request.key message.phase := by
  obtain ⟨_, _, tracks⟩ := reached.tracks
  obtain ⟨key, routed, oldest⟩ := tracks.lane_of_tryNext found
  obtain ⟨request, read, rfl⟩ := Message.routingKey_eq_ok_iff.mp routed
  exact ⟨request, read, oldest⟩

end Reached

end RequestQueue

/-! ## Requests that reach a handler -/

namespace Host

open RequestQueue (History)

variable {config : EngineConfig} {bindings : Bindings ω} {host after : Host ω}

theorem reached_stop {engine : Engine} (reached : engine.queue.Reached config) :
    engine.stop.queue.Reached config := by
  rw [Engine.stop]
  split
  · exact reached.close
  · exact reached

theorem Delivers.reached {engine delivered : Engine} {message : Message}
    (delivers : Delivers engine message delivered)
    (reached : engine.queue.Reached config) : delivered.queue.Reached config := by
  cases delivers with
  | enqueued queue request accepted => exact reached.enqueue accepted
  | fatal => exact reached_stop reached
  | malformed | buffered | unknown => exact reached

/-- Whatever a member does, its queue is one that calls lead to. -/
theorem Move.reached {noted : List Observation} (move : Move bindings host noted after)
    (reached : host.engine.queue.Reached config) : after.engine.queue.Reached config := by
  cases move with
  | finalize | accept | remember | take => exact reached
  | stop => exact reached_stop reached
  | deliver message engine live delivers => exact delivers.reached reached
  | miss outcome queue asked | drop message queue counters asked =>
      exact reached.nextRequest asked
  | serve message queue handler request asked =>
      obtain ⟨_, left, called⟩ := call_engine handler request
        { host with engine := { host.engine with queue } }
      rw [called]
      rcases left with rfl | rfl
      · exact reached.nextRequest asked
      · exact reached_stop (reached.nextRequest asked)

theorem reached_follow (config : EngineConfig) (seat : Seat) (transport : Transport σ)
    (bindings : Bindings ω) (memory : ω) (steps : List (Activity × σ)) :
    (Host.follow transport bindings ⟨.atSeat config seat true, memory⟩
      steps).2.engine.queue.Reached config :=
  follow_invariant bindings _ (motive := fun _ host => host.engine.queue.Reached config)
    Move.reached (fun _ reached => reached) transport ⟨[], rfl⟩ steps

/-- The key of a message can be read exactly if the request can, with the same key, and an
error of the one reading is the error of the other.  Hence, under both disciplines and in
any calls on a fresh queue, what is accepted, waits or is returned can be read, and has
the key under which it is scheduled; and the process loop of a member calls the handler,
whenever there is one, with a request of that key, and counts nothing as malformed. -/
theorem decodes_as_scheduled (config : EngineConfig) (calls : List RequestQueue.Call)
    (seat : Seat) (transport : Transport σ) (bindings : Bindings ω) (memory : ω)
    (steps : List (Activity × σ)) :
    let queue := (History.run (.ofConfig config) calls).queue
    let host := (Host.follow transport bindings ⟨.atSeat config seat true, memory⟩ steps).2
    let engine := host.engine
    (∀ tag source payload key, routingKey tag payload = .ok key ↔
      ∃ request, Request.ofMessage ⟨tag, source, payload⟩ = .ok request ∧
        request.key = key ∧ request.tag = tag ∧ request.source = source) ∧
      (∀ tag source payload error, routingKey tag payload = .error error ↔
        Request.ofMessage ⟨tag, source, payload⟩ = .error error) ∧
      (∀ message rest, queue.enqueue message = .ok rest →
        ∃ request, Request.ofMessage message = .ok request ∧
          rest = queue.appending request.key message) ∧
      (∀ key phase, ∀ message ∈ queue.lane key phase,
        ∃ request, Request.ofMessage message = .ok request ∧ request.key = key) ∧
      (∀ message rest,
        queue.tryNext = (some message, rest) ∨ queue.nextRequest = (.request message, rest) →
          ∃ request, Request.ofMessage message = .ok request ∧
            queue.lane request.key message.phase =
              message :: rest.lane request.key message.phase) ∧
      (∀ message rest, engine.queue.nextRequest = (.request message, rest) →
        ∃ request, Request.ofMessage message = .ok request ∧
          engine.queue.lane request.key message.phase =
            message :: rest.lane request.key message.phase ∧
          ∀ handler, bindings.handler? message.tag = some handler →
            nextDuty bindings engine = (.call handler request, { engine with queue := rest })) ∧
      (host.processStep bindings).engine.counters.malformed = engine.counters.malformed := by
  intro queue host engine
  have fresh : queue.Reached config := ⟨calls, rfl⟩
  have reached := reached_follow config seat transport bindings memory steps
  have balanced := balanced_follow config seat transport bindings memory steps
  refine ⟨routingKey_eq_ok_iff, routingKey_eq_error_iff, fun message rest enqueued => ?_,
    fun key phase message => fresh.read_of_mem_lane,
    fun message rest returned => fresh.read_of_tryNext
      (returned.elim id fun asked => (RequestQueue.tryNext_of_nextRequest asked).2),
    fun message rest asked => ?_, malformed_processStep balanced⟩
  · obtain ⟨key, routed, grown⟩ := RequestQueue.eq_appending_of_enqueue enqueued
    obtain ⟨request, read, rfl⟩ := Message.routingKey_eq_ok_iff.mp routed
    exact ⟨request, read, grown⟩
  · obtain ⟨live, _⟩ := balanced.yield asked
    obtain ⟨request, read, oldest⟩ :=
      reached.read_of_tryNext (RequestQueue.tryNext_of_nextRequest asked).2
    exact ⟨request, read, oldest, fun handler bound =>
      nextDuty_of_readable asked live bound read⟩

/-- A put that a member has received reaches its handler as a request for the same key. -/
theorem decodes_as_scheduled_put :
    let message : Message := ⟨.putRequest, 0, Wire.encode (⟨"k", {}⟩ : PutRequest)⟩
    let handler : Handler Unit := fun _ _ memory => .done (.ok (), memory)
    let bindings : Bindings Unit := { handlers := [(.putRequest, handler)] }
    let engine := (Host.follow (Mesh.transport 0) bindings
      ⟨.atSeat (.asynchronous 2) ⟨0, 1⟩ true, ()⟩
      [(.network, ⟨[{ inbox := [message] }]⟩)]).2.engine
    ∃ request, Request.ofMessage message = .ok request ∧
      nextDuty bindings engine =
        (.call handler request, { engine with queue := engine.queue.nextRequest.2 }) := by
  intro message handler bindings engine
  have asked : engine.queue.nextRequest = (.request message, engine.queue.nextRequest.2) := by
    decide +kernel
  obtain ⟨request, read, _, called⟩ :=
    (decodes_as_scheduled (.asynchronous 2) [] ⟨0, 1⟩ (Mesh.transport 0) bindings ()
      [(.network, ⟨[{ inbox := [message] }]⟩)]).2.2.2.2.2.1 message _ asked
  exact ⟨request, read, called handler rfl⟩

end Host

end ParameterServer

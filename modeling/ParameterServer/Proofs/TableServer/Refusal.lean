import ParameterServer.Proofs.TableServer.Replies

/-!
# The request that stops a member

An asynchronous member with a table server is stopped by an error only if it receives a
request for which a whole round of requests of the same key and class waits already.
These go on waiting, since a stopped member serves nothing.
-/

namespace ParameterServer

open Observation

variable {η ω : Type}

/-- Whether a request is for a key and of a class. -/
def Request.asks (key : String) (phase : Queue.Phase) (request : Request) : Bool :=
  request.key = key && request.phase = phase

namespace RequestQueue

variable {queue : RequestQueue} {rounds : Queue.Rounds}
  {accepted returned : List Message}

/-- The requests for a key and of a class that wait are those in one list of the slot of
the key. -/
theorem Tracks.length_waiting {slots : Queue.RoundRobin Queue.PhasedSlot}
    (tracks : (RequestQueue.async rounds slots).Tracks accepted returned)
    (key : String) (phase : Queue.Phase) :
    ((RequestQueue.async rounds slots).waiting.filter (Request.asks key phase)).length =
      ((slots.slot (Queue.PhasedSlot.discipline rounds) key).waiting phase).length := by
  have same (message : Message) (request : Request)
      (read : Request.ofMessage message = .ok request) :
      (message.isOf phase && message.isFor key) = request.asks key phase := by
    rw [Request.isFor_of_ofMessage key message request read,
      Request.isOf_of_ofMessage phase message request read, Bool.and_comm]
    rfl
  have routed : ∀ message ∈
      (slots.slot (Queue.PhasedSlot.discipline rounds) key).waiting phase,
        ∃ key, message.routingKey = .ok key := by
    intro message waits
    have listed := ((tracks.2.sound key).mem_of_waiting waits).1
    exact ⟨key, Message.isFor_iff.mp (List.of_mem_filter listed)⟩
  have lengths := congrArg List.length (Request.map_phase_filterMap_ofMessage? routed)
  rw [List.length_map, List.length_map] at lengths
  rw [waiting, Request.filter_filterMap_ofMessage? _ _ same, ← List.filter_filter,
    tracks.filter_buffered key phase, lengths]

/-- A queue overflows when a whole round of the same class waits for the key. -/
theorem Tracks.size_le_of_overflows (tracks : queue.Tracks accepted returned)
    (policy : queue.rounds? = some rounds) {message : Message} {request : Request}
    (read : Request.ofMessage message = .ok request) (full : queue.Overflows message) :
    rounds.size ≤
      (queue.waiting.filter (Request.asks request.key request.phase)).length := by
  obtain ⟨slots, rfl⟩ := eq_async policy
  obtain ⟨_, _, _, refused⟩ := full
  have routed := (Request.routingKey_of_ofMessage read).1
  have stuck : ¬ ∃ rest, (RequestQueue.async rounds slots).enqueue message = .ok rest := by
    rintro ⟨rest, enqueued⟩
    cases enqueued.symm.trans refused
  rw [exists_enqueue_iff routed, Nat.not_lt, Request.phase_of_ofMessage read] at stuck
  rw [tracks.length_waiting]
  exact stuck

end RequestQueue

namespace TableServer

/-- If an error has stopped an engine, then it has received a request for which as many
as its queue can hold wait. -/
def Refused (capacity : Nat) (seen : List Observation) (engine : Engine) : Prop :=
  engine.fatal ≠ none →
    ∃ request ∈ (requests seen).drop engine.counters.enqueued,
      capacity ≤
        (engine.queue.waiting.filter (Request.asks request.key request.phase)).length

/-- What an asynchronous member with a table server keeps to. -/
structure Guarded (config : EngineConfig) (seat : Seat) (seen : List Observation)
    (engine : Engine) : Prop where
  schedules : engine.Schedules config seen
  replies : Replies seat seen engine
  refused : Refused config.memoryServers.toNat seen engine

variable {config : EngineConfig} {seat : Seat} {seen noted : List Observation}
  {engine after : Engine} {capacity : Nat}

theorem Refused.of_healthy (healthy : engine.fatal = none) :
    Refused capacity seen engine :=
  fun failed => absurd healthy failed

theorem Refused.congr (refused : Refused capacity seen engine)
    (fatal : after.fatal = engine.fatal)
    (enqueued : after.counters.enqueued = engine.counters.enqueued)
    (buffered : after.queue.buffered = engine.queue.buffered)
    (received : requests noted = []) : Refused capacity (seen ++ noted) after := by
  intro failed
  rw [fatal] at failed
  rw [requests_append, received, List.append_nil, enqueued, RequestQueue.waiting, buffered]
  exact refused failed

/-- The member runs until its queue overflows; then it has enqueued all that it had
received before. -/
theorem Guarded.refused_deliver {message : Message} {host : Host ω}
    (guarded : Guarded config seat seen host.engine) (mode : config.updateMode = .async)
    (live : message.tag.isRequest = true → host.engine.running = true)
    (delivers : Host.Delivers host.counting.engine message after) :
    Refused config.memoryServers.toNat (seen ++ [.received message]) after := by
  have balanced := guarded.replies.balanced
  cases delivers with
  | enqueued queue request accepted =>
      exact Refused.of_healthy (balanced.healthy (live request))
  | malformed error request refused mild =>
      exact Refused.of_healthy (balanced.healthy (live request))
  | buffered responses plain | unknown plain =>
      have unread := Request.ofMessage?_of_plain plain
      exact guarded.refused.congr rfl rfl rfl (by simp [unread])
  | fatal error request refused severe =>
      intro _
      obtain ⟨key, routed⟩ := RequestQueue.routingKey_of_fatal refused severe
      obtain ⟨list, capacity, full⟩ :=
        RequestQueue.eq_capacityExceeded_of_enqueue routed refused
      obtain ⟨found, read⟩ := Request.ofMessage_of_routingKey routed
      have overflows : host.engine.queue.Overflows message :=
        ⟨key, list, capacity, full ▸ refused⟩
      have policy := guarded.schedules.rounds
      simp only [RequestQueue.ofConfig, mode, RequestQueue.asynchronous] at policy
      obtain ⟨_, _, tracks, _⟩ := guarded.schedules.tracked
      have waits := tracks.size_le_of_overflows policy read overflows
      have all : (requests seen).length = host.engine.counters.enqueued := by
        have readable := balanced.readable
        rw [balanced.healthy (live request)] at readable
        exact readable
      refine ⟨found, ?_, ?_⟩
      · simp [Engine.fail, Host.counting, Request.ofMessage?_eq_some.mpr read, ← all]
      · have same : (host.counting.engine.fail error).queue.waiting =
            host.engine.queue.waiting := by
          simp [RequestQueue.waiting, Engine.fail, Host.counting]
        rw [same]
        exact (Nat.le_max_left _ 1).trans waits

/-- Whatever a member does, it is not stopped by an error unless its queue overflows. -/
theorem guarded_move {handler : ValueHandler η} {part : ω → TableServer η}
    {replace : TableServer η → ω → ω} {base bindings : Bindings ω}
    (bound : bind handler part replace base = .ok bindings)
    (mode : config.updateMode = .async) {host after : Host ω}
    (move : Host.Move bindings host noted after)
    (guarded : Guarded config seat seen host.engine) :
    Guarded config seat (seen ++ noted) after.engine := by
  have served : bindings.ServesRequests := by
    intro tag request missing
    cases missing.symm.trans (handler?_of_bind handler part replace bound request)
  refine ⟨move.schedules served guarded.schedules,
    replies_move bound move guarded.replies, ?_⟩
  have balanced := guarded.replies.balanced
  have refused := guarded.refused
  cases move with
  | finalize | remember | take => exact refused.congr rfl rfl rfl rfl
  | accept sends => exact refused.congr rfl rfl rfl (requests_accepted sends)
  | stop => exact refused.congr (by simp) (by simp) (by simp) rfl
  | deliver message engine live delivers => exact guarded.refused_deliver mode live delivers
  | miss outcome queue asked nothing =>
      have same : queue.buffered = host.engine.queue.buffered := by
        rcases RequestQueue.of_nextRequest_none asked nothing with rfl | missed
        · rfl
        · exact (RequestQueue.buffered_tryNext_none missed).1
      exact refused.congr rfl rfl same rfl
  | drop message queue counters asked reason =>
      have ⟨live, _⟩ := balanced.yield asked
      exact Refused.of_healthy (balanced.healthy live)
  | serve message queue handler request asked live known read =>
      have healthy := balanced.healthy live
      apply Refused.of_healthy
      obtain ⟨_, rfl | rfl, called⟩ := Host.call_engine handler request
        { host with engine := { host.engine with queue } }
      · rw [called]
        exact healthy
      · rw [called]
        exact (Engine.fatal_stop _).trans healthy

theorem Guarded.transmit (guarded : Guarded config seat seen engine)
    (sends : SendTracker) : Guarded config seat seen { engine with sends } where
  schedules := ⟨guarded.schedules.closed, guarded.schedules.rounds,
    guarded.schedules.tracked⟩
  replies := guarded.replies.transmit sends
  refused := guarded.refused

theorem Guarded.atSeat (config : EngineConfig) (seat : Seat) :
    Guarded config seat [] (.atSeat config seat true) where
  schedules := .atSeat config seat
  replies := .atSeat config seat
  refused := .of_healthy rfl

end TableServer

end ParameterServer

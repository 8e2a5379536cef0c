import ParameterServer.Proofs.Engine.Accounts
import ParameterServer.Proofs.Queue.History

/-!
# The schedule of a member

A running member accepts every request that it can read into its queue, and serves
every request that the queue returns.  What it has served for a key is therefore what
the queue has returned, out of the requests that it has received.
-/

namespace ParameterServer

variable {σ ω : Type}

/-! ## Requests in messages -/

namespace Request

/-- The request that a message holds, if it can be read. -/
def ofMessage? (message : Message) : Option Request :=
  (ofMessage message).toOption

variable {message : Message} {request : Request}

theorem ofMessage?_eq_some :
    ofMessage? message = some request ↔ ofMessage message = .ok request := by
  unfold ofMessage?
  cases ofMessage message <;> simp [Except.toOption]

theorem routingKey_of_ofMessage (read : ofMessage message = .ok request) :
    message.routingKey = .ok request.key ∧ request.source = message.source ∧
      request.tag = message.tag := by
  obtain ⟨tag, source, payload⟩ := message
  unfold ofMessage at read
  unfold Message.routingKey routingKey
  split at read
  all_goals
    simp_all only [Outcome.bind_eq_ok, Outcome.map_eq_ok, pure, Except.pure,
      Except.ok.injEq, reduceCtorEq]
  all_goals
    obtain ⟨body, decoded, rfl⟩ := read
    exact ⟨⟨body, decoded, rfl⟩, rfl, rfl⟩

/-- Whatever can be scheduled can be read as a request. -/
theorem ofMessage_of_routingKey {key : String}
    (routed : message.routingKey = .ok key) :
    ∃ request, ofMessage message = .ok request := by
  obtain ⟨tag, source, payload⟩ := message
  unfold Message.routingKey routingKey at routed
  unfold ofMessage
  split at routed
  all_goals
    simp_all only [Outcome.bind_eq_ok, Outcome.map_eq_ok, pure, Except.pure,
      Except.ok.injEq, reduceCtorEq]
  all_goals
    obtain ⟨body, decoded, rfl⟩ := routed
    exact ⟨_, body, decoded, rfl⟩

theorem isRequest_of_ofMessage (read : ofMessage message = .ok request) :
    message.tag.isRequest = true := by
  rw [← (routingKey_of_ofMessage read).2.2]
  unfold Request.tag
  split <;> rfl

theorem ofMessage?_eq_none (unrouted : ∀ key, message.routingKey ≠ .ok key) :
    ofMessage? message = none := by
  rw [Option.eq_none_iff_forall_ne_some]
  intro request read
  exact unrouted request.key
    (routingKey_of_ofMessage (ofMessage?_eq_some.mp read)).1

theorem ofMessage?_of_plain (plain : message.tag.isRequest = false) :
    ofMessage? message = none := by
  rw [Option.eq_none_iff_forall_ne_some]
  intro request read
  simp [isRequest_of_ofMessage (ofMessage?_eq_some.mp read)] at plain

/-- Selecting requests is selecting the messages that hold them. -/
theorem filter_filterMap_ofMessage? (chosen : Request → Bool)
    (selected : Message → Bool)
    (same : ∀ message request, ofMessage message = .ok request →
      selected message = chosen request)
    (messages : List Message) :
    (messages.filterMap ofMessage?).filter chosen =
      (messages.filter selected).filterMap ofMessage? := by
  rw [List.filter_filterMap, List.filterMap_filter]
  refine List.filterMap_congr fun message _ => ?_
  cases read : ofMessage? message with
  | none => simp
  | some request =>
      have agree := same message request (ofMessage?_eq_some.mp read)
      cases kept : chosen request <;> simp [agree, kept]

theorem isFor_of_ofMessage (key : String) (message : Message) (request : Request)
    (read : ofMessage message = .ok request) :
    message.isFor key = decide (request.key = key) :=
  Message.isFor_of_routingKey (routingKey_of_ofMessage read).1 key

/-- The class that a request is served with. -/
def phase (request : Request) : Queue.Phase :=
  match request.action with
  | .put _ | .update _ => .put
  | .get => .get

theorem phase_of_ofMessage (read : ofMessage message = .ok request) :
    message.phase = request.phase := by
  rw [Message.phase, ← (routingKey_of_ofMessage read).2.2, tag, phase]
  cases request.action <;> rfl

theorem isOf_of_ofMessage (phase : Queue.Phase) (message : Message)
    (request : Request) (read : ofMessage message = .ok request) :
    message.isOf phase = decide (request.phase = phase) := by
  rw [Message.isOf, phase_of_ofMessage read]

/-- Messages that can be scheduled hold as many requests, of the same classes. -/
theorem map_phase_filterMap_ofMessage? {messages : List Message}
    (routed : ∀ message ∈ messages, ∃ key, message.routingKey = .ok key) :
    (messages.filterMap ofMessage?).map phase = messages.map Message.phase := by
  induction messages with
  | nil => rfl
  | cons message rest inductionHypothesis =>
      obtain ⟨key, own⟩ := routed message List.mem_cons_self
      obtain ⟨request, read⟩ := ofMessage_of_routingKey own
      have later := inductionHypothesis fun other member =>
        routed other (List.mem_cons_of_mem _ member)
      simp [ofMessage?_eq_some.mpr read, later, phase_of_ofMessage read]

end Request

namespace Observation

/-- The requests that have been received and can be read, in order. -/
def requests (seen : List Observation) : List Request :=
  (seen.filterMap received?).filterMap Request.ofMessage?

def served? : Observation → Option (Request × List Outgoing)
  | served request sends => some (request, sends)
  | _ => none

/-- The requests that have been served, in order, each with the sends that its
handler has had accepted. -/
def servings (seen : List Observation) : List (Request × List Outgoing) :=
  seen.filterMap served?

/-- The requests for a key among those received. -/
def requestsFor (key : String) (seen : List Observation) : List Request :=
  (requests seen).filter fun request => request.key = key

/-- The requests for a key among those served. -/
def servedFor (key : String) (seen : List Observation) :
    List (Request × List Outgoing) :=
  (servings seen).filter fun serving => serving.1.key = key

theorem map_fst_servedFor (key : String) (seen : List Observation) :
    (servedFor key seen).map Prod.fst =
      ((servings seen).map Prod.fst).filter fun request => request.key = key := by
  rw [servedFor, List.filter_map]
  rfl

variable (seen noted : List Observation)

@[simp]
theorem requests_append :
    requests (seen ++ noted) = requests seen ++ requests noted := by
  simp [requests]

@[simp]
theorem servings_append :
    servings (seen ++ noted) = servings seen ++ servings noted := by
  simp [servings]

@[simp]
theorem requests_accepted (sends : List Outgoing) :
    requests (sends.map accepted) = [] := by
  simp [requests, received?, List.filterMap_eq_nil_iff]

@[simp]
theorem servings_accepted (sends : List Outgoing) :
    servings (sends.map accepted) = [] := by
  simp [servings, served?, List.filterMap_eq_nil_iff]

@[simp]
theorem requests_received (message : Message) :
    requests [.received message] = (Request.ofMessage? message).toList := by
  cases read : Request.ofMessage? message <;>
    simp [requests, received?, read]

@[simp]
theorem servings_received (message : Message) :
    servings [.received message] = [] :=
  rfl

@[simp]
theorem requests_served (request : Request) (sends : List Outgoing) :
    requests [.served request sends] = [] :=
  rfl

@[simp]
theorem servings_served (request : Request) (sends : List Outgoing) :
    servings [.served request sends] = [(request, sends)] :=
  rfl

theorem servedFor_served (key : String) (request : Request)
    (sends : List Outgoing) :
    servedFor key (seen ++ [.served request sends]) =
      servedFor key seen ++
        if request.key = key then [(request, sends)] else [] := by
  by_cases own : request.key = key <;> simp [servedFor, own]

end Observation

open Observation

/-! ## The schedule -/

namespace Engine

theorem of_start {config : EngineConfig} {seat : Seat} {engine : Engine}
    (started : Engine.start config seat = .ok engine) :
    0 < config.memoryServers.toNat ∧ .atSeat config seat true = engine := by
  obtain ⟨_, valid, made⟩ := Outcome.bind_eq_ok.mp started
  refine ⟨?_, Except.ok.inj made⟩
  by_contra none
  have zero : config.memoryServers = 0 := by
    apply UInt64.toNat_inj.mp
    simpa using none
  unfold EngineConfig.validate at valid
  split at valid <;> cases valid

/-- What the queue has accepted and returned accounts for the requests that were
received and served. -/
structure Schedules (config : EngineConfig) (seen : List Observation)
    (engine : Engine) : Prop where
  closed : engine.queue.isClosed = !engine.running
  rounds : engine.queue.rounds? = (RequestQueue.ofConfig config).rounds?
  tracked : ∃ accepted returned,
    engine.queue.Tracks accepted returned ∧
      accepted.filterMap Request.ofMessage? <+: requests seen ∧
      (engine.running = true →
        accepted.filterMap Request.ofMessage? = requests seen) ∧
      returned.filterMap Request.ofMessage? = (servings seen).map Prod.fst

namespace Schedules

variable {config : EngineConfig} {seen noted : List Observation}
  {engine after : Engine}

theorem atSeat (config : EngineConfig) (seat : Seat) :
    Schedules config [] (.atSeat config seat true) where
  closed := by
    simp only [Engine.atSeat, RequestQueue.ofConfig]
    split <;> rfl
  rounds := rfl
  tracked := ⟨[], [], RequestQueue.Tracks.ofConfig config, List.prefix_rfl,
    fun _ => rfl, rfl⟩

/-- Only the queue and the flag of the engine matter, and only the requests that are
noted. -/
theorem congr (schedules : Schedules config seen engine)
    (queue : after.queue = engine.queue) (running : after.running = engine.running)
    (received : requests noted = []) (served : servings noted = []) :
    Schedules config (seen ++ noted) after := by
  obtain ⟨closed, rounds, accepted, returned, tracks, early, live, settled⟩ :=
    schedules
  refine ⟨by rw [queue, running, closed], by rw [queue, rounds], accepted, returned,
    queue ▸ tracks, ?_, ?_, ?_⟩
  · simpa [received] using early
  · simpa [received, running] using live
  · simpa [served] using settled

theorem stop (schedules : Schedules config seen engine) :
    Schedules config seen engine.stop := by
  obtain ⟨closed, rounds, accepted, returned, tracks, early, _, settled⟩ :=
    schedules
  rw [Engine.stop_eq]
  cases running : engine.running with
  | false =>
      exact ⟨by simp [closed, running], rounds, accepted, returned, tracks, early,
        by simp, settled⟩
  | true =>
      exact ⟨by simp, by simpa using rounds, accepted, returned, tracks.close,
        early, by simp, settled⟩

theorem queueing (schedules : Schedules config seen engine)
    (sends : List Outgoing) : Schedules config seen (engine.queueing sends) :=
  ⟨schedules.closed, schedules.rounds, schedules.tracked⟩

/-- A stopped engine may lose what it receives. -/
theorem lose (schedules : Schedules config seen engine)
    (stopped : engine.running = false) (served : servings noted = []) :
    Schedules config (seen ++ noted) engine := by
  obtain ⟨closed, rounds, accepted, returned, tracks, early, _, settled⟩ :=
    schedules
  refine ⟨closed, rounds, accepted, returned, tracks, ?_, by simp [stopped], ?_⟩
  · rw [requests_append]
    exact early.trans (List.prefix_append _ _)
  · simpa [served] using settled

theorem enqueue (schedules : Schedules config seen engine) {message : Message}
    {queue : RequestQueue} (enqueued : engine.queue.enqueue message = .ok queue)
    (live : engine.running = true) :
    Schedules config (seen ++ [.received message]) { engine with queue } := by
  obtain ⟨closed, rounds, accepted, returned, tracks, _, all, settled⟩ := schedules
  obtain ⟨sameRounds, sameFlag⟩ := RequestQueue.enqueue_frame enqueued
  obtain ⟨key, routed⟩ := RequestQueue.routingKey_of_enqueue enqueued
  obtain ⟨request, read⟩ := Request.ofMessage_of_routingKey routed
  have same : (accepted ++ [message]).filterMap Request.ofMessage? =
      requests (seen ++ [.received message]) := by
    simp [all live, Request.ofMessage?_eq_some.mpr read]
  exact ⟨sameFlag.trans closed, sameRounds.trans rounds, accepted ++ [message],
    returned, tracks.enqueue enqueued, same ▸ List.prefix_rfl, fun _ => same,
    by simpa using settled⟩

/-- A running engine queues every request that it receives and can read, or is stopped
by it. -/
theorem deliver (schedules : Schedules config seen engine) {message : Message}
    (live : message.tag.isRequest = true → engine.running = true)
    (delivers : Host.Delivers engine message after) :
    Schedules config (seen ++ [.received message]) after := by
  cases delivers with
  | enqueued queue request accepted =>
      have queued := schedules.enqueue accepted (live request)
      exact ⟨queued.closed, queued.rounds, queued.tracked⟩
  | fatal error =>
      -- The queue holds a whole round already: the message is lost with the stop.
      have failed : Schedules config seen (engine.fail error) :=
        stop ⟨schedules.closed, schedules.rounds, schedules.tracked⟩
      exact failed.lose (Engine.running_stop _) rfl
  | malformed error request refused mild =>
      have unread := Request.ofMessage?_eq_none
        (RequestQueue.routingKey_of_enqueue_error refused mild)
      exact schedules.congr rfl rfl (by simp [unread]) rfl
  | buffered _ plain | unknown plain =>
      have unread := Request.ofMessage?_of_plain plain
      exact schedules.congr rfl rfl (by simp [unread]) rfl

theorem serve (schedules : Schedules config seen engine) {message : Message}
    {queue : RequestQueue} {request : Request}
    (asked : engine.queue.nextRequest = (.request message, queue))
    (read : Request.ofMessage message = .ok request) (sends : List Outgoing) :
    Schedules config (seen ++ [.served request sends]) { engine with queue } := by
  obtain ⟨closed, rounds, accepted, returned, tracks, early, live, settled⟩ :=
    schedules
  have found := (RequestQueue.tryNext_of_nextRequest asked).2
  have frame := engine.queue.tryNext_frame
  rw [found] at frame
  refine ⟨frame.2.trans closed, frame.1.trans rounds, accepted,
    returned ++ [message], (tracks.tryNext_some found).2, ?_, ?_, ?_⟩
  · simpa using early
  · simpa using live
  · simp [settled, Request.ofMessage?_eq_some.mpr read]

theorem miss (schedules : Schedules config seen engine) {outcome : NextRequest}
    {queue : RequestQueue} (asked : engine.queue.nextRequest = (outcome, queue))
    (nothing : ∀ message, outcome ≠ .request message) :
    Schedules config seen { engine with queue } := by
  obtain ⟨closed, rounds, accepted, returned, tracks, early, live, settled⟩ :=
    schedules
  rcases RequestQueue.of_nextRequest_none asked nothing with rfl | missed
  · exact ⟨closed, rounds, accepted, returned, tracks, early, live, settled⟩
  · have frame := engine.queue.tryNext_frame
    rw [missed] at frame
    exact ⟨frame.2.trans closed, frame.1.trans rounds, accepted, returned,
      tracks.tryNext_none missed, early, live, settled⟩

/-! ## What the schedule of a key is -/

/-- The requests served for a key are those returned by the queue, out of accepted
ones that were the first to be received. -/
theorem forKey (schedules : Schedules config seen engine) (key : String) :
    ∃ accepted returned,
      engine.queue.Tracks accepted returned ∧
        (accepted.filter (Message.isFor key)).filterMap Request.ofMessage? <+:
          requestsFor key seen ∧
        (returned.filter (Message.isFor key)).filterMap Request.ofMessage? =
          (servedFor key seen).map Prod.fst := by
  obtain ⟨accepted, returned, tracks, early, _, settled⟩ := schedules.tracked
  refine ⟨accepted, returned, tracks, ?_, ?_⟩
  · rw [← Request.filter_filterMap_ofMessage? _ _ (Request.isFor_of_ofMessage key)]
    exact early.filter _
  · rw [← Request.filter_filterMap_ofMessage? _ _ (Request.isFor_of_ofMessage key),
      settled, map_fst_servedFor]

/-- Under the synchronous discipline a key is served with its requests in the order in
which they were received. -/
theorem served_sync (schedules : Schedules config seen engine)
    (mode : config.updateMode = .sync) (key : String) :
    (servedFor key seen).map Prod.fst <+: requestsFor key seen := by
  obtain ⟨accepted, returned, tracks, early, settled⟩ := schedules.forKey key
  have policy := schedules.rounds
  simp only [RequestQueue.ofConfig, mode, RequestQueue.synchronous] at policy
  obtain ⟨slots, shape⟩ := RequestQueue.eq_sync policy
  rw [shape] at tracks
  have sound : _ = _ ++ _ := tracks.sound key
  rw [sound, List.filterMap_append] at early
  rw [← settled]
  exact (List.prefix_append _ _).trans early

/-- Under the asynchronous discipline a key is served with the classes of the word,
and in each class with its requests in the order in which they were received. -/
theorem served_async (schedules : Schedules config seen engine)
    (mode : config.updateMode = .async) (key : String) :
    let rounds : Queue.Rounds :=
      ⟨max config.memoryServers.toNat 1, config.firstPutFlips⟩
    let served := (servedFor key seen).map Prod.fst
    served.map Request.phase = (List.range served.length).map rounds.word ∧
      ∀ phase,
        served.filter (fun request => request.phase = phase) <+:
          (requestsFor key seen).filter fun request => request.phase = phase := by
  intro rounds served
  obtain ⟨accepted, returned, tracks, early, settled⟩ := schedules.forKey key
  have policy := schedules.rounds
  simp only [RequestQueue.ofConfig, mode, RequestQueue.asynchronous] at policy
  obtain ⟨slots, shape⟩ := RequestQueue.eq_async policy
  rw [shape] at tracks
  have sound := tracks.2.sound key
  have routed : ∀ message ∈ returned.filter (Message.isFor key),
      ∃ key, message.routingKey = .ok key := fun message member =>
    ⟨key, Message.isFor_iff.mp (List.of_mem_filter member)⟩
  have classes := Request.map_phase_filterMap_ofMessage? routed
  have length : served.length = (returned.filter (Message.isFor key)).length := by
    simpa [settled, served] using congrArg List.length classes
  refine ⟨?_, ?_⟩
  · rw [length, ← sound.classes, ← classes, settled]
  · intro phase
    have ahead := early.filter fun request => request.phase = phase
    rw [Request.filter_filterMap_ofMessage? _ _ (Request.isOf_of_ofMessage phase),
      sound.conserved phase, List.filterMap_append,
      ← Request.filter_filterMap_ofMessage? _ _
        (Request.isOf_of_ofMessage phase), settled] at ahead
    exact (List.prefix_append _ _).trans ahead

end Schedules

end Engine

/-- Every request tag has a handler. -/
def Bindings.ServesRequests (bindings : Bindings ω) : Prop :=
  ∀ tag, tag.isRequest = true → bindings.handler? tag ≠ none

/-- A member whose request tags all have handlers keeps to its schedule. -/
theorem Host.Move.schedules {config : EngineConfig} {bindings : Bindings ω}
    (bound : bindings.ServesRequests) {host after : Host ω}
    {seen noted : List Observation} (move : Host.Move bindings host noted after)
    (schedules : host.engine.Schedules config seen) :
    after.engine.Schedules config (seen ++ noted) := by
  cases move with
  | finalize | take => exact schedules.congr rfl rfl rfl rfl
  | remember => simpa using schedules
  | accept sends =>
      exact schedules.congr rfl rfl (requests_accepted sends)
        (servings_accepted sends)
  | stop => simpa using schedules.stop
  | deliver message engine live delivers =>
      have counted : host.counting.engine.Schedules config seen :=
        ⟨schedules.closed, schedules.rounds, schedules.tracked⟩
      exact counted.deliver live delivers
  | miss outcome queue asked nothing => simpa using schedules.miss asked nothing
  | drop message queue counters asked reason =>
      -- The queue is open, so that the engine runs, and returns only what can be read.
      exfalso
      obtain ⟨opened, found⟩ := RequestQueue.tryNext_of_nextRequest asked
      obtain ⟨accepted, returned, tracks, _⟩ := schedules.tracked
      obtain ⟨⟨key, routed⟩, _⟩ := tracks.tryNext_some found
      obtain ⟨request, read⟩ := Request.ofMessage_of_routingKey routed
      cases reason with
      | stopped halted => simp [schedules.closed, halted] at opened
      | unbound missing => exact bound _ (Request.isRequest_of_ofMessage read) missing
      | unreadable broken => exact broken request read
  | serve message queue handler request asked live known read =>
      have served := (schedules.serve asked read
        (Engine.acceptedSends (handler host.engine.seat request host.memory)
          { host.engine with queue })).queueing
        (Engine.acceptedSends (handler host.engine.seat request host.memory)
          { host.engine with queue })
      obtain ⟨_, rfl | rfl, called⟩ := Host.call_engine handler request
        { host with engine := { host.engine with queue } }
      · rw [called]
        exact ⟨served.closed, served.rounds, served.tracked⟩
      · have stopped := served.stop
        rw [called]
        exact ⟨stopped.closed, stopped.rounds, stopped.tracked⟩

end ParameterServer

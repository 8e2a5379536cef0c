import ParameterServer.Proofs.Engine.Activity
import ParameterServer.Proofs.ResponseTable
import ParameterServer.Proofs.Tag

/-!
# The moves of a member

Whatever a member does, its engine and memory change by a sequence of small moves.
`Host.Move` lists them, so that an invariant of a host is a matter of one case for
each of them.
-/

namespace ParameterServer

variable {σ ω : Type}

namespace Host

/-- What the delivery of a message makes of an engine. -/
inductive Delivers (engine : Engine) (message : Message) : Engine → Prop
  | enqueued (queue : RequestQueue) (request : message.tag.isRequest = true)
      (accepted : engine.queue.enqueue message = .ok queue) :
      Delivers engine message
        { engine with
          queue
          counters :=
            { engine.counters with enqueued := engine.counters.enqueued + 1 } }
  /-- The queue refuses the message for its capacity. -/
  | fatal (error : Error) (request : message.tag.isRequest = true)
      (refused : engine.queue.enqueue message = .error error)
      (severe : error.isFatal = true) :
      Delivers engine message (engine.fail error)
  /-- The queue cannot read the message. -/
  | malformed (error : Error) (request : message.tag.isRequest = true)
      (refused : engine.queue.enqueue message = .error error)
      (mild : error.isFatal = false) :
      Delivers engine message
        { engine with
          counters :=
            { engine.counters with malformed := engine.counters.malformed + 1 } }
  | buffered (responses : ResponseTable) (plain : message.tag.isRequest = false)
      (pushed : engine.responses.push message.tag message.source message.payload =
        .ok responses) :
      Delivers engine message
        { engine with
          responses
          counters :=
            { engine.counters with buffered := engine.counters.buffered + 1 } }
  | unknown (plain : message.tag.isRequest = false)
      (unknown : message.tag.isKnown = false) :
      Delivers engine message
        { engine with
          counters :=
            { engine.counters with unknown := engine.counters.unknown + 1 } }

theorem delivers_deliver (engine : Engine) (message : Message) :
    Delivers engine message (deliver message engine).2 := by
  unfold deliver
  by_cases request : message.tag.isRequest = true
  · simp only [request, ↓reduceIte]
    cases enqueued : engine.queue.enqueue message with
    | ok queue => exact .enqueued queue request enqueued
    | error error =>
        by_cases severe : error.isFatal = true
        · simp only [severe, ↓reduceIte]
          exact .fatal error request enqueued severe
        · simp only [severe, Bool.false_eq_true, ↓reduceIte]
          exact .malformed error request enqueued (Bool.eq_false_iff.mpr severe)
  · simp only [request, Bool.false_eq_true, ↓reduceIte]
    rw [Bool.not_eq_true] at request
    cases pushed : engine.responses.push message.tag message.source
        message.payload with
    | ok responses => exact .buffered responses request pushed
    | error error => exact .unknown request (ResponseTable.isKnown_of_push_error pushed)

/-- Why a request is dropped, and what the engine has counted then. -/
inductive Dropped (bindings : Bindings ω) (engine : Engine) (message : Message) :
    EngineCounters → Prop
  | stopped (halted : engine.running = false) :
      Dropped bindings engine message engine.counters
  | unbound (missing : bindings.handler? message.tag = none) :
      Dropped bindings engine message
        { engine.counters with unbound := engine.counters.unbound + 1 }
  | unreadable (broken : ∀ request, Request.ofMessage message ≠ .ok request) :
      Dropped bindings engine message
        { engine.counters with malformed := engine.counters.malformed + 1 }

/-- The changes that a step is made of, each with what is noted of it. -/
inductive Move (bindings : Bindings ω) :
    Host ω → List Observation → Host ω → Prop
  /-- The network is given up. -/
  | finalize (host : Host ω) :
      Move bindings host [] { host with engine := { host.engine with finalized := true } }
  /-- Sends to members of the group are accepted. -/
  | accept (host : Host ω) (sends : List Outgoing)
      (inside : ∀ send ∈ sends, send.destination < host.engine.seat.size) :
      Move bindings host (sends.map .accepted)
        { host with engine := host.engine.queueing sends }
  | stop (host : Host ω) :
      Move bindings host [] { host with engine := host.engine.stop }
  /-- A callback leaves a new memory. -/
  | remember (host : Host ω) (callback : Callback ω) (message : Message)
      (engine : Engine)
      (bound : bindings.callback? message.tag = some callback) :
      Move bindings host []
        { host with
          memory := (engine.run (callback engine.seat message host.memory)).1 }
  /-- A message is received and delivered; a request, by an engine that runs. -/
  | deliver (host : Host ω) (message : Message) (engine : Engine)
      (live : message.tag.isRequest = true → host.engine.running = true)
      (delivers : Delivers host.counting.engine message engine) :
      Move bindings host [.received message] { host with engine }
  /-- The queue yields no request. -/
  | miss (host : Host ω) (outcome : NextRequest) (queue : RequestQueue)
      (asked : host.engine.queue.nextRequest = (outcome, queue))
      (nothing : ∀ message, outcome ≠ .request message) :
      Move bindings host [] { host with engine := { host.engine with queue } }
  /-- The queue yields a request that is dropped. -/
  | drop (host : Host ω) (message : Message) (queue : RequestQueue)
      (counters : EngineCounters)
      (asked : host.engine.queue.nextRequest = (.request message, queue))
      (reason : Dropped bindings host.engine message counters) :
      Move bindings host []
        { host with engine := { host.engine with queue, counters } }
  /-- The queue yields a request and its handler is called. -/
  | serve (host : Host ω) (message : Message) (queue : RequestQueue)
      (handler : Handler ω) (request : Request)
      (asked : host.engine.queue.nextRequest = (.request message, queue))
      (live : host.engine.running = true)
      (bound : bindings.handler? message.tag = some handler)
      (read : Request.ofMessage message = .ok request) :
      Move bindings host
        [.served request
          (Engine.acceptedSends
            (handler host.engine.seat request host.memory)
            { host.engine with queue })]
        (Host.call handler request
          { host with engine := { host.engine with queue } })
  | take (host : Host ω) (source : Source) (tag : Tag) (rank : Rank)
      (payload : Payload) (responses : ResponseTable)
      (popped : host.engine.responses.pop source tag =
        .ok (some (rank, payload), responses)) :
      Move bindings host [.taken tag rank payload]
        { host with engine := { host.engine with responses } }

/-- Moves one after another, with all that is noted of them. -/
inductive Moves (bindings : Bindings ω) :
    Host ω → List Observation → Host ω → Prop
  | refl (host : Host ω) : Moves bindings host [] host
  | tail {first middle last : Host ω} {seen noted : List Observation} :
      Moves bindings first seen middle →
      Move bindings middle noted last →
      Moves bindings first (seen ++ noted) last

namespace Moves

variable {bindings : Bindings ω} {first middle last host after : Host ω}
  {seen noted : List Observation}

theorem single (move : Move bindings first noted last) :
    Moves bindings first noted last :=
  (Moves.refl first).tail move

theorem quiet (moves : Moves bindings first seen middle)
    (move : Move bindings middle [] last) : Moves bindings first seen last := by
  simpa using moves.tail move

theorem trans (moves : Moves bindings first seen middle)
    (more : Moves bindings middle noted last) :
    Moves bindings first (seen ++ noted) last := by
  induction more with
  | refl =>
      simpa using moves
  | tail _ move inductionHypothesis =>
      rw [← List.append_assoc]
      exact inductionHypothesis.tail move

theorem preserve {motive : List Observation → Host ω → Prop}
    (step : ∀ {host after : Host ω} {seen noted : List Observation},
      Move bindings host noted after → motive seen host →
        motive (seen ++ noted) after)
    (moves : Moves bindings first noted last)
    (initial : motive seen first) : motive (seen ++ noted) last := by
  induction moves with
  | refl =>
      simpa using initial
  | tail _ move inductionHypothesis =>
      rw [← List.append_assoc]
      exact step move inductionHypothesis

end Moves

/-! ## Every step is made of moves -/

section Steps

variable (bindings : Bindings ω) (host : Host ω)

theorem moves_run {α : Type} (program : Outbox.Program α) :
    Moves bindings host
      ((host.engine.acceptedSends program).map .accepted)
      { host with engine := (host.engine.run program).2 } := by
  have accept : Moves bindings host _ _ :=
    .single <| Move.accept host (host.engine.acceptedSends program)
      fun _ member => (Engine.of_mem_acceptedSends member).2.2
  rcases host.engine.run_snd program with goesOn | stops
  · rw [goesOn]
    exact accept
  · rw [stops]
    exact accept.quiet (Move.stop _)

theorem announce_counting (callback : Callback ω) (message : Message) :
    host.counting.announce callback message =
      (host.announce callback message).counting := by
  simp only [announce, counting, Engine.run_counters, Engine.counters_run]

theorem announceNotes_counting (callback : Callback ω) (message : Message) :
    host.counting.announceNotes callback message =
      host.announceNotes callback message := by
  simp only [announceNotes, counting, Engine.acceptedSends_counters]

theorem moves_announce {callback : Callback ω} {message : Message}
    (bound : bindings.callback? message.tag = some callback) :
    Moves bindings host (host.announceNotes callback message)
      (host.announce callback message) :=
  (moves_run bindings host
    (callback host.engine.seat message host.memory)).quiet
      (Move.remember _ callback message host.engine bound)

theorem deliver_of_unknown {message : Message}
    (unknown : message.tag.isKnown = false) (engine : Engine) :
    (deliver message engine).2 =
      { engine with
        counters :=
          { engine.counters with unknown := engine.counters.unknown + 1 } } := by
  simp [deliver, Tag.isRequest_of_unknown unknown, ResponseTable.push, unknown]

/-- What becomes of a received message.  That it is counted before its callback runs
makes no difference to the callback. -/
theorem moves_route (message : Message)
    (live : host.engine.running = true) :
    Moves bindings host (routeNotes bindings message host.counting)
      (route bindings message host.counting) := by
  have delivered : Moves bindings host [.received message]
      { host with engine := (deliver message host.counting.engine).2 } :=
    .single (Move.deliver host message _ (fun _ => live) (delivers_deliver _ message))
  by_cases known : message.tag.isKnown = true
  · cases bound : bindings.callback? message.tag with
    | none =>
        simp only [routeNotes, route, known, ↓reduceIte, bound]
        exact delivered
    | some callback =>
        by_cases control : message.tag.isControl = true
        · simp only [routeNotes, route, known, ↓reduceIte, bound, control,
            announce_counting, announceNotes_counting]
          refine (moves_announce bindings host bound).tail
            (Move.deliver _ message _ (fun request => ?_) (delivers_deliver _ message))
          simp [Tag.isRequest_of_isControl control] at request
        · simp only [routeNotes, route, known, ↓reduceIte, bound, control,
            Bool.false_eq_true]
          rcases outcome : deliver message host.counting.engine with ⟨_ | _, engine⟩
          · rw [outcome] at delivered
            exact delivered.trans (moves_announce bindings _ bound)
          · rw [outcome] at delivered
            exact delivered
  · rw [Bool.not_eq_true] at known
    rw [deliver_of_unknown known] at delivered
    simp only [routeNotes, route, known, ↓reduceIte, Bool.false_eq_true]
    exact delivered

theorem poll_eq (transport : Transport σ) (network : σ) :
    host.poll transport bindings network =
      (match (transport.next network).1 with
        | none => host
        | some message => route bindings message host.counting,
        (transport.next network).2) := by
  unfold poll Transport.next
  rcases transport.probe network with ⟨_ | _ | header, probed⟩
  · rfl
  · rfl
  · rcases received : transport.receive header probed with ⟨_ | _, _⟩
    · simp [received]
    · simp [received, counting]

theorem moves_poll (transport : Transport σ) (network : σ)
    (live : host.engine.running = true) :
    Moves bindings host (host.networkNotes transport bindings network)
      (host.poll transport bindings network).1 := by
  rw [poll_eq]
  unfold networkNotes
  simp only [live, ↓reduceIte]
  cases (transport.next network).1 with
  | none => exact .refl host
  | some message => exact moves_route bindings host message live

theorem moves_finalize (transport : Transport σ) (network : σ) :
    Moves bindings host [] (host.finalize transport network).1 := by
  unfold finalize
  split
  · exact .single (Move.finalize host)
  · exact .refl host

theorem network_finalize (transport : Transport σ) (network : σ) :
    (host.finalize transport network).2 = network ∨
      (host.finalize transport network).2 = (transport.finalize network).2 := by
  unfold finalize
  split
  · exact Or.inr rfl
  · exact Or.inl rfl

theorem transmit_fst (transport : Transport σ) (network : σ) :
    ∃ sends : SendTracker, (host.transmit transport network).1 =
      { host with engine := { host.engine with sends } } :=
  ⟨_, rfl⟩

section Duties

variable {bindings : Bindings ω} {engine : Engine} {message : Message}
  {queue : RequestQueue} {handler : Handler ω} {request : Request} {error : Error}

theorem nextDuty_of_unbound
    (asked : engine.queue.nextRequest = (.request message, queue))
    (live : engine.running = true)
    (bound : bindings.handler? message.tag = none) :
    nextDuty bindings engine =
      (.dropped,
        { engine with
          queue
          counters :=
            { engine.counters with unbound := engine.counters.unbound + 1 } }) := by
  simp [nextDuty, judge, asked, live, bound]

theorem nextDuty_of_unreadable
    (asked : engine.queue.nextRequest = (.request message, queue))
    (live : engine.running = true)
    (bound : bindings.handler? message.tag = some handler)
    (read : Request.ofMessage message = .error error) :
    nextDuty bindings engine =
      (.dropped,
        { engine with
          queue
          counters :=
            { engine.counters with
              malformed := engine.counters.malformed + 1 } }) := by
  simp [nextDuty, judge, asked, live, bound, read]

theorem nextDuty_of_readable
    (asked : engine.queue.nextRequest = (.request message, queue))
    (live : engine.running = true)
    (bound : bindings.handler? message.tag = some handler)
    (read : Request.ofMessage message = .ok request) :
    nextDuty bindings engine = (.call handler request, { engine with queue }) := by
  simp [nextDuty, judge, asked, live, bound, read]

/-- A judgement changes what is counted. -/
theorem judge_snd (bindings : Bindings ω) (message : Message) (engine : Engine) :
    ∃ counters, (judge bindings message engine).2 = { engine with counters } := by
  unfold judge
  split
  · split
    · exact ⟨_, rfl⟩
    · split <;> exact ⟨_, rfl⟩
  · exact ⟨_, rfl⟩

/-- Asking for a duty changes the queue and what is counted. -/
theorem nextDuty_snd (bindings : Bindings ω) (engine : Engine) :
    ∃ counters, (nextDuty bindings engine).2 =
      { engine with queue := engine.queue.nextRequest.2, counters } := by
  unfold nextDuty
  rcases engine.queue.nextRequest with ⟨message | _ | _, queue⟩
  · exact judge_snd bindings message { engine with queue }
  · exact ⟨_, rfl⟩
  · exact ⟨_, rfl⟩

end Duties

theorem moves_process :
    Moves bindings host (host.processNotes bindings)
      (host.processStep bindings) := by
  rcases asked : host.engine.queue.nextRequest with ⟨outcome, queue⟩
  cases outcome with
  | blocked =>
      simp only [processNotes, processStep, nextDuty, asked]
      exact .single (Move.miss host _ queue asked (by simp))
  | closed =>
      simp only [processNotes, processStep, nextDuty, asked]
      exact .single (Move.miss host _ queue asked (by simp))
  | request message =>
      cases live : host.engine.running with
      | false =>
          have duty : nextDuty bindings host.engine =
              (.ended, { host.engine with queue }) := by
            simp [nextDuty, judge, asked, live]
          simp only [processNotes, processStep, duty]
          exact .single (Move.drop host message queue host.engine.counters asked
            (.stopped live))
      | true =>
          cases bound : bindings.handler? message.tag with
          | none =>
              have duty := nextDuty_of_unbound asked live bound
              simp only [processNotes, processStep, duty]
              exact .single (Move.drop host message queue _ asked (.unbound bound))
          | some handler =>
              cases read : Request.ofMessage message with
              | error error =>
                  have duty := nextDuty_of_unreadable asked live bound read
                  simp only [processNotes, processStep, duty]
                  exact .single (Move.drop host message queue _ asked
                    (.unreadable (by simp [read])))
              | ok request =>
                  have duty := nextDuty_of_readable asked live bound read
                  simp only [processNotes, processStep, duty]
                  exact .single
                    (Move.serve host message queue handler request asked live
                      bound read)

theorem moves_read (source : Source) (tag : Tag) (transport : Transport σ)
    (network : σ) :
    Moves bindings host
      (host.act transport bindings (.read source tag) network).1
      (host.act transport bindings (.read source tag) network).2.1 := by
  simp only [act, Engine.tryRead]
  rcases popped : host.engine.responses.pop source tag with
    _ | ⟨_ | ⟨rank, payload⟩, responses⟩
  · exact .refl host
  · simp only
    rw [ResponseTable.eq_of_pop_none popped]
    exact .refl host
  · exact .single (Move.take host source tag rank payload responses popped)

theorem moves_act_of_ne {activity : Activity} (other : activity ≠ .network)
    (transport : Transport σ) (network : σ) :
    Moves bindings host (host.act transport bindings activity network).1
      (host.act transport bindings activity network).2.1 := by
  cases activity with
  | network => exact absurd rfl other
  | process => exact moves_process bindings host
  | send destination tag payload =>
      exact moves_run bindings host (.send destination tag payload .done)
  | broadcast tag payload =>
      exact moves_run bindings host (.broadcast host.engine.seat.size tag payload)
  | read source tag => exact moves_read bindings host source tag transport network
  | stop => exact .single (Move.stop host)
  | shutdown =>
      exact (Moves.single (Move.stop host)).trans
        (moves_finalize bindings _ transport network)

/-- What a member does is a sequence of moves, after which its network loop may have
its way with the sends. -/
theorem moves_act (transport : Transport σ) (activity : Activity) (network : σ) :
    ∃ (middle : Host ω) (sends : SendTracker),
      Moves bindings host (host.act transport bindings activity network).1 middle ∧
      (host.act transport bindings activity network).2.1 =
        { middle with engine := { middle.engine with sends } } := by
  by_cases other : activity = .network
  · subst activity
    by_cases live : host.engine.running = true
    · have polled := moves_poll bindings host transport network live
      obtain ⟨sends, transmitted⟩ := transmit_fst
        (host.poll transport bindings network).1 transport
        (host.poll transport bindings network).2
      refine ⟨_, sends, polled, ?_⟩
      simp only [act, networkStep, live, ↓reduceIte, networkPass]
      exact transmitted
    · simp only [act, networkStep, networkNotes, live, ↓reduceIte,
        Bool.false_eq_true]
      exact ⟨_, _, moves_finalize bindings host transport network, rfl⟩
  · exact ⟨_, _, moves_act_of_ne bindings host other transport network, rfl⟩

/-- What every move preserves, and does not depend on the sends of the engine, holds
after every step. -/
theorem act_preserve {motive : List Observation → Host ω → Prop}
    (step : ∀ {host after : Host ω} {seen noted : List Observation},
      Move bindings host noted after → motive seen host →
        motive (seen ++ noted) after)
    (transmit : ∀ {host : Host ω} {seen : List Observation} (sends : SendTracker),
      motive seen host →
        motive seen { host with engine := { host.engine with sends } })
    (transport : Transport σ) (activity : Activity) (network : σ)
    (seen : List Observation) (holds : motive seen host) :
    motive (seen ++ (host.act transport bindings activity network).1)
      (host.act transport bindings activity network).2.1 := by
  obtain ⟨middle, sends, moves, transmitted⟩ :=
    moves_act bindings host transport activity network
  rw [transmitted]
  exact transmit sends (moves.preserve step holds)

theorem follow_invariant {motive : List Observation → Host ω → Prop}
    (step : ∀ {host after : Host ω} {seen noted : List Observation},
      Move bindings host noted after → motive seen host →
        motive (seen ++ noted) after)
    (transmit : ∀ {host : Host ω} {seen : List Observation} (sends : SendTracker),
      motive seen host →
        motive seen { host with engine := { host.engine with sends } })
    (transport : Transport σ) (initial : motive [] host)
    (steps : List (Activity × σ)) :
    motive (host.follow transport bindings steps).1
      (host.follow transport bindings steps).2 := by
  unfold follow
  generalize ([] : List Observation) = seen at initial ⊢
  induction steps generalizing seen host with
  | nil => exact initial
  | cons first rest inductionHypothesis =>
      obtain ⟨activity, network⟩ := first
      exact inductionHypothesis _ _
        (act_preserve bindings host step transmit transport activity network seen
          initial)

/-- Outside of its network loop, a member does nothing to the network but give it
up. -/
theorem network_act_of_ne {activity : Activity} (other : activity ≠ .network)
    (transport : Transport σ) (network : σ) :
    (host.act transport bindings activity network).2.2 = network ∨
      (host.act transport bindings activity network).2.2 =
        (transport.finalize network).2 := by
  cases activity with
  | network => exact absurd rfl other
  | process | send | broadcast | stop => exact Or.inl rfl
  | read source tag =>
      left
      simp only [act]
      split <;> rfl
  | shutdown => exact network_finalize _ transport network

end Steps

end Host

end ParameterServer

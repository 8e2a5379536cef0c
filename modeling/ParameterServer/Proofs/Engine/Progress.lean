import ParameterServer.Proofs.Engine.Balance

/-!
# How an engine fares

What a step of a member does to its engine depends on two questions: whether something
asks the engine to stop, which is a call, a callback or a handler, and whether its
request queue refuses a message for its capacity.  Nothing else that fails has a say in
it.
-/

namespace ParameterServer

variable {σ ω : Type}

/-! ## Programs that stop their engine -/

namespace Engine

open Outbox (Program)

variable {α : Type}

/-- Whether a program asks the engine that it runs on to stop. -/
def asksToStop {α : Type} : Program α → Engine → Bool
  | .done _, _ => false
  | .send destination tag payload next, engine =>
      let (outcome, after) := engine.send destination tag payload
      asksToStop (next outcome) after
  | .stop _, _ => true

theorem run_snd_eq (program : Program α) (engine : Engine) :
    (engine.run program).2 =
      if asksToStop program engine then
        (engine.queueing (acceptedSends program engine)).stop
      else
        engine.queueing (acceptedSends program engine) := by
  induction program generalizing engine with
  | done value =>
      rfl
  | send destination tag payload next inductionHypothesis =>
      cases checked : engine.checkSendable destination with
      | ok =>
          rw [run, acceptedSends, asksToStop, send_of_ok tag payload checked]
          simp only
          rw [queueing_cons]
          exact inductionHypothesis _ _
      | error error =>
          rw [run, acceptedSends, asksToStop, send_of_error tag payload checked]
          exact inductionHypothesis _ _
  | stop next inductionHypothesis =>
      have nothing : acceptedSends next engine.stop = [] :=
        acceptedSends_of_stopped next (running_stop engine)
      have settled := run_snd next engine.stop
      rw [nothing, queueing_nil, stop_of_stopped (running_stop engine),
        or_self] at settled
      rw [run, acceptedSends, nothing, asksToStop, if_pos rfl, queueing_nil]
      exact settled

theorem asksToStop_congr (program : Program α) {first second : Engine}
    (active : first.active = second.active) (running : first.running = second.running)
    (seat : first.seat = second.seat) :
    asksToStop program first = asksToStop program second := by
  induction program generalizing first second with
  | done value =>
      rfl
  | send destination tag payload next inductionHypothesis =>
      have same : first.checkSendable destination =
          second.checkSendable destination := by
        rw [checkSendable, checkSendable, active, running, seat]
      cases checked : second.checkSendable destination with
      | ok =>
          rw [checked] at same
          rw [asksToStop, asksToStop, send_of_ok tag payload same,
            send_of_ok tag payload checked]
          exact inductionHypothesis _ active running seat
      | error error =>
          rw [checked] at same
          rw [asksToStop, asksToStop, send_of_error tag payload same,
            send_of_error tag payload checked]
          exact inductionHypothesis _ active running seat
  | stop next inductionHypothesis =>
      rfl

theorem asksToStop_broadcast (size : Nat) (tag : Tag) (payload : Payload)
    (engine : Engine) :
    asksToStop (.broadcast size tag payload) engine = false := by
  rw [Program.broadcast]
  induction List.range (size - 1) generalizing engine with
  | nil =>
      rfl
  | cons destination rest inductionHypothesis =>
      rw [Program.sendEach, asksToStop]
      rcases engine.send destination tag payload with ⟨_ | _, after⟩
      · rfl
      · exact inductionHypothesis after

end Engine

/-! ## Refusals -/

namespace RequestQueue

variable {queue : RequestQueue} {message : Message}

/-- The error with which a queue refuses a message for its capacity. -/
def refusal? (message : Message) (queue : RequestQueue) : Option Error :=
  match queue.enqueue message with
  | .error (.capacityExceeded key list capacity) =>
      some (.capacityExceeded key list capacity)
  | _ => none

theorem refusal?_of_ok {rest : RequestQueue} (accepted : queue.enqueue message = .ok rest) :
    queue.refusal? message = none := by
  rw [refusal?, accepted]

/-- A queue refuses a message for its capacity or because it cannot read it; only the
first is fatal. -/
theorem refusal?_of_error {error : Error} (refused : queue.enqueue message = .error error) :
    queue.refusal? message = if error.isFatal then some error else none := by
  by_cases severe : error.isFatal = true
  · obtain ⟨key, routed⟩ := routingKey_of_fatal refused severe
    obtain ⟨list, capacity, rfl⟩ := eq_capacityExceeded_of_enqueue routed refused
    rw [refusal?, refused, if_pos severe]
  · rw [refusal?, refused, if_neg severe]
    cases error <;> first | rfl | exact absurd rfl severe

theorem refusal?_of_plain (plain : message.tag.isRequest = false) :
    queue.refusal? message = none := by
  have unread : ∀ key, message.routingKey ≠ .ok key := by
    intro key routed
    obtain ⟨request, read⟩ := Request.ofMessage_of_routingKey routed
    simp [Request.isRequest_of_ofMessage read] at plain
  cases enqueued : queue.enqueue message with
  | ok rest =>
      exact refusal?_of_ok enqueued
  | error error =>
      rw [refusal?_of_error enqueued, if_neg]
      intro severe
      obtain ⟨key, routed⟩ := routingKey_of_fatal enqueued severe
      exact unread key routed

end RequestQueue

/-! ## How an engine fares -/

namespace Engine

/-- How an engine fares when its queue refuses a message with `refused`, if it does,
something has or has not `asked` it to stop, and `taken` leaves the queue, if anything. -/
structure Fares (refused : Option Error) (asked : Bool) (taken : Option Message)
    (engine after : Engine) : Prop where
  /-- The first error is kept. -/
  fatal : after.fatal = (engine.fatal <|> refused)
  running : after.running = (engine.running && !asked && refused.isNone)
  closed : engine.queue.isClosed = !engine.running →
    after.queue.isClosed = !after.running
  rounds : after.queue.rounds? = engine.queue.rounds?
  /-- The refused message is not queued, and nothing leaves the queue. -/
  refusing : refused.isSome = true → after.queue.buffered = engine.queue.buffered
  kept : engine.queue.buffered.Subperm (after.queue.buffered ++ taken.toList)

namespace Fares

variable {refused more : Option Error} {asked asks : Bool} {taken : Option Message}
  {engine middle after : Engine} {message : Message}

theorem of_same (fatal : after.fatal = engine.fatal)
    (running : after.running = engine.running) (queue : after.queue = engine.queue) :
    Fares none false none engine after where
  fatal := by simp [fatal]
  running := by simp [running]
  closed := by simp [queue, running]
  rounds := by rw [queue]
  refusing _ := by rw [queue]
  kept := by
    rw [queue]
    exact (List.sublist_append_left _ _).subperm

theorem stop (engine : Engine) : Fares none true none engine engine.stop where
  fatal := by simp
  running := by simp
  closed closed := by
    rw [Engine.stop_eq]
    cases running : engine.running
    · simp [closed, running]
    · simp
  rounds := by
    rw [Engine.stop_eq]
    split <;> simp
  refusing _ := buffered_stop engine
  kept := by
    rw [buffered_stop]
    exact (List.sublist_append_left _ _).subperm

theorem trans (first : Fares refused asked taken engine middle)
    (second : Fares more asks none middle after)
    (same : (refused <|> more).isSome = true →
      after.queue.buffered = engine.queue.buffered) :
    Fares (refused <|> more) (asked || asks) taken engine after where
  fatal := by
    rw [second.fatal, first.fatal]
    cases engine.fatal <;> rfl
  running := by
    rw [second.running, first.running]
    cases engine.running <;> cases asked <;> cases asks <;> cases refused <;>
      cases more <;> rfl
  closed closed := second.closed (first.closed closed)
  rounds := second.rounds.trans first.rounds
  refusing := same
  kept := by
    have late := second.kept
    rw [Option.toList_none, List.append_nil] at late
    exact first.kept.trans ((List.subperm_append_right _).mpr late)

/-- A change of nothing that matters, after another one. -/
theorem settle (first : Fares refused asked taken engine middle)
    (fatal : after.fatal = middle.fatal) (running : after.running = middle.running)
    (queue : after.queue = middle.queue) : Fares refused asked taken engine after := by
  have both := first.trans (of_same fatal running queue) (by
    intro failed
    rw [queue]
    apply first.refusing
    cases refused
    · exact failed
    · rfl)
  simpa using both

/-- After a refusal it does not matter who else asks the engine to stop. -/
theorem of_refused {error : Error} (fares : Fares (some error) asked taken engine after)
    (asks : Bool) : Fares (some error) asks taken engine after where
  fatal := fares.fatal
  running := by simpa using fares.running
  closed := fares.closed
  rounds := fares.rounds
  refusing := fares.refusing
  kept := fares.kept

/-- A search takes what it finds, from a closed queue as from an open one. -/
theorem search (engine : Engine) :
    Fares none false engine.queue.tryNext.1 engine
      { engine with queue := engine.queue.tryNext.2 } := by
  obtain ⟨rounds, flag⟩ := engine.queue.tryNext_frame
  refine
    { fatal := by simp
      running := by simp
      closed := fun closed => flag.trans closed
      rounds := rounds
      refusing := by simp
      kept := ?_ }
  rcases found : engine.queue.tryNext with ⟨_ | message, rest⟩
  · rw [(RequestQueue.buffered_tryNext_none found).1]
    exact (List.sublist_append_left _ _).subperm
  · have held := (RequestQueue.buffered_tryNext_some found).1
    exact (held.trans (List.perm_append_singleton message rest.buffered).symm).subperm

/-- A closed queue gives nothing away. -/
theorem fetch (engine : Engine) :
    Fares none false engine.queue.nextRequest.1.message? engine
      { engine with queue := engine.queue.nextRequest.2 } := by
  cases shut : engine.queue.isClosed with
  | true =>
      rw [RequestQueue.nextRequest, if_pos shut]
      exact of_same rfl rfl rfl
  | false =>
      have searched := search engine
      rw [RequestQueue.nextRequest, if_neg (by simp [shut])]
      rcases found : engine.queue.tryNext with ⟨_ | message, rest⟩ <;>
        rw [found] at searched <;> exact searched

theorem run {α : Type} (program : Outbox.Program α) (engine : Engine) :
    Fares none (asksToStop program engine) none engine (engine.run program).2 := by
  have queued : Fares none false none engine
      (engine.queueing (acceptedSends program engine)) := of_same rfl rfl rfl
  rw [run_snd_eq]
  cases asks : asksToStop program engine with
  | false =>
      exact queued
  | true =>
      exact queued.trans (stop _) (by simp)

end Fares

end Engine

open Engine

/-! ## Every step -/

/-- What happens on a member next.  Both loops look at the flags of the engine before
they do their work, so that the work can also find the engine stopped since. -/
inductive Progress (ω : Type) where
  | act (activity : Activity)
  /-- The body of an iteration of the network loop that has found the engine running. -/
  | iterate
  /-- The process loop searches the queue, which it has found open. -/
  | search
  /-- The process loop finds out what is to be done with a message that it has taken. -/
  | judge (message : Message)
  /-- The process loop gives a request to its handler. -/
  | serve (handler : Handler ω) (request : Request)

namespace Host

variable (transport : Transport σ) (bindings : Bindings ω)

def advance (progress : Progress ω) (host : Host ω) (network : σ) : Host ω :=
  match progress with
  | .act activity => (host.act transport bindings activity network).2.1
  | .iterate => (host.networkPass transport bindings network).1
  | .search => { host with engine := { host.engine with queue := host.engine.queue.tryNext.2 } }
  | .judge message => { host with engine := (Host.judge bindings message host.engine).2 }
  | .serve handler request => call handler request host

/-- Lets things happen in order, each of which finds the network in some state. -/
def proceed (host : Host ω) (steps : List (Progress ω × σ)) : Host ω :=
  steps.foldl
    (fun current (progress, network) =>
      current.advance transport bindings progress network)
    host

/-- The message that is received next. -/
def reception? (progress : Progress ω) (host : Host ω) (network : σ) :
    Option Message :=
  match progress with
  | .act .network => if host.engine.running then (transport.next network).1 else none
  | .iterate => (transport.next network).1
  | _ => none

/-- The error with which the queue refuses what is received next for its capacity. -/
def refusal? (progress : Progress ω) (host : Host ω) (network : σ) : Option Error :=
  (host.reception? transport progress network).bind fun message =>
    host.engine.queue.refusal? message

/-- What leaves the queue next. -/
def taken? (progress : Progress ω) (host : Host ω) : Option Message :=
  match progress with
  | .act .process => host.engine.queue.nextRequest.1.message?
  | .search => host.engine.queue.tryNext.1
  | _ => none

/-- Whether the callback of a message asks the engine to stop. -/
def callbackAsksToStop (message : Message) (host : Host ω) : Bool :=
  message.tag.isKnown &&
    match bindings.callback? message.tag with
    | none => false
    | some callback =>
        asksToStop (callback host.engine.seat message host.memory) host.engine

/-- Whether the engine is asked to stop next: by a call, by the callback of a message or
by the handler of a request. -/
def asksToStop (progress : Progress ω) (host : Host ω) (network : σ) : Bool :=
  match progress with
  | .act .stop | .act .shutdown => true
  | .act .process =>
      match nextDuty bindings host.engine with
      | (.call handler request, engine) =>
          engine.asksToStop (handler engine.seat request host.memory)
      | _ => false
  | .serve handler request =>
      host.engine.asksToStop (handler host.engine.seat request host.memory)
  | .act .network | .iterate =>
      (host.reception? transport progress network).any fun message =>
        host.callbackAsksToStop bindings message
  | _ => false

section Steps

theorem Delivers.fares {engine delivered : Engine} {message : Message}
    (delivers : Delivers engine message delivered) :
    Fares (engine.queue.refusal? message) false none engine delivered := by
  cases delivers with
  | enqueued queue request accepted =>
      obtain ⟨rounds, flag⟩ := RequestQueue.enqueue_frame accepted
      have grows := (RequestQueue.buffered_enqueue accepted).1
      have kept : engine.queue.buffered.Subperm queue.buffered :=
        (List.sublist_cons_self message _).subperm.trans grows.symm.subperm
      rw [RequestQueue.refusal?_of_ok accepted]
      exact
        { fatal := by simp
          running := by simp
          closed := fun closed => flag.trans closed
          rounds := rounds
          refusing := by simp
          kept := kept.trans (List.sublist_append_left _ _).subperm }
  | fatal error request refused severe =>
      have stopped := Fares.stop { engine with fatal := engine.fatal <|> some error }
      rw [RequestQueue.refusal?_of_error refused, if_pos severe, Engine.fail]
      exact
        { fatal := by simp
          running := by simp
          closed := stopped.closed
          rounds := stopped.rounds
          refusing := fun _ => buffered_stop _
          kept := stopped.kept }
  | malformed error request refused mild =>
      rw [RequestQueue.refusal?_of_error refused, mild]
      exact Fares.of_same rfl rfl rfl
  | buffered _ plain | unknown plain =>
      rw [RequestQueue.refusal?_of_plain plain]
      exact Fares.of_same rfl rfl rfl

theorem deliver_fst (message : Message) (engine : Engine) :
    (deliver message engine).1 =
      if (engine.queue.refusal? message).isSome then .fatal else .delivered := by
  unfold deliver
  by_cases request : message.tag.isRequest = true
  · rw [if_pos request]
    cases enqueued : engine.queue.enqueue message with
    | ok queue =>
        rw [RequestQueue.refusal?_of_ok enqueued]
        rfl
    | error error =>
        rw [RequestQueue.refusal?_of_error enqueued]
        cases severe : error.isFatal <;> simp [severe]
  · rw [if_neg request, RequestQueue.refusal?_of_plain (Bool.not_eq_true _ |>.mp request)]
    cases engine.responses.push message.tag message.source message.payload <;> rfl

theorem asksToStop_deliver {α : Type} (program : Outbox.Program α) {engine : Engine}
    {message : Message} (taken : engine.queue.refusal? message = none) :
    Engine.asksToStop program (deliver message engine).2 =
      Engine.asksToStop program engine := by
  have delivers := delivers_deliver engine message
  have running := delivers.fares.running
  apply Engine.asksToStop_congr
  · exact delivers.frame.2.1
  · simpa [taken] using running
  · exact delivers.frame.1

theorem fares_announce (host : Host ω) (callback : Callback ω) (message : Message) :
    Fares none
      (Engine.asksToStop (callback host.engine.seat message host.memory) host.engine) none
      host.engine (host.announce callback message).engine :=
  Fares.run _ host.engine

theorem fares_route (host : Host ω) (message : Message) :
    Fares (host.engine.queue.refusal? message) (host.callbackAsksToStop bindings message) none
      host.engine (route bindings message host).engine := by
  have delivered := (delivers_deliver host.engine message).fares
  by_cases known : message.tag.isKnown = true
  · cases bound : bindings.callback? message.tag with
    | none =>
        simp only [callbackAsksToStop, route, known, ↓reduceIte, bound, Bool.and_false]
        exact delivered
    | some callback =>
        have announced := fares_announce host callback message
        by_cases control : message.tag.isControl = true
        · have plain := Tag.isRequest_of_isControl control
          have after := (delivers_deliver (host.announce callback message).engine
            message).fares
          rw [RequestQueue.refusal?_of_plain plain] at after ⊢
          simp only [callbackAsksToStop, route, known, ↓reduceIte, bound, control,
            Bool.true_and]
          simpa using announced.trans after (by simp)
        · simp only [callbackAsksToStop, route, known, ↓reduceIte, bound, control,
            Bool.false_eq_true, Bool.true_and]
          have outcome := deliver_fst message host.engine
          cases refused : host.engine.queue.refusal? message with
          | some error =>
              -- The callback does not run, and the engine is stopped in any case.
              rw [refused] at delivered outcome
              rcases shape : deliver message host.engine with ⟨delivery, engine⟩
              rw [shape] at delivered outcome
              cases outcome
              exact delivered.of_refused _
          | none =>
              have asks := asksToStop_deliver
                (callback host.engine.seat message host.memory) refused
              have seat := (delivers_deliver host.engine message).frame.1
              rw [refused] at delivered outcome
              rcases shape : deliver message host.engine with ⟨delivery, engine⟩
              rw [shape] at delivered outcome asks seat
              cases outcome
              have late := fares_announce { host with engine } callback message
              simp only at seat late
              rw [seat, asks] at late
              simpa using delivered.trans late (by simp)
  · rw [Bool.not_eq_true] at known
    rw [RequestQueue.refusal?_of_plain (Tag.isRequest_of_unknown known)]
    simp only [callbackAsksToStop, route, known, Bool.false_eq_true, ↓reduceIte,
      Bool.false_and]
    exact Fares.of_same rfl rfl rfl

theorem fares_call (handler : Handler ω) (request : Request) (host : Host ω) :
    Fares none
      (Engine.asksToStop (handler host.engine.seat request host.memory) host.engine) none
      host.engine (call handler request host).engine := by
  have ran := Fares.run (handler host.engine.seat request host.memory) host.engine
  exact ran.settle rfl rfl rfl

theorem fares_nextDuty (engine : Engine) :
    Fares none false engine.queue.nextRequest.1.message? engine
      (nextDuty bindings engine).2 := by
  obtain ⟨counters, taken⟩ := nextDuty_snd bindings engine
  have fetched := Fares.fetch engine
  rw [taken]
  exact fetched.settle rfl rfl rfl

theorem fares_processStep (host : Host ω) (network : σ) :
    Fares none (host.asksToStop transport bindings (.act .process) network)
      (host.taken? (.act .process)) host.engine (host.processStep bindings).engine := by
  have fetched := fares_nextDuty bindings host.engine
  unfold asksToStop processStep
  rcases found : nextDuty bindings host.engine with ⟨duty, engine⟩
  rw [found] at fetched
  cases duty with
  | call handler request =>
      have called := fares_call handler request { host with engine }
      simpa [taken?] using fetched.trans called (by simp)
  | dropped | idle | ended =>
      exact fetched

theorem fares_poll (host : Host ω) (network : σ) :
    Fares (host.refusal? transport .iterate network)
      (host.asksToStop transport bindings .iterate network) none
      host.engine (host.poll transport bindings network).1.engine := by
  rw [poll_eq, refusal?, asksToStop, reception?]
  cases (transport.next network).1 with
  | none =>
      exact Fares.of_same rfl rfl rfl
  | some message =>
      have counted : Fares none false none host.engine host.counting.engine :=
        Fares.of_same rfl rfl rfl
      have routed := fares_route bindings host.counting message
      have asks : host.counting.callbackAsksToStop bindings message =
          host.callbackAsksToStop bindings message := by
        unfold callbackAsksToStop
        congr 1
        cases bindings.callback? message.tag with
        | none =>
            rfl
        | some callback =>
            exact asksToStop_congr _ rfl rfl rfl
      have queue : host.counting.engine.queue = host.engine.queue := rfl
      rw [asks, queue] at routed
      simpa using counted.trans routed (by
        intro refused
        exact routed.refusing (by simpa using refused))

theorem fares_networkPass (host : Host ω) (network : σ) :
    Fares (host.refusal? transport .iterate network)
      (host.asksToStop transport bindings .iterate network) none
      host.engine (host.networkPass transport bindings network).1.engine := by
  have polled := fares_poll transport bindings host network
  exact polled.settle rfl rfl rfl

theorem fares_finalize {refused : Option Error} {asked : Bool} {taken : Option Message}
    {engine : Engine} {host : Host ω} (fares : Fares refused asked taken engine host.engine)
    (network : σ) :
    Fares refused asked taken engine (host.finalize transport network).1.engine := by
  unfold finalize
  split
  · exact fares.settle rfl rfl rfl
  · exact fares

theorem fares_advance (progress : Progress ω) (host : Host ω) (network : σ) :
    Fares (host.refusal? transport progress network)
      (host.asksToStop transport bindings progress network) (host.taken? progress)
      host.engine (host.advance transport bindings progress network).engine := by
  cases progress with
  | iterate =>
      exact fares_networkPass transport bindings host network
  | search =>
      exact Fares.search host.engine
  | judge message =>
      obtain ⟨counters, same⟩ := judge_snd bindings message host.engine
      rw [advance, same]
      exact Fares.of_same rfl rfl rfl
  | serve handler request =>
      exact fares_call handler request host
  | act activity =>
      cases activity with
      | network =>
          simp only [advance, act, networkStep, refusal?, asksToStop, reception?]
          cases running : host.engine.running with
          | true =>
              exact fares_networkPass transport bindings host network
          | false =>
              apply fares_finalize
              exact Fares.of_same rfl rfl rfl
      | process =>
          exact fares_processStep transport bindings host network
      | send destination tag payload =>
          exact Fares.run (.send destination tag payload .done) host.engine
      | broadcast tag payload =>
          have ran := Fares.run (.broadcast host.engine.seat.size tag payload)
            host.engine
          rw [asksToStop_broadcast] at ran
          exact ran
      | read source tag =>
          simp only [advance, act, Engine.tryRead]
          rcases host.engine.responses.pop source tag with
            _ | ⟨_ | ⟨rank, payload⟩, responses⟩
          · exact Fares.of_same rfl rfl rfl
          · exact Fares.of_same rfl rfl rfl
          · exact Fares.of_same rfl rfl rfl
      | stop =>
          exact Fares.stop host.engine
      | shutdown =>
          apply fares_finalize
          exact Fares.stop host.engine

end Steps

/-! ## Every run -/

section Runs

/-- What every step preserves holds after every run. -/
theorem proceed_preserve {motive : Host ω → Prop}
    (step : ∀ {host : Host ω} (progress : Progress ω) (network : σ),
      motive host → motive (host.advance transport bindings progress network))
    {host : Host ω} (initial : motive host) (steps : List (Progress ω × σ)) :
    motive (host.proceed transport bindings steps) := by
  induction steps generalizing host with
  | nil =>
      exact initial
  | cons first rest inductionHypothesis =>
      apply inductionHypothesis
      exact step first.1 first.2 initial

theorem healthy_proceed (host : Host ω) (steps : List (Progress ω × σ))
    (healthy : host.engine.fatal.isSome = true → host.engine.running = false) :
    let last := host.proceed transport bindings steps
    last.engine.fatal.isSome = true → last.engine.running = false := by
  refine proceed_preserve transport bindings
    (motive := fun host =>
      host.engine.fatal.isSome = true → host.engine.running = false) ?_ healthy steps
  intro host progress network healthy failed
  have fares := fares_advance transport bindings progress host network
  rw [fares.fatal] at failed
  rw [fares.running]
  cases refused : host.refusal? transport progress network with
  | some error =>
      simp
  | none =>
      have earlier : host.engine.fatal.isSome = true := by
        simpa [refused] using failed
      rw [healthy earlier]
      rfl

end Runs

end Host

end ParameterServer

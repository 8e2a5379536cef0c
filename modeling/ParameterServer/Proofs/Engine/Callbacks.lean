import ParameterServer.Proofs.Engine.Accounts
import ParameterServer.Proofs.Engine.Progress
import ParameterServer.Proofs.SendTracker.Passes
import ParameterServer.Proofs.Transport.Calls
import ParameterServer.Transport.Mesh

/-!
# Callbacks

Which callbacks a member calls, and when.  A callback that keeps a log beside the memory does
what the one without does, so that the log of a run says which callbacks were called and with
which messages.  The delivery of a message and the call of its callback are two steps, and the
outcome of the first does not depend on the second.
-/

namespace ParameterServer

variable {σ τ ω : Type}

/-! ## Callbacks that keep a log -/

/-- The calls of callbacks, in order: the tag that a callback is bound to, and the message. -/
abbrev CallbackLog := List (Tag × Message)

/-- The callback that writes down each call of it. -/
def Callback.logging (tag : Tag) (callback : Callback ω) : Callback (ω × CallbackLog) :=
  fun seat message memory =>
    (·, memory.2 ++ [(tag, message)]) <$> callback seat message memory.1

/-- The handler that leaves the other part of the memory alone. -/
def Handler.beside (handler : Handler ω) : Handler (ω × τ) :=
  Handler.focus Prod.fst (fun changed memory => (changed, memory.2)) handler

theorem Handler.beside_eq (handler : Handler ω) (seat : Seat) (request : Request)
    (memory : ω × τ) :
    handler.beside seat request memory =
      (fun found => (found.1, (found.2, memory.2))) <$> handler seat request memory.1 :=
  rfl

/-- The bindings of which every callback keeps a log. -/
def Bindings.logging (bindings : Bindings ω) : Bindings (ω × CallbackLog) where
  handlers := bindings.handlers.map fun bound => (bound.1, bound.2.beside)
  callbacks := bindings.callbacks.map fun bound => (bound.1, bound.2.logging bound.1)

theorem lookup_map_value {α β : Type} (change : Tag → α → β) (tag : Tag)
    (entries : List (Tag × α)) :
    (entries.map fun entry => (entry.1, change entry.1 entry.2)).lookup tag =
      (entries.lookup tag).map (change tag) := by
  induction entries with
  | nil => rfl
  | cons entry rest inductionHypothesis =>
      obtain ⟨other, value⟩ := entry
      simp only [List.map_cons, List.lookup_cons, inductionHypothesis]
      cases same : tag == other with
      | true =>
          obtain rfl := eq_of_beq same
          rfl
      | false => rfl

namespace Bindings

variable (bindings : Bindings ω) (tag : Tag)

theorem callback?_logging :
    bindings.logging.callback? tag = (bindings.callback? tag).map (Callback.logging tag) :=
  lookup_map_value Callback.logging tag bindings.callbacks

theorem handler?_logging :
    bindings.logging.handler? tag = (bindings.handler? tag).map Handler.beside :=
  lookup_map_value (fun _ => Handler.beside) tag bindings.handlers

/-- The call that a received message leads to: none if its tag is unknown or has no callback, or
if the request queue has refused it. -/
def announced? (message : Message) (refused : Option Error) : Option (Tag × Message) :=
  if message.tag.isKnown && (bindings.callback? message.tag).isSome && refused.isNone then
    some (message.tag, message)
  else
    none

end Bindings

/-- The same progress on a memory with a log. -/
def Progress.logging : Progress ω → Progress (ω × CallbackLog)
  | .act activity => .act activity
  | .iterate => .iterate
  | .search => .search
  | .judge message => .judge message
  | .serve handler request => .serve handler.beside request

theorem Engine.run_map {α β : Type} (change : α → β) (program : Outbox.Program α)
    (engine : Engine) :
    engine.run (change <$> program) =
      (change (engine.run program).1, (engine.run program).2) := by
  induction program generalizing engine with
  | done value => rfl
  | send destination tag payload next inductionHypothesis =>
      exact inductionHypothesis _ (engine.send destination tag payload).2
  | stop next inductionHypothesis => exact inductionHypothesis engine.stop

namespace Host

/-- The same duty on a memory with a log. -/
def Duty.logging : Duty ω → Duty (ω × CallbackLog)
  | call handler request => call handler.beside request
  | dropped => dropped
  | idle => idle
  | ended => ended

/-- The host with a log beside its memory. -/
def logging (log : CallbackLog) (host : Host ω) : Host (ω × CallbackLog) :=
  ⟨host.engine, (host.memory, log)⟩

section Logging

variable (transport : Transport σ) (bindings : Bindings ω) (host : Host ω) (log : CallbackLog)

theorem announce_logging (tag : Tag) (callback : Callback ω) (message : Message) :
    (host.logging log).announce (callback.logging tag) message =
      (host.announce callback message).logging (log ++ [(tag, message)]) := by
  simp only [announce, logging, Callback.logging, Engine.run_map]

/-- A message that is routed makes its callback be called once, with the message, if at all. -/
theorem route_logging (message : Message) :
    route bindings.logging message (host.logging log) =
      (route bindings message host).logging
        (log ++ (bindings.announced? message (host.engine.queue.refusal? message)).toList) := by
  unfold route Bindings.announced?
  rw [bindings.callback?_logging]
  cases known : message.tag.isKnown with
  | false => simp [logging]
  | true =>
      cases bound : bindings.callback? message.tag with
      | none => simp [logging]
      | some callback =>
          cases control : message.tag.isControl with
          | true =>
              have plain := Tag.isRequest_of_isControl control
              simp [RequestQueue.refusal?_of_plain plain, announce_logging]
              rfl
          | false =>
              have outcome := deliver_fst message host.engine
              rcases shape : deliver message host.engine with ⟨delivery, engine⟩
              rw [shape] at outcome
              cases refused : host.engine.queue.refusal? message with
              | some error =>
                  rw [refused] at outcome
                  cases outcome
                  simp [logging, shape]
              | none =>
                  rw [refused] at outcome
                  cases outcome
                  simp only [logging, shape, Option.map_some, ↓reduceIte, Bool.false_eq_true,
                    Option.isSome_some, Option.isNone_none, Bool.and_self, Option.toList_some]
                  exact announce_logging { host with engine } log message.tag callback message

theorem poll_logging (network : σ) :
    (host.logging log).poll transport bindings.logging network =
      let (polled, received) := host.poll transport bindings network
      (polled.logging (log ++
        ((host.reception? transport .iterate network).bind fun message =>
          bindings.announced? message (host.engine.queue.refusal? message)).toList),
        received) := by
  rw [poll_eq, poll_eq, reception?]
  cases (transport.next network).1 with
  | none => simp
  | some message =>
      have routed := route_logging bindings host.counting log message
      exact Prod.ext routed rfl

theorem networkPass_logging (network : σ) :
    (host.logging log).networkPass transport bindings.logging network =
      let (after, last) := host.networkPass transport bindings network
      (after.logging (log ++
        ((host.reception? transport .iterate network).bind fun message =>
          bindings.announced? message (host.engine.queue.refusal? message)).toList),
        last) := by
  unfold networkPass
  rw [poll_logging]
  rfl

theorem call_logging (handler : Handler ω) (request : Request) :
    call handler.beside request (host.logging log) = (call handler request host).logging log := by
  have ran := host.engine.run_map (fun found => (found.1, (found.2, log)))
    (handler host.engine.seat request host.memory)
  unfold call
  simp only [logging, Handler.beside_eq, ran]

theorem judge_logging (message : Message) (engine : Engine) :
    judge bindings.logging message engine =
      let (duty, after) := judge bindings message engine
      (duty.logging, after) := by
  unfold judge
  cases engine.running with
  | false => rfl
  | true =>
      rw [bindings.handler?_logging]
      cases bindings.handler? message.tag with
      | none => rfl
      | some handler => cases Request.ofMessage message <;> rfl

theorem nextDuty_logging (engine : Engine) :
    nextDuty bindings.logging engine =
      let (duty, after) := nextDuty bindings engine
      (duty.logging, after) := by
  unfold nextDuty
  rcases engine.queue.nextRequest with ⟨message | _ | _, queue⟩
  · exact judge_logging bindings message { engine with queue }
  · rfl
  · rfl

theorem processStep_logging :
    (host.logging log).processStep bindings.logging = (host.processStep bindings).logging log := by
  have duty := nextDuty_logging bindings host.engine
  unfold processStep
  rw [show (host.logging log).engine = host.engine from rfl, duty]
  rcases nextDuty bindings host.engine with ⟨duty, engine⟩
  cases duty with
  | call handler request => exact call_logging { host with engine } log handler request
  | dropped | idle | ended => rfl

theorem finalize_logging (network : σ) :
    (host.logging log).finalize transport network =
      let (after, last) := host.finalize transport network
      (after.logging log, last) := by
  cases gives : host.engine.active && !host.engine.finalized <;>
    simp [finalize, logging, gives]

/-- Each step makes the callback of the message that it receives be called once, if at all. -/
theorem advance_logging (progress : Progress ω) (network : σ) :
    (host.logging log).advance transport bindings.logging progress.logging network =
      (host.advance transport bindings progress network).logging (log ++
        ((host.reception? transport progress network).bind fun message =>
          bindings.announced? message (host.engine.queue.refusal? message)).toList) := by
  cases progress with
  | iterate => exact congrArg Prod.fst (networkPass_logging transport bindings host log network)
  | search =>
      simp [advance, Progress.logging, reception?, logging]
  | judge message =>
      simp only [advance, Progress.logging, reception?, Option.bind_none, Option.toList_none,
        List.append_nil]
      rw [show (host.logging log).engine = host.engine from rfl, judge_logging]
      rfl
  | serve handler request =>
      simpa [advance, Progress.logging, reception?] using call_logging host log handler request
  | act activity =>
      cases activity with
      | network =>
          have same : (host.logging log).engine = host.engine := rfl
          simp only [advance, Progress.logging, act, networkStep, same, reception?]
          cases running : host.engine.running with
          | true =>
              exact congrArg Prod.fst (networkPass_logging transport bindings host log network)
          | false =>
              simpa using congrArg Prod.fst (finalize_logging transport host log network)
      | process =>
          simpa [advance, act, Progress.logging, reception?] using
            processStep_logging bindings host log
      | send | broadcast | stop => simp [advance, act, Progress.logging, reception?, logging]
      | read source tag =>
          simp only [advance, Progress.logging, act, reception?, Option.bind_none,
            Option.toList_none, List.append_nil, logging]
          rcases host.engine.tryRead source tag with ⟨_ | _ | _, engine⟩ <;> rfl
      | shutdown =>
          simpa [advance, act, Progress.logging, reception?, logging] using congrArg Prod.fst
            (finalize_logging transport { host with engine := host.engine.stop } log network)

/-- The messages that are received, each with the error with which the request queue has refused
it for its capacity, if it has. -/
def receptions : Host ω → List (Progress ω × σ) → List (Message × Option Error)
  | _, [] => []
  | host, (progress, network) :: rest =>
      ((host.reception? transport progress network).map fun message =>
        (message, host.engine.queue.refusal? message)).toList ++
        receptions (host.advance transport bindings progress network) rest

/-- Over a whole run, the callbacks are called for the messages that are received, in order. -/
theorem proceed_logging (steps : List (Progress ω × σ)) :
    (host.logging log).proceed transport bindings.logging
        (steps.map fun step => (step.1.logging, step.2)) =
      (host.proceed transport bindings steps).logging
        (log ++ (host.receptions transport bindings steps).filterMap
          fun reception => bindings.announced? reception.1 reception.2) := by
  induction steps generalizing host log with
  | nil => simp [proceed, receptions]
  | cons first rest inductionHypothesis =>
      obtain ⟨progress, network⟩ := first
      have here := advance_logging transport bindings host log progress network
      have later := inductionHypothesis (host.advance transport bindings progress network)
        (log ++ ((host.reception? transport progress network).bind fun message =>
          bindings.announced? message (host.engine.queue.refusal? message)).toList)
      rw [← here] at later
      refine later.trans ?_
      rw [receptions, List.filterMap_append, List.append_assoc]
      cases host.reception? transport progress network with
      | none => rfl
      | some message =>
          simp only [Option.bind_some, Option.map_some, Option.toList_some, List.filterMap_cons,
            List.filterMap_nil]
          cases bindings.announced? message (host.engine.queue.refusal? message) <;> rfl

end Logging

/-! ## The order of call and delivery -/

/-- What is done with a received message. -/
inductive Treatment (ω : Type) where
  | call (callback : Callback ω)
  | deliver

/-- The treatments of a received message, in order.  A control message is delivered after the
call of its callback, and every other one before it. -/
def treatments (bindings : Bindings ω) (message : Message) (refused : Option Error) :
    List (Treatment ω) :=
  match bindings.callback? message.tag, bindings.announced? message refused with
  | some callback, some _ =>
      if message.tag.isControl then [.call callback, .deliver] else [.deliver, .call callback]
  | _, _ => [.deliver]

def treat (message : Message) (host : Host ω) : Treatment ω → Host ω
  | .call callback => host.announce callback message
  | .deliver => { host with engine := (Host.deliver message host.engine).2 }

theorem route_eq_treat (bindings : Bindings ω) (message : Message) (host : Host ω) :
    route bindings message host =
      (treatments bindings message (host.engine.queue.refusal? message)).foldl
        (treat message) host := by
  unfold route treatments Bindings.announced?
  cases known : message.tag.isKnown with
  | false =>
      simp [treat, deliver_of_unknown known]
  | true =>
      cases bound : bindings.callback? message.tag with
      | none => rfl
      | some callback =>
          cases control : message.tag.isControl with
          | true =>
              have plain := Tag.isRequest_of_isControl control
              simp [RequestQueue.refusal?_of_plain plain, treat]
          | false =>
              have outcome := deliver_fst message host.engine
              rcases shape : deliver message host.engine with ⟨delivery, engine⟩
              rw [shape] at outcome
              cases refused : host.engine.queue.refusal? message with
              | some error =>
                  rw [refused] at outcome
                  cases outcome
                  simp [treat, shape]
              | none =>
                  rw [refused] at outcome
                  cases outcome
                  simp [treat, shape]

/-! ## What callbacks leave of the delivery -/

/-- The sends that the callback of a message queues. -/
def callbackSends (bindings : Bindings ω) (message : Message) (host : Host ω) :
    List Outgoing :=
  match bindings.callback? message.tag,
      bindings.announced? message (host.engine.queue.refusal? message) with
  | some callback, some _ =>
      host.engine.acceptedSends (callback host.engine.seat message host.memory)
  | _, _ => []

end Host

namespace Engine

theorem acceptedSends_congr {α : Type} (program : Outbox.Program α) {first second : Engine}
    (active : first.active = second.active) (running : first.running = second.running)
    (seat : first.seat = second.seat) :
    first.acceptedSends program = second.acceptedSends program := by
  induction program generalizing first second with
  | done value => rfl
  | send destination tag payload next inductionHypothesis =>
      have same : first.checkSendable destination = second.checkSendable destination := by
        rw [checkSendable, checkSendable, active, running, seat]
      cases checked : second.checkSendable destination with
      | ok =>
          rw [checked] at same
          rw [acceptedSends, acceptedSends, send_of_ok tag payload same,
            send_of_ok tag payload checked]
          exact congrArg (List.cons _) (inductionHypothesis (.ok ()) active running seat)
      | error error =>
          rw [checked] at same
          rw [acceptedSends, acceptedSends, send_of_error tag payload same,
            send_of_error tag payload checked]
          exact inductionHypothesis _ active running seat
  | stop next inductionHypothesis =>
      apply inductionHypothesis
      · rw [stop_eq, stop_eq]
        exact active
      · rw [running_stop, running_stop]
      · rw [stop_eq, stop_eq]
        exact seat

end Engine

namespace Host

/-- The delivery of a message that is no request changes the buffered payloads and what is
counted, and looks at nothing else. -/
theorem deliver_plain {message : Message} (plain : message.tag.isRequest = false)
    (engine : Engine) :
    ∃ responses counters, ∀ other : Engine,
      other.responses = engine.responses → other.counters = engine.counters →
        (deliver message other).2 = { other with responses, counters } := by
  unfold deliver
  rw [plain]
  cases pushed : engine.responses.push message.tag message.source message.payload with
  | ok responses =>
      refine ⟨responses, { engine.counters with buffered := engine.counters.buffered + 1 }, ?_⟩
      intro other same counted
      simp [same, counted, pushed]
  | error error =>
      refine ⟨engine.responses, { engine.counters with unknown := engine.counters.unknown + 1 },
        ?_⟩
      intro other same counted
      simp [same, counted, pushed]

/-- A program that runs before such a delivery does to the engine what it does after it. -/
theorem deliver_run {α : Type} {message : Message} (plain : message.tag.isRequest = false)
    (program : Outbox.Program α) (engine : Engine) :
    (deliver message (engine.run program).2).2 =
      ((deliver message engine).2.run program).2 := by
  obtain ⟨responses, counters, delivers⟩ := deliver_plain plain engine
  have before := delivers engine rfl rfl
  have asks : Engine.asksToStop program { engine with responses, counters } =
      Engine.asksToStop program engine := Engine.asksToStop_congr program rfl rfl rfl
  have sends : Engine.acceptedSends program { engine with responses, counters } =
      Engine.acceptedSends program engine := Engine.acceptedSends_congr program rfl rfl rfl
  rw [before, Engine.run_snd_eq, Engine.run_snd_eq, asks, sends]
  cases Engine.asksToStop program engine with
  | false =>
      rw [if_neg Bool.false_ne_true, if_neg Bool.false_ne_true]
      exact delivers (engine.queueing (engine.acceptedSends program)) rfl rfl
  | true =>
      rw [if_pos rfl, if_pos rfl, delivers _ (by rw [Engine.stop_eq]; rfl)
        (by rw [Engine.counters_stop]; rfl), Engine.stop_eq, Engine.stop_eq]
      rfl

section Called

variable {bindings : Bindings ω} {message : Message} {host : Host ω} {callback : Callback ω}

theorem route_of_called (known : message.tag.isKnown = true)
    (bound : bindings.callback? message.tag = some callback)
    (taken : host.engine.queue.refusal? message = none) :
    (route bindings message host).engine =
      ((deliver message host.engine).2.run
        (callback host.engine.seat message host.memory)).2 := by
  unfold route
  simp only [known, ↓reduceIte, bound]
  cases control : message.tag.isControl with
  | true => exact deliver_run (Tag.isRequest_of_isControl control) _ host.engine
  | false =>
      have outcome := deliver_fst message host.engine
      have seat := (delivers_deliver host.engine message).frame.1
      rcases shape : deliver message host.engine with ⟨delivery, engine⟩
      rw [shape, taken] at outcome
      rw [shape] at seat
      cases outcome
      simp only [announce, Bool.false_eq_true, ↓reduceIte]
      rw [show engine.seat = host.engine.seat from seat]

theorem route_of_refused {error : Error}
    (refused : host.engine.queue.refusal? message = some error) :
    (route bindings message host).engine = (deliver message host.engine).2 := by
  rw [route_eq_treat, treatments, Bindings.announced?, refused]
  cases bindings.callback? message.tag <;> simp [treat]

/-- A routed message leaves the engine as its delivery does, with the sends of the callback
queued, and stopped if the callback asks for that. -/
theorem engine_route :
    (route bindings message host).engine =
      let queued := (deliver message host.engine).2.queueing (host.callbackSends bindings message)
      if host.callbackAsksToStop bindings message then queued.stop else queued := by
  cases known : message.tag.isKnown with
  | false =>
      simp [route, callbackSends, callbackAsksToStop, Bindings.announced?, known,
        deliver_of_unknown known]
  | true =>
      cases bound : bindings.callback? message.tag with
      | none => simp [route, callbackSends, callbackAsksToStop, known, bound]
      | some callback =>
          cases refused : host.engine.queue.refusal? message with
          | some error =>
              have stopped : (deliver message host.engine).2.running = false := by
                rw [(delivers_deliver host.engine message).fares.running, refused]
                simp
              rw [route_of_refused refused]
              simp [callbackSends, Bindings.announced?, bound, refused,
                Engine.stop_of_stopped stopped]
          | none =>
              have taken := delivers_deliver host.engine message
              have running : (deliver message host.engine).2.running = host.engine.running := by
                rw [taken.fares.running, refused]
                simp
              simp only [callbackSends, callbackAsksToStop, Bindings.announced?, known, bound,
                refused, Option.isSome_some, Option.isNone_none, Bool.and_self, ↓reduceIte,
                Bool.true_and]
              rw [route_of_called known bound refused, Engine.run_snd_eq,
                asksToStop_deliver _ refused,
                Engine.acceptedSends_congr _ taken.frame.2.1 running taken.frame.1]

end Called

end Host

/-! ## Offered sends -/

/-- The send that a call offers to the network. -/
def TransportCall.offered? : TransportCall → Option Outgoing
  | send destination tag payload => some ⟨destination, tag, payload⟩
  | probe | receive _ | test _ | finalize => none

/-- The sends that calls offer to the network, in order. -/
def offers (calls : List TransportCall) : List Outgoing :=
  calls.filterMap TransportCall.offered?

section Offers

variable (transport : Transport σ) (calls : List TransportCall) (network : σ)

theorem logged_probe :
    transport.logged.probe (calls, network) =
      ((transport.probe network).1, calls ++ [.probe], (transport.probe network).2) :=
  rfl

theorem logged_receive (header : Header) :
    transport.logged.receive header (calls, network) =
      ((transport.receive header network).1, calls ++ [.receive header],
        (transport.receive header network).2) :=
  rfl

theorem logged_send (destination : Rank) (tag : Tag) (payload : Payload) :
    transport.logged.send destination tag payload (calls, network) =
      ((transport.send destination tag payload network).1,
        calls ++ [.send destination tag payload],
        (transport.send destination tag payload network).2) :=
  rfl

theorem logged_test (handle : SendHandle) :
    transport.logged.test handle (calls, network) =
      ((transport.test handle network).1, calls ++ [.test handle],
        (transport.test handle network).2) :=
  rfl

theorem offers_append (first rest : List TransportCall) :
    offers (first ++ rest) = offers first ++ offers rest :=
  List.filterMap_append

theorem offers_next :
    offers (transport.logged.next (calls, network)).2.1 = offers calls := by
  rw [Transport.next, logged_probe]
  rcases transport.probe network with ⟨_ | _ | header, probed⟩
  · exact (offers_append calls _).trans (List.append_nil _)
  · exact (offers_append calls _).trans (List.append_nil _)
  · simp only [logged_receive, List.append_assoc]
    rcases transport.receive header probed with ⟨_ | _, received⟩ <;>
      exact (offers_append calls _).trans (List.append_nil _)

theorem offers_offer (sends : List PendingSend) (tracker : SendTracker) :
    offers (SendTracker.offer transport.logged sends tracker (calls, network)).2.1 =
      offers calls ++ sends.map PendingSend.outgoing := by
  induction sends generalizing tracker calls network with
  | nil => simp [SendTracker.offer]
  | cons send rest inductionHypothesis =>
      rw [SendTracker.offer, logged_send]
      rcases transport.send send.destination send.tag send.payload network with
        ⟨_ | _, after⟩ <;>
      · refine (inductionHypothesis _ _ _).trans ?_
        rw [offers_append, List.append_assoc]
        rfl

theorem offers_testEach (kept untested : List ActiveSend) (stats : SendStats) :
    offers (SendTracker.testEach transport.logged kept stats untested (calls, network)).2.2.1 =
      offers calls := by
  induction length : untested.length generalizing kept untested stats calls network with
  | zero =>
      rw [List.length_eq_zero_iff.mp length, SendTracker.testEach]
  | succ count inductionHypothesis =>
      cases untested with
      | nil => simp at length
      | cons current rest =>
          have shorter : rest.length = count := Nat.succ.inj length
          have replaced := (SendTracker.length_replaceHead rest).trans shorter
          have silent : offers (calls ++ [.test current.handle]) = offers calls :=
            (offers_append calls _).trans (List.append_nil _)
          rw [SendTracker.testEach, logged_test]
          rcases transport.test current.handle network with ⟨_ | _ | _, after⟩
          · exact (inductionHypothesis _ _ _ _ _ shorter).trans silent
          · exact (inductionHypothesis _ _ _ _ _ shorter).trans silent
          · exact (inductionHypothesis _ _ _ _ _ replaced).trans silent

theorem offers_transmit (host : Host ω) :
    offers (host.transmit transport.logged (calls, network)).2.1 =
      offers calls ++ host.engine.sends.pending.map PendingSend.outgoing := by
  unfold Host.transmit SendTracker.issuePending SendTracker.collectActive
  have offered := offers_offer transport calls network host.engine.sends.pending
    { host.engine.sends with pending := [] }
  rcases issued : SendTracker.offer transport.logged host.engine.sends.pending
    { host.engine.sends with pending := [] } (calls, network) with ⟨tracker, logged, after⟩
  rw [issued] at offered
  exact (offers_testEach transport logged after [] tracker.active tracker.stats).trans offered

end Offers

namespace Host

/-- An iteration of the network loop offers what was pending and then what the callback of the
received message has queued. -/
theorem offers_network (transport : Transport σ) (bindings : Bindings ω) (host : Host ω)
    (network : σ) (live : host.engine.running = true) {message : Message}
    (found : (transport.next network).1 = some message) :
    offers (host.callsOf transport bindings .network network) =
      host.engine.sends.pending.map PendingSend.outgoing ++
        host.counting.callbackSends bindings message := by
  have agrees := (transport.agree_logged.next
    (show Transport.Beside ([], network) network from ⟨rfl, List.not_mem_nil⟩)).1
  have silent := offers_next transport [] network
  have pending : (route bindings message host.counting).engine.sends.pending =
      (host.counting.engine.queueing
        (host.counting.callbackSends bindings message)).sends.pending := by
    have kept := (delivers_deliver host.counting.engine message).frame.2.2
    rw [engine_route, Engine.pending_queueing]
    split
    · rw [Engine.stop_eq, Engine.pending_queueing, kept]
    · rw [Engine.pending_queueing, kept]
  simp only [callsOf, act, networkStep, live, ↓reduceIte, networkPass, poll_eq]
  rw [agrees, found]
  rcases shape : transport.logged.next ([], network) with ⟨_, logged, after⟩
  rw [shape] at silent
  refine (offers_transmit transport logged after _).trans ?_
  rw [show offers logged = [] from silent, List.nil_append]
  simp only [pending, Engine.pending_queueing, List.map_append, List.map_map]
  exact congrArg _ (List.map_id _)

/-- A member with any callbacks, after anything that has happened on it.  The callbacks have been
called for the messages that it has received, in order: once for each message with a known tag
that has a callback, unless the request queue has refused the message for its capacity; always
the callback of the tag, with the message.  The next message is treated likewise: a control
message is delivered after the call of its callback, and every other one before it.  The engine is
left as by the delivery alone, but for the sends that the callback has queued and for its stop;
and the same iteration of the network loop offers these sends, after those that were pending. -/
theorem callbacks_in_order (transport : Transport σ) (bindings : Bindings ω) (first : Host ω)
    (steps : List (Progress ω × σ)) :
    let host := first.proceed transport bindings steps
    (first.logging []).proceed transport bindings.logging
        (steps.map fun step => (step.1.logging, step.2)) =
      host.logging ((first.receptions transport bindings steps).filterMap
        fun reception => bindings.announced? reception.1 reception.2) ∧
    ∀ network message, host.engine.running = true →
      (transport.next network).1 = some message →
      let counted := host.counting
      let after := (host.poll transport bindings network).1
      let sends := counted.callbackSends bindings message
      let queued := (deliver message counted.engine).2.queueing sends
      after = (treatments bindings message (counted.engine.queue.refusal? message)).foldl
        (treat message) counted ∧
      after.engine =
        (if counted.callbackAsksToStop bindings message then queued.stop else queued) ∧
      offers (host.callsOf transport bindings .network network) =
        host.engine.sends.pending.map PendingSend.outgoing ++ sends := by
  intro host
  refine ⟨proceed_logging transport bindings first [] steps, ?_⟩
  intro network message live found counted after sends queued
  have routed : after = route bindings message counted := by
    simp only [after, poll_eq, found]
    rfl
  refine ⟨routed.trans (route_eq_treat bindings message counted), ?_,
    offers_network transport bindings host network live found⟩
  rw [routed]
  exact engine_route

/-- The callback of a shard assignment sends a reply and stops the engine.  It is called once,
and its reply is offered in the same iteration. -/
theorem callbacks_in_order_reply :
    let reply : Callback Unit := fun _ message memory =>
      .send message.source .empty [] fun _ => .stop (.done memory)
    let bindings : Bindings Unit := { callbacks := [(.shardAssignment, reply)] }
    let message : Message := ⟨.shardAssignment, 1, []⟩
    let network : Mesh := ⟨[{ inbox := [message] }, {}]⟩
    let host : Host Unit := ⟨.atSeat {} ⟨0, 2⟩ true, ()⟩
    let steps : List (Progress Unit × Mesh) := [(.act .network, network)]
    let logged := (host.logging []).proceed (Mesh.transport 0) bindings.logging
      (steps.map fun step => (step.1.logging, step.2))
    logged.memory.2 = [(.shardAssignment, message)] ∧
      offers (host.callsOf (Mesh.transport 0) bindings .network network) =
        [⟨1, .empty, []⟩] := by
  intro reply bindings message network host steps logged
  constructor
  · rw [show logged = _ from (callbacks_in_order (Mesh.transport 0) bindings host steps).1]
    decide +kernel
  · obtain ⟨_, next⟩ := callbacks_in_order (Mesh.transport 0) bindings host []
    refine (next network message (by decide +kernel) (by decide +kernel)).2.2.trans ?_
    decide +kernel

end Host

end ParameterServer

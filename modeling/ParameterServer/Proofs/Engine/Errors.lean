import ParameterServer.Proofs.Engine.Progress
import ParameterServer.Transport.Mesh

/-!
# Errors of a step

A message can fail in three places: the network does not hand it over, the queue
refuses it, or the handler of its request fails.  Only the queue's error stops the
engine, if it is fatal; the severity of the others is not looked at.
-/

namespace ParameterServer

variable {σ ω : Type}

/-- Where the error of a message comes from. -/
inductive Origin where
  | network
  | queue
  | handler
deriving DecidableEq, Repr

namespace Host

variable (transport : Transport σ) (bindings : Bindings ω)

/-- The error with which the network fails to hand over a message that it has
announced. -/
def receptionError? (network : σ) : Option Error :=
  match transport.probe network with
  | (.ok (some header), probed) =>
      match (transport.receive header probed).1 with
      | .ok _ => none
      | .error error => some error
  | _ => none

/-- The error with which the queue refuses a message. -/
def queueError? (message : Message) (host : Host ω) : Option Error :=
  if message.tag.isRequest then
    match host.engine.queue.enqueue message with
    | .ok _ => none
    | .error error => some error
  else
    none

/-- The error with which a handler ends. -/
def handlerError? (handler : Handler ω) (request : Request) (host : Host ω) :
    Option Error :=
  match (host.engine.run (handler host.engine.seat request host.memory)).1.1 with
  | .ok () => none
  | .error error => some error

/-- The error of the message that the network loop looks at. -/
def pollFailure? (host : Host ω) (network : σ) : Option (Origin × Error) :=
  match (transport.next network).1 with
  | none => (receptionError? transport network).map fun error => (.network, error)
  | some message => (host.queueError? message).map fun error => (.queue, error)

/-- The error of the message that is handled next. -/
def failure? (progress : Progress ω) (host : Host ω) (network : σ) :
    Option (Origin × Error) :=
  match progress with
  | .act .network =>
      if host.engine.running then host.pollFailure? transport network else none
  | .iterate => host.pollFailure? transport network
  | .act .process =>
      match nextDuty bindings host.engine with
      | (.call handler request, engine) =>
          (handlerError? handler request { host with engine }).map fun error =>
            (.handler, error)
      | _ => none
  | .serve handler request =>
      (host.handlerError? handler request).map fun error => (.handler, error)
  | _ => none

variable {progress : Progress ω} {host : Host ω} {network : σ} {error : Error}

theorem refusal?_of_queueError {message : Message}
    (failed : host.queueError? message = some error) :
    host.engine.queue.refusal? message =
      if error.isFatal then some error else none := by
  unfold queueError? at failed
  split at failed
  · cases enqueued : host.engine.queue.enqueue message with
    | ok queue =>
        simp [enqueued] at failed
    | error refused =>
        rw [enqueued] at failed
        cases failed
        exact RequestQueue.refusal?_of_error enqueued
  · cases failed

/-- The error of a message is a refusal exactly when it is the queue's. -/
theorem refusal?_of_pollFailure {origin : Origin}
    (failed : host.pollFailure? transport network = some (origin, error))
    (severe : error.isFatal = true) :
    ((transport.next network).1.bind fun message =>
        host.engine.queue.refusal? message) =
      if origin = .queue then some error else none := by
  unfold pollFailure? at failed
  cases received : (transport.next network).1 with
  | none =>
      rw [received] at failed
      obtain ⟨_, _, same⟩ := Option.map_eq_some_iff.mp failed
      cases same
      rfl
  | some message =>
      rw [received] at failed
      obtain ⟨_, refused, same⟩ := Option.map_eq_some_iff.mp failed
      cases same
      have shape := refusal?_of_queueError refused
      rw [severe] at shape
      exact shape

theorem refusal?_of_failure {origin : Origin}
    (failed : host.failure? transport bindings progress network = some (origin, error))
    (severe : error.isFatal = true) :
    host.refusal? transport progress network =
      if origin = .queue then some error else none := by
  cases progress with
  | iterate =>
      exact refusal?_of_pollFailure transport failed severe
  | search | judge =>
      cases failed
  | serve handler request =>
      obtain ⟨_, _, same⟩ := Option.map_eq_some_iff.mp failed
      cases same
      rfl
  | act activity =>
      cases activity with
      | network =>
          unfold failure? at failed
          cases running : host.engine.running with
          | false =>
              simp [running] at failed
          | true =>
              simp only [running, ↓reduceIte] at failed
              simp only [refusal?, reception?, running, ↓reduceIte]
              exact refusal?_of_pollFailure transport failed severe
      | process =>
          unfold failure? at failed
          rcases duty : nextDuty bindings host.engine with ⟨_ | _ | _ | _, engine⟩ <;>
            simp only [duty] at failed
          · obtain ⟨_, _, same⟩ := Option.map_eq_some_iff.mp failed
            cases same
            rfl
          all_goals cases failed
      | send | broadcast | read | stop | shutdown =>
          cases failed

/-- After a fatal error of a message, an engine that has been started is stopped and
keeps an error exactly when the queue has refused the message, unless it has kept an
error before.  The fatal errors of handlers and of the network do not stop it. -/
theorem halted_iff_of_fatal (config : EngineConfig) (seat : Seat) (memory : ω)
    (steps : List (Progress ω × σ)) (progress : Progress ω) (network : σ)
    (origin : Origin) (error : Error) :
    let first : Host ω := ⟨.atSeat config seat true, memory⟩
    let host := first.proceed transport bindings steps
    let after := host.advance transport bindings progress network
    host.failure? transport bindings progress network = some (origin, error) →
      error.isFatal = true →
      (after.engine.running = false ∧ after.engine.fatalText?.isSome = true ↔
        origin = .queue ∨ host.engine.fatalText?.isSome = true) := by
  intro first host after failed severe
  have refused := refusal?_of_failure transport bindings failed severe
  have fares := fares_advance transport bindings progress host network
  have healthy : host.engine.fatal.isSome = true → host.engine.running = false :=
    healthy_proceed transport bindings first steps (by simp [first, Engine.atSeat])
  have fatal : after.engine.fatal =
      (host.engine.fatal <|> if origin = .queue then some error else none) := by
    rw [← refused]
    exact fares.fatal
  simp only [Engine.fatalText?, Option.isSome_map]
  rw [fares.running, fatal, refused]
  by_cases queue : origin = .queue
  · simp [queue]
  · cases kept : host.engine.fatal with
    | none =>
        simp [queue]
    | some earlier =>
        have stopped := healthy (by simp [kept])
        simp [stopped]

/-- An engine goes on although the handler of a request has failed with a fatal
error. -/
example :
    let mesh := ((Mesh.ofSize 2).send 1 0 .getRequest (Wire.encode (⟨"w"⟩ : GetRequest))).2
    let bindings : Bindings Unit :=
      { handlers := [(.getRequest, fun _ _ _ => .done (.error (.internal "lost"), ()))] }
    let first : Host Unit := ⟨.atSeat {} ⟨0, 2⟩ true, ()⟩
    let host := first.proceed (Mesh.transport 0) bindings [(.act .network, mesh)]
    let after := host.advance (Mesh.transport 0) bindings (.act .process) mesh
    host.failure? (Mesh.transport 0) bindings (.act .process) mesh =
        some (.handler, .internal "lost") ∧
      after.engine.running = true ∧ after.engine.fatalText? = none := by
  decide +kernel

end Host

end ParameterServer

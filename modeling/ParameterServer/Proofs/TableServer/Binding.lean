import ParameterServer.Proofs.Engine.Accounts
import ParameterServer.Proofs.Outcome
import ParameterServer.TableServer.Binding

/-!
# A bound table server

What a member calls for a request once a table server is bound to its request tags,
and what one such call does: it sends one answer to the member that asked.
-/

namespace ParameterServer

variable {η ω : Type}

namespace Bindings

variable {bindings bound : Bindings ω} {tag : Tag} {handler : Handler ω}

theorem onRequest_eq_ok (accepted : bindings.onRequest tag handler = .ok bound) :
    bindings.handler? tag = none ∧
      bound = { bindings with handlers := bindings.handlers ++ [(tag, handler)] } := by
  unfold onRequest at accepted
  split at accepted
  · cases accepted
  · split at accepted
    · cases accepted
    · rename_i unbound
      cases accepted
      exact ⟨by simpa using unbound, rfl⟩

theorem handler?_of_onRequest (accepted : bindings.onRequest tag handler = .ok bound)
    (other : Tag) :
    bound.handler? other =
      if other = tag then some handler else bindings.handler? other := by
  obtain ⟨unbound, rfl⟩ := onRequest_eq_ok accepted
  simp only [handler?] at unbound ⊢
  rw [List.lookup_append]
  by_cases same : other = tag
  · simp [same, unbound]
  · have apart : (other == tag) = false := beq_eq_false_iff_ne.mpr same
    simp [same, List.lookup_cons, apart]

end Bindings

/-- A content answers a request if it carries the key under the tag for answers to
puts and updates, or to gets. -/
def Request.AnsweredBy (request : Request) (content : Content) : Prop :=
  match request.action with
  | .put _ | .update _ =>
      ∃ accepted,
        content = (.putResponse, Wire.encode (⟨request.key, accepted⟩ : PutResponse))
  | .get =>
      ∃ value,
        content = (.getResponse, Wire.encode (⟨request.key, value⟩ : GetResponse))

/-- Whether a tag is one of the two that table servers reply under. -/
def Tag.isReply (tag : Tag) : Bool :=
  tag = .putResponse || tag = .getResponse

theorem Request.AnsweredBy.isReply {request : Request} {content : Content}
    (answers : request.AnsweredBy content) : content.1.isReply = true := by
  unfold AnsweredBy at answers
  split at answers <;>
    · obtain ⟨_, rfl⟩ := answers
      rfl

namespace TableServer

variable (handler : ValueHandler η) (part : ω → TableServer η)
  (replace : TableServer η → ω → ω)

/-- What a member calls for a request to the table server in its memory. -/
def focusedHandler : Handler ω :=
  Handler.focus part replace (requestHandler handler)

/-- A bound table server handles every request. -/
theorem handler?_of_bind {base bindings : Bindings ω}
    (bound : bind handler part replace base = .ok bindings) {tag : Tag}
    (request : tag.isRequest = true) :
    bindings.handler? tag = some (focusedHandler handler part replace) := by
  simp only [bind, List.foldlM_cons, List.foldlM_nil, Outcome.bind_eq_ok, pure,
    Except.pure, Except.ok.injEq] at bound
  obtain ⟨puts, first, gets, second, updates, third, rfl⟩ := bound
  rw [Bindings.handler?_of_onRequest third, Bindings.handler?_of_onRequest second,
    Bindings.handler?_of_onRequest first]
  rcases Tag.isRequest_iff.mp request with rfl | rfl | rfl <;> simp [focusedHandler]

/-! ## One request -/

theorem answeredBy_conclude (request : Request) (mutates : request.action ≠ .get)
    (outcome : Bool × TableServer η) :
    let reply := (conclude handler request.key outcome).1
    request.AnsweredBy (reply.tag, reply.payload) := by
  obtain ⟨accepted, server⟩ := outcome
  unfold Request.AnsweredBy
  cases action : request.action with
  | put | update => exact ⟨accepted, rfl⟩
  | get => exact absurd action mutates

theorem answeredBy_answerGet (request : Request) (reads : request.action = .get)
    (server : TableServer η) :
    let reply := (server.answerGet handler request.key).1
    request.AnsweredBy (reply.tag, reply.payload) := by
  simp only [Request.AnsweredBy, reads, answerGet]
  split
  · exact ⟨none, rfl⟩
  · split
    · exact ⟨some _, rfl⟩
    · exact ⟨none, rfl⟩

/-- The reply to a request answers it, whatever the handler decides. -/
theorem answeredBy_answer (request : Request) (server : TableServer η) :
    let reply := (server.answer handler request).1
    request.AnsweredBy (reply.tag, reply.payload) := by
  unfold answer
  cases action : request.action with
  | put incoming | update incoming =>
      exact answeredBy_conclude handler request (by simp [action]) _
  | get => exact answeredBy_answerGet handler request action server

/-- The sends that carry a reply: one, if the member that asked belongs to the
group. -/
def sendsOf (seat : Seat) (request : Request) (reply : Reply) : List Outgoing :=
  if request.source < seat.size then
    [⟨request.source, reply.tag, reply.payload⟩]
  else
    []

theorem focusedHandler_eq (seat : Seat) (request : Request) (memory : ω) :
    focusedHandler handler part replace seat request memory =
      let (reply, answered) := (part memory).answer handler request
      .send request.source reply.tag reply.payload fun outcome =>
        .done (outcome, replace answered memory) :=
  rfl

section Running

variable (engine : Engine) (active : engine.active = true)
  (live : engine.running = true) (request : Request) (memory : ω)

include active live

/-- A running engine accepts the reply to a member of its group. -/
theorem acceptedSends_focusedHandler :
    engine.acceptedSends
        (focusedHandler handler part replace engine.seat request memory) =
      sendsOf engine.seat request ((part memory).answer handler request).1 := by
  rw [focusedHandler_eq]
  unfold sendsOf
  by_cases inside : request.source < engine.seat.size
  · have sendable : engine.checkSendable request.source = .ok () :=
      Engine.checkSendable_eq_ok_iff.mpr ⟨active, live, inside⟩
    simp [Engine.acceptedSends, Engine.send, sendable, inside]
  · cases checked : engine.checkSendable request.source with
    | ok => exact absurd (Engine.checkSendable_eq_ok_iff.mp checked).2.2 inside
    | error error =>
        simp [Engine.acceptedSends, Engine.send, checked, inside]

/-- A call fails only for a request from outside of the group. -/
theorem failures_focusedHandler :
    Host.failures
        (engine.run
          (focusedHandler handler part replace engine.seat request memory)).1.1 =
      if engine.seat.size ≤ request.source then 1 else 0 := by
  rw [focusedHandler_eq]
  by_cases inside : request.source < engine.seat.size
  · have sendable : engine.checkSendable request.source = .ok () :=
      Engine.checkSendable_eq_ok_iff.mpr ⟨active, live, inside⟩
    simp [Engine.run, Engine.send, sendable, Host.failures, inside]
  · cases checked : engine.checkSendable request.source with
    | ok => exact absurd (Engine.checkSendable_eq_ok_iff.mp checked).2.2 inside
    | error error =>
        simp [Engine.run, Engine.send, checked, Host.failures, Nat.not_lt.mp inside]

end Running

end TableServer

end ParameterServer

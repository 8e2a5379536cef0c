import ParameterServer.Proofs.Engine.Moves

/-!
# Accounts of a member

What a member has noted is accounted for by its state: accepted sends are pending
until they are offered to the network, and received payloads wait in their lane of
the response table until a reader takes them.
-/

namespace ParameterServer

variable {σ ω : Type}

/-! ## What is accounted for -/

/-- A tag with a payload. -/
abbrev Content := Tag × Payload

def Outgoing.contentTo? (destination : Rank) (send : Outgoing) : Option Content :=
  if send.destination = destination then some (send.tag, send.payload) else none

def PendingSend.contentTo? (destination : Rank) (send : PendingSend) :
    Option Content :=
  if send.destination = destination then some (send.tag, send.payload) else none

def Message.contentFrom? (source : Rank) (message : Message) : Option Content :=
  if message.source = source then some (message.tag, message.payload) else none

/-- The payloads with a tag, in order. -/
def payloadsOf (tag : Tag) (contents : List Content) : List Payload :=
  contents.filterMap fun content =>
    if content.1 = tag then some content.2 else none

theorem payloadsOf_append (tag : Tag) (first rest : List Content) :
    payloadsOf tag (first ++ rest) = payloadsOf tag first ++ payloadsOf tag rest :=
  List.filterMap_append

/-- What is pending for a member, in order. -/
def SendTracker.pendingTo (destination : Rank) (tracker : SendTracker) :
    List Content :=
  tracker.pending.filterMap (PendingSend.contentTo? destination)

namespace Observation

def sends : Observation → List Outgoing
  | accepted send => [send]
  | served _ sends => sends
  | _ => []

def received? : Observation → Option Message
  | received message => some message
  | _ => none

/-- The payload that a reader has taken from a lane. -/
def taken? (tag : Tag) (source : Rank) : Observation → Option Payload
  | taken own sender payload =>
      if own = tag ∧ sender = source then some payload else none
  | _ => none

/-- What has been accepted for a member, in order. -/
def sentTo (destination : Rank) (seen : List Observation) : List Content :=
  (seen.flatMap sends).filterMap (Outgoing.contentTo? destination)

/-- What has been received from a member, in order. -/
def receivedFrom (source : Rank) (seen : List Observation) : List Content :=
  (seen.filterMap received?).filterMap (Message.contentFrom? source)

/-- What readers have taken from a lane, in order. -/
def takenFrom (tag : Tag) (source : Rank) (seen : List Observation) :
    List Payload :=
  seen.filterMap (taken? tag source)

variable (seen noted : List Observation)

@[simp]
theorem sentTo_append (destination : Rank) :
    sentTo destination (seen ++ noted) =
      sentTo destination seen ++ sentTo destination noted := by
  simp [sentTo]

@[simp]
theorem receivedFrom_append (source : Rank) :
    receivedFrom source (seen ++ noted) =
      receivedFrom source seen ++ receivedFrom source noted := by
  simp [receivedFrom]

@[simp]
theorem takenFrom_append (tag : Tag) (source : Rank) :
    takenFrom tag source (seen ++ noted) =
      takenFrom tag source seen ++ takenFrom tag source noted := by
  simp [takenFrom]

@[simp]
theorem receivedFrom_accepted (source : Rank) (sends : List Outgoing) :
    receivedFrom source (sends.map accepted) = [] := by
  simp [receivedFrom, received?, List.filterMap_eq_nil_iff]

@[simp]
theorem takenFrom_accepted (tag : Tag) (source : Rank) (sends : List Outgoing) :
    takenFrom tag source (sends.map accepted) = [] := by
  simp [takenFrom, taken?, List.filterMap_eq_nil_iff]

theorem takenFrom_taken (tag own : Tag) (source rank : Rank) (payload : Payload) :
    takenFrom tag source [.taken own rank payload] =
      if own = tag ∧ rank = source then [payload] else [] := by
  by_cases same : own = tag ∧ rank = source <;> simp [takenFrom, taken?, same]

@[simp]
theorem sentTo_accepted (destination : Rank) (sends : List Outgoing) :
    sentTo destination (sends.map accepted) =
      sends.filterMap (Outgoing.contentTo? destination) := by
  simp [sentTo, Observation.sends, List.flatMap_map]

theorem sentTo_served (destination : Rank) (request : Request)
    (sends : List Outgoing) :
    sentTo destination [.served request sends] =
      sends.filterMap (Outgoing.contentTo? destination) := by
  simp [sentTo, Observation.sends]

end Observation

open Observation

/-! ## Pending sends -/

namespace Engine

variable (sends : List Outgoing) (engine : Engine)

theorem pending_queueing :
    (engine.queueing sends).sends.pending =
      engine.sends.pending ++ sends.map Outgoing.pending := by
  induction sends generalizing engine with
  | nil =>
      simp
  | cons first rest inductionHypothesis =>
      rw [queueing_cons, inductionHypothesis]
      simp [queueing, SendTracker.push]

theorem pendingTo_queueing (destination : Rank) :
    (engine.queueing sends).sends.pendingTo destination =
      engine.sends.pendingTo destination ++
        sends.filterMap (Outgoing.contentTo? destination) := by
  simp only [SendTracker.pendingTo, pending_queueing, List.filterMap_append,
    List.filterMap_map]
  rfl

def PendingInside (engine : Engine) : Prop :=
  ∀ send ∈ engine.sends.pending, send.destination < engine.seat.size

theorem PendingInside.queueing
    (engine : Engine) (sends : List Outgoing) (inside : engine.PendingInside)
    (accepted : ∀ send ∈ sends, send.destination < engine.seat.size) :
    (engine.queueing sends).PendingInside := by
  intro send member
  rw [pending_queueing] at member
  rcases List.mem_append.mp member with earlier | later
  · exact inside send earlier
  · obtain ⟨own, listed, rfl⟩ := List.mem_map.mp later
    exact accepted own listed

variable {engine}

theorem seekDrained_eq (active : engine.active = true) :
    engine.seekDrained =
      if engine.sends.pending = [] ∧ engine.sends.active = [] then .done () else .waiting := by
  cases pending : engine.sends.pending <;> cases live : engine.sends.active <;>
    simp [seekDrained, SendTracker.isBusy, active, pending, live]

theorem attemptFlush_eq_done (active : engine.active = true) :
    engine.attemptFlush = .done () ↔
      engine.sends.pending = [] ∧ engine.sends.active = [] := by
  by_cases drained : engine.sends.pending = [] ∧ engine.sends.active = []
  · simp [attemptFlush, seekDrained_eq active, drained]
  · rw [attemptFlush, seekDrained_eq active, if_neg drained, persist]
    cases engine.running <;> simp [drained]

end Engine

namespace Host

variable {bindings : Bindings ω} {host after first last : Host ω}
  {noted : List Observation}

theorem Delivers.frame {engine delivered : Engine} {message : Message}
    (delivers : Delivers engine message delivered) :
    delivered.seat = engine.seat ∧ delivered.active = engine.active ∧
      delivered.sends = engine.sends := by
  cases delivers with
  | enqueued | malformed | buffered | unknown => exact ⟨rfl, rfl, rfl⟩
  | fatal => simp [Engine.fail, Engine.stop_eq]

/-- What an outcome adds to the failures of handlers. -/
def failures : Except Error Unit → Nat
  | .ok () => 0
  | .error _ => 1

/-- A call to a handler queues the sends of the handler that are accepted, possibly
stops the engine, and counts the call and its failure. -/
theorem call_engine (handler : Handler ω) (request : Request) (host : Host ω) :
    let program := handler host.engine.seat request host.memory
    let queued := host.engine.queueing (host.engine.acceptedSends program)
    let counters := host.engine.counters
    ∃ engine : Engine,
      (engine = queued ∨ engine = queued.stop) ∧
        (call handler request host).engine =
          { engine with
            counters :=
              { counters with
                handlerErrors :=
                  counters.handlerErrors + failures (host.engine.run program).1.1
                processed := counters.processed + 1 } } := by
  intro program queued counters
  refine ⟨(host.engine.run program).2, host.engine.run_snd program, ?_⟩
  rcases ran : host.engine.run program with ⟨⟨outcome, memory⟩, engine⟩
  have counted : engine.counters = counters := by
    simpa [ran] using Engine.counters_run program host.engine
  simp only [call]
  rw [ran]
  cases outcome <;> simp [counted, failures]

theorem Move.frame (move : Move bindings host noted after) :
    after.engine.seat = host.engine.seat ∧
      after.engine.active = host.engine.active := by
  cases move with
  | finalize | accept | remember | miss | drop | take => exact ⟨rfl, rfl⟩
  | stop => simp [Engine.stop_eq]
  | deliver message engine live delivers =>
      exact ⟨delivers.frame.1, delivers.frame.2.1⟩
  | serve message queue handler request =>
      obtain ⟨_, rfl | rfl, called⟩ := call_engine handler request
        { host with engine := { host.engine with queue } }
      · simp [called, Engine.queueing]
      · simp [called, Engine.stop_eq, Engine.queueing]

theorem Moves.frame (moves : Moves bindings first noted last) :
    last.engine.seat = first.engine.seat ∧
      last.engine.active = first.engine.active := by
  induction moves with
  | refl => exact ⟨rfl, rfl⟩
  | tail _ move inductionHypothesis =>
      obtain ⟨seat, active⟩ := move.frame
      exact ⟨seat.trans inductionHypothesis.1, active.trans inductionHypothesis.2⟩

/-! ## The account of pending sends -/

/-- The sends that a member queues are those that it accepts, and they are for members
of the group. -/
theorem Move.sends (move : Move bindings host noted after)
    (destination : Rank) :
    (after.engine.sends.pendingTo destination =
      host.engine.sends.pendingTo destination ++ sentTo destination noted) ∧
      (host.engine.PendingInside → after.engine.PendingInside) := by
  cases move with
  | finalize | remember | miss | drop | take =>
      exact ⟨(List.append_nil _).symm, id⟩
  | accept sends inside =>
      refine ⟨?_, fun known =>
        Engine.PendingInside.queueing host.engine sends known inside⟩
      rw [sentTo_accepted]
      exact Engine.pendingTo_queueing sends host.engine destination
  | stop =>
      rw [Engine.stop_eq]
      exact ⟨(List.append_nil _).symm, id⟩
  | deliver message engine live delivers =>
      obtain ⟨seat, _, kept⟩ := delivers.frame
      simp only [Engine.PendingInside, kept, seat]
      exact ⟨(List.append_nil _).symm, id⟩
  | serve message queue handler request =>
      have inside (known : host.engine.PendingInside) :=
        Engine.PendingInside.queueing { host.engine with queue }
          (Engine.acceptedSends (handler host.engine.seat request host.memory)
            { host.engine with queue }) known
          fun _ member => (Engine.of_mem_acceptedSends member).2.2
      have queued := Engine.pendingTo_queueing
        (Engine.acceptedSends (handler host.engine.seat request host.memory)
          { host.engine with queue })
        { host.engine with queue } destination
      rw [sentTo_served]
      obtain ⟨_, rfl | rfl, called⟩ := call_engine handler request
        { host with engine := { host.engine with queue } }
      · rw [called]
        exact ⟨queued, inside⟩
      · rw [called, Engine.stop_eq]
        exact ⟨queued, inside⟩

theorem Moves.pendingTo (moves : Moves bindings first noted last)
    (destination : Rank) :
    last.engine.sends.pendingTo destination =
      first.engine.sends.pendingTo destination ++ sentTo destination noted := by
  induction moves with
  | refl =>
      exact (List.append_nil _).symm
  | tail _ move inductionHypothesis =>
      rw [(move.sends destination).1, inductionHypothesis, sentTo_append,
        List.append_assoc]

theorem Moves.pendingInside (moves : Moves bindings first noted last)
    (inside : first.engine.PendingInside) : last.engine.PendingInside := by
  induction moves with
  | refl =>
      exact inside
  | tail _ move inductionHypothesis =>
      exact (move.sends 0).2 inductionHypothesis

/-! ## The account of received payloads -/

/-- What arrives for readers from a member under a tag.  Requests go to the request queue,
and messages of unknown tags are dropped. -/
def arrived (tag : Tag) (source : Rank) (seen : List Observation) : List Payload :=
  if tag.isKnown && !tag.isRequest then payloadsOf tag (receivedFrom source seen) else []

theorem arrived_of_plain {tag : Tag} (known : tag.isKnown = true)
    (plain : tag.isRequest = false) (source : Rank) (seen : List Observation) :
    arrived tag source seen = payloadsOf tag (receivedFrom source seen) := by
  rw [arrived, if_pos (by simp [known, plain])]

theorem arrived_of_silent (tag : Tag) {source : Rank} {seen : List Observation}
    (silent : receivedFrom source seen = []) : arrived tag source seen = [] := by
  rw [arrived, silent]
  exact ite_self []

theorem arrived_append (tag : Tag) (source : Rank) (first rest : List Observation) :
    arrived tag source (first ++ rest) = arrived tag source first ++ arrived tag source rest := by
  unfold arrived
  split
  · rw [receivedFrom_append, payloadsOf_append]
  · rfl

theorem arrived_received (tag : Tag) (source : Rank) (message : Message) :
    arrived tag source [.received message] =
      if message.tag = tag ∧ message.source = source ∧
          (tag.isKnown && !tag.isRequest) = true then [message.payload]
      else [] := by
  by_cases own : message.source = source <;>
    by_cases same : message.tag = tag <;>
    simp [arrived, payloadsOf, receivedFrom, received?, Message.contentFrom?, own, same]

theorem Delivers.waiting {engine delivered : Engine} {message : Message}
    (delivers : Delivers engine message delivered) (tag : Tag) (source : Rank) :
    delivered.responses.waiting tag source =
      engine.responses.waiting tag source ++ arrived tag source [.received message] := by
  rw [arrived_received]
  have unread (ignored : (message.tag.isKnown && !message.tag.isRequest) = false) :
      ¬ (message.tag = tag ∧ message.source = source ∧
        (tag.isKnown && !tag.isRequest) = true) := by
    rintro ⟨rfl, _, read⟩
    cases ignored.symm.trans read
  cases delivers with
  | enqueued _ request | malformed _ request =>
      rw [if_neg (unread (by simp [request])), List.append_nil]
  | fatal _ request =>
      rw [if_neg (unread (by simp [request])), List.append_nil]
      simp [Engine.fail, Engine.stop_eq]
  | buffered responses plain pushed =>
      have known := ResponseTable.isKnown_of_push pushed
      refine (ResponseTable.waiting_of_push pushed tag source).trans ?_
      congr 2
      refine propext ⟨?_, fun own => ⟨own.1, own.2.1⟩⟩
      rintro ⟨rfl, own⟩
      exact ⟨rfl, own, by simp [known, plain]⟩
  | unknown _ unknown =>
      rw [if_neg (unread (by simp [unknown])), List.append_nil]

/-- What waits in a lane and what arrives there is what is taken from it and what waits there
afterwards. -/
theorem Move.lanes (move : Move bindings host noted after) (tag : Tag) (source : Rank) :
    host.engine.responses.waiting tag source ++ arrived tag source noted =
      takenFrom tag source noted ++
        after.engine.responses.waiting tag source := by
  cases move with
  | finalize | remember | miss | drop =>
      rw [arrived_of_silent tag rfl]
      exact List.append_nil _
  | accept sends =>
      rw [arrived_of_silent tag (receivedFrom_accepted source sends)]
      simp [Engine.queueing]
  | stop =>
      rw [Engine.stop_eq, arrived_of_silent tag rfl]
      exact List.append_nil _
  | deliver message engine live delivers =>
      exact (delivers.waiting tag source).symm
  | serve message queue handler request =>
      rw [arrived_of_silent tag rfl]
      obtain ⟨_, rfl | rfl, called⟩ := call_engine handler request
        { host with engine := { host.engine with queue } }
      · simp only [called, Engine.queueing]
        exact List.append_nil _
      · simp only [called, Engine.stop_eq, Engine.queueing]
        exact List.append_nil _
  | take selector own rank payload responses popped =>
      have lane := ResponseTable.waiting_of_pop popped tag source
      rw [takenFrom_taken, ← lane, arrived_of_silent tag rfl]
      exact List.append_nil _

/-- For a tag that readers read: what waits and what is received is what is taken and
what waits afterwards. -/
theorem Move.responses (move : Move bindings host noted after)
    {tag : Tag} (known : tag.isKnown = true) (plain : tag.isRequest = false)
    (source : Rank) :
    host.engine.responses.waiting tag source ++
        payloadsOf tag (receivedFrom source noted) =
      takenFrom tag source noted ++
        after.engine.responses.waiting tag source := by
  rw [← arrived_of_plain known plain]
  exact move.lanes tag source

theorem Moves.responses (moves : Moves bindings first noted last)
    {tag : Tag} (known : tag.isKnown = true) (plain : tag.isRequest = false)
    (source : Rank) :
    first.engine.responses.waiting tag source ++
        payloadsOf tag (receivedFrom source noted) =
      takenFrom tag source noted ++
        last.engine.responses.waiting tag source := by
  induction moves with
  | refl =>
      exact List.append_nil _
  | tail _ move inductionHypothesis =>
      rw [receivedFrom_append, takenFrom_append, payloadsOf_append,
        ← List.append_assoc, inductionHypothesis, List.append_assoc,
        move.responses known plain source, List.append_assoc]

/-! ## What each activity receives -/

theorem received_routeNotes (bindings : Bindings ω) (message : Message)
    (host : Host ω) :
    (routeNotes bindings message host).filterMap received? = [message] := by
  have announced (callback : Callback ω) (host : Host ω) :
      (host.announceNotes callback message).filterMap received? = [] := by
    simp [announceNotes, received?, List.filterMap_eq_nil_iff]
  unfold routeNotes
  split
  · split
    · rfl
    · split
      · rw [List.filterMap_append, announced]
        rfl
      · split
        · rfl
        · simp [received?, announced]
  · rfl

/-- The network loop of a running engine receives the next message. -/
theorem receivedFrom_networkNotes (transport : Transport σ) (network : σ)
    (live : host.engine.running = true) (source : Rank) :
    receivedFrom source (host.networkNotes transport bindings network) =
      (transport.next network).1.toList.filterMap
        (Message.contentFrom? source) := by
  simp only [networkNotes, live, ↓reduceIte]
  cases (transport.next network).1 with
  | none => rfl
  | some message =>
      simp only [receivedFrom, received_routeNotes]
      rfl

theorem receivedFrom_act {activity : Activity} (other : activity ≠ .network)
    (transport : Transport σ) (network : σ) (source : Rank) :
    receivedFrom source (host.act transport bindings activity network).1 = [] := by
  cases activity with
  | network => exact absurd rfl other
  | process =>
      simp only [act, processNotes]
      split <;> rfl
  | send => exact receivedFrom_accepted source _
  | broadcast => exact receivedFrom_accepted source _
  | read =>
      simp only [act]
      split <;> rfl
  | stop => rfl
  | shutdown => rfl

end Host

end ParameterServer

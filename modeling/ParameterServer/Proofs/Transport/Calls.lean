import ParameterServer.Proofs.Engine.Moves

/-!
# Calls of the network

Which calls a member makes of its network.  A transport that keeps a log answers as
the one without, so that the log of a step is what the step calls.
-/

namespace ParameterServer

variable {σ τ ω : Type}

/-- A call of the network. -/
inductive TransportCall where
  | probe
  | receive (header : Header)
  | send (destination : Rank) (tag : Tag) (payload : Payload)
  | test (handle : SendHandle)
  | finalize
deriving DecidableEq, Repr

namespace Transport

/-- The transport that logs every call. -/
def logged (transport : Transport σ) : Transport (List TransportCall × σ) where
  probe := fun (calls, network) =>
    let (found, after) := transport.probe network
    (found, calls ++ [.probe], after)
  receive header := fun (calls, network) =>
    let (payload, after) := transport.receive header network
    (payload, calls ++ [.receive header], after)
  send destination tag payload := fun (calls, network) =>
    let (handle, after) := transport.send destination tag payload network
    (handle, calls ++ [.send destination tag payload], after)
  test handle := fun (calls, network) =>
    let (complete, after) := transport.test handle network
    (complete, calls ++ [.test handle], after)
  finalize := fun (calls, network) =>
    let (outcome, after) := transport.finalize network
    (outcome, calls ++ [.finalize], after)

/-- Two networks that answer alike until they are given up. -/
structure Agree (relation : τ → σ → Prop) (first : Transport τ) (second : Transport σ) :
    Prop where
  probe : ∀ {left right}, relation left right →
    (first.probe left).1 = (second.probe right).1 ∧
      relation (first.probe left).2 (second.probe right).2
  receive : ∀ header {left right}, relation left right →
    (first.receive header left).1 = (second.receive header right).1 ∧
      relation (first.receive header left).2 (second.receive header right).2
  send : ∀ destination tag payload {left right}, relation left right →
    (first.send destination tag payload left).1 =
        (second.send destination tag payload right).1 ∧
      relation (first.send destination tag payload left).2
        (second.send destination tag payload right).2
  test : ∀ handle {left right}, relation left right →
    (first.test handle left).1 = (second.test handle right).1 ∧
      relation (first.test handle left).2 (second.test handle right).2

/-- A log of calls that do not give the network up, beside the network. -/
def Beside (logged : List TransportCall × σ) (network : σ) : Prop :=
  logged.2 = network ∧ TransportCall.finalize ∉ logged.1

theorem agree_logged (transport : Transport σ) :
    Agree Beside transport.logged transport where
  probe := by
    rintro ⟨calls, network⟩ _ ⟨rfl, absent⟩
    exact ⟨rfl, rfl, by simpa [logged] using absent⟩
  receive := by
    rintro header ⟨calls, network⟩ _ ⟨rfl, absent⟩
    exact ⟨rfl, rfl, by simpa [logged] using absent⟩
  send := by
    rintro destination tag payload ⟨calls, network⟩ _ ⟨rfl, absent⟩
    exact ⟨rfl, rfl, by simpa [logged] using absent⟩
  test := by
    rintro handle ⟨calls, network⟩ _ ⟨rfl, absent⟩
    exact ⟨rfl, rfl, by simpa [logged] using absent⟩

namespace Agree

variable {relation : τ → σ → Prop} {first : Transport τ} {second : Transport σ}
  {left : τ} {right : σ}

theorem next (agree : Agree relation first second) (related : relation left right) :
    (first.next left).1 = (second.next right).1 ∧
      relation (first.next left).2 (second.next right).2 := by
  obtain ⟨found, probed⟩ := agree.probe related
  unfold Transport.next
  generalize first.probe left = one, second.probe right = other at found probed ⊢
  obtain ⟨answer, left⟩ := one
  obtain ⟨_, right⟩ := other
  cases found
  rcases answer with _ | _ | header
  · exact ⟨rfl, probed⟩
  · exact ⟨rfl, probed⟩
  · obtain ⟨payload, received⟩ := agree.receive header probed
    simp only
    generalize first.receive header left = one, second.receive header right = other
      at payload received ⊢
    obtain ⟨answer, left⟩ := one
    obtain ⟨_, right⟩ := other
    cases payload
    cases answer <;> exact ⟨rfl, received⟩

theorem offer (agree : Agree relation first second) (related : relation left right)
    (sends : List PendingSend) (tracker : SendTracker) :
    (SendTracker.offer first sends tracker left).1 =
        (SendTracker.offer second sends tracker right).1 ∧
      relation (SendTracker.offer first sends tracker left).2
        (SendTracker.offer second sends tracker right).2 := by
  induction sends generalizing tracker left right with
  | nil =>
      exact ⟨rfl, related⟩
  | cons send rest inductionHypothesis =>
      obtain ⟨handle, sent⟩ :=
        agree.send send.destination send.tag send.payload related
      unfold SendTracker.offer
      simp only
      generalize first.send send.destination send.tag send.payload left = one,
        second.send send.destination send.tag send.payload right = other at handle sent ⊢
      obtain ⟨answer, left⟩ := one
      obtain ⟨_, right⟩ := other
      cases handle
      cases answer <;> exact inductionHypothesis sent _

theorem testEach (agree : Agree relation first second) (related : relation left right)
    (kept untested : List ActiveSend) (stats : SendStats) :
    (SendTracker.testEach first kept stats untested left).1 =
        (SendTracker.testEach second kept stats untested right).1 ∧
      (SendTracker.testEach first kept stats untested left).2.1 =
        (SendTracker.testEach second kept stats untested right).2.1 ∧
      relation (SendTracker.testEach first kept stats untested left).2.2
        (SendTracker.testEach second kept stats untested right).2.2 := by
  induction length : untested.length generalizing kept untested stats left right with
  | zero =>
      rw [List.length_eq_zero_iff.mp length, SendTracker.testEach, SendTracker.testEach]
      exact ⟨rfl, rfl, related⟩
  | succ count inductionHypothesis =>
      cases untested with
      | nil =>
          simp at length
      | cons current rest =>
          have shorter : rest.length = count := Nat.succ.inj length
          obtain ⟨complete, tested⟩ := agree.test current.handle related
          rw [SendTracker.testEach, SendTracker.testEach]
          generalize first.test current.handle left = one,
            second.test current.handle right = other at complete tested ⊢
          obtain ⟨answer, left⟩ := one
          obtain ⟨_, right⟩ := other
          cases complete
          rcases answer with _ | _ | _
          · exact inductionHypothesis tested _ _ _ shorter
          · exact inductionHypothesis tested _ _ _ shorter
          · have replaced := (SendTracker.length_replaceHead rest).trans shorter
            exact inductionHypothesis tested _ _ _ replaced

theorem transmit (agree : Agree relation first second) (related : relation left right)
    (host : Host ω) :
    (host.transmit first left).1 = (host.transmit second right).1 ∧
      relation (host.transmit first left).2 (host.transmit second right).2 := by
  obtain ⟨issued, offered⟩ := agree.offer related host.engine.sends.pending
    { host.engine.sends with pending := [] }
  unfold Host.transmit SendTracker.issuePending
  generalize SendTracker.offer first _ _ left = one,
    SendTracker.offer second _ _ right = other at issued offered ⊢
  obtain ⟨tracker, left⟩ := one
  obtain ⟨_, right⟩ := other
  cases issued
  obtain ⟨active, stats, tested⟩ :=
    agree.testEach offered [] tracker.active tracker.stats
  simp only [SendTracker.collectActive]
  rw [active, stats]
  exact ⟨rfl, tested⟩

theorem networkPass (agree : Agree relation first second)
    (related : relation left right) (bindings : Bindings ω) (host : Host ω) :
    (host.networkPass first bindings left).1 =
        (host.networkPass second bindings right).1 ∧
      relation (host.networkPass first bindings left).2
        (host.networkPass second bindings right).2 := by
  obtain ⟨message, received⟩ := agree.next related
  unfold Host.networkPass
  simp only [Host.poll_eq]
  rw [message]
  exact agree.transmit received _

end Agree

end Transport

/-! ## Giving the network up -/

namespace Engine

theorem finalized_run {α : Type} (program : Outbox.Program α) (engine : Engine) :
    (engine.run program).2.finalized = engine.finalized := by
  rcases engine.run_snd program with goesOn | stops
  · rw [goesOn]
    rfl
  · rw [stops, stop_eq]
    rfl

end Engine

namespace Host

section Finalized

variable {bindings : Bindings ω} (host : Host ω)

theorem Delivers.finalized {engine delivered : Engine} {message : Message}
    (delivers : Delivers engine message delivered) :
    delivered.finalized = engine.finalized := by
  cases delivers with
  | enqueued | malformed | buffered | unknown =>
      rfl
  | fatal =>
      rw [Engine.fail, Engine.stop_eq]

theorem finalized_announce (callback : Callback ω) (message : Message) :
    (host.announce callback message).engine.finalized = host.engine.finalized :=
  Engine.finalized_run _ host.engine

theorem finalized_route (message : Message) :
    (route bindings message host).engine.finalized = host.engine.finalized := by
  have delivered (engine : Engine) := (delivers_deliver engine message).finalized
  unfold route
  split
  · split
    · exact delivered host.engine
    · split
      · exact (delivered _).trans (finalized_announce host _ message)
      · have kept := delivered host.engine
        rcases outcome : deliver message host.engine with ⟨_ | _, engine⟩ <;>
          rw [outcome] at kept
        · exact (finalized_announce _ _ message).trans kept
        · exact kept
  · rfl

theorem finalized_networkPass (transport : Transport σ) (network : σ) :
    (host.networkPass transport bindings network).1.engine.finalized =
      host.engine.finalized := by
  have polled : (host.poll transport bindings network).1.engine.finalized =
      host.engine.finalized := by
    rw [poll_eq]
    cases (transport.next network).1 with
    | none =>
        rfl
    | some message =>
        exact finalized_route host.counting message
  exact polled

theorem finalized_processStep :
    (host.processStep bindings).engine.finalized = host.engine.finalized := by
  obtain ⟨counters, taken⟩ := nextDuty_snd bindings host.engine
  unfold processStep
  rcases found : nextDuty bindings host.engine with ⟨duty, engine⟩
  rw [found] at taken
  cases taken
  cases duty with
  | call handler request =>
      exact Engine.finalized_run _ _
  | dropped | idle | ended =>
      rfl

end Finalized

/-- The stopped member that a step makes give the network up. -/
def ending? (activity : Activity) (host : Host ω) : Option (Host ω) :=
  match activity with
  | .network => if host.engine.running then none else some host
  | .shutdown => some { host with engine := host.engine.stop }
  | _ => none

/-- The calls of the network that a step makes. -/
def callsOf (transport : Transport σ) (bindings : Bindings ω) (activity : Activity)
    (host : Host ω) (network : σ) : List TransportCall :=
  (host.act transport.logged bindings activity ([], network)).2.2.1

/-- The calls of the network that steps make, one after another. -/
def calls (transport : Transport σ) (bindings : Bindings ω) :
    Host ω → List (Activity × σ) → List TransportCall
  | _, [] => []
  | host, (activity, network) :: rest =>
      host.callsOf transport bindings activity network ++
        calls transport bindings
          (host.act transport bindings activity network).2.1 rest

section Steps

variable (transport : Transport σ) (bindings : Bindings ω) (network : σ)
  {activity : Activity} {host halted : Host ω}

theorem of_ending (ends : host.ending? activity = some halted) :
    halted.engine.running = false ∧ halted.engine.active = host.engine.active ∧
      halted.engine.finalized = host.engine.finalized := by
  cases activity with
  | network =>
      simp only [ending?, Option.ite_none_left_eq_some, Option.some.injEq,
        Bool.not_eq_true] at ends
      obtain ⟨stopped, rfl⟩ := ends
      exact ⟨stopped, rfl, rfl⟩
  | shutdown =>
      cases ends
      rw [Engine.stop_eq]
      exact ⟨rfl, rfl, rfl⟩
  | process | send | broadcast | read | stop =>
      cases ends

theorem act_of_ending (ends : host.ending? activity = some halted) :
    host.act transport bindings activity network =
      ([], halted.finalize transport network) := by
  cases activity with
  | network =>
      simp only [ending?, Option.ite_none_left_eq_some, Option.some.injEq,
        Bool.not_eq_true] at ends
      obtain ⟨stopped, rfl⟩ := ends
      simp [act, networkNotes, networkStep, stopped]
  | shutdown =>
      cases ends
      rfl
  | process | send | broadcast | read | stop =>
      cases ends

theorem act_of_going (goes : host.ending? activity = none) :
    let logged := host.act transport.logged bindings activity ([], network)
    let plain := host.act transport bindings activity network
    logged.1 = plain.1 ∧ logged.2.1 = plain.2.1 ∧
      Transport.Beside logged.2.2 plain.2.2 ∧
      plain.2.1.engine.finalized = host.engine.finalized := by
  have beside : Transport.Beside (([], network) : List TransportCall × σ) network :=
    ⟨rfl, List.not_mem_nil⟩
  cases activity with
  | network =>
      have running : host.engine.running = true := by
        simpa [ending?] using goes
      have agree := transport.agree_logged
      obtain ⟨same, after⟩ := agree.networkPass beside bindings host
      have message := (agree.next beside).1
      simp only [act, networkNotes, networkStep, running, ↓reduceIte]
      rw [message]
      exact ⟨rfl, same, after, finalized_networkPass host transport network⟩
  | process =>
      exact ⟨rfl, rfl, beside, finalized_processStep host⟩
  | send destination tag payload =>
      exact ⟨rfl, rfl, beside,
        Engine.finalized_run (.send destination tag payload .done) host.engine⟩
  | broadcast tag payload =>
      exact ⟨rfl, rfl, beside,
        Engine.finalized_run (.broadcast host.engine.seat.size tag payload) host.engine⟩
  | read source tag =>
      simp only [act, Engine.tryRead]
      rcases host.engine.responses.pop source tag with
        _ | ⟨_ | ⟨rank, payload⟩, responses⟩ <;>
        exact ⟨rfl, rfl, beside, rfl⟩
  | stop =>
      refine ⟨rfl, rfl, beside, ?_⟩
      rw [act, Engine.stop_eq]
  | shutdown =>
      cases goes

/-- The log of a step is what the step calls; it makes no difference to the step. -/
theorem act_logged (activity : Activity) (host : Host ω) :
    host.act transport.logged bindings activity ([], network) =
      let (noted, after, last) := host.act transport bindings activity network
      (noted, after, host.callsOf transport bindings activity network, last) := by
  cases ends : host.ending? activity with
  | none =>
      obtain ⟨noted, after, ⟨last, _⟩, _⟩ := act_of_going transport bindings network ends
      simp only
      rw [callsOf, ← noted, ← after, ← last]
  | some halted =>
      rw [callsOf, act_of_ending _ _ _ ends, act_of_ending _ _ _ ends]
      unfold finalize
      split <;> rfl

theorem callsOf_of_ending (ends : host.ending? activity = some halted) :
    host.callsOf transport bindings activity network =
      if halted.engine.active && !halted.engine.finalized then [.finalize] else [] := by
  rw [callsOf, act_of_ending _ _ _ ends]
  unfold finalize
  split <;> rfl

theorem ending?_of_finalize
    (called : .finalize ∈ host.callsOf transport bindings activity network) :
    ∃ halted, host.ending? activity = some halted := by
  cases ends : host.ending? activity with
  | some halted =>
      exact ⟨halted, rfl⟩
  | none =>
      obtain ⟨_, _, ⟨_, absent⟩, _⟩ := act_of_going transport bindings network ends
      exact absurd called absent

/-- Giving the network up is remembered, and done once. -/
theorem count_callsOf (activity : Activity) (host : Host ω) :
    (host.callsOf transport bindings activity network).count .finalize +
        host.engine.finalized.toNat =
      (host.act transport bindings activity network).2.1.engine.finalized.toNat := by
  cases ends : host.ending? activity with
  | none =>
      obtain ⟨_, _, ⟨_, absent⟩, kept⟩ := act_of_going transport bindings network ends
      rw [callsOf, List.count_eq_zero.mpr absent, kept, Nat.zero_add]
  | some halted =>
      obtain ⟨_, _, same⟩ := of_ending ends
      rw [callsOf_of_ending _ _ _ ends, act_of_ending _ _ _ ends, finalize]
      cases active : halted.engine.active <;>
        cases finalized : halted.engine.finalized <;>
        simp [active, finalized, ← same]

theorem count_calls (host : Host ω) (steps : List (Activity × σ)) :
    (host.calls transport bindings steps).count .finalize +
        host.engine.finalized.toNat =
      (host.follow transport bindings steps).2.engine.finalized.toNat := by
  induction steps generalizing host with
  | nil =>
      simp [calls, follow]
  | cons first rest inductionHypothesis =>
      obtain ⟨activity, network⟩ := first
      have here := count_callsOf transport bindings network activity host
      have later := inductionHypothesis
        (host.act transport bindings activity network).2.1
      have rest : (host.follow transport bindings ((activity, network) :: rest)).2 =
          ((host.act transport bindings activity network).2.1.follow transport bindings
            rest).2 := by
        rw [follow_cons]
      rw [calls, List.count_append, rest]
      omega

end Steps

end Host

end ParameterServer

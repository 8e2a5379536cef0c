import ParameterServer.Proofs.Engine.Balance
import ParameterServer.Proofs.Engine.Reading
import ParameterServer.Proofs.Transport.Calls

/-!
# Stopped members

A stopped member does two things at most: it gives the network up, once, and it hands
out the payloads that wait for readers.
-/

namespace ParameterServer

variable {σ ω : Type}

namespace Engine

variable {engine : Engine}

theorem run_of_stopped {α : Type} (program : Outbox.Program α)
    (stopped : engine.running = false) : (engine.run program).2 = engine := by
  have nothing := acceptedSends_of_stopped program stopped
  rcases engine.run_snd program with goesOn | stops
  · rw [goesOn, nothing, queueing_nil]
  · rw [stops, nothing, queueing_nil, stop_of_stopped stopped]

theorem send_of_stopped (active : engine.active = true)
    (stopped : engine.running = false) (destination : Rank) (tag : Tag)
    (payload : Payload) :
    engine.send destination tag payload = (.error .stopped, engine) := by
  apply send_of_error
  simp [checkSendable, active, stopped]

end Engine

namespace Host

variable {transport : Transport σ} {bindings : Bindings ω} {activity : Activity}
  {host first : Host ω} {network : σ} {seen : List Observation}

/-! ## Every step -/

theorem processStep_of_closed (bindings : Bindings ω) (shut : host.engine.queue.isClosed = true) :
    host.processNotes bindings = [] ∧ host.processStep bindings = host := by
  have nothing : host.engine.queue.nextRequest = (.closed, host.engine.queue) := by
    rw [RequestQueue.nextRequest, if_pos shut]
  have ended : nextDuty bindings host.engine = (.ended, host.engine) := by
    rw [nextDuty, nothing]
  rw [processNotes, processStep, ended]
  exact ⟨rfl, rfl⟩

/-- What a stopped member does has nothing to do with its bindings. -/
def rest (transport : Transport σ) (activity : Activity) (host : Host ω)
    (network : σ) : List Observation × Host ω × σ :=
  match activity with
  | .network | .shutdown => ([], host.finalize transport network)
  | .read source tag =>
      match host.engine.tryRead source tag with
      | (.ok (some (rank, payload)), engine) =>
          ([.taken tag rank payload], { host with engine }, network)
      | (_, engine) => ([], { host with engine }, network)
  | .process | .send .. | .broadcast .. | .stop => ([], host, network)

theorem act_of_stopped (stopped : host.engine.running = false)
    (shut : host.engine.queue.isClosed = true) :
    host.act transport bindings activity network = host.rest transport activity network := by
  cases activity with
  | network =>
      simp [act, rest, networkNotes, networkStep, stopped]
  | process =>
      obtain ⟨unnoted, same⟩ := processStep_of_closed bindings shut
      rw [act, unnoted, same, rest]
  | send destination tag payload =>
      have same := Engine.run_of_stopped (.send destination tag payload .done) stopped
      have nothing := Engine.acceptedSends_of_stopped
        (.send destination tag payload .done) stopped
      rw [act, nothing, rest]
      exact congrArg (fun engine => ([], { host with engine }, network)) same
  | broadcast tag payload =>
      have same := Engine.run_of_stopped
        (.broadcast host.engine.seat.size tag payload) stopped
      have nothing := Engine.acceptedSends_of_stopped
        (.broadcast host.engine.seat.size tag payload) stopped
      rw [act, nothing, rest, Engine.broadcast, same]
      rfl
  | read source tag =>
      rfl
  | stop =>
      rw [act, Engine.stop_of_stopped stopped, rest]
  | shutdown =>
      rw [act, Engine.stop_of_stopped stopped, rest]

/-! ## Every run -/

/-- What has become of a member that was stopped as `first`, when readers have `seen`
all that is noted since. -/
structure Rests (first : Host ω) (seen : List Observation) (host : Host ω) : Prop where
  same : ∃ responses finalized,
    host = { first with engine := { first.engine with responses, finalized } }
  reads : ∀ note ∈ seen, ∃ tag source payload, note = .taken tag source payload
  lanes : ∀ tag source,
    first.engine.responses.waiting tag source =
      Observation.takenFrom tag source seen ++
        host.engine.responses.waiting tag source

namespace Rests

theorem refl (host : Host ω) : Rests host [] host where
  same := ⟨_, _, rfl⟩
  reads := by simp
  lanes _ _ := rfl

theorem finalize (rests : Rests first seen host) (transport : Transport σ)
    (network : σ) : Rests first seen (host.finalize transport network).1 := by
  unfold Host.finalize
  split
  · obtain ⟨responses, finalized, rfl⟩ := rests.same
    exact ⟨⟨responses, true, rfl⟩, rests.reads, rests.lanes⟩
  · exact rests

theorem read (rests : Rests first seen host) {source : Source} {tag : Tag} {rank : Rank}
    {payload : Payload} {responses : ResponseTable}
    (popped : host.engine.responses.pop source tag =
      .ok (some (rank, payload), responses)) :
    Rests first (seen ++ [.taken tag rank payload])
      { host with engine := { host.engine with responses } } where
  same := by
    obtain ⟨_, finalized, rfl⟩ := rests.same
    exact ⟨responses, finalized, rfl⟩
  reads := by
    intro note member
    rcases List.mem_append.mp member with earlier | last
    · exact rests.reads note earlier
    · rw [List.mem_singleton.mp last]
      exact ⟨tag, rank, payload, rfl⟩
  lanes := by
    intro other sender
    have lane := ResponseTable.waiting_of_pop popped other sender
    rw [rests.lanes, lane, Observation.takenFrom_append, Observation.takenFrom_taken,
      List.append_assoc]

theorem rest (rests : Rests first seen host) (transport : Transport σ)
    (activity : Activity) (network : σ) :
    Rests first (seen ++ (host.rest transport activity network).1)
      (host.rest transport activity network).2.1 := by
  cases activity with
  | network | shutdown =>
      rw [Host.rest, List.append_nil]
      exact rests.finalize transport network
  | process | send | broadcast | stop =>
      rw [Host.rest, List.append_nil]
      exact rests
  | read source tag =>
      rw [Host.rest, Engine.tryRead]
      rcases popped : host.engine.responses.pop source tag with
        _ | ⟨_ | ⟨rank, payload⟩, responses⟩
      · simpa using rests
      · rw [ResponseTable.eq_of_pop_none popped]
        simpa using rests
      · exact rests.read popped

theorem stopped (rests : Rests first seen host)
    (stopped : first.engine.running = false)
    (shut : first.engine.queue.isClosed = true) :
    host.engine.running = false ∧ host.engine.queue.isClosed = true := by
  obtain ⟨responses, finalized, rfl⟩ := rests.same
  exact ⟨stopped, shut⟩

end Rests

theorem callsOf_of_stopped (stopped : host.engine.running = false)
    (shut : host.engine.queue.isClosed = true) :
    ∀ call ∈ host.callsOf transport bindings activity network, call = .finalize := by
  cases ends : host.ending? activity with
  | some halted =>
      rw [callsOf_of_ending _ _ _ ends]
      split <;> simp
  | none =>
      rw [callsOf, act_of_stopped stopped shut]
      cases activity with
      | network =>
          simp [ending?, stopped] at ends
      | shutdown =>
          cases ends
      | process | send | broadcast | stop =>
          simp [rest]
      | read source tag =>
          rw [rest]
          split <;> simp

section Runs

variable (transport : Transport σ) (bindings other : Bindings ω)
  (steps : List (Activity × σ))

theorem rests_follow (rests : Rests first seen host)
    (stopped : first.engine.running = false)
    (shut : first.engine.queue.isClosed = true) :
    Rests first (seen ++ (host.follow transport bindings steps).1)
      (host.follow transport bindings steps).2 := by
  induction steps generalizing seen host with
  | nil =>
      rw [follow, List.foldl_nil, List.append_nil]
      exact rests
  | cons step others inductionHypothesis =>
      obtain ⟨hostStopped, hostShut⟩ := rests.stopped stopped shut
      have here := rests.rest transport step.1 step.2
      rw [follow_cons, act_of_stopped hostStopped hostShut]
      simp only [← List.append_assoc]
      exact inductionHypothesis here

theorem follow_of_stopped (stopped : host.engine.running = false)
    (shut : host.engine.queue.isClosed = true) :
    host.follow transport other steps = host.follow transport bindings steps := by
  induction steps generalizing host with
  | nil =>
      rfl
  | cons step others inductionHypothesis =>
      have here := (Rests.refl host).rest transport step.1 step.2
      obtain ⟨stillStopped, stillShut⟩ := here.stopped stopped shut
      rw [follow_cons, follow_cons, act_of_stopped stopped shut,
        act_of_stopped stopped shut]
      simp only
      rw [inductionHypothesis stillStopped stillShut]

theorem calls_of_stopped (stopped : host.engine.running = false)
    (shut : host.engine.queue.isClosed = true) :
    ∀ call ∈ host.calls transport bindings steps, call = .finalize := by
  induction steps generalizing host with
  | nil =>
      simp [calls]
  | cons step others inductionHypothesis =>
      have here := (Rests.refl host).rest transport step.1 step.2
      obtain ⟨stillStopped, stillShut⟩ := here.stopped stopped shut
      intro call member
      rcases List.mem_append.mp member with now | later
      · exact callsOf_of_stopped stopped shut call now
      · rw [act_of_stopped stopped shut] at later
        exact inductionHypothesis stillStopped stillShut call later

end Runs

/-! ## Flushing -/

section Flush

variable (transport : Transport σ) (bindings : Bindings ω)

/-- Waits until every send is complete, one attempt after another; the wait is not over when the
given pauses are used up. -/
def awaitFlush : (meanwhile : List (Pause σ)) → Host ω → Attempt Unit × Host ω
  | [], host => (.waiting, host)
  | pause :: later, host =>
      let waited := (host.follow transport bindings pause.before).2
      match waited.engine.seekDrained with
      | .waiting =>
          let looked := (waited.follow transport bindings pause.between).2
          match looked.engine.persist with
          | .waiting => awaitFlush later looked
          | outcome => (outcome, looked)
      | outcome => (outcome, waited)

variable {seat : Seat}

/-- A flush that is over has seen every send complete, and one that fails the engine stopped. -/
theorem of_awaitFlush (seated : host.engine.Seated seat) (meanwhile : List (Pause σ)) :
    let flushed := host.awaitFlush transport bindings meanwhile
    let last := flushed.2.engine
    (flushed.1 = .done () → last.sends.pending = [] ∧ last.sends.active = []) ∧
    ∀ error, flushed.1 = .failed error → error = .stopped ∧ last.running = false := by
  induction meanwhile generalizing host with
  | nil =>
      constructor
      · intro ended
        cases ended
      · intro error ended
        cases ended
  | cons pause later inductionHypothesis =>
      have waited := seated_follow seated transport bindings pause.before
      have looked := seated_follow waited transport bindings pause.between
      simp only [awaitFlush, Engine.seekDrained_eq waited.active]
      split_ifs with drained
      · refine ⟨fun _ => drained, fun error ended => ?_⟩
        cases ended
      · simp only [Engine.persist]
        cases running : (Host.follow transport bindings
          (host.follow transport bindings pause.before).2 pause.between).2.engine.running with
        | true => exact inductionHypothesis looked
        | false =>
            constructor
            · intro ended
              cases ended
            · intro error ended
              cases ended
              exact ⟨rfl, running⟩

/-- On a stopped member the first attempt decides. -/
theorem awaitFlush_of_stopped (active : host.engine.active = true)
    (stopped : host.engine.running = false) (shut : host.engine.queue.isClosed = true)
    (pause : Pause σ) (meanwhile : List (Pause σ)) :
    (host.awaitFlush transport bindings (pause :: meanwhile)).1 =
      if host.engine.sends.pending = [] ∧ host.engine.sends.active = [] then .done ()
      else .failed .stopped := by
  have before := rests_follow transport bindings pause.before (Rests.refl host) stopped shut
  obtain ⟨still, stillShut⟩ := before.stopped stopped shut
  have between := rests_follow transport bindings pause.between (Rests.refl _) still stillShut
  obtain ⟨halted, _⟩ := between.stopped still stillShut
  have looked : (host.follow transport bindings pause.before).2.engine.seekDrained =
      host.engine.seekDrained := by
    obtain ⟨responses, finalized, same⟩ := before.same
    rw [same]
    rfl
  simp only [awaitFlush, looked, Engine.seekDrained_eq active]
  split_ifs with drained
  · rfl
  · simp only [Engine.persist, halted, Bool.false_eq_true, ↓reduceIte]

end Flush

/-- Stopping is final.  Of a member that has been started, on any network and with
whatever bindings, each iteration of a loop being one step: a log of its calls of the
network makes no difference to a step.  The network is given up at most once, by a stopped
member only.  A flush succeeds exactly when no send is left, and one that waits ends when
no send is left or the engine is stopped.  Once a member is stopped, nothing about it
changes but the payloads that wait for readers and whether it has given the network up.
It receives nothing, calls no handler or callback, and refuses every send.  Readers still
get what waits for them, in order, and are told that the engine is stopped only when
nothing matches; a flush is over at once, and well exactly when no send is left. -/
theorem stopped_for_good (config : EngineConfig) (seat : Seat) (transport : Transport σ)
    (bindings : Bindings ω) (memory : ω) (before after : List (Activity × σ)) :
    let first : Host ω := ⟨.atSeat config seat true, memory⟩
    let host := (first.follow transport bindings before).2
    let later := host.follow transport bindings after
    let engine := later.2.engine
    (∀ activity network,
      host.act transport.logged bindings activity ([], network) =
        let (noted, acted, last) := host.act transport bindings activity network
        (noted, acted, host.callsOf transport bindings activity network, last)) ∧
    (first.calls transport bindings (before ++ after)).count .finalize ≤ 1 ∧
    (∀ activity network,
      .finalize ∈ host.callsOf transport bindings activity network →
        ∃ halted : Host ω, halted.engine.running = false ∧
          host.act transport bindings activity network =
            ([], halted.finalize transport network)) ∧
    (host.engine.attemptFlush = .done () ↔
      host.engine.sends.pending = [] ∧ host.engine.sends.active = []) ∧
    (∀ meanwhile,
      let flushed := host.awaitFlush transport bindings meanwhile
      let last := flushed.2.engine
      (flushed.1 = .done () → last.sends.pending = [] ∧ last.sends.active = []) ∧
      ∀ error, flushed.1 = .failed error → error = .stopped ∧ last.running = false) ∧
    (host.engine.running = false →
      (∃ responses finalized,
        later.2 = { host with engine := { host.engine with responses, finalized } }) ∧
      (∀ note ∈ later.1, ∃ tag source payload, note = .taken tag source payload) ∧
      (∀ call ∈ host.calls transport bindings after, call = .finalize) ∧
      (∀ other, host.follow transport other after = later) ∧
      (∀ destination tag payload,
        engine.send destination tag payload = (.error .stopped, engine)) ∧
      (∀ tag source,
        host.engine.responses.waiting tag source =
          Observation.takenFrom tag source later.1 ++
            engine.responses.waiting tag source) ∧
      (∀ source tag,
        (engine.attemptRead source tag).1 = .failed .stopped →
          engine.responses.first? source tag = none) ∧
      (∀ source tag, tag.isKnown = true → source.IsWithin seat.size →
        (engine.attemptRead source tag).1 =
          match engine.responses.first? source tag with
          | some found => .done found
          | none => .failed .stopped) ∧
      (∀ pause meanwhile,
        (later.2.awaitFlush transport bindings (pause :: meanwhile)).1 =
          if engine.sends.pending = [] ∧ engine.sends.active = [] then .done ()
          else .failed .stopped)) := by
  intro first host later engine
  have seated : host.engine.Seated seat :=
    seated_follow (Engine.Seated.atSeat config seat) transport bindings before
  have closed : host.engine.queue.isClosed = !host.engine.running :=
    (balanced_follow config seat transport bindings memory before).closed
  refine ⟨fun activity network => act_logged transport bindings network activity host, ?_, ?_,
    Engine.attemptFlush_eq_done seated.active,
    of_awaitFlush transport bindings seated, ?_⟩
  · have counted := count_calls transport bindings first (before ++ after)
    have once := Bool.toNat_le
      (first.follow transport bindings (before ++ after)).2.engine.finalized
    omega
  · intro activity network called
    obtain ⟨halted, ends⟩ := ending?_of_finalize _ _ _ called
    exact ⟨halted, (of_ending ends).1, act_of_ending _ _ _ ends⟩
  · intro stopped
    have shut : host.engine.queue.isClosed = true := by
      rw [closed, stopped]
      rfl
    have rests : Rests host later.1 later.2 :=
      rests_follow transport bindings after (Rests.refl host) stopped shut
    obtain ⟨halted, stillShut⟩ := rests.stopped stopped shut
    have still : engine.Seated seat := seated_follow seated transport bindings after
    refine ⟨rests.same, rests.reads,
      calls_of_stopped transport bindings after stopped shut,
      fun other => follow_of_stopped transport bindings other after stopped shut,
      Engine.send_of_stopped still.active halted, rests.lanes, ?_, ?_,
      awaitFlush_of_stopped transport bindings still.active halted stillShut⟩
    · intro source tag failed
      exact Engine.first?_of_attemptRead_stopped still.responses failed
    · intro source tag known within
      rw [Engine.attemptRead_fst still.active still.responses known within]
      simp only [engine, halted]
      rfl

end Host

end ParameterServer

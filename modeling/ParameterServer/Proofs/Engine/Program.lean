import ParameterServer.Engine.Host

/-!
# Programs on an engine

A program can do two things to an engine: queue sends, which the engine accepts one
by one, and stop it.  After a stop nothing more is accepted, so that a program as a
whole queues the accepted sends and then possibly stops the engine.
-/

namespace ParameterServer

/-- A send that an engine has accepted. -/
structure Outgoing where
  destination : Rank
  tag : Tag
  payload : Payload
deriving DecidableEq, Repr

/-- The send as it is queued, without failures. -/
def Outgoing.pending (send : Outgoing) : PendingSend where
  destination := send.destination
  tag := send.tag
  payload := send.payload

namespace Engine

open Outbox (Program)

variable {α : Type}

/-- The sends that an engine accepts while it runs a program. -/
def acceptedSends {α : Type} : Program α → Engine → List Outgoing
  | .done _, _ => []
  | .send destination tag payload next, engine =>
      match engine.send destination tag payload with
      | (.ok (), after) =>
          ⟨destination, tag, payload⟩ :: acceptedSends (next (.ok ())) after
      | (.error error, after) => acceptedSends (next (.error error)) after
  | .stop next, engine => acceptedSends next engine.stop

/-- The engine with sends queued in order. -/
def queueing (sends : List Outgoing) (engine : Engine) : Engine :=
  { engine with
    sends := sends.foldl
      (fun tracker send => tracker.push send.pending) engine.sends }

@[simp]
theorem queueing_nil (engine : Engine) : engine.queueing [] = engine :=
  rfl

theorem queueing_cons
    (first : Outgoing) (rest : List Outgoing) (engine : Engine) :
    engine.queueing (first :: rest) =
      (engine.queueing [first]).queueing rest :=
  rfl

/-! ## Stopping -/

@[simp]
theorem running_stop (engine : Engine) : engine.stop.running = false := by
  unfold stop
  split
  · rfl
  · simp_all

theorem stop_of_stopped {engine : Engine} (stopped : engine.running = false) :
    engine.stop = engine := by
  simp [stop, stopped]

theorem stop_eq (engine : Engine) :
    engine.stop =
      { engine with
        running := false
        queue := if engine.running then engine.queue.close else engine.queue } := by
  cases running : engine.running
  · simp only [stop, running, Bool.false_eq_true, ↓reduceIte]
    rw [← running]
  · simp [stop, running]

@[simp]
theorem counters_stop (engine : Engine) : engine.stop.counters = engine.counters := by
  rw [stop_eq]

@[simp]
theorem fatal_stop (engine : Engine) : engine.stop.fatal = engine.fatal := by
  rw [stop_eq]

/-! ## Sending -/

/-- A send is accepted exactly by a running engine of a group with the
destination. -/
theorem checkSendable_eq_ok_iff {destination : Rank} {engine : Engine} :
    engine.checkSendable destination = .ok () ↔
      engine.active = true ∧ engine.running = true ∧
        destination < engine.seat.size := by
  rw [← Nat.not_le]
  unfold checkSendable
  cases engine.active <;> cases engine.running <;>
    by_cases outside : engine.seat.size ≤ destination <;>
    simp [outside]

theorem send_of_ok
    {destination : Rank} {engine : Engine} (tag : Tag) (payload : Payload)
    (sendable : engine.checkSendable destination = .ok ()) :
    engine.send destination tag payload =
      (.ok (), engine.queueing [⟨destination, tag, payload⟩]) := by
  simp [send, sendable, queueing, Outgoing.pending]

theorem send_of_error
    {destination : Rank} {engine : Engine} {error : Error} (tag : Tag)
    (payload : Payload)
    (refused : engine.checkSendable destination = .error error) :
    engine.send destination tag payload = (.error error, engine) := by
  simp [send, refused]

theorem of_mem_acceptedSends
    {program : Program α} {engine : Engine} {send : Outgoing}
    (member : send ∈ acceptedSends program engine) :
    engine.active = true ∧ engine.running = true ∧
      send.destination < engine.seat.size := by
  induction program generalizing engine with
  | done value =>
      simp [acceptedSends] at member
  | send destination tag payload next inductionHypothesis =>
      rw [acceptedSends] at member
      cases checked : engine.checkSendable destination with
      | ok =>
          rw [send_of_ok tag payload checked] at member
          obtain ⟨active, running, inside⟩ := checkSendable_eq_ok_iff.mp checked
          rcases List.mem_cons.mp member with rfl | later
          · exact ⟨active, running, inside⟩
          · have known := inductionHypothesis _ later
            exact known
      | error error =>
          rw [send_of_error tag payload checked] at member
          exact inductionHypothesis _ member
  | stop next inductionHypothesis =>
      have known := inductionHypothesis member
      simp at known

theorem acceptedSends_of_stopped
    {engine : Engine} (program : Program α)
    (stopped : engine.running = false) :
    acceptedSends program engine = [] := by
  apply List.eq_nil_iff_forall_not_mem.mpr
  intro send member
  have running := (of_mem_acceptedSends member).2.1
  simp [stopped] at running

/-- A program queues the sends that are accepted and possibly stops the engine
afterwards. -/
theorem run_snd (program : Program α) (engine : Engine) :
    (engine.run program).2 = engine.queueing (acceptedSends program engine) ∨
      (engine.run program).2 =
        (engine.queueing (acceptedSends program engine)).stop := by
  induction program generalizing engine with
  | done value =>
      exact Or.inl rfl
  | send destination tag payload next inductionHypothesis =>
      cases checked : engine.checkSendable destination with
      | ok =>
          rw [run, acceptedSends, send_of_ok tag payload checked]
          simp only
          rw [queueing_cons]
          exact inductionHypothesis _ _
      | error error =>
          rw [run, acceptedSends, send_of_error tag payload checked]
          exact inductionHypothesis _ _
  | stop next inductionHypothesis =>
      right
      have nothing : acceptedSends next engine.stop = [] :=
        acceptedSends_of_stopped next (running_stop engine)
      rw [run, acceptedSends, nothing]
      have settled := inductionHypothesis engine.stop
      rw [nothing, queueing_nil, stop_of_stopped (running_stop engine),
        or_self] at settled
      exact settled

/-! ## What is counted -/

section Counters

variable (engine : Engine) (counters : EngineCounters)

theorem stop_counters :
    ({ engine with counters } : Engine).stop = { engine.stop with counters } := by
  rw [stop_eq, stop_eq]

theorem send_counters (destination : Rank) (tag : Tag) (payload : Payload) :
    ({ engine with counters } : Engine).send destination tag payload =
      ((engine.send destination tag payload).1,
        { (engine.send destination tag payload).2 with counters }) := by
  have same : ({ engine with counters } : Engine).checkSendable destination =
      engine.checkSendable destination := rfl
  cases checked : engine.checkSendable destination with
  | ok =>
      rw [checked] at same
      rw [send_of_ok tag payload same, send_of_ok tag payload checked]
      rfl
  | error error =>
      rw [checked] at same
      rw [send_of_error tag payload same, send_of_error tag payload checked]

/-- What a program does has nothing to do with what the engine has counted. -/
theorem run_counters (program : Program α) :
    ({ engine with counters } : Engine).run program =
      ((engine.run program).1, { (engine.run program).2 with counters }) := by
  induction program generalizing engine with
  | done value => rfl
  | send destination tag payload next inductionHypothesis =>
      rw [run, run, send_counters]
      exact inductionHypothesis _ _
  | stop next inductionHypothesis =>
      rw [run, run, stop_counters]
      exact inductionHypothesis _

theorem acceptedSends_counters (program : Program α) :
    acceptedSends program { engine with counters } = acceptedSends program engine := by
  induction program generalizing engine with
  | done value => rfl
  | send destination tag payload next inductionHypothesis =>
      rw [acceptedSends, acceptedSends, send_counters]
      rcases engine.send destination tag payload with ⟨_ | _, after⟩
      · exact inductionHypothesis _ _
      · exact congrArg _ (inductionHypothesis _ _)
  | stop next inductionHypothesis =>
      rw [acceptedSends, acceptedSends, stop_counters]
      exact inductionHypothesis _

end Counters

@[simp]
theorem counters_run (program : Program α) (engine : Engine) :
    (engine.run program).2.counters = engine.counters :=
  congrArg (fun result => result.2.counters)
    (run_counters engine engine.counters program)

end Engine

end ParameterServer

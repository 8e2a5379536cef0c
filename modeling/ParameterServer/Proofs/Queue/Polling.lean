import ParameterServer.Proofs.Queue.Agreement
import ParameterServer.Proofs.Queue.Representation

/-!
# Polling

A call that finds nothing has gone all the way round the keys, and leaves a request queue as
it was.  How often a queue is asked in vain can therefore not be told from what it does
later, and a caller who waits gets what a caller who comes later would get.
-/

namespace ParameterServer

open Queue

/-- What a call has found, to a caller who waits at an open queue. -/
def NextRequest.ofFound : Option Message → NextRequest
  | some message => .request message
  | none => .blocked

namespace RequestQueue

/-- A call with its answer and the queue that it leaves. -/
structure Exchange where
  call : Call
  answer : Answer
  queue : RequestQueue

/-- Whether a call for a message has found none. -/
def Exchange.isMiss (exchange : Exchange) : Bool :=
  match exchange.call, exchange.answer with
  | .tryNext, .taken none => true
  | _, _ => false

namespace History

variable {history : History} {start : RequestQueue} {calls : List Call} {call : Call}
  {message : Message}

/-! ## Calls in vain -/

theorem step_of_missed (sound : history.queue.ring.Sound)
    (missed : history.queue.tryNext.1 = none) : history.step .tryNext = history := by
  have same : history.queue.tryNext.2 = history.queue :=
    of_tryNext_none sound (Prod.ext missed rfl)
  rw [step_tryNext, same, missed, Option.toList_none, List.append_nil]

theorem nextRequest_of_open (opened : history.queue.isClosed = false) :
    history.queue.nextRequest.1 = .ofFound history.queue.tryNext.1 ∧
      history.step .nextRequest = history.step .tryNext := by
  rw [step_nextRequest, step_tryNext]
  unfold nextRequest
  rw [if_neg (by simp [opened])]
  rcases history.queue.tryNext with ⟨_ | message, rest⟩
  · exact ⟨rfl, rfl⟩
  · exact ⟨rfl, rfl⟩

/-! ## Runs without the calls in vain -/

/-- What some calls give back, one after another. -/
def transcript (history : History) : List Call → List Exchange
  | [] => []
  | call :: rest =>
      let after := history.step call
      ⟨call, history.queue.answer call, after.queue⟩ :: after.transcript rest

/-- The part of a transcript that is left without the calls that have found no message. -/
def heard (start : RequestQueue) (calls : List Call) : List Exchange :=
  (transcript { queue := start } calls).filter fun exchange => !exchange.isMiss

/-- The last exchange of some calls. -/
def finalExchange (start : RequestQueue) (calls : List Call) (call : Call) : Exchange :=
  ⟨call, (run start calls).queue.answer call, (run start (calls ++ [call])).queue⟩

theorem transcript_concat (start : RequestQueue) (calls : List Call) (call : Call) :
    transcript { queue := start } (calls ++ [call]) =
      transcript { queue := start } calls ++ [finalExchange start calls call] := by
  simp only [finalExchange, run, List.foldl_append, List.foldl_cons, List.foldl_nil]
  generalize ({ queue := start } : History) = history
  induction calls generalizing history with
  | nil => rfl
  | cons first rest inductionHypothesis =>
      exact congrArg (List.cons _) (inductionHypothesis (history.step first))

theorem heard_concat (start : RequestQueue) (calls : List Call) (call : Call) :
    heard start (calls ++ [call]) =
      heard start calls ++
        if (finalExchange start calls call).isMiss then []
        else [finalExchange start calls call] := by
  rw [heard, transcript_concat, List.filter_append]
  cases missed : (finalExchange start calls call).isMiss <;> simp [heard, missed]

theorem of_isMiss (missed : (finalExchange start calls call).isMiss = true) :
    call = .tryNext ∧ (run start calls).queue.tryNext.1 = none := by
  cases call with
  | tryNext =>
      cases found : (run start calls).queue.tryNext.1 with
      | none => exact ⟨rfl, rfl⟩
      | some message => simp [Exchange.isMiss, finalExchange, answer, found] at missed
  | enqueue | nextRequest | close => cases missed

/-- The calls that are left give back the same and lead to the same queue. -/
theorem run_heard (config : EngineConfig) (calls : List Call) :
    let start := RequestQueue.ofConfig config
    let kept := (heard start calls).map Exchange.call
    run start kept = run start calls ∧
      transcript { queue := start } kept = heard start calls := by
  intro start
  induction calls using List.reverseRecOn with
  | nil => exact ⟨rfl, rfl⟩
  | append_singleton calls call inductionHypothesis =>
      obtain ⟨same, answers⟩ := inductionHypothesis
      rw [heard_concat]
      split
      · rename_i missed
        obtain ⟨rfl, nothing⟩ := of_isMiss missed
        rw [List.append_nil, run_concat,
          step_of_missed (sound_ring_run config calls) nothing]
        exact ⟨same, answers⟩
      · simp only [List.map_append, List.map_cons, List.map_nil]
        rw [run_concat, transcript_concat, run_concat, same, answers]
        simp only [finalExchange, run_concat, same, and_self]

/-! ## Waiting callers -/

/-- A caller waits for the next request: after each batch of calls of others comes an
attempt, up to the first that does not leave the caller blocked. -/
def await (history : History) : List (List Call) → NextRequest × History
  | [] => (.blocked, history)
  | batch :: later =>
      let reached := batch.foldl step history
      match reached.queue.nextRequest.1 with
      | .blocked => (reached.step .nextRequest).await later
      | outcome => (outcome, reached.step .nextRequest)

/-- The attempt of a caller is a call that does not wait, and the last if it finds a
message. -/
theorem await_cons {reached : History} {batch : List Call}
    (reaches : batch.foldl step history = reached) (opened : reached.queue.isClosed = false)
    (later : List (List Call)) :
    history.await (batch :: later) =
      match reached.queue.tryNext.1 with
      | some message => (.request message, reached.step .tryNext)
      | none => (reached.step .tryNext).await later := by
  obtain ⟨outcome, after⟩ := nextRequest_of_open opened
  simp only [await, reaches, outcome, after]
  cases reached.queue.tryNext.1 with
  | none => rfl
  | some message => rfl

/-- As long as nobody calls and nothing can be served, a caller waits. -/
theorem await_idle (sound : history.queue.ring.Sound)
    (opened : history.queue.isClosed = false) (missed : history.queue.tryNext.1 = none)
    (attempts : Nat) (later : List (List Call)) :
    history.await (List.replicate attempts [] ++ later) = history.await later := by
  induction attempts with
  | zero => rfl
  | succ attempts inductionHypothesis =>
      have stays : ([] : List Call).foldl step history = history := rfl
      rw [List.replicate_succ, List.cons_append, await_cons stays opened, missed]
      simp only [step_of_missed sound missed]
      exact inductionHypothesis

theorem isClosed_step_enqueue (history : History) (message : Message) :
    (history.step (.enqueue message)).queue.isClosed = history.queue.isClosed := by
  cases enqueued : history.queue.enqueue message with
  | ok rest =>
      simp only [step, enqueued]
      exact (enqueue_frame enqueued).2
  | error => simp only [step, enqueued]

/-- A caller who waits while a message comes in has found what there is at the first attempt
after the message. -/
theorem await_enqueue (sound : (history.step (.enqueue message)).queue.ring.Sound)
    (opened : history.queue.isClosed = false) (attempts : Nat) :
    let filled := history.step (.enqueue message)
    history.await ([.enqueue message] :: List.replicate attempts []) =
      (.ofFound filled.queue.tryNext.1, filled.step .tryNext) := by
  intro filled
  have reaches : [Call.enqueue message].foldl step history = filled := rfl
  have stays : filled.queue.isClosed = false :=
    (isClosed_step_enqueue history message).trans opened
  rw [await_cons reaches stays]
  cases found : filled.queue.tryNext.1 with
  | some message => rfl
  | none =>
      have same : filled.step .tryNext = filled := step_of_missed sound found
      have idle := await_idle sound stays found attempts []
      rw [List.append_nil] at idle
      rw [same]
      exact idle

/-- Calls that find no message leave no trace: two runs that differ in nothing else give the
same answers and lead to the same queue.  A caller who waits at an open queue with nothing to
serve, while a message comes in, gets what a caller gets who comes after the message, however
often it has asked before and whatever it asks later. -/
theorem polls_leave_no_trace (config : EngineConfig) :
    let start := RequestQueue.ofConfig config
    (∀ first second,
      (heard start first).map Exchange.call = (heard start second).map Exchange.call →
        heard start first = heard start second ∧
          (run start first).queue = (run start second).queue) ∧
      ∀ calls message early late,
        let history := run start calls
        let filled := history.step (.enqueue message)
        history.queue.isClosed = false → (∀ key, ¬ history.queue.Servable key) →
          history.await
              (List.replicate early [] ++ [.enqueue message] :: List.replicate late []) =
            (.ofFound filled.queue.tryNext.1, filled.step .tryNext) := by
  intro start
  constructor
  · intro first second same
    obtain ⟨firstRun, firstHeard⟩ := run_heard config first
    obtain ⟨secondRun, secondHeard⟩ := run_heard config second
    refine ⟨?_, ?_⟩
    · rw [← firstHeard, same, secondHeard]
    · rw [← firstRun, same, secondRun]
  · intro calls message early late history filled opened idle
    have tracked : history.Tracked := tracked_run (Tracks.ofConfig config) calls
    rw [await_idle (sound_ring_run config calls) opened (tracked.tryNext_eq_none_iff.mpr idle)]
    have next := sound_ring_run config (calls ++ [.enqueue message])
    rw [run_concat] at next
    exact await_enqueue next opened late

/-- A get waits for the first put of its key, and the queue is asked in vain meanwhile. -/
theorem polls_leave_no_trace_two :
    let start := RequestQueue.ofConfig (.asynchronous 2)
    let calls : List Call := [.get "k" 0, .put "k" 0, .tryNext]
    let polled : List Call := [.tryNext, .get "k" 0, .tryNext, .tryNext, .put "k" 0, .tryNext]
    (run start polled).queue = (run start calls).queue ∧
      ((run start [.get "k" 0]).await [[], [.put "k" 0], [], []]).1 =
        .request ⟨.putRequest, 0, Wire.encode (⟨"k", {}⟩ : PutRequest)⟩ := by
  intro start calls polled
  obtain ⟨unpolled, waits⟩ := polls_leave_no_trace (.asynchronous 2)
  have stalled : (run start [.get "k" 0]).queue.tryNext.1 = none := by decide +kernel
  have tracked := tracked_run (Tracks.ofConfig (.asynchronous 2)) [.get "k" 0]
  refine ⟨(unpolled polled calls ?_).2, ?_⟩
  · decide +kernel
  · have found := waits [.get "k" 0] ⟨.putRequest, 0, Wire.encode (⟨"k", {}⟩ : PutRequest)⟩ 1 2
      (by decide +kernel) (tracked.tryNext_eq_none_iff.mp stalled)
    refine (congrArg Prod.fst found).trans ?_
    decide +kernel

end History

end RequestQueue

end ParameterServer

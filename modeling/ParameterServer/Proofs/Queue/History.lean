import Mathlib.Data.List.Induction
import ParameterServer.Proofs.Outcome
import ParameterServer.Proofs.Queue.Rounds
import ParameterServer.Proofs.Throughout
import ParameterServer.Queue.Basic

/-!
# Histories of a request queue

A run of calls on a request queue, with the messages that the queue has accepted and
returned.  Under both disciplines every slot stays sound for the messages of its key,
whatever the calls and whatever their order.
-/

namespace ParameterServer

open Queue

/-! ## First come, first served -/

/-- A slot of the synchronous discipline holds what its key has accepted and not yet
returned. -/
def Queue.Fifo.Sound (accepted returned : List Message) (waiting : Fifo) : Prop :=
  accepted = returned ++ waiting

theorem Queue.Fifo.discipline_keeps :
    Fifo.discipline.Keeps Fifo.Sound where
  fresh := rfl
  insert := by
    intro accepted returned slot after key message sound inserted
    cases inserted
    simp only [Sound] at sound ⊢
    rw [sound, List.append_assoc]
  take := by
    intro accepted returned slot after message sound taken
    cases slot with
    | nil =>
        simp [discipline] at taken
    | cons oldest rest =>
        simp only [discipline, Option.some.injEq, Prod.mk.injEq] at taken
        obtain ⟨rfl, rfl⟩ := taken
        simp only [Sound] at sound ⊢
        simp [sound]

/-- The message that a caller who asked for the next request is given. -/
def NextRequest.message? : NextRequest → Option Message
  | request message => some message
  | blocked | closed => none

namespace RequestQueue

variable {queue rest : RequestQueue} {message : Message}

/-! ## What each call does -/

/-- The rounds of an asynchronous queue. -/
def rounds? : RequestQueue → Option Rounds
  | .sync _ => none
  | .async rounds _ => some rounds

theorem eq_sync (policy : queue.rounds? = none) :
    ∃ slots, queue = .sync slots := by
  cases queue with
  | sync slots => exact ⟨slots, rfl⟩
  | async => cases policy

theorem eq_async {rounds : Rounds} (policy : queue.rounds? = some rounds) :
    ∃ slots, queue = .async rounds slots := by
  cases queue with
  | sync => cases policy
  | async own slots =>
      cases policy
      exact ⟨slots, rfl⟩

theorem enqueue_sync {slots : RoundRobin Fifo} :
    (RequestQueue.sync slots).enqueue message = .ok rest ↔
      ∃ key, message.routingKey = .ok key ∧
        ∃ after, slots.push Fifo.discipline key message = .ok after ∧
          .sync after = rest := by
  simp [enqueue, Outcome.bind_eq_ok, pure, Except.pure]

theorem enqueue_async {rounds : Rounds} {slots : RoundRobin PhasedSlot} :
    (RequestQueue.async rounds slots).enqueue message = .ok rest ↔
      ∃ key, message.routingKey = .ok key ∧
        ∃ after,
          slots.push (PhasedSlot.discipline rounds) key message = .ok after ∧
          .async rounds after = rest := by
  simp [enqueue, Outcome.bind_eq_ok, pure, Except.pure]

theorem tryNext_sync {slots : RoundRobin Fifo} {found : Option Message} :
    (RequestQueue.sync slots).tryNext = (found, rest) ↔
      ∃ after, slots.scan Fifo.discipline = (found, after) ∧ .sync after = rest := by
  rcases scanned : slots.scan Fifo.discipline with ⟨first, after⟩
  simp [tryNext, scanned, and_assoc]

theorem tryNext_async {rounds : Rounds} {slots : RoundRobin PhasedSlot}
    {found : Option Message} :
    (RequestQueue.async rounds slots).tryNext = (found, rest) ↔
      ∃ after, slots.scan (PhasedSlot.discipline rounds) = (found, after) ∧
        .async rounds after = rest := by
  rcases scanned : slots.scan (PhasedSlot.discipline rounds) with ⟨first, after⟩
  simp [tryNext, scanned, and_assoc]

/-- An asynchronous queue accepts a message that it can schedule as long as fewer than
a whole round of its class wait for its key. -/
theorem exists_enqueue_iff {rounds : Rounds} {slots : RoundRobin PhasedSlot}
    {key : String} (routed : message.routingKey = .ok key) :
    (∃ rest, (RequestQueue.async rounds slots).enqueue message = .ok rest) ↔
      ((slots.slot (PhasedSlot.discipline rounds) key).waiting message.phase).length <
        rounds.size := by
  rw [← PhasedSlot.exists_insert_iff rounds _ key message]
  simp only [enqueue_async, routed, Except.ok.injEq, RoundRobin.push_eq,
    Outcome.map_eq_ok]
  constructor
  · rintro ⟨_, _, rfl, _, ⟨after, inserted, _⟩, _⟩
    exact ⟨after, inserted⟩
  · rintro ⟨after, inserted⟩
    exact ⟨_, key, rfl, _, ⟨after, inserted, rfl⟩, rfl⟩

theorem enqueue_frame (enqueued : queue.enqueue message = .ok rest) :
    rest.rounds? = queue.rounds? ∧ rest.isClosed = queue.isClosed := by
  cases queue with
  | sync slots =>
      obtain ⟨key, _, after, pushed, rfl⟩ := enqueue_sync.mp enqueued
      rw [RoundRobin.push_eq] at pushed
      obtain ⟨_, _, rfl⟩ := Outcome.map_eq_ok.mp pushed
      exact ⟨rfl, rfl⟩
  | async rounds slots =>
      obtain ⟨key, _, after, pushed, rfl⟩ := enqueue_async.mp enqueued
      rw [RoundRobin.push_eq] at pushed
      obtain ⟨_, _, rfl⟩ := Outcome.map_eq_ok.mp pushed
      exact ⟨rfl, rfl⟩

theorem routingKey_of_enqueue (enqueued : queue.enqueue message = .ok rest) :
    ∃ key, message.routingKey = .ok key := by
  cases queue with
  | sync slots =>
      obtain ⟨key, routed, _⟩ := enqueue_sync.mp enqueued
      exact ⟨key, routed⟩
  | async rounds slots =>
      obtain ⟨key, routed, _⟩ := enqueue_async.mp enqueued
      exact ⟨key, routed⟩

/-- A message that cannot be scheduled costs no more than itself. -/
theorem isFatal_of_routingKey {error : Error}
    (unrouted : message.routingKey = .error error) : error.isFatal = false := by
  unfold Message.routingKey routingKey at unrouted
  split at unrouted
  all_goals
    simp only [Outcome.map_eq_error, Wire.decode, Except.error.injEq] at unrouted
  all_goals
    first
      | subst unrouted; rfl
      | split at unrouted
        · cases unrouted
        · cases unrouted
          rfl

theorem enqueue_of_unrouted {error : Error} (unrouted : message.routingKey = .error error) :
    queue.enqueue message = .error error := by
  cases queue <;> (rw [enqueue, unrouted]; rfl)

theorem routingKey_of_fatal {error : Error}
    (refused : queue.enqueue message = .error error) (severe : error.isFatal = true) :
    ∃ key, message.routingKey = .ok key := by
  cases routed : message.routingKey with
  | ok key => exact ⟨key, rfl⟩
  | error mild =>
      cases (enqueue_of_unrouted routed).symm.trans refused
      rw [isFatal_of_routingKey routed] at severe
      cases severe

theorem sync_enqueue_of_routed {slots : RoundRobin Fifo} {key : String}
    (routed : message.routingKey = .ok key) :
    (RequestQueue.sync slots).enqueue message =
      RequestQueue.sync <$> slots.push Fifo.discipline key message := by
  rw [enqueue, routed]
  exact (map_eq_pure_bind RequestQueue.sync
    (slots.push Fifo.discipline key message)).symm

theorem async_enqueue_of_routed {rounds : Rounds} {slots : RoundRobin PhasedSlot}
    {key : String} (routed : message.routingKey = .ok key) :
    (RequestQueue.async rounds slots).enqueue message =
      RequestQueue.async rounds <$>
        slots.push (PhasedSlot.discipline rounds) key message := by
  rw [enqueue, routed]
  exact (map_eq_pure_bind (RequestQueue.async rounds)
    (slots.push (PhasedSlot.discipline rounds) key message)).symm

/-- A queue refuses a message that it can schedule only for its capacity. -/
theorem eq_capacityExceeded_of_enqueue {key : String} {error : Error}
    (routed : message.routingKey = .ok key)
    (refused : queue.enqueue message = .error error) :
    ∃ list capacity, error = .capacityExceeded key list capacity := by
  cases queue with
  | sync slots =>
      rw [sync_enqueue_of_routed routed, RoundRobin.push_eq, Outcome.map_eq_error,
        Outcome.map_eq_error] at refused
      cases refused
  | async rounds slots =>
      rw [async_enqueue_of_routed routed, RoundRobin.push_eq, Outcome.map_eq_error,
        Outcome.map_eq_error] at refused
      exact ⟨_, _, PhasedSlot.eq_capacityExceeded_of_insert refused⟩

theorem routingKey_of_enqueue_error {error : Error}
    (refused : queue.enqueue message = .error error) (mild : error.isFatal = false)
    (key : String) : message.routingKey ≠ .ok key := by
  intro routed
  have ⟨_, _, full⟩ := eq_capacityExceeded_of_enqueue routed refused
  rw [full] at mild
  cases mild

/-- Whether a queue refuses a message for its capacity. -/
def Overflows (message : Message) (queue : RequestQueue) : Prop :=
  ∃ key list capacity, queue.enqueue message = .error (.capacityExceeded key list capacity)

instance (message : Message) (queue : RequestQueue) :
    Decidable (queue.Overflows message) :=
  let full : Bool :=
    match queue.enqueue message with
    | .error (.capacityExceeded ..) => true
    | _ => false
  decidable_of_iff (full = true) (by
    simp only [full, Overflows]
    split <;> simp_all)

theorem routingKey_of_overflows (full : queue.Overflows message) :
    ∃ key, message.routingKey = .ok key := by
  obtain ⟨_, _, _, refused⟩ := full
  exact routingKey_of_fatal refused rfl

/-- What a queue can schedule and does not overflow is accepted. -/
theorem exists_enqueue_of_not_overflows {key : String}
    (routed : message.routingKey = .ok key) (fits : ¬ queue.Overflows message) :
    ∃ rest, queue.enqueue message = .ok rest := by
  cases enqueued : queue.enqueue message with
  | ok rest => exact ⟨rest, rfl⟩
  | error error =>
      have ⟨list, capacity, full⟩ := eq_capacityExceeded_of_enqueue routed enqueued
      exact absurd ⟨key, list, capacity, full ▸ enqueued⟩ fits

theorem tryNext_of_nextRequest
    (asked : queue.nextRequest = (.request message, rest)) :
    queue.isClosed = false ∧ queue.tryNext = (some message, rest) := by
  unfold nextRequest at asked
  split at asked
  · cases asked
  · rename_i opened
    refine ⟨Bool.eq_false_iff.mpr opened, ?_⟩
    rcases found : queue.tryNext with ⟨_ | first, after⟩
    · rw [found] at asked
      cases asked
    · rw [found] at asked
      cases asked
      rfl

theorem of_nextRequest_none {outcome : NextRequest}
    (asked : queue.nextRequest = (outcome, rest))
    (nothing : ∀ message, outcome ≠ .request message) :
    rest = queue ∨ queue.tryNext = (none, rest) := by
  unfold nextRequest at asked
  split at asked
  · cases asked
    exact Or.inl rfl
  · rcases found : queue.tryNext with ⟨_ | first, after⟩
    · rw [found] at asked
      cases asked
      exact Or.inr rfl
    · rw [found] at asked
      cases asked
      exact absurd rfl (nothing first)

theorem scan_closed {σ : Type} (discipline : Discipline σ) (slots : RoundRobin σ) :
    (slots.scan discipline).2.closed = slots.closed := by
  rcases scanned : slots.scan discipline with ⟨_ | found, after⟩
  · exact (RoundRobin.scanFor_none scanned).2
  · obtain ⟨_, _, _, _, _, _, _, closed⟩ := RoundRobin.scanFor_some scanned
    exact closed

theorem tryNext_frame (queue : RequestQueue) :
    queue.tryNext.2.rounds? = queue.rounds? ∧
      queue.tryNext.2.isClosed = queue.isClosed := by
  cases queue with
  | sync slots => exact ⟨rfl, scan_closed Fifo.discipline slots⟩
  | async rounds slots =>
      exact ⟨rfl, scan_closed (PhasedSlot.discipline rounds) slots⟩

@[simp]
theorem rounds?_close (queue : RequestQueue) :
    queue.close.rounds? = queue.rounds? := by
  cases queue <;> rfl

@[simp]
theorem isClosed_close (queue : RequestQueue) :
    queue.close.isClosed = true := by
  cases queue <;> rfl

/-! ## Sound slots -/

/-- Every slot is sound for the messages of its key. -/
def Tracks (accepted returned : List Message) : RequestQueue → Prop
  | .sync slots =>
      slots.Tracks Fifo.discipline Fifo.Sound accepted returned
  | .async rounds slots =>
      0 < rounds.size ∧
        slots.Tracks (PhasedSlot.discipline rounds) (PhasedSlot.Sound rounds)
          accepted returned

namespace Tracks

variable {accepted returned : List Message}

theorem synchronous : RequestQueue.synchronous.Tracks [] [] :=
  RoundRobin.Tracks.initial Fifo.discipline_keeps

theorem asynchronous (memoryServers : Nat) (flips : Bool) :
    (RequestQueue.asynchronous memoryServers flips).Tracks [] [] := by
  have positive : 0 < max memoryServers 1 := by omega
  exact ⟨positive,
    RoundRobin.Tracks.initial (PhasedSlot.discipline_keeps positive)⟩

theorem ofConfig (config : EngineConfig) :
    (RequestQueue.ofConfig config).Tracks [] [] := by
  unfold RequestQueue.ofConfig
  split
  · exact synchronous
  · exact asynchronous _ _

theorem enqueue
    (tracks : queue.Tracks accepted returned)
    (enqueued : queue.enqueue message = .ok rest) :
    rest.Tracks (accepted ++ [message]) returned := by
  cases queue with
  | sync slots =>
      obtain ⟨key, routed, after, pushed, rfl⟩ := enqueue_sync.mp enqueued
      exact RoundRobin.Tracks.push Fifo.discipline_keeps tracks routed pushed
  | async rounds slots =>
      obtain ⟨key, routed, after, pushed, rfl⟩ := enqueue_async.mp enqueued
      obtain ⟨positive, tracks⟩ := tracks
      exact ⟨positive, tracks.push (PhasedSlot.discipline_keeps positive)
        routed pushed⟩

/-- A message that the queue returns can be scheduled, and every slot stays sound. -/
theorem tryNext_some
    (tracks : queue.Tracks accepted returned)
    (found : queue.tryNext = (some message, rest)) :
    (∃ key, message.routingKey = .ok key) ∧
      rest.Tracks accepted (returned ++ [message]) := by
  cases queue with
  | sync slots =>
      obtain ⟨after, scanned, rfl⟩ := tryNext_sync.mp found
      obtain ⟨key, _, routed, _, kept⟩ :=
        RoundRobin.Tracks.scan_some Fifo.discipline_keeps tracks scanned
      exact ⟨⟨key, routed⟩, kept⟩
  | async rounds slots =>
      obtain ⟨after, scanned, rfl⟩ := tryNext_async.mp found
      obtain ⟨positive, tracks⟩ := tracks
      obtain ⟨key, _, routed, _, kept⟩ :=
        tracks.scan_some (PhasedSlot.discipline_keeps positive) scanned
      exact ⟨⟨key, routed⟩, positive, kept⟩

theorem tryNext_none
    (tracks : queue.Tracks accepted returned)
    (missed : queue.tryNext = (none, rest)) :
    rest.Tracks accepted returned := by
  cases queue with
  | sync slots =>
      obtain ⟨after, scanned, rfl⟩ := tryNext_sync.mp missed
      exact RoundRobin.Tracks.congr tracks (RoundRobin.scanFor_none scanned).1
  | async rounds slots =>
      obtain ⟨after, scanned, rfl⟩ := tryNext_async.mp missed
      exact ⟨tracks.1, tracks.2.congr (RoundRobin.scanFor_none scanned).1⟩

theorem close (tracks : queue.Tracks accepted returned) :
    queue.close.Tracks accepted returned := by
  cases queue with
  | sync slots => exact RoundRobin.Tracks.congr tracks rfl
  | async rounds slots => exact ⟨tracks.1, tracks.2.congr rfl⟩

end Tracks

/-! ## Runs of calls -/

/-- A call on a request queue. -/
inductive Call where
  | enqueue (message : Message)
  | tryNext
  /-- One attempt of a caller that waits for the next request. -/
  | nextRequest
  | close
deriving DecidableEq, Repr

/-- The message that a call asks a queue to accept. -/
def Call.asked? : Call → Option Message
  | .enqueue message => some message
  | _ => none

/-- The call by which a source puts an empty value under a key. -/
def Call.put (key : String) (source : Rank) : Call :=
  .enqueue ⟨.putRequest, source, Wire.encode (⟨key, {}⟩ : PutRequest)⟩

/-- The call by which a source asks for the value of a key. -/
def Call.get (key : String) (source : Rank) : Call :=
  .enqueue ⟨.getRequest, source, Wire.encode (⟨key⟩ : GetRequest)⟩

/-- What some calls ask a queue to accept for a key. -/
def asked (key : String) (calls : List Call) : List Message :=
  (calls.filterMap Call.asked?).filter (Message.isFor key)

theorem asked_append (key : String) (calls more : List Call) :
    asked key (calls ++ more) = asked key calls ++ asked key more := by
  rw [asked, List.filterMap_append, List.filter_append]
  rfl

theorem asked_concat (key : String) (calls : List Call) (call : Call) :
    asked key (calls ++ [call]) =
      asked key calls ++ call.asked?.toList.filter (Message.isFor key) := by
  rw [asked_append]
  cases asks : call.asked? <;> simp [asked, asks]

/-- A request queue with the messages that it has accepted and returned, both in
order. -/
structure History where
  queue : RequestQueue
  accepted : List Message := []
  returned : List Message := []

namespace History

/-- Makes one call; a refused message leaves everything as it was. -/
def step (history : History) : Call → History
  | .enqueue message =>
      match history.queue.enqueue message with
      | .ok queue =>
          { history with queue, accepted := history.accepted ++ [message] }
      | .error _ => history
  | .tryNext =>
      match history.queue.tryNext with
      | (some message, queue) =>
          { history with queue, returned := history.returned ++ [message] }
      | (none, queue) => { history with queue }
  | .nextRequest =>
      match history.queue.nextRequest with
      | (.request message, queue) =>
          { history with queue, returned := history.returned ++ [message] }
      | (.blocked, queue) => { history with queue }
      | (.closed, queue) => { history with queue }
  | .close => { history with queue := history.queue.close }

/-- Makes calls in order, from a queue that has accepted and returned nothing. -/
def run (queue : RequestQueue) (calls : List Call) : History :=
  calls.foldl step { queue }

/-- A call gets a message accepted, or returns one, or does neither. -/
theorem step_cases (history : History) (call : Call) :
    (∃ message rest,
      history.queue.enqueue message = .ok rest ∧
        history.step call =
          { history with queue := rest, accepted := history.accepted ++ [message] }) ∨
    (∃ message rest,
      history.queue.tryNext = (some message, rest) ∧
        history.step call =
          { history with queue := rest, returned := history.returned ++ [message] }) ∨
    ∃ rest,
      (rest = history.queue ∨ history.queue.tryNext = (none, rest) ∨
          rest = history.queue.close) ∧
        history.step call = { history with queue := rest } := by
  cases call with
  | enqueue message =>
      cases enqueued : history.queue.enqueue message with
      | ok rest => exact Or.inl ⟨message, rest, enqueued, by simp [step, enqueued]⟩
      | error =>
          exact Or.inr (Or.inr ⟨history.queue, Or.inl rfl, by simp [step, enqueued]⟩)
  | tryNext =>
      rcases found : history.queue.tryNext with ⟨_ | message, rest⟩
      · exact Or.inr (Or.inr ⟨rest, Or.inr (Or.inl rfl), by simp [step, found]⟩)
      · exact Or.inr (Or.inl ⟨message, rest, rfl, by simp [step, found]⟩)
  | nextRequest =>
      rcases asked : history.queue.nextRequest with ⟨outcome, rest⟩
      cases outcome with
      | request message =>
          exact Or.inr (Or.inl ⟨message, rest, (tryNext_of_nextRequest asked).2,
            by simp [step, asked]⟩)
      | blocked | closed =>
          exact Or.inr (Or.inr ⟨rest,
            (of_nextRequest_none asked (by simp)).imp id Or.inl,
            by simp [step, asked]⟩)
  | close => exact Or.inr (Or.inr ⟨_, Or.inr (Or.inr rfl), rfl⟩)

theorem step_tryNext (history : History) :
    history.step .tryNext =
      { history with
        queue := history.queue.tryNext.2
        returned := history.returned ++ history.queue.tryNext.1.toList } := by
  rcases found : history.queue.tryNext with ⟨_ | message, rest⟩ <;> simp [step, found]

theorem step_nextRequest (history : History) :
    history.step .nextRequest =
      { history with
        queue := history.queue.nextRequest.2
        returned := history.returned ++
          history.queue.nextRequest.1.message?.toList } := by
  rcases asked : history.queue.nextRequest with ⟨_ | _ | _, rest⟩ <;>
    simp [step, asked, NextRequest.message?]

/-- A call that does not ask for anything to be accepted returns a message or does
not. -/
theorem step_of_not_asked (history : History) {call : Call}
    (other : call.asked? = none) :
    (history.step call).accepted = history.accepted ∧
      ∃ found : Option Message,
        (history.step call).returned = history.returned ++ found.toList := by
  cases call with
  | enqueue message => cases other
  | tryNext =>
      rw [step_tryNext]
      exact ⟨rfl, _, rfl⟩
  | nextRequest =>
      rw [step_nextRequest]
      exact ⟨rfl, _, rfl⟩
  | close => exact ⟨rfl, none, (List.append_nil _).symm⟩

theorem returned_step_of_asked (history : History) {call : Call} {message : Message}
    (asks : call.asked? = some message) :
    (history.step call).returned = history.returned := by
  cases call with
  | enqueue other => cases enqueued : history.queue.enqueue other <;> simp [step, enqueued]
  | tryNext | nextRequest | close => cases asks

/-- What a call asks a queue to accept for a key is accepted, if the queue accepts
it. -/
theorem filter_accepted_step (history : History) (call : Call) (key : String)
    (accepts : ∀ message ∈ call.asked?, message.isFor key = true →
      ∃ rest, history.queue.enqueue message = .ok rest) :
    (history.step call).accepted.filter (Message.isFor key) =
      history.accepted.filter (Message.isFor key) ++
        call.asked?.toList.filter (Message.isFor key) := by
  cases asks : call.asked? with
  | none =>
      rw [(history.step_of_not_asked asks).1]
      exact (List.append_nil _).symm
  | some message =>
      obtain rfl : call = .enqueue message := by
        cases call <;> cases asks
        rfl
      by_cases own : message.isFor key = true
      · have ⟨rest, enqueued⟩ := accepts message rfl own
        simp [step, enqueued]
      · cases enqueued : history.queue.enqueue message <;> simp [step, enqueued, own]

/-- The slots are sound for what was accepted and returned. -/
def Tracked (history : History) : Prop :=
  history.queue.Tracks history.accepted history.returned

theorem Tracked.step {history : History} (tracked : history.Tracked)
    (call : Call) : (history.step call).Tracked := by
  rcases history.step_cases call with ⟨message, rest, enqueued, after⟩ |
    ⟨message, rest, found, after⟩ | ⟨rest, silent, after⟩ <;>
    rw [after]
  · exact Tracks.enqueue tracked enqueued
  · exact (Tracks.tryNext_some tracked found).2
  · rcases silent with rfl | missed | rfl
    · exact tracked
    · exact Tracks.tryNext_none tracked missed
    · exact Tracks.close tracked

theorem rounds?_step (history : History) (call : Call) :
    (history.step call).queue.rounds? = history.queue.rounds? := by
  have frame := (tryNext_frame history.queue).1
  rcases history.step_cases call with ⟨message, rest, enqueued, after⟩ |
    ⟨message, rest, found, after⟩ | ⟨rest, silent, after⟩ <;>
    rw [after]
  · exact (enqueue_frame enqueued).1
  · rwa [found] at frame
  · rcases silent with rfl | missed | rfl
    · rfl
    · rwa [missed] at frame
    · exact rounds?_close history.queue

theorem run_concat (queue : RequestQueue) (calls : List Call) (call : Call) :
    run queue (calls ++ [call]) = (run queue calls).step call := by
  simp [run]

/-- Whatever the calls, every slot stays sound. -/
theorem tracked_run {queue : RequestQueue} (fresh : queue.Tracks [] [])
    (calls : List Call) : (run queue calls).Tracked := by
  induction calls using List.reverseRecOn with
  | nil => exact fresh
  | append_singleton calls call inductionHypothesis =>
      rw [run_concat]
      exact inductionHypothesis.step call

theorem rounds?_run (queue : RequestQueue) (calls : List Call) :
    (run queue calls).queue.rounds? = queue.rounds? := by
  induction calls using List.reverseRecOn with
  | nil => rfl
  | append_singleton calls call inductionHypothesis =>
      rw [run_concat, rounds?_step, inductionHypothesis]

end History

end RequestQueue

end ParameterServer

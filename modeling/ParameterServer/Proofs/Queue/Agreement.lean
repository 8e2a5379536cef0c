import ParameterServer.Proofs.Queue.Fairness

/-!
# Agreement of the disciplines

As long as the messages of every key are accepted in the order of its rounds, the oldest
message of a key is the one that its phase calls for.  A synchronous and an asynchronous
queue then give the same messages, and their keys and cursors stay in step.
-/

namespace ParameterServer

open Queue

/-! ## Round robins in step -/

namespace Queue.RoundRobin

variable {σ τ : Type} {discipline : Discipline σ} {other : Discipline τ}

/-- The message that the slot of a key has to give. -/
def offer? (discipline : Discipline σ) (key : String) (queue : RoundRobin σ) :
    Option Message :=
  (discipline.take (queue.slot discipline key)).map Prod.fst

/-- Two round robins are at the same place, whatever their slots hold. -/
structure Alike (first : RoundRobin σ) (second : RoundRobin τ) : Prop where
  keys : first.slots.map Prod.fst = second.slots.map Prod.fst
  cursor : first.cursor = second.cursor
  pending : first.pending = second.pending
  closed : first.closed = second.closed

namespace Alike

variable {first : RoundRobin σ} {second : RoundRobin τ} {key : String}
  {message : Message}

theorem symm (alike : Alike first second) : Alike second first :=
  ⟨alike.keys.symm, alike.cursor.symm, alike.pending.symm, alike.closed.symm⟩

theorem keyCount (alike : Alike first second) : first.keyCount = second.keyCount := by
  have lengths := congrArg List.length alike.keys
  simpa [RoundRobin.keyCount] using lengths

theorem visited (alike : Alike first second) (others : Nat) :
    first.visited others = second.visited others := by
  rw [RoundRobin.visited, RoundRobin.visited, alike.cursor, alike.keyCount]

theorem advanced (alike : Alike first second) : Alike first.advanced second.advanced where
  keys := alike.keys
  cursor := by
    simp only [RoundRobin.advanced, alike.cursor, alike.keyCount]
  pending := alike.pending
  closed := alike.closed

theorem push {firstAfter : RoundRobin σ} {secondAfter : RoundRobin τ}
    (alike : Alike first second)
    (firstPushed : first.push discipline key message = .ok firstAfter)
    (secondPushed : second.push other key message = .ok secondAfter) :
    Alike firstAfter secondAfter := by
  rw [push_eq, Outcome.map_eq_ok] at firstPushed secondPushed
  obtain ⟨_, _, rfl⟩ := firstPushed
  obtain ⟨_, _, rfl⟩ := secondPushed
  refine ⟨?_, alike.cursor, ?_, alike.closed⟩
  · simp only [Association.keys_assign, alike.keys]
  · simp only [alike.pending]

section Offers

variable (distinct : (first.slots.map Prod.fst).Nodup)
  (same : ∀ key, first.offer? discipline key = second.offer? other key)

include distinct same

/-- What the first gives at a position, the second gives as well. -/
theorem taken (alike : Alike first second) {position : Nat} {before after : σ}
    (occupied : first.slots[position]? = some (key, before))
    (taken : discipline.take before = some (message, after)) :
    ∃ slot rest, second.slots[position]? = some (key, slot) ∧
      other.take slot = some (message, rest) := by
  have listed : (second.slots.map Prod.fst)[position]? = some key := by
    rw [← alike.keys, List.getElem?_map, occupied]
    rfl
  rw [List.getElem?_map, Option.map_eq_some_iff] at listed
  obtain ⟨⟨name, slot⟩, held, rfl⟩ := listed
  have offered := same name
  rw [offer?, offer?, slot_of_getElem? discipline distinct occupied,
    slot_of_getElem? other (alike.keys ▸ distinct) held, taken, Option.map_some,
    eq_comm, Option.map_eq_some_iff] at offered
  obtain ⟨⟨found, rest⟩, given, rfl⟩ := offered
  exact ⟨slot, rest, held, given⟩

theorem scanFor (alike : Alike first second) (visits : Nat) :
    (RoundRobin.scanFor discipline visits first).1 =
        (RoundRobin.scanFor other visits second).1 ∧
      Alike (RoundRobin.scanFor discipline visits first).2
        (RoundRobin.scanFor other visits second).2 := by
  induction visits generalizing first second with
  | zero => exact ⟨rfl, alike⟩
  | succ visits inductionHypothesis =>
      have place := alike.visited 0
      rcases scanFor_succ discipline visits first with
        ⟨firstIdle, firstGoesOn⟩ |
        ⟨key, before, message, after, occupied, taken, firstStops⟩ <;>
        rcases scanFor_succ other visits second with
          ⟨secondIdle, secondGoesOn⟩ |
          ⟨name, slot, found, rest, held, given, secondStops⟩
      · rw [firstGoesOn, secondGoesOn]
        exact inductionHypothesis distinct same alike.advanced
      · have ⟨_, _, occupied, taken⟩ := alike.symm.taken (alike.keys ▸ distinct)
          (fun key => (same key).symm) held given
        have idle := firstIdle name _ (place ▸ occupied)
        cases taken.symm.trans idle
      · have ⟨_, _, held, given⟩ := alike.taken distinct same occupied taken
        have idle := secondIdle key _ (place ▸ held)
        cases given.symm.trans idle
      · have ⟨_, _, own, gives⟩ := alike.taken distinct same occupied taken
        rw [place, held] at own
        cases own
        cases given.symm.trans gives
        rw [firstStops, secondStops]
        refine ⟨rfl, ?_, alike.advanced.cursor, ?_, alike.closed⟩
        · simp only [List.map_set, alike.keys, place]
        · simp only [alike.pending]

end Offers

end Alike

end Queue.RoundRobin

/-! ## Slots -/

theorem Queue.Fifo.offer?_eq (key : String) (queue : RoundRobin Fifo) :
    queue.offer? Fifo.discipline key = (queue.slot Fifo.discipline key).head? := by
  unfold RoundRobin.offer?
  cases queue.slot Fifo.discipline key <;> rfl

/-- If the messages of a key were accepted in the order of its rounds, then its slot
gives the oldest that waits. -/
theorem Queue.PhasedSlot.Sound.take_eq_head? {rounds : Rounds}
    {accepted returned waiting : List Message} {slot : PhasedSlot}
    (sound : Sound rounds accepted returned slot)
    (order : Follows Message.phase rounds.word accepted)
    (whole : accepted = returned ++ waiting) :
    (slot.take rounds).map Prod.fst = waiting.head? := by
  have held : slot.waiting slot.phase = waiting.filter (Message.isOf slot.phase) := by
    have conserved := sound.conserved slot.phase
    rw [whole, List.filter_append] at conserved
    exact (List.append_cancel_left conserved).symm
  cases waiting with
  | nil =>
      rw [take_eq_none_iff.mpr held]
      rfl
  | cons oldest rest =>
      rw [whole] at order
      have turn : oldest.phase = slot.phase := order.of_split.2.trans sound.phase.symm
      rw [List.filter_cons_of_pos (by simp [Message.isOf, turn])] at held
      cases taken : slot.take rounds with
      | none =>
          rw [take_eq_none_iff.mp taken] at held
          cases held
      | some result =>
          have given := (of_take taken).1
          rw [held] at given
          exact congrArg some (List.cons.inj given).1.symm

/-! ## Request queues in step -/

namespace RequestQueue

variable {rounds : Rounds} {first second : RequestQueue} {message : Message}
  {accepted returned : List Message}

/-- A synchronous and an asynchronous queue are at the same place. -/
def Alike (rounds : Rounds) (first second : RequestQueue) : Prop :=
  ∃ fifo phased, first = .sync fifo ∧ second = .async rounds phased ∧
    RoundRobin.Alike fifo phased

namespace Alike

theorem fresh (memoryServers : Nat) (flips : Bool) :
    Alike ⟨max memoryServers 1, flips⟩ .synchronous (.asynchronous memoryServers flips) :=
  ⟨{}, {}, rfl, rfl, rfl, rfl, rfl, rfl⟩

theorem pending (alike : Alike rounds first second) : first.pending = second.pending := by
  obtain ⟨fifo, phased, rfl, rfl, same⟩ := alike
  exact same.pending

theorem keyCount (alike : Alike rounds first second) :
    first.keyCount = second.keyCount := by
  obtain ⟨fifo, phased, rfl, rfl, same⟩ := alike
  exact same.keyCount

theorem isClosed (alike : Alike rounds first second) :
    first.isClosed = second.isClosed := by
  obtain ⟨fifo, phased, rfl, rfl, same⟩ := alike
  exact same.closed

theorem close (alike : Alike rounds first second) :
    Alike rounds first.close second.close := by
  obtain ⟨fifo, phased, rfl, rfl, same⟩ := alike
  exact ⟨_, _, rfl, rfl, same.keys, same.cursor, same.pending, rfl⟩

/-- Both accept a message, or neither can schedule it. -/
theorem enqueue (alike : Alike rounds first second) (fits : ¬ second.Overflows message) :
    (∃ firstRest secondRest, first.enqueue message = .ok firstRest ∧
      second.enqueue message = .ok secondRest ∧ Alike rounds firstRest secondRest) ∨
    ∃ error, first.enqueue message = .error error ∧
      second.enqueue message = .error error := by
  cases routed : message.routingKey with
  | error error =>
      exact Or.inr ⟨error, enqueue_of_unrouted routed, enqueue_of_unrouted routed⟩
  | ok key =>
      have ⟨secondRest, secondEnqueued⟩ := exists_enqueue_of_not_overflows routed fits
      obtain ⟨fifo, phased, rfl, rfl, same⟩ := alike
      obtain ⟨name, own, secondAfter, secondPushed, rfl⟩ :=
        enqueue_async.mp secondEnqueued
      cases routed.symm.trans own
      have ⟨firstAfter, firstPushed⟩ :
          ∃ after, fifo.push Fifo.discipline key message = .ok after :=
        ⟨_, RoundRobin.push_eq key message fifo⟩
      exact Or.inl ⟨_, _, enqueue_sync.mpr ⟨key, routed, firstAfter, firstPushed, rfl⟩,
        secondEnqueued, _, _, rfl, rfl, same.push firstPushed secondPushed⟩

section Order

variable (firstTracks : first.Tracks accepted returned)
  (secondTracks : second.Tracks accepted returned)
  (order : ∀ key,
    Follows Message.phase rounds.word (accepted.filter (Message.isFor key)))

include firstTracks secondTracks order

theorem tryNext (alike : Alike rounds first second) :
    first.tryNext.1 = second.tryNext.1 ∧
      Alike rounds first.tryNext.2 second.tryNext.2 := by
  obtain ⟨fifo, phased, rfl, rfl, same⟩ := alike
  have offers (key : String) : fifo.offer? Fifo.discipline key =
      phased.offer? (PhasedSlot.discipline rounds) key := by
    rw [Fifo.offer?_eq]
    exact ((secondTracks.2.sound key).take_eq_head? (order key)
      (RoundRobin.Tracks.sound firstTracks key)).symm
  have ⟨found, after⟩ :=
    same.scanFor (RoundRobin.Tracks.distinct firstTracks) offers fifo.keyCount
  have count : phased.scan (PhasedSlot.discipline rounds) =
      RoundRobin.scanFor (PhasedSlot.discipline rounds) fifo.keyCount phased := by
    rw [same.keyCount]
    rfl
  simp only [RequestQueue.tryNext, count]
  exact ⟨found, _, _, rfl, rfl, after⟩

theorem nextRequest (alike : Alike rounds first second) :
    first.nextRequest.1 = second.nextRequest.1 ∧
      Alike rounds first.nextRequest.2 second.nextRequest.2 := by
  have ⟨found, after⟩ := alike.tryNext firstTracks secondTracks order
  unfold RequestQueue.nextRequest
  rw [alike.isClosed]
  split
  · exact ⟨rfl, alike⟩
  · rcases firstFound : first.tryNext with ⟨firstMessage, firstRest⟩
    rcases secondFound : second.tryNext with ⟨secondMessage, secondRest⟩
    rw [firstFound, secondFound] at found after
    simp only at found after
    subst secondMessage
    cases firstMessage with
    | none => exact ⟨rfl, after⟩
    | some message => exact ⟨rfl, after⟩

end Order

end Alike

/-! ## Runs in step -/

/-- What a call gives back. -/
inductive Answer where
  | accepted (outcome : Except Error Unit)
  | taken (found : Option Message)
  | next (outcome : NextRequest)
  | done

def answer (queue : RequestQueue) : Call → Answer
  | .enqueue message => .accepted ((fun _ => ()) <$> queue.enqueue message)
  | .tryNext => .taken queue.tryNext.1
  | .nextRequest => .next queue.nextRequest.1
  | .close => .done

namespace History

/-- Two histories of the same messages, with queues that are at the same place. -/
structure InStep (rounds : Rounds) (first second : History) : Prop where
  accepted : first.accepted = second.accepted
  returned : first.returned = second.returned
  queues : Alike rounds first.queue second.queue

theorem InStep.step {first second : History} (inStep : InStep rounds first second)
    (firstTracked : first.Tracked) (secondTracked : second.Tracked) {call : Call}
    (fits : ∀ message ∈ call.asked?, ¬ second.queue.Overflows message)
    (order : ∀ key,
      Follows Message.phase rounds.word (second.accepted.filter (Message.isFor key))) :
    first.queue.answer call = second.queue.answer call ∧
      InStep rounds (first.step call) (second.step call) := by
  have accepted := inStep.accepted
  have returned := inStep.returned
  have queues := inStep.queues
  rw [Tracked, accepted, returned] at firstTracked
  cases call with
  | enqueue message =>
      simp only [answer, History.step]
      rcases queues.enqueue (fits message rfl) with
        ⟨_, _, firstEnqueued, secondEnqueued, after⟩ | ⟨error, firstRefused, secondRefused⟩
      · rw [firstEnqueued, secondEnqueued]
        exact ⟨rfl, congrArg (· ++ [message]) accepted, returned, after⟩
      · rw [firstRefused, secondRefused]
        exact ⟨rfl, inStep⟩
  | tryNext =>
      obtain ⟨found, after⟩ := queues.tryNext firstTracked secondTracked order
      rw [step_tryNext, step_tryNext]
      exact ⟨congrArg Answer.taken found, accepted, by rw [returned, found], after⟩
  | nextRequest =>
      obtain ⟨found, after⟩ := queues.nextRequest firstTracked secondTracked order
      rw [step_nextRequest, step_nextRequest]
      exact ⟨congrArg Answer.next found, accepted, by rw [returned, found], after⟩
  | close => exact ⟨rfl, accepted, returned, queues.close⟩

/-- No call asks a queue for more than it has room for. -/
def Fits (queue : RequestQueue) (calls : List Call) : Prop :=
  Throughout
    (fun before call =>
      ∀ message ∈ call.asked?, ¬ (run queue before).queue.Overflows message)
    calls

instance (queue : RequestQueue) (calls : List Call) : Decidable (Fits queue calls) :=
  inferInstanceAs (Decidable (Throughout _ _))

theorem filter_accepted_run {queue : RequestQueue} {calls : List Call}
    (fits : Fits queue calls) (key : String) :
    (run queue calls).accepted.filter (Message.isFor key) = asked key calls := by
  induction calls using List.reverseRecOn with
  | nil => rfl
  | append_singleton calls call inductionHypothesis =>
      have ⟨earlier, last⟩ := throughout_concat.mp fits
      rw [run_concat, asked_concat, ← inductionHypothesis earlier]
      apply filter_accepted_step
      intro message asks own
      exact exists_enqueue_of_not_overflows (Message.isFor_iff.mp own) (last message asks)

/-- The calls ask for the messages of every key in the order of its rounds. -/
def Ordered (rounds : Rounds) (calls : List Call) : Prop :=
  ∀ key, Follows Message.phase rounds.word (asked key calls)

theorem Ordered.of_append {calls more : List Call}
    (ordered : Ordered rounds (calls ++ more)) : Ordered rounds calls := by
  intro key
  have follows := ordered key
  rw [asked_append] at follows
  exact follows.of_append

section Run

variable {memoryServers : Nat} {flips : Bool} {calls : List Call} {call : Call}

/-- One more call on two queues in step. -/
theorem InStep.run_concat (ordered : Ordered ⟨max memoryServers 1, flips⟩ calls)
    (fits : Fits (.asynchronous memoryServers flips) (calls ++ [call]))
    (inStep : InStep ⟨max memoryServers 1, flips⟩ (run .synchronous calls)
      (run (.asynchronous memoryServers flips) calls)) :
    (run .synchronous calls).queue.answer call =
        (run (.asynchronous memoryServers flips) calls).queue.answer call ∧
      InStep ⟨max memoryServers 1, flips⟩ (run .synchronous (calls ++ [call]))
        (run (.asynchronous memoryServers flips) (calls ++ [call])) := by
  have ⟨earlier, last⟩ := throughout_concat.mp fits
  rw [History.run_concat, History.run_concat]
  apply inStep.step (tracked_run Tracks.synchronous calls)
    (tracked_run (Tracks.asynchronous memoryServers flips) calls) last
  intro key
  rw [filter_accepted_run earlier key]
  exact ordered key

theorem inStep_run (ordered : Ordered ⟨max memoryServers 1, flips⟩ calls)
    (fits : Fits (.asynchronous memoryServers flips) calls) :
    InStep ⟨max memoryServers 1, flips⟩ (run .synchronous calls)
      (run (.asynchronous memoryServers flips) calls) := by
  induction calls using List.reverseRecOn with
  | nil => exact ⟨rfl, rfl, Alike.fresh memoryServers flips⟩
  | append_singleton calls call inductionHypothesis =>
      have ⟨earlier, _⟩ := throughout_concat.mp fits
      have inStep := inductionHypothesis ordered.of_append earlier
      exact (inStep.run_concat ordered.of_append fits).2

end Run

/-- If calls ask for the messages of every key in the order of its rounds, and never for
more than there is room for, then a fresh synchronous and a fresh asynchronous queue give
the same answer to every call, and have as many messages and keys after it. -/
theorem disciplines_agree (memoryServers : Nat) (flips : Bool) (calls : List Call)
    (ordered : Ordered ⟨max memoryServers 1, flips⟩ calls)
    (fits : Fits (.asynchronous memoryServers flips) calls) :
    Throughout
      (fun before call =>
        let first := run .synchronous before
        let second := run (.asynchronous memoryServers flips) before
        first.queue.answer call = second.queue.answer call ∧
          (first.step call).queue.pending = (second.step call).queue.pending ∧
          (first.step call).queue.keyCount = (second.step call).queue.keyCount)
      calls := by
  intro before call after split first second
  rw [split] at ordered
  rw [split, List.append_cons] at fits
  have fitting : Fits (.asynchronous memoryServers flips) (before ++ [call]) :=
    Throughout.of_append fits
  have inStep := inStep_run ordered.of_append (throughout_concat.mp fitting).1
  have ⟨same, after⟩ := inStep.run_concat ordered.of_append fitting
  rw [run_concat, run_concat] at after
  exact ⟨same, after.queues.pending, after.queues.keyCount⟩

/-- Two sources put and ask for `a`, and another key joins. -/
def inOrder : List Call :=
  [.put "a" 0, .put "b" 1, .tryNext, .get "a" 0, .get "a" 1, .put "a" 1, .tryNext,
    .nextRequest, .tryNext, .tryNext]

theorem disciplines_agree_inOrder :
    (run .synchronous (inOrder.take 8)).queue.answer .tryNext =
        (run (.asynchronous 2 true) (inOrder.take 8)).queue.answer .tryNext ∧
      (run .synchronous inOrder).queue.pending =
        (run (.asynchronous 2 true) inOrder).queue.pending := by
  have routed : ∀ message ∈ inOrder.filterMap Call.asked?,
      message.isFor "a" = true ∨ message.isFor "b" = true := by
    decide +kernel
  have ordered : Ordered ⟨max 2 1, true⟩ inOrder := by
    intro key
    by_cases first : key = "a"
    · subst first
      decide +kernel
    · by_cases second : key = "b"
      · subst second
        decide +kernel
      · have none : asked key inOrder = [] := by
          apply List.filter_eq_nil_iff.mpr
          intro message listed own
          rw [Message.isFor_iff] at own
          rcases routed message listed with other | other
          · rw [Message.isFor_of_routingKey own] at other
            exact first (of_decide_eq_true other)
          · rw [Message.isFor_of_routingKey own] at other
            exact second (of_decide_eq_true other)
        rw [none]
        rfl
  have agree := disciplines_agree 2 true inOrder ordered (by decide +kernel)
  exact ⟨(agree (inOrder.take 8) .tryNext [.tryNext] rfl).1,
    (agree (inOrder.take 9) .tryNext [] rfl).2.1⟩

end History

end RequestQueue

end ParameterServer

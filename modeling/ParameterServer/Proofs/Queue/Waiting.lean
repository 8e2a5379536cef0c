import ParameterServer.Proofs.Queue.Trace

/-!
# What waits in a queue

A request queue holds what it has accepted and not yet returned, and counts it.
-/

namespace ParameterServer

open Queue

/-! ## The contents of slots -/

/-- `contents` lists the messages in a slot: a fresh one is empty, accepting adds a
message and taking removes one. -/
structure Queue.Discipline.Holds {σ : Type} (discipline : Discipline σ)
    (contents : σ → List Message) : Prop where
  fresh : contents discipline.fresh = []
  insert : ∀ {key : String} {message : Message} {slot after : σ},
    discipline.insert key message slot = .ok after →
      (contents after).Perm (message :: contents slot)
  take : ∀ {message : Message} {slot after : σ},
    discipline.take slot = some (message, after) →
      (contents slot).Perm (message :: contents after)

namespace Queue.RoundRobin

variable {σ : Type} {discipline : Discipline σ} {contents : σ → List Message}
  {message : Message}

/-- The messages in some slots, slot by slot. -/
def stock (contents : σ → List Message) (slots : List (String × σ)) : List Message :=
  slots.flatMap fun entry => contents entry.2

theorem stock_assign (holds : discipline.Holds contents) {key : String} {after : σ}
    {slots : List (String × σ)}
    (grows : (contents after).Perm
      (message :: contents ((slots.lookup key).getD discipline.fresh))) :
    (stock contents (Association.assign key after slots)).Perm
      (message :: stock contents slots) := by
  induction slots with
  | nil =>
      simpa [stock, Association.assign, holds.fresh] using grows
  | cons entry rest inductionHypothesis =>
      obtain ⟨other, slot⟩ := entry
      by_cases same : other = key
      · subst other
        rw [List.lookup_cons_self] at grows
        simp only [stock, Association.assign, ↓reduceIte, List.flatMap_cons]
        exact grows.append_right _
      · have apart : (key == other) = false := beq_eq_false_iff_ne.mpr (Ne.symm same)
        rw [List.lookup_cons, apart] at grows
        simp only [stock, Association.assign, same, ↓reduceIte, List.flatMap_cons]
        exact ((inductionHypothesis grows).append_left _).trans List.perm_middle

theorem stock_set {position : Nat} {key : String} {before after : σ}
    {slots : List (String × σ)}
    (occupied : slots[position]? = some (key, before))
    (shrinks : (contents before).Perm (message :: contents after)) :
    (stock contents slots).Perm
      (message :: stock contents (slots.set position (key, after))) := by
  induction slots generalizing position with
  | nil =>
      simp at occupied
  | cons entry rest inductionHypothesis =>
      cases position with
      | zero =>
          simp only [List.getElem?_cons_zero, Option.some.injEq] at occupied
          subst occupied
          simp only [stock, List.set_cons_zero, List.flatMap_cons]
          exact shrinks.append_right _
      | succ position =>
          rw [List.getElem?_cons_succ] at occupied
          simp only [stock, List.set_cons_succ, List.flatMap_cons]
          exact ((inductionHypothesis occupied).append_left _).trans List.perm_middle

variable {queue rest : RoundRobin σ}

theorem stock_push (holds : discipline.Holds contents) {key : String}
    (pushed : queue.push discipline key message = .ok rest) :
    (stock contents rest.slots).Perm (message :: stock contents queue.slots) ∧
      rest.pending = queue.pending + 1 := by
  rw [push_eq, Outcome.map_eq_ok] at pushed
  obtain ⟨after, inserted, rfl⟩ := pushed
  exact ⟨stock_assign holds (holds.insert inserted), rfl⟩

theorem stock_scan_some (holds : discipline.Holds contents)
    (found : queue.scan discipline = (some message, rest)) :
    (stock contents queue.slots).Perm (message :: stock contents rest.slots) ∧
      rest.pending = queue.pending - 1 := by
  obtain ⟨_, _, key, before, after, occupied, taken, _, rfl⟩ :=
    scanFor_some_path found
  exact ⟨stock_set occupied (holds.take taken), rfl⟩

theorem stock_scan_none (missed : queue.scan discipline = (none, rest)) :
    rest.slots = queue.slots ∧ rest.pending = queue.pending := by
  obtain ⟨_, rfl⟩ := scanFor_none_path missed
  exact ⟨rfl, rfl⟩

end Queue.RoundRobin

theorem Queue.Fifo.holds : Fifo.discipline.Holds id where
  fresh := rfl
  insert := by
    intro key message slot after inserted
    cases inserted
    exact List.perm_append_singleton message slot
  take := by
    intro message slot after taken
    cases slot with
    | nil =>
        simp [discipline] at taken
    | cons oldest rest =>
        simp only [discipline, Option.some.injEq, Prod.mk.injEq] at taken
        obtain ⟨rfl, rfl⟩ := taken
        exact List.Perm.refl _

theorem Queue.PhasedSlot.holds (rounds : Rounds) :
    (discipline rounds).Holds fun slot => slot.puts ++ slot.gets where
  fresh := rfl
  insert := by
    intro key message slot after inserted
    have puts := (waiting_of_insert inserted .put).1
    have gets := (waiting_of_insert inserted .get).1
    simp only [waiting] at puts gets
    have chosen (phase : Phase) : [message].filter (Message.isOf phase) =
        if message.phase = phase then [message] else [] := by
      by_cases own : message.phase = phase <;> simp [Message.isOf, own]
    rw [puts, gets, chosen, chosen]
    cases message.phase with
    | put =>
        simp only [reduceCtorEq, ↓reduceIte, List.append_nil]
        exact (List.perm_append_singleton message slot.puts).append_right slot.gets
    | get =>
        simp only [reduceCtorEq, ↓reduceIte, List.append_nil]
        rw [← List.append_assoc]
        exact List.perm_append_singleton message (slot.puts ++ slot.gets)
  take := by
    intro message slot after taken
    obtain ⟨oldest, others, _⟩ := of_take taken
    cases turn : slot.phase with
    | put =>
        simp only [turn, waiting, Phase.other] at oldest others
        rw [oldest, others]
        exact List.Perm.refl _
    | get =>
        simp only [turn, waiting, Phase.other] at oldest others
        rw [oldest, others]
        exact List.perm_middle

/-! ## The contents of a request queue -/

namespace RequestQueue

variable {queue rest : RequestQueue} {message : Message}

theorem buffered_enqueue (enqueued : queue.enqueue message = .ok rest) :
    rest.buffered.Perm (message :: queue.buffered) ∧
      rest.pending = queue.pending + 1 := by
  cases queue with
  | sync slots =>
      obtain ⟨key, _, after, pushed, rfl⟩ := enqueue_sync.mp enqueued
      exact RoundRobin.stock_push Fifo.holds pushed
  | async rounds slots =>
      obtain ⟨key, _, after, pushed, rfl⟩ := enqueue_async.mp enqueued
      exact RoundRobin.stock_push (PhasedSlot.holds rounds) pushed

theorem buffered_tryNext_some (found : queue.tryNext = (some message, rest)) :
    queue.buffered.Perm (message :: rest.buffered) ∧
      rest.pending = queue.pending - 1 := by
  cases queue with
  | sync slots =>
      obtain ⟨after, scanned, rfl⟩ := tryNext_sync.mp found
      exact RoundRobin.stock_scan_some Fifo.holds scanned
  | async rounds slots =>
      obtain ⟨after, scanned, rfl⟩ := tryNext_async.mp found
      exact RoundRobin.stock_scan_some (PhasedSlot.holds rounds) scanned

theorem buffered_tryNext_none (missed : queue.tryNext = (none, rest)) :
    rest.buffered = queue.buffered ∧ rest.pending = queue.pending := by
  cases queue with
  | sync slots =>
      obtain ⟨after, scanned, rfl⟩ := tryNext_sync.mp missed
      obtain ⟨same, pending⟩ := RoundRobin.stock_scan_none scanned
      exact ⟨congrArg (RoundRobin.stock id) same, pending⟩
  | async rounds slots =>
      obtain ⟨after, scanned, rfl⟩ := tryNext_async.mp missed
      obtain ⟨same, pending⟩ := RoundRobin.stock_scan_none scanned
      refine ⟨?_, pending⟩
      exact congrArg (RoundRobin.stock fun slot : PhasedSlot => slot.puts ++ slot.gets) same

@[simp]
theorem pending_close (queue : RequestQueue) : queue.close.pending = queue.pending := by
  cases queue <;> rfl

@[simp]
theorem buffered_close (queue : RequestQueue) :
    queue.close.buffered = queue.buffered := by
  cases queue <;> rfl

/-- What waits is counted, and all of it can be scheduled. -/
structure Stocked (queue : RequestQueue) : Prop where
  pending : queue.pending = queue.buffered.length
  routed : ∀ message ∈ queue.buffered, ∃ key, message.routingKey = .ok key

namespace Stocked

theorem ofConfig (config : EngineConfig) : (RequestQueue.ofConfig config).Stocked := by
  unfold RequestQueue.ofConfig
  split <;>
    exact ⟨rfl, fun message member => by
      simp [buffered, synchronous, asynchronous] at member⟩

theorem enqueue (stocked : queue.Stocked)
    (enqueued : queue.enqueue message = .ok rest) : rest.Stocked := by
  obtain ⟨grows, pending⟩ := buffered_enqueue enqueued
  refine ⟨by rw [pending, grows.length_eq, stocked.pending]; rfl, ?_⟩
  intro other member
  rcases List.mem_cons.mp (grows.subset member) with rfl | earlier
  · exact routingKey_of_enqueue enqueued
  · exact stocked.routed other earlier

/-- A message that is returned is one less that waits, and it can be scheduled. -/
theorem tryNext_some (stocked : queue.Stocked)
    (found : queue.tryNext = (some message, rest)) :
    rest.Stocked ∧ queue.pending = rest.pending + 1 ∧
      ∃ key, message.routingKey = .ok key := by
  obtain ⟨shrinks, pending⟩ := buffered_tryNext_some found
  have count := shrinks.length_eq
  rw [← stocked.pending, List.length_cons] at count
  refine ⟨⟨by omega, ?_⟩, by omega, ?_⟩
  · intro other member
    exact stocked.routed other (shrinks.symm.subset (List.mem_cons_of_mem _ member))
  · exact stocked.routed message (shrinks.symm.subset List.mem_cons_self)

theorem tryNext_none (stocked : queue.Stocked)
    (missed : queue.tryNext = (none, rest)) : rest.Stocked := by
  obtain ⟨same, pending⟩ := buffered_tryNext_none missed
  exact ⟨by rw [same, pending, stocked.pending], same ▸ stocked.routed⟩

theorem close (stocked : queue.Stocked) : queue.close.Stocked := by
  cases queue <;> exact ⟨stocked.pending, stocked.routed⟩

end Stocked

namespace History

theorem stocked_step {history : History} (stocked : history.queue.Stocked)
    (call : Call) : (history.step call).queue.Stocked := by
  rcases history.step_cases call with ⟨message, rest, enqueued, after⟩ |
    ⟨message, rest, found, after⟩ | ⟨rest, silent, after⟩ <;>
    rw [after]
  · exact stocked.enqueue enqueued
  · exact (stocked.tryNext_some found).1
  · rcases silent with rfl | missed | rfl
    · exact stocked
    · exact stocked.tryNext_none missed
    · exact stocked.close

theorem stocked_run (config : EngineConfig) (calls : List Call) :
    (run (.ofConfig config) calls).queue.Stocked := by
  induction calls using List.reverseRecOn with
  | nil => exact Stocked.ofConfig config
  | append_singleton calls call inductionHypothesis =>
      rw [run_concat]
      exact stocked_step inductionHypothesis call

end History

end RequestQueue

end ParameterServer

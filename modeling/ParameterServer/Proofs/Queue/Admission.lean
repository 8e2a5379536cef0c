import ParameterServer.Proofs.Queue.Storage

/-!
# Admission of requests

A request queue refuses a message that it cannot schedule, and under the asynchronous
discipline one whose list already holds a whole round.  A message that it accepts comes
last in one list and changes nothing else; a message that it refuses changes nothing,
not even the slots in storage, where a new key gets its place before its slot is asked.
-/

namespace ParameterServer

open Queue

/-! ## What every slot keeps -/

/-- A property of slots that a fresh slot has and that accepting and taking a message
preserve. -/
structure Queue.Discipline.Preserves {σ : Type} (discipline : Discipline σ)
    (Holds : σ → Prop) : Prop where
  fresh : Holds discipline.fresh
  insert : ∀ {key : String} {message : Message} {slot after : σ},
    Holds slot → discipline.insert key message slot = .ok after → Holds after
  take : ∀ {message : Message} {slot after : σ},
    Holds slot → discipline.take slot = some (message, after) → Holds after

namespace Queue.RoundRobin

variable {σ : Type} {discipline : Discipline σ} {Holds : σ → Prop}
  {queue rest : RoundRobin σ} {key : String} {message : Message}

/-- Whether all slots have a property. -/
def Everywhere (Holds : σ → Prop) (queue : RoundRobin σ) : Prop :=
  ∀ entry ∈ queue.slots, Holds entry.2

theorem Everywhere.slot (preserves : discipline.Preserves Holds)
    (everywhere : queue.Everywhere Holds) (key : String) :
    Holds (queue.slot discipline key) := by
  unfold RoundRobin.slot
  cases located : queue.slots.lookup key with
  | none => exact preserves.fresh
  | some slot => exact everywhere _ (Association.mem_of_lookup located)

theorem Everywhere.push (preserves : discipline.Preserves Holds)
    (everywhere : queue.Everywhere Holds)
    (pushed : queue.push discipline key message = .ok rest) : rest.Everywhere Holds := by
  have before := everywhere.slot preserves key
  rw [push_eq, Outcome.map_eq_ok] at pushed
  obtain ⟨after, inserted, rfl⟩ := pushed
  intro entry listed
  rcases Association.mem_or_eq_of_mem_assign listed with earlier | rfl
  · exact everywhere entry earlier
  · exact preserves.insert before inserted

theorem Everywhere.scan (preserves : discipline.Preserves Holds)
    (everywhere : queue.Everywhere Holds) :
    (queue.scan discipline).2.Everywhere Holds := by
  rcases scanned : queue.scan discipline with ⟨_ | message, rest⟩
  · intro entry listed
    rw [(scanFor_none scanned).1] at listed
    exact everywhere entry listed
  · obtain ⟨position, key, before, after, occupied, taken, slots, _⟩ :=
      scanFor_some scanned
    intro entry listed
    rw [slots] at listed
    rcases List.mem_or_eq_of_mem_set listed with earlier | rfl
    · exact everywhere entry earlier
    · exact preserves.take (everywhere _ (List.mem_of_getElem? occupied)) taken

end Queue.RoundRobin

/-! ## Slots within their rounds -/

namespace Queue.PhasedSlot

variable {rounds : Rounds} {slot after : PhasedSlot} {key : String} {message : Message}

/-- No list of a slot is longer than a round, and the current round is not full. -/
structure Within (rounds : Rounds) (slot : PhasedSlot) : Prop where
  lists : ∀ phase, (slot.waiting phase).length ≤ rounds.size
  served : slot.served < rounds.size

theorem Within.insert (within : slot.Within rounds)
    (inserted : slot.insert rounds key message = .ok after) : after.Within rounds := by
  have room := (exists_insert_iff rounds slot key message).mp ⟨after, inserted⟩
  refine ⟨?_, ?_⟩
  · intro phase
    rw [(waiting_of_insert inserted phase).1, List.length_append]
    by_cases own : message.phase = phase
    · subst own
      simpa [Message.isOf, Nat.succ_le_iff] using room
    · simpa [Message.isOf, own] using within.lists phase
  · rw [(waiting_of_insert inserted .put).2.2.1]
    exact within.served

theorem Within.take (within : slot.Within rounds)
    (taken : slot.take rounds = some (message, after)) : after.Within rounds := by
  obtain ⟨oldest, others, ends, goesOn, _⟩ := of_take taken
  refine ⟨?_, ?_⟩
  · intro phase
    have bound := within.lists phase
    by_cases own : phase = slot.phase
    · rw [own] at bound ⊢
      rw [oldest, List.length_cons] at bound
      omega
    · rw [Phase.eq_other_of_ne own] at bound ⊢
      rwa [others]
  · by_cases ending : slot.endsRound rounds
    · rw [(ends ending).2]
      exact Nat.zero_lt_of_lt within.served
    · have bound := within.served
      have unfinished : slot.served + 1 ≠ rounds.size := (not_or.mp ending).2
      rw [(goesOn ending).2]
      omega

theorem preserves_within (positive : 0 < rounds.size) :
    (discipline rounds).Preserves (Within rounds) where
  fresh := ⟨by intro phase; cases phase <;> exact Nat.zero_le _, positive⟩
  insert within inserted := within.insert inserted
  take within taken := within.take taken

/-- The slot with one message more, the last one of its list. -/
def append (message : Message) (slot : PhasedSlot) : PhasedSlot :=
  match message.phase with
  | .put => { slot with puts := slot.puts ++ [message] }
  | .get => { slot with gets := slot.gets ++ [message] }

theorem insert_of_full (key : String)
    (full : rounds.size ≤ (slot.waiting message.phase).length) :
    (discipline rounds).insert key message slot =
      .error (.capacityExceeded key message.phase.listName rounds.size) :=
  if_pos full

theorem insert_of_room (key : String)
    (room : (slot.waiting message.phase).length < rounds.size) :
    (discipline rounds).insert key message slot = .ok (slot.append message) := by
  refine (if_neg (Nat.not_le_of_lt room)).trans ?_
  simp only [append, Message.phase]
  cases Phase.ofTag message.tag <;> rfl

end Queue.PhasedSlot

/-! ## Request queues -/

namespace RequestQueue

variable {queue rest : RequestQueue} {message : Message} {key : String}

/-- The list that a message of a class waits in under a key; the synchronous discipline
has one list for all classes. -/
def lane (key : String) (phase : Phase) : RequestQueue → List Message
  | .sync slots => slots.slot Fifo.discipline key
  | .async rounds slots => (slots.slot (PhasedSlot.discipline rounds) key).waiting phase

/-- The queue with one message more, the last one of the list that it waits in under a
key. -/
def appending (key : String) (message : Message) : RequestQueue → RequestQueue
  | .sync slots =>
      .sync { slots with
        slots := Association.assign key
          (slots.slot Fifo.discipline key ++ [message]) slots.slots
        pending := slots.pending + 1 }
  | .async rounds slots =>
      .async rounds { slots with
        slots := Association.assign key
          ((slots.slot (PhasedSlot.discipline rounds) key).append message) slots.slots
        pending := slots.pending + 1 }

@[simp]
theorem pending_appending (key : String) (message : Message) (queue : RequestQueue) :
    (queue.appending key message).pending = queue.pending + 1 := by
  cases queue <;> rfl

theorem capacity?_eq (queue : RequestQueue) :
    queue.capacity? = queue.rounds?.map Rounds.size := by
  cases queue <;> rfl

theorem enqueue_of_room (routed : message.routingKey = .ok key)
    (room : ∀ capacity, queue.capacity? = some capacity →
      (queue.lane key message.phase).length < capacity) :
    queue.enqueue message = .ok (queue.appending key message) := by
  cases queue with
  | sync slots =>
      rw [sync_enqueue_of_routed routed, RoundRobin.push_eq]
      rfl
  | async rounds slots =>
      rw [async_enqueue_of_routed routed, RoundRobin.push_eq,
        PhasedSlot.insert_of_room key (room rounds.size rfl)]
      rfl

theorem enqueue_of_full (routed : message.routingKey = .ok key) {capacity : Nat}
    (bounded : queue.capacity? = some capacity)
    (full : capacity ≤ (queue.lane key message.phase).length) :
    queue.enqueue message =
      .error (.capacityExceeded key message.phase.listName capacity) := by
  cases queue with
  | sync slots => cases bounded
  | async rounds slots =>
      cases bounded
      rw [async_enqueue_of_routed routed, RoundRobin.push_eq,
        PhasedSlot.insert_of_full key full]
      rfl

/-- A message that can be scheduled is accepted, as the last one of its list, unless that
list is full. -/
theorem enqueue_of_routed (queue : RequestQueue) (routed : message.routingKey = .ok key) :
    queue.enqueue message = .ok (queue.appending key message) ∨
      ∃ capacity, queue.capacity? = some capacity ∧
        capacity ≤ (queue.lane key message.phase).length ∧
        queue.enqueue message =
          .error (.capacityExceeded key message.phase.listName capacity) := by
  by_cases full : ∃ capacity, queue.capacity? = some capacity ∧
      capacity ≤ (queue.lane key message.phase).length
  · obtain ⟨capacity, bounded, full⟩ := full
    exact Or.inr ⟨capacity, bounded, full, enqueue_of_full routed bounded full⟩
  · refine Or.inl (enqueue_of_room routed fun capacity bounded => ?_)
    exact Nat.lt_of_not_le fun long => full ⟨capacity, bounded, long⟩

/-- A queue refuses exactly what it cannot schedule or has no room for. -/
theorem enqueue_eq_error_iff {error : Error} :
    queue.enqueue message = .error error ↔
      message.routingKey = .error error ∨
        ∃ key capacity, message.routingKey = .ok key ∧ queue.capacity? = some capacity ∧
          capacity ≤ (queue.lane key message.phase).length ∧
          error = .capacityExceeded key message.phase.listName capacity := by
  constructor
  · intro refused
    cases routed : message.routingKey with
    | error unrouted =>
        cases (enqueue_of_unrouted routed).symm.trans refused
        exact Or.inl rfl
    | ok key =>
        refine Or.inr ⟨key, ?_⟩
        rcases queue.enqueue_of_routed routed with
          accepted | ⟨capacity, bounded, full, failed⟩
        · cases accepted.symm.trans refused
        · cases failed.symm.trans refused
          exact ⟨capacity, rfl, bounded, full, rfl⟩
  · rintro (unrouted | ⟨key, capacity, routed, bounded, full, rfl⟩)
    · exact enqueue_of_unrouted unrouted
    · exact enqueue_of_full routed bounded full

theorem eq_appending_of_enqueue (enqueued : queue.enqueue message = .ok rest) :
    ∃ key, message.routingKey = .ok key ∧ rest = queue.appending key message := by
  obtain ⟨key, routed⟩ := routingKey_of_enqueue enqueued
  refine ⟨key, routed, ?_⟩
  rcases queue.enqueue_of_routed routed with accepted | ⟨_, _, _, failed⟩
  · exact Except.ok.inj (enqueued.symm.trans accepted)
  · cases failed.symm.trans enqueued

/-! ## Runs of calls -/

/-- Whether all slots of an asynchronous queue are within their rounds. -/
def Within : RequestQueue → Prop
  | .sync _ => True
  | .async rounds slots =>
      0 < rounds.size ∧ slots.Everywhere (PhasedSlot.Within rounds)

namespace Within

theorem ofConfig (config : EngineConfig) : (RequestQueue.ofConfig config).Within := by
  unfold RequestQueue.ofConfig
  cases config.updateMode with
  | sync => exact trivial
  | async =>
      exact ⟨Nat.lt_of_lt_of_le Nat.one_pos (Nat.le_max_right _ 1), by
        intro entry listed
        cases listed⟩

theorem enqueue (within : queue.Within) (enqueued : queue.enqueue message = .ok rest) :
    rest.Within := by
  cases queue with
  | sync slots =>
      obtain ⟨_, _, _, _, rfl⟩ := enqueue_sync.mp enqueued
      exact trivial
  | async rounds slots =>
      obtain ⟨_, _, _, pushed, rfl⟩ := enqueue_async.mp enqueued
      obtain ⟨positive, within⟩ := within
      exact ⟨positive, within.push (PhasedSlot.preserves_within positive) pushed⟩

theorem tryNext (within : queue.Within) : queue.tryNext.2.Within := by
  cases queue with
  | sync slots => exact trivial
  | async rounds slots =>
      obtain ⟨positive, within⟩ := within
      exact ⟨positive, within.scan (PhasedSlot.preserves_within positive)⟩

theorem close (within : queue.Within) : queue.close.Within := by
  cases queue <;> exact within

/-- No list is longer than its capacity. -/
theorem length_lane_le (within : queue.Within) {capacity : Nat}
    (bounded : queue.capacity? = some capacity) (key : String) (phase : Phase) :
    (queue.lane key phase).length ≤ capacity := by
  cases queue with
  | sync slots => cases bounded
  | async rounds slots =>
      cases bounded
      obtain ⟨positive, within⟩ := within
      exact (within.slot (PhasedSlot.preserves_within positive) key).lists phase

end Within

namespace History

theorem within_step {history : History} (within : history.queue.Within) (call : Call) :
    (history.step call).queue.Within := by
  have next := within.tryNext
  rcases history.step_cases call with ⟨message, rest, enqueued, after⟩ |
    ⟨message, rest, found, after⟩ | ⟨rest, silent, after⟩ <;>
    rw [after]
  · exact within.enqueue enqueued
  · rwa [found] at next
  · rcases silent with rfl | missed | rfl
    · exact within
    · rwa [missed] at next
    · exact within.close

theorem within_run (config : EngineConfig) (calls : List Call) :
    (run (.ofConfig config) calls).queue.Within := by
  induction calls using List.reverseRecOn with
  | nil => exact Within.ofConfig config
  | append_singleton calls call inductionHypothesis =>
      rw [run_concat]
      exact within_step inductionHypothesis call

theorem capacity?_run (config : EngineConfig) (calls : List Call) :
    (run (.ofConfig config) calls).queue.capacity? =
      match config.updateMode with
      | .sync => none
      | .async => some (max config.memoryServers.toNat 1) := by
  rw [capacity?_eq, rounds?_run, ← capacity?_eq, RequestQueue.ofConfig]
  cases config.updateMode <;> rfl

/-- Both disciplines, any calls on a fresh queue, and any message.  The queue refuses the
message exactly if it cannot be scheduled or if the list of its class under its key holds
a whole round, and then nothing in storage changes.  A message that is accepted comes
last in that list, and nothing else changes but the count.  No list is ever longer than a
round. -/
theorem enqueue_all_or_nothing (config : EngineConfig) (calls : List Call)
    (message : Message) :
    let queue := (run (.ofConfig config) calls).queue
    let capacity? : Option Nat :=
      match config.updateMode with
      | .sync => none
      | .async => some (max config.memoryServers.toNat 1)
    ∃ store, (Store.ofConfig config).run? calls = some store ∧
      store.Represents queue ∧
      (∀ error, queue.enqueue message = .error error ↔
        message.routingKey = .error error ∨
          ∃ key capacity, message.routingKey = .ok key ∧ capacity? = some capacity ∧
            (queue.lane key message.phase).length = capacity ∧
            error = .capacityExceeded key message.phase.listName capacity) ∧
      (∀ error, queue.enqueue message = .error error →
        store.enqueue? message = some (.error error, store)) ∧
      (∀ rest, queue.enqueue message = .ok rest →
        (∃ key, message.routingKey = .ok key ∧ rest = queue.appending key message) ∧
          rest.pending = queue.pending + 1 ∧
          ∃ after, store.enqueue? message = some (.ok (), after) ∧
            after.Represents rest) ∧
      ∀ capacity, capacity? = some capacity → ∀ key phase,
        (queue.lane key phase).length ≤ capacity := by
  intro queue capacity?
  obtain ⟨store, reached, represents⟩ := Store.represents_run config calls
  have tracked : (run (.ofConfig config) calls).Tracked :=
    tracked_run (Tracks.ofConfig config) calls
  have capacity : queue.capacity? = capacity? := capacity?_run config calls
  have bound {capacity : Nat} (bounded : queue.capacity? = some capacity) :=
    (within_run config calls).length_lane_le bounded
  rw [← capacity]
  refine ⟨store, reached, represents, ?_, ?_, ?_, fun capacity => bound⟩
  · intro error
    rw [enqueue_eq_error_iff]
    refine or_congr_right (exists₂_congr fun key capacity => ?_)
    refine and_congr_right fun _ => and_congr_right fun bounded => ?_
    have least := bound bounded key message.phase
    exact and_congr_left fun _ => ⟨least.antisymm, fun same => same.ge⟩
  · intro error refused
    exact represents.enqueue_error tracked refused
  · intro rest enqueued
    obtain ⟨key, routed, rfl⟩ := eq_appending_of_enqueue enqueued
    exact ⟨⟨key, routed, rfl⟩, pending_appending key message queue,
      represents.enqueue_ok enqueued⟩

end History

end RequestQueue

end ParameterServer

import ParameterServer.Proofs.Queue.Admission

/-!
# The slots of a request queue

What holds of a request queue and of its slots in storage at all times: which key stands
where, where the cursor is, where every waiting message waits, and what the counts say.
Hence a call never comes to a place without a slot, never counts below zero, and finds
nothing exactly when no key can be served.
-/

namespace ParameterServer

open Queue

namespace RequestQueue

variable {queue rest : RequestQueue} {message : Message} {key : String}
  {accepted returned : List Message}

/-! ## Where messages wait -/

/-- The messages of a key are those in its slot. -/
theorem Tracks.filter_buffered_sync {slots : RoundRobin Fifo}
    (tracks : (RequestQueue.sync slots).Tracks accepted returned) (key : String) :
    (RequestQueue.sync slots).buffered.filter (Message.isFor key) =
      slots.slot Fifo.discipline key := by
  have distinct : (slots.slots.map Prod.fst).Nodup := RoundRobin.Tracks.distinct tracks
  refine RoundRobin.filter_flatMap_slots Fifo.discipline distinct id rfl ?_ key
  intro entry listed message waits
  obtain ⟨position, occupied⟩ := List.mem_iff_getElem?.mp listed
  have own := RoundRobin.slot_of_getElem? Fifo.discipline distinct occupied
  have sound : accepted.filter (Message.isFor entry.1) =
      returned.filter (Message.isFor entry.1) ++ slots.slot Fifo.discipline entry.1 :=
    RoundRobin.Tracks.sound tracks entry.1
  have member : message ∈ accepted.filter (Message.isFor entry.1) := by
    rw [sound, own]
    exact List.mem_append_right _ waits
  exact List.of_mem_filter member

/-- A message waits under its key, and under the asynchronous discipline in the list of
its class. -/
theorem Tracks.mem_lane_iff (tracks : queue.Tracks accepted returned) {phase : Phase} :
    message ∈ queue.lane key phase ↔
      message ∈ queue.buffered ∧ message.routingKey = .ok key ∧
        (queue.rounds? ≠ none → message.phase = phase) := by
  cases queue with
  | sync slots =>
      rw [lane, ← tracks.filter_buffered_sync key, List.mem_filter, Message.isFor_iff]
      simp [rounds?]
  | async rounds slots =>
      rw [lane, ← tracks.filter_buffered key phase, List.mem_filter, List.mem_filter,
        Message.isFor_iff]
      simp [rounds?, Message.isOf, and_assoc]

/-- A call that finds a message finds it under a key that can be served. -/
theorem Tracks.servable_of_tryNext (tracks : queue.Tracks accepted returned)
    (found : queue.tryNext = (some message, rest)) : ∃ key, queue.Servable key := by
  cases queue with
  | sync slots =>
      obtain ⟨_, scanned, rfl⟩ := tryNext_sync.mp found
      obtain ⟨key, _, _, taken, _⟩ :=
        RoundRobin.Tracks.scan_some Fifo.discipline_keeps tracks scanned
      exact ⟨key, ready_ring.mp (Option.ne_none_iff_exists'.mpr ⟨_, taken⟩)⟩
  | async rounds slots =>
      obtain ⟨_, scanned, rfl⟩ := tryNext_async.mp found
      obtain ⟨key, _, _, taken, _⟩ :=
        tracks.2.scan_some (PhasedSlot.discipline_keeps tracks.1) scanned
      exact ⟨key, ready_ring.mp (Option.ne_none_iff_exists'.mpr ⟨_, taken⟩)⟩

theorem Tracks.tryNext_eq_none_iff (tracks : queue.Tracks accepted returned) :
    queue.tryNext.1 = none ↔ ∀ key, ¬ queue.Servable key := by
  refine ⟨tracks.not_servable, fun idle => ?_⟩
  rcases found : queue.tryNext with ⟨_ | message, rest⟩
  · rfl
  · obtain ⟨key, servable⟩ := tracks.servable_of_tryNext found
    exact absurd servable (idle key)

/-! ## Keys and their places -/

theorem Tracks.keys_tryNext (tracks : queue.Tracks accepted returned) :
    queue.tryNext.2.keys = queue.keys := by
  rcases found : queue.tryNext with ⟨_ | message, rest⟩
  · cases queue with
    | sync slots =>
        obtain ⟨_, scanned, rfl⟩ := tryNext_sync.mp found
        exact congrArg (List.map Prod.fst) (RoundRobin.scanFor_none scanned).1
    | async rounds slots =>
        obtain ⟨_, scanned, rfl⟩ := tryNext_async.mp found
        exact congrArg (List.map Prod.fst) (RoundRobin.scanFor_none scanned).1
  · obtain ⟨_, _, serves⟩ := tracks.serves found
    rw [← keys_ring, ← keys_ring]
    exact serves.keys

theorem keys_close (queue : RequestQueue) : queue.close.keys = queue.keys := by
  cases queue <;> rfl

namespace History

/-- Known keys stay in their places. -/
theorem keys_prefix_step {history : History} (tracked : history.Tracked) (call : Call) :
    history.queue.keys <+: (history.step call).queue.keys := by
  have kept := Tracks.keys_tryNext tracked
  rcases history.step_cases call with ⟨message, rest, enqueued, after⟩ |
    ⟨message, rest, found, after⟩ | ⟨rest, silent, after⟩ <;>
    rw [after]
  · rw [← keys_ring, ← keys_ring]
    exact Ring.Admits.keys_prefix (admits_of_enqueue enqueued)
  · rw [found] at kept
    exact kept ▸ List.prefix_rfl
  · rcases silent with rfl | missed | rfl
    · exact List.prefix_rfl
    · rw [missed] at kept
      exact kept ▸ List.prefix_rfl
    · exact keys_close history.queue ▸ List.prefix_rfl

theorem keys_prefix_run {start : RequestQueue} (fresh : start.Tracks [] [])
    (calls more : List Call) :
    (run start calls).queue.keys <+: (run start (calls ++ more)).queue.keys := by
  induction more using List.reverseRecOn with
  | nil => exact (List.append_nil calls).symm ▸ List.prefix_rfl
  | append_singleton more call inductionHypothesis =>
      rw [← List.append_assoc, run_concat]
      exact inductionHypothesis.trans
        (keys_prefix_step (tracked_run fresh (calls ++ more)) call)

end History

theorem Store.Represents.place {store : Store} (represents : store.Represents queue)
    {place : Nat} : store.place? key = some place ↔ queue.keys[place]? = some key := by
  match store, queue, represents with
  | .sync row, .sync slots, represents =>
      exact SlotRow.Represents.place represents key place
  | .async rounds row, .async own slots, ⟨_, represents⟩ =>
      exact represents.place key place

/-! ## What always holds -/

/-- A request queue whose slots stand in a row, each where it belongs. -/
structure WellPlaced (store : Store) (queue : RequestQueue) : Prop where
  represents : store.Represents queue
  /-- The index knows the known keys, -/
  known : ∀ key, key ∈ queue.keys ↔ ∃ place, store.place? key = some place
  /-- leads to places in the row, -/
  inside : ∀ key place, store.place? key = some place → place < queue.keyCount
  /-- and to each of them from one key. -/
  owner : ∀ place < queue.keyCount, ∃! key, store.place? key = some place
  cursor : queue.ring.cursor < max queue.keyCount 1
  routed : ∀ message ∈ queue.buffered, ∃ key, message.routingKey = .ok key
  /-- A message waits under its key and, if there are rounds, among those of its class. -/
  lanes : ∀ key phase message, message ∈ queue.lane key phase ↔
    message ∈ queue.buffered ∧ message.routingKey = .ok key ∧
      (queue.rounds? ≠ none → message.phase = phase)
  counted : queue.pending = queue.buffered.length
  /-- A round that is full has been ended. -/
  served : ∀ rounds slots, queue = .async rounds slots →
    ∀ entry ∈ slots.slots, entry.2.served < rounds.size

theorem wellPlaced_run (config : EngineConfig) (calls : List Call) {store : Store}
    (represents : store.Represents (History.run (.ofConfig config) calls).queue) :
    WellPlaced store (History.run (.ofConfig config) calls).queue := by
  have tracked : (History.run (.ofConfig config) calls).Tracked :=
    History.tracked_run (Tracks.ofConfig config) calls
  have stocked := History.stocked_run config calls
  have within := History.within_run config calls
  have cursor := (History.sound_ring_run config calls).inside
  rw [keys_ring, length_keys] at cursor
  refine
    { represents
      known := fun key => ?_
      inside := fun key place found => ?_
      owner := fun place inside => ?_
      cursor := by omega
      routed := stocked.routed
      lanes := fun key phase message => Tracks.mem_lane_iff tracked
      counted := stocked.pending
      served := fun rounds slots shape entry listed => ?_ }
  · simp only [List.mem_iff_getElem?, represents.place]
  · rw [← length_keys]
    exact (List.getElem?_eq_some_iff.mp (represents.place.mp found)).1
  · rw [← length_keys] at inside
    refine ⟨_, represents.place.mpr (List.getElem?_eq_getElem inside), ?_⟩
    intro key found
    exact (List.getElem_of_getElem? (represents.place.mp found)).2.symm
  · rw [shape] at within
    exact (within.2 entry listed).served

namespace History

/-- Both disciplines, any calls on a fresh queue and any further calls.  All calls on
the slots in storage have an outcome: none comes to a place without a slot, and none
takes a message while none is counted.  Each slot is where it belongs before the further
calls and after them, and known keys keep their places.  Asking for a message gives the
same one in storage; it counts one message less; and it finds nothing exactly when no key
can be served. -/
theorem slots_well_placed (config : EngineConfig) (calls more : List Call) :
    let queue := (run (.ofConfig config) calls).queue
    let later := (run (.ofConfig config) (calls ++ more)).queue
    ∃ store grown, (Store.ofConfig config).run? calls = some store ∧
      store.run? more = some grown ∧
      WellPlaced store queue ∧ WellPlaced grown later ∧
      (∀ key place, store.place? key = some place → grown.place? key = some place) ∧
      (∀ rounds, queue.rounds? = some rounds →
        rounds.size = max config.memoryServers.toNat 1) ∧
      (∃ rest, store.tryNext? = some (queue.tryNext.1, rest) ∧
        rest.Represents queue.tryNext.2) ∧
      (queue.tryNext.1 ≠ none → queue.tryNext.2.pending + 1 = queue.pending) ∧
      (queue.tryNext.1 = none ↔ ∀ key, ¬ queue.Servable key) := by
  intro queue later
  obtain ⟨store, reached, represents⟩ := Store.represents_run config calls
  obtain ⟨grown, continued, grows⟩ := Store.represents_run config (calls ++ more)
  rw [Store.run?_append, reached, Option.bind_some] at continued
  have tracked : (run (.ofConfig config) calls).Tracked :=
    tracked_run (Tracks.ofConfig config) calls
  have stocked := stocked_run config calls
  refine ⟨store, grown, reached, continued, wellPlaced_run config calls represents,
    wellPlaced_run config (calls ++ more) grows, ?_, ?_, represents.tryNext stocked,
    ?_, Tracks.tryNext_eq_none_iff tracked⟩
  · intro key place found
    have here := represents.place.mp found
    have inside := (List.getElem?_eq_some_iff.mp here).1
    obtain ⟨added, same⟩ := keys_prefix_run (Tracks.ofConfig config) calls more
    rw [grows.place, ← same, List.getElem?_append_left inside, here]
  · intro rounds policy
    have capacity := capacity?_run config calls
    rw [capacity?_eq, policy, Option.map_some] at capacity
    cases mode : config.updateMode with
    | sync =>
        rw [mode] at capacity
        cases capacity
    | async =>
        rw [mode] at capacity
        exact Option.some.inj capacity
  · intro gives
    rcases found : queue.tryNext with ⟨_ | message, rest⟩
    · rw [found] at gives
      cases gives rfl
    · exact (stocked.tryNext_some found).2.1.symm

end History

end RequestQueue

end ParameterServer

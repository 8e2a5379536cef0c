import ParameterServer.Proofs.Queue.History
import ParameterServer.Proofs.Queue.Ring

/-!
# Fairness among keys

Under both disciplines a request queue serves its keys in turn: it changes as the ring
of its keys does.  A key that can be served is therefore not overtaken twice by another
one, and keys that can all be served are served once each.
-/

namespace ParameterServer

open Queue

/-! ## The ring of a round robin -/

namespace Queue.RoundRobin

variable {σ : Type} {discipline : Discipline σ} {queue rest : RoundRobin σ}
  {message : Message}

/-- The keys, the cursor, and which slots have a message to give. -/
def ring (discipline : Discipline σ) (queue : RoundRobin σ) : Ring where
  keys := queue.slots.map Prod.fst
  cursor := queue.cursor
  ready key := discipline.take (queue.slot discipline key) ≠ none

theorem slot_of_getElem? (discipline : Discipline σ)
    (distinct : (queue.slots.map Prod.fst).Nodup)
    {position : Nat} {key : String} {slot : σ}
    (occupied : queue.slots[position]? = some (key, slot)) :
    queue.slot discipline key = slot := by
  have located := Association.lookup_of_mem distinct (List.mem_of_getElem? occupied)
  simp [RoundRobin.slot, located]

theorem slot_of_not_mem (discipline : Discipline σ) {key : String}
    (unknown : key ∉ queue.slots.map Prod.fst) :
    queue.slot discipline key = discipline.fresh := by
  have absent : queue.slots.lookup key = none :=
    List.lookup_eq_none_iff.mpr fun entry member => bne_iff_ne.mpr fun same =>
      unknown (same ▸ List.mem_map_of_mem member)
  simp [RoundRobin.slot, absent]

/-- A scan that finds a message serves the key of the slot that gave it. -/
theorem serves_of_scan (distinct : (queue.slots.map Prod.fst).Nodup)
    (found : queue.scan discipline = (some message, rest)) :
    ∃ key after,
      discipline.take (queue.slot discipline key) = some (message, after) ∧
        Ring.Serves key (queue.ring discipline) (rest.ring discipline) := by
  obtain ⟨skipped, short, key, before, after, occupied, taken, passed, rfl⟩ :=
    scanFor_some_path found
  have listed : key ∈ queue.slots.map Prod.fst :=
    List.mem_map_of_mem (List.mem_of_getElem? occupied)
  have count : (queue.slots.map Prod.fst).length = queue.keyCount :=
    List.length_map _
  rw [← slot_of_getElem? discipline distinct occupied] at taken
  refine ⟨key, after, taken, ⟨skipped, count ▸ short, ?_, ?_, ?_⟩, ?_, ?_⟩
  · simp only [Ring.visited?, ring, count, List.getElem?_map]
    exact congrArg (Option.map Prod.fst) occupied
  · intro others early other here ready
    simp only [Ring.visited?, ring, count, List.getElem?_map,
      Option.map_eq_some_iff] at here
    obtain ⟨⟨own, slot⟩, held, rfl⟩ := here
    apply ready
    rw [slot_of_getElem? discipline distinct held]
    exact passed others early own slot held
  · simp only [ring, count]
    exact congrArg (· % queue.keyCount) (Nat.add_assoc _ _ _).symm
  · simp only [ring]
    rw [Association.set_eq_assign distinct occupied, Association.keys_assign,
      if_pos listed]
  · intro other apart
    simp only [ring, slot]
    rw [Association.set_eq_assign distinct occupied, Association.lookup_assign,
      if_neg apart]

/-- A scan that finds nothing leaves everything in its place. -/
theorem of_scan_none (inside : queue.cursor = 0 ∨ queue.cursor < queue.keyCount)
    (missed : queue.scan discipline = (none, rest)) : rest = queue := by
  obtain ⟨_, rfl⟩ := scanFor_none_path missed
  split
  · rfl
  · have back : queue.visited queue.keyCount = queue.cursor := by
      rw [visited, Nat.add_mod_right]
      exact Nat.mod_eq_of_lt (by omega)
    rw [back]

/-- A scan that finds nothing has gone past every slot. -/
theorem take_of_scan_none (distinct : (queue.slots.map Prod.fst).Nodup)
    (missed : queue.scan discipline = (none, rest)) {key : String}
    (known : key ∈ queue.slots.map Prod.fst) :
    discipline.take (queue.slot discipline key) = none := by
  obtain ⟨⟨_, slot⟩, listed, rfl⟩ := List.mem_map.mp known
  obtain ⟨position, occupied⟩ := List.mem_iff_getElem?.mp listed
  have inside : position < queue.keyCount := (List.getElem?_eq_some_iff.mp occupied).1
  have start : queue.cursor % queue.keyCount < queue.keyCount :=
    Nat.mod_lt _ (by omega)
  let others := (position + queue.keyCount - queue.cursor % queue.keyCount) % queue.keyCount
  have reached : queue.visited others = position := by
    rw [visited, Nat.add_mod_mod, ← Nat.mod_add_mod, Nat.add_sub_cancel' (by omega),
      Nat.add_mod_right, Nat.mod_eq_of_lt inside]
  rw [slot_of_getElem? discipline distinct occupied]
  exact (scanFor_none_path missed).1 others (Nat.mod_lt _ (by omega)) _ slot
    (reached ▸ occupied)

/-- A discipline under which a slot that has a message to give still has one after it
has accepted another. -/
def Patient (discipline : Discipline σ) : Prop :=
  ∀ {key : String} {message : Message} {slot after : σ},
    discipline.insert key message slot = .ok after →
      discipline.take slot ≠ none → discipline.take after ≠ none

/-- A message that is accepted makes its key known. -/
theorem admits_of_push (patient : Patient discipline) {key : String}
    (pushed : queue.push discipline key message = .ok rest) :
    Ring.Admits (queue.ring discipline) (rest.ring discipline) := by
  rw [push_eq, Outcome.map_eq_ok] at pushed
  obtain ⟨after, inserted, rfl⟩ := pushed
  refine ⟨?_, rfl, ?_⟩
  · simp only [ring, Association.keys_assign]
    split
    · exact Or.inl rfl
    · rename_i absent
      exact Or.inr ⟨key, absent, rfl⟩
  · intro other gives
    simp only [ring, slot, Association.lookup_assign] at gives ⊢
    split
    · rename_i own
      subst other
      exact patient inserted gives
    · exact gives

end Queue.RoundRobin

theorem Queue.Fifo.patient : RoundRobin.Patient Fifo.discipline := by
  intro key message slot after inserted _
  cases inserted
  cases slot <;> simp [discipline]

theorem Queue.PhasedSlot.patient (rounds : Rounds) :
    RoundRobin.Patient (discipline rounds) := by
  intro key message slot after inserted gives
  obtain ⟨grown, phase, _⟩ := waiting_of_insert inserted slot.phase
  refine (not_congr take_eq_none_iff).mpr ?_
  rw [phase, grown]
  exact List.append_ne_nil_of_left_ne_nil
    ((not_congr take_eq_none_iff).mp gives) _

/-! ## The ring of a request queue -/

namespace RequestQueue

variable {queue rest : RequestQueue} {message : Message} {key : String}
  {accepted returned : List Message}

/-- The known keys, in the order of their first appearance. -/
def keys : RequestQueue → List String
  | .sync slots => slots.slots.map Prod.fst
  | .async _ slots => slots.slots.map Prod.fst

/-- Whether a key can be served: a message waits for it, and under the asynchronous
discipline one of the phase that the key is in. -/
def Servable (key : String) : RequestQueue → Prop
  | .sync slots => slots.slot Fifo.discipline key ≠ []
  | .async rounds slots =>
      let slot := slots.slot (PhasedSlot.discipline rounds) key
      slot.waiting slot.phase ≠ []

instance (key : String) : (queue : RequestQueue) → Decidable (queue.Servable key)
  | .sync _ => inferInstanceAs (Decidable (_ ≠ []))
  | .async .. => inferInstanceAs (Decidable (_ ≠ []))

/-- The phase that a key is in under the asynchronous discipline. -/
def turn? (key : String) : RequestQueue → Option Phase
  | .sync _ => none
  | .async rounds slots => some (slots.slot (PhasedSlot.discipline rounds) key).phase

def ring : RequestQueue → Ring
  | .sync slots => slots.ring Fifo.discipline
  | .async rounds slots => slots.ring (PhasedSlot.discipline rounds)

theorem keys_ring (queue : RequestQueue) : queue.ring.keys = queue.keys := by
  cases queue <;> rfl

theorem length_keys (queue : RequestQueue) : queue.keys.length = queue.keyCount := by
  cases queue <;> exact List.length_map _

theorem ready_ring : queue.ring.ready key ↔ queue.Servable key := by
  cases queue with
  | sync slots =>
      simp only [ring, RoundRobin.ring, Servable, Fifo.discipline]
      split <;> simp_all
  | async rounds slots => exact not_congr PhasedSlot.take_eq_none_iff

/-- A key that can be served is known. -/
theorem mem_keys_of_servable (servable : queue.Servable key) : key ∈ queue.keys := by
  by_contra unknown
  cases queue with
  | sync slots => exact servable (RoundRobin.slot_of_not_mem Fifo.discipline unknown)
  | async rounds slots =>
      have fresh :=
        RoundRobin.slot_of_not_mem (PhasedSlot.discipline rounds) unknown
      simp only [Servable, fresh] at servable
      exact servable rfl

theorem Tracks.distinct (tracks : queue.Tracks accepted returned) :
    queue.keys.Nodup := by
  cases queue with
  | sync slots => exact RoundRobin.Tracks.distinct tracks
  | async rounds slots => exact tracks.2.distinct

theorem admits_of_enqueue (enqueued : queue.enqueue message = .ok rest) :
    Ring.Admits queue.ring rest.ring := by
  cases queue with
  | sync slots =>
      obtain ⟨key, _, after, pushed, rfl⟩ := enqueue_sync.mp enqueued
      exact RoundRobin.admits_of_push Fifo.patient pushed
  | async rounds slots =>
      obtain ⟨key, _, after, pushed, rfl⟩ := enqueue_async.mp enqueued
      exact RoundRobin.admits_of_push (PhasedSlot.patient rounds) pushed

/-- A message that is returned belongs to the key that is served. -/
theorem Tracks.serves (tracks : queue.Tracks accepted returned)
    (found : queue.tryNext = (some message, rest)) :
    ∃ key, message.routingKey = .ok key ∧ Ring.Serves key queue.ring rest.ring := by
  cases queue with
  | sync slots =>
      obtain ⟨after, scanned, rfl⟩ := tryNext_sync.mp found
      obtain ⟨key, _, taken, serves⟩ :=
        RoundRobin.serves_of_scan (RoundRobin.Tracks.distinct tracks) scanned
      have own := (Fifo.discipline_keeps.take (tracks.sound key) taken).1
      exact ⟨key, Message.isFor_iff.mp (List.of_mem_filter own), serves⟩
  | async rounds slots =>
      obtain ⟨after, scanned, rfl⟩ := tryNext_async.mp found
      obtain ⟨positive, tracks⟩ := tracks
      obtain ⟨key, _, taken, serves⟩ := RoundRobin.serves_of_scan tracks.distinct scanned
      have own :=
        ((PhasedSlot.discipline_keeps positive).take (tracks.sound key) taken).1
      exact ⟨key, Message.isFor_iff.mp (List.of_mem_filter own), serves⟩

/-- A call that finds nothing changes nothing. -/
theorem of_tryNext_none (sound : queue.ring.Sound)
    (missed : queue.tryNext = (none, rest)) : rest = queue := by
  have inside := sound.inside
  cases queue with
  | sync slots =>
      obtain ⟨after, scanned, rfl⟩ := tryNext_sync.mp missed
      simp only [ring, RoundRobin.ring, List.length_map] at inside
      exact congrArg RequestQueue.sync (RoundRobin.of_scan_none inside scanned)
  | async rounds slots =>
      obtain ⟨after, scanned, rfl⟩ := tryNext_async.mp missed
      simp only [ring, RoundRobin.ring, List.length_map] at inside
      exact congrArg (RequestQueue.async rounds)
        (RoundRobin.of_scan_none inside scanned)

/-- A call that finds nothing can serve no key. -/
theorem Tracks.not_servable (tracks : queue.Tracks accepted returned)
    (missed : queue.tryNext.1 = none) (key : String) : ¬ queue.Servable key := by
  intro servable
  have known := mem_keys_of_servable servable
  have ready := ready_ring.mpr servable
  cases queue with
  | sync slots =>
      exact ready (RoundRobin.take_of_scan_none (RoundRobin.Tracks.distinct tracks)
        (Prod.ext missed rfl) known)
  | async rounds slots =>
      exact ready (RoundRobin.take_of_scan_none tracks.2.distinct
        (Prod.ext missed rfl) known)

theorem ring_close (queue : RequestQueue) : queue.close.ring = queue.ring := by
  cases queue <;> rfl

/-! ## Runs -/

theorem count_keys {messages : List Message} {keys : List String}
    (same : messages.map Message.routingKey = keys.map .ok) (key : String) :
    keys.count key = messages.countP (Message.isFor key) := by
  let ofKey (routed : Except Error String) : Bool := routed.toOption = some key
  calc keys.count key
    _ = (keys.map .ok).countP ofKey := by
        rw [List.countP_map, List.count]
        exact List.countP_congr fun other _ => by simp [ofKey, Except.toOption]
    _ = messages.countP (Message.isFor key) := by
        rw [← same, List.countP_map]
        rfl

theorem mem_keys_iff {messages : List Message} {keys : List String}
    (same : messages.map Message.routingKey = keys.map .ok) (key : String) :
    key ∈ keys ↔ ∃ message ∈ messages, message.isFor key = true := by
  rw [← List.count_pos_iff, count_keys same, List.countP_pos_iff]

namespace History

/-- A run of calls goes a path of the ring, along which it serves the keys of the
returned messages. -/
theorem path_run (sound : queue.ring.Sound)
    (tracks : queue.Tracks accepted returned) (calls : List Call) :
    ∃ served,
      Ring.Path queue.ring served (run queue calls).queue.ring ∧
        (run queue calls).returned.map Message.routingKey = served.map .ok ∧
        ∃ accepted returned, (run queue calls).queue.Tracks accepted returned := by
  induction calls using List.reverseRecOn with
  | nil => exact ⟨[], .refl _, rfl, accepted, returned, tracks⟩
  | append_singleton calls call inductionHypothesis =>
      obtain ⟨served, path, keys, accepted, returned, tracks⟩ := inductionHypothesis
      rw [run_concat]
      rcases (run queue calls).step_cases call with
        ⟨message, rest, enqueued, after⟩ | ⟨message, rest, found, after⟩ |
        ⟨rest, silent, after⟩ <;>
        rw [after]
      · exact ⟨served, path.join (admits_of_enqueue enqueued), keys, _, _,
          tracks.enqueue enqueued⟩
      · obtain ⟨key, routed, serves⟩ := tracks.serves found
        exact ⟨served ++ [key], path.serve serves, by simp [keys, routed], _, _,
          (tracks.tryNext_some found).2⟩
      · rcases silent with rfl | missed | rfl
        · exact ⟨served, path, keys, _, _, tracks⟩
        · have same := of_tryNext_none (path.sound sound) missed
          exact ⟨served, same ▸ path, keys, _, _, tracks.tryNext_none missed⟩
        · exact ⟨served, (ring_close _).symm ▸ path, keys, _, _, tracks.close⟩

theorem sound_ring_ofConfig (config : EngineConfig) :
    (RequestQueue.ofConfig config).ring.Sound := by
  unfold RequestQueue.ofConfig
  split <;> exact ⟨List.nodup_nil, Or.inl rfl⟩

theorem sound_ring_run (config : EngineConfig) (calls : List Call) :
    (run (.ofConfig config) calls).queue.ring.Sound := by
  obtain ⟨_, path, _⟩ := path_run (sound_ring_ofConfig config) (Tracks.ofConfig config) calls
  exact path.sound (sound_ring_ofConfig config)

/-- Both disciplines, any calls on a fresh queue, and any further calls.  A key that can
be served before these has a message returned before the second message of another key
is.  If all known keys can be served and no key joins, as many returned messages as
there are keys are one of each key. -/
theorem no_second_overtaking (config : EngineConfig) (calls more : List Call) :
    let reached := (run (.ofConfig config) calls).queue
    let continued := run reached more
    (∀ (waiting other : String) (earlier later : List Message) (second : Message),
      reached.Servable waiting → other ≠ waiting →
        continued.returned = earlier ++ second :: later →
          second.isFor other = true →
            (∃ first ∈ earlier, first.isFor other = true) →
              ∃ served ∈ earlier, served.isFor waiting = true) ∧
    ((∀ key ∈ reached.keys, reached.Servable key) →
      continued.queue.keyCount = reached.keyCount →
        continued.returned.length = reached.keyCount →
          ∀ key ∈ reached.keys,
            (continued.returned.filter (Message.isFor key)).length = 1) := by
  intro reached continued
  obtain ⟨_, start, _, accepted, returned, tracks⟩ :=
    path_run (sound_ring_ofConfig config) (Tracks.ofConfig config) calls
  have sound := start.sound (sound_ring_ofConfig config)
  obtain ⟨served, path, keys, _⟩ := path_run sound tracks more
  refine ⟨?_, ?_⟩
  · rintro waiting other earlier later second servable apart split own again
    rw [split, List.map_append, List.map_cons, Message.isFor_iff.mp own] at keys
    obtain ⟨before, rest, rfl, early, final⟩ := List.map_eq_append_iff.mp keys.symm
    obtain ⟨key, after, rfl, same, _⟩ := List.map_eq_cons_iff.mp final
    cases same
    refine (mem_keys_iff early.symm waiting).mp ?_
    exact path.mem_of_repeated sound (keys_ring reached ▸ mem_keys_of_servable servable)
      (ready_ring.mpr servable) apart ((mem_keys_iff early.symm other).mpr again)
  · intro servable same count key member
    rw [← length_keys, ← length_keys, ← keys_ring, ← keys_ring] at same
    have length : served.length = reached.ring.keys.length := by
      rw [keys_ring, length_keys, ← count]
      simpa using (congrArg List.length keys).symm
    have once := path.perm_of_all_ready sound (fun key known =>
      ready_ring.mpr (servable key (keys_ring reached ▸ known))) same length
    rw [← List.countP_eq_length_filter, ← count_keys keys, once.count_eq]
    exact List.count_eq_one_of_mem sound.distinct ((keys_ring reached).symm ▸ member)

/-- The message by which member 1 asks for the value of a key. -/
def question (key : String) : Message :=
  ⟨.getRequest, 1, Wire.encode (⟨key⟩ : GetRequest)⟩

/-- A key joins between two others, and its message is returned before the first of
them is served again. -/
theorem no_second_overtaking_joined :
    (∃ served ∈ [question "w", question "b", question "c"],
      served.isFor "b" = true) ∧
    ([question "w", question "b"].filter (Message.isFor "b")).length = 1 := by
  let filled : List Call :=
    [.enqueue (question "w"), .enqueue (question "b"), .enqueue (question "w")]
  have joined := no_second_overtaking {} filled
    [.tryNext, .enqueue (question "c"), .nextRequest, .nextRequest, .tryNext]
  have settled := no_second_overtaking {} filled [.tryNext, .nextRequest]
  refine ⟨joined.1 "b" "w" [question "w", question "b", question "c"] []
    (question "w") ?_ ?_ ?_ ?_ ?_, settled.2 ?_ ?_ ?_ "b" ?_⟩
  all_goals decide +kernel

end History

end RequestQueue

end ParameterServer

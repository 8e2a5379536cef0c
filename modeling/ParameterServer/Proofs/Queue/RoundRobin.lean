import ParameterServer.Proofs.Association
import ParameterServer.Request
import ParameterServer.Queue.RoundRobin

/-!
# Slots under a round robin

What pushing and scanning do to the slot of every key, and the invariants that this
allows: a relation between the messages a key has accepted, those it has returned
and its slot holds at all times if the discipline keeps it.
-/

namespace ParameterServer

/-- Whether a message is scheduled under a key. -/
def Message.isFor (key : String) (message : Message) : Bool :=
  message.routingKey.toOption = some key

theorem Message.isFor_iff {key : String} {message : Message} :
    message.isFor key = true ↔ message.routingKey = .ok key := by
  unfold Message.isFor
  cases message.routingKey <;> simp [Except.toOption]

theorem Message.isFor_of_routingKey
    {key : String} {message : Message}
    (routed : message.routingKey = .ok key) (other : String) :
    message.isFor other = decide (key = other) := by
  simp [Message.isFor, routed, Except.toOption]

namespace Queue.RoundRobin

variable {σ : Type} {discipline : Discipline σ}

/-! ## Slots -/

/-- The slot of a key; a key that is not known yet has a fresh one. -/
def slot (discipline : Discipline σ) (key : String) (queue : RoundRobin σ) : σ :=
  (queue.slots.lookup key).getD discipline.fresh

theorem place_eq
    (key : String) (message : Message) (slots : List (String × σ)) :
    place discipline key message slots =
      (Association.assign key · slots) <$>
        discipline.insert key message
          ((slots.lookup key).getD discipline.fresh) := by
  induction slots with
  | nil =>
      cases accepted : discipline.insert key message discipline.fresh <;>
        simp [place, accepted, Association.assign]
  | cons entry rest inductionHypothesis =>
      obtain ⟨other, slot⟩ := entry
      by_cases same : other = key
      · subst other
        cases accepted : discipline.insert key message slot <;>
          simp [place, accepted, Association.assign]
      · have apart : (key == other) = false :=
          beq_eq_false_iff_ne.mpr (Ne.symm same)
        simp only [place, same, ↓reduceIte, inductionHypothesis,
          List.lookup_cons, apart, Association.assign]
        cases discipline.insert key message
          ((rest.lookup key).getD discipline.fresh) <;> rfl

/-- Pushing changes the slot of the message's key only, and nothing at all when that
slot refuses the message. -/
theorem push_eq
    (key : String) (message : Message) (queue : RoundRobin σ) :
    queue.push discipline key message =
      (fun after =>
        { queue with
          slots := Association.assign key after queue.slots
          pending := queue.pending + 1 }) <$>
        discipline.insert key message (queue.slot discipline key) := by
  rw [push, place_eq, slot]
  cases discipline.insert key message
    ((queue.slots.lookup key).getD discipline.fresh) <;> rfl

/-- The slot at a position, if there is one, has no message to give. -/
def IdleAt (discipline : Discipline σ) (queue : RoundRobin σ) (position : Nat) : Prop :=
  ∀ key slot, queue.slots[position]? = some (key, slot) →
    discipline.take slot = none

/-- The position that a scan visits after some others. -/
def visited (queue : RoundRobin σ) (others : Nat) : Nat :=
  (queue.cursor + others) % queue.keyCount

/-- The queue with its cursor behind the slot that is visited first. -/
def advanced (queue : RoundRobin σ) : RoundRobin σ :=
  { queue with cursor := (queue.cursor % queue.keyCount + 1) % queue.keyCount }

theorem visited_advanced (queue : RoundRobin σ) (others : Nat) :
    queue.advanced.visited others = queue.visited (others + 1) := by
  simp only [visited, advanced, keyCount]
  rw [Nat.mod_add_mod, Nat.add_assoc, Nat.mod_add_mod, Nat.add_comm 1 others]

theorem idleAt_visited_of_advanced {queue : RoundRobin σ} {count : Nat}
    (idle : queue.IdleAt discipline (queue.visited 0))
    (later : ∀ others < count,
      queue.advanced.IdleAt discipline (queue.advanced.visited others)) :
    ∀ others < count + 1, queue.IdleAt discipline (queue.visited others) := by
  intro others early
  cases others with
  | zero => exact idle
  | succ others =>
      have idleThere := later others (by omega)
      rw [visited_advanced] at idleThere
      exact idleThere

/-- A visit either goes on to the next slot or takes a message. -/
theorem scanFor_succ (discipline : Discipline σ) (visits : Nat) (queue : RoundRobin σ) :
    (queue.IdleAt discipline (queue.visited 0) ∧
      scanFor discipline (visits + 1) queue =
        scanFor discipline visits queue.advanced) ∨
    ∃ key before message after,
      queue.slots[queue.visited 0]? = some (key, before) ∧
      discipline.take before = some (message, after) ∧
      scanFor discipline (visits + 1) queue =
        (some message,
          { queue.advanced with
            slots := queue.slots.set (queue.visited 0) (key, after)
            pending := queue.pending - 1 }) := by
  cases occupied : queue.slots[queue.visited 0]? with
  | none =>
      have vacant : queue.slots[queue.cursor % queue.keyCount]? = none := occupied
      refine Or.inl ⟨fun key slot held => ?_, by simp only [scanFor, vacant]; rfl⟩
      rw [occupied] at held
      cases held
  | some entry =>
      obtain ⟨key, slot⟩ := entry
      have held : queue.slots[queue.cursor % queue.keyCount]? = some (key, slot) :=
        occupied
      cases taken : discipline.take slot with
      | none =>
          refine Or.inl ⟨fun other own here => ?_, ?_⟩
          · rw [occupied] at here
            cases here
            exact taken
          · simp only [scanFor, held, taken]
            rfl
      | some result =>
          obtain ⟨message, after⟩ := result
          refine Or.inr ⟨key, slot, message, after, rfl, taken, ?_⟩
          simp only [scanFor, held, taken]
          rfl

/-- A scan goes on past slots with nothing to give, up to the one that it takes a
message from. -/
theorem scanFor_some_path
    {visits : Nat} {queue rest : RoundRobin σ} {message : Message}
    (found : scanFor discipline visits queue = (some message, rest)) :
    ∃ skipped < visits, ∃ key before after,
      queue.slots[queue.visited skipped]? = some (key, before) ∧
      discipline.take before = some (message, after) ∧
      (∀ others < skipped, queue.IdleAt discipline (queue.visited others)) ∧
      rest =
        { queue with
          slots := queue.slots.set (queue.visited skipped) (key, after)
          cursor := queue.visited (skipped + 1)
          pending := queue.pending - 1 } := by
  induction visits generalizing queue with
  | zero =>
      simp [scanFor] at found
  | succ visits inductionHypothesis =>
      rcases scanFor_succ discipline visits queue with
        ⟨idle, goesOn⟩ | ⟨key, before, first, after, occupied, taken, stops⟩
      · rw [goesOn] at found
        obtain ⟨skipped, short, key, before, after, occupied, taken, passed, shape⟩ :=
          inductionHypothesis found
        rw [visited_advanced] at occupied
        rw [visited_advanced, visited_advanced] at shape
        exact ⟨skipped + 1, by omega, key, before, after, occupied, taken,
          idleAt_visited_of_advanced idle passed, shape⟩
      · rw [stops] at found
        cases found
        refine ⟨0, by omega, key, before, after, occupied, taken, by simp, ?_⟩
        simp only [advanced, visited, Nat.mod_add_mod]

/-- A scan that finds no message has gone past every slot that it was to visit. -/
theorem scanFor_none_path
    {visits : Nat} {queue rest : RoundRobin σ}
    (missed : scanFor discipline visits queue = (none, rest)) :
    (∀ others < visits, queue.IdleAt discipline (queue.visited others)) ∧
      rest =
        { queue with
          cursor := if visits = 0 then queue.cursor else queue.visited visits } := by
  induction visits generalizing queue with
  | zero =>
      simp only [scanFor, Prod.mk.injEq, true_and] at missed
      simp [missed]
  | succ visits inductionHypothesis =>
      rcases scanFor_succ discipline visits queue with
        ⟨idle, goesOn⟩ | ⟨key, before, first, after, occupied, taken, stops⟩
      · rw [goesOn] at missed
        obtain ⟨passed, shape⟩ := inductionHypothesis missed
        refine ⟨idleAt_visited_of_advanced idle passed, ?_⟩
        rw [visited_advanced] at shape
        rw [shape]
        cases visits <;> simp [advanced, visited]
      · rw [stops] at missed
        cases missed

/-- A scan that finds a message has taken it from one slot. -/
theorem scanFor_some
    {visits : Nat} {queue rest : RoundRobin σ} {message : Message}
    (found : scanFor discipline visits queue = (some message, rest)) :
    ∃ position key before after,
      queue.slots[position]? = some (key, before) ∧
      discipline.take before = some (message, after) ∧
      rest.slots = queue.slots.set position (key, after) ∧
      rest.closed = queue.closed := by
  obtain ⟨skipped, _, key, before, after, occupied, taken, _, rfl⟩ :=
    scanFor_some_path found
  exact ⟨_, key, before, after, occupied, taken, rfl, rfl⟩

theorem scanFor_none
    {visits : Nat} {queue rest : RoundRobin σ}
    (missed : scanFor discipline visits queue = (none, rest)) :
    rest.slots = queue.slots ∧ rest.closed = queue.closed := by
  obtain ⟨_, rfl⟩ := scanFor_none_path missed
  exact ⟨rfl, rfl⟩

/-- A scan that starts at a slot with a message to give takes that message. -/
theorem scan_at
    {queue : RoundRobin σ} {position : Nat} {key : String} {before after : σ}
    {message : Message}
    (occupied : queue.slots[position]? = some (key, before))
    (taken : discipline.take before = some (message, after)) :
    (scan discipline { queue with cursor := position }).1 = some message := by
  have inside : position < queue.slots.length :=
    (List.getElem?_eq_some_iff.mp occupied).1
  obtain ⟨visits, count⟩ :=
    Nat.exists_eq_add_one_of_ne_zero (Nat.ne_zero_of_lt inside)
  have start : position % queue.slots.length = position :=
    Nat.mod_eq_of_lt inside
  rw [scan, keyCount, count, scanFor]
  simp [keyCount, start, occupied, taken]

end Queue.RoundRobin

/-! ## Invariants of a slot -/

/-- `Sound accepted returned slot` relates a slot to the messages that it has
accepted and returned; the discipline keeps it if a fresh slot has it and accepting
and taking a message preserve it. -/
structure Queue.Discipline.Keeps {σ : Type} (discipline : Discipline σ)
    (Sound : List Message → List Message → σ → Prop) : Prop where
  fresh : Sound [] [] discipline.fresh
  insert : ∀ {accepted returned : List Message} {slot after : σ}
      {key : String} {message : Message},
    Sound accepted returned slot →
    discipline.insert key message slot = .ok after →
    Sound (accepted ++ [message]) returned after
  take : ∀ {accepted returned : List Message} {slot after : σ}
      {message : Message},
    Sound accepted returned slot →
    discipline.take slot = some (message, after) →
    message ∈ accepted ∧ Sound accepted (returned ++ [message]) after

namespace Queue.RoundRobin

variable {σ : Type} {discipline : Discipline σ}
  {Sound : List Message → List Message → σ → Prop}

/-- Every slot is sound for the messages of its key among those accepted and
returned so far. -/
structure Tracks (discipline : Discipline σ)
    (Sound : List Message → List Message → σ → Prop)
    (accepted returned : List Message) (queue : RoundRobin σ) : Prop where
  distinct : (queue.slots.map Prod.fst).Nodup
  sound : ∀ key,
    Sound (accepted.filter (Message.isFor key))
      (returned.filter (Message.isFor key)) (queue.slot discipline key)

namespace Tracks

variable {accepted returned : List Message} {queue rest : RoundRobin σ}
  {message : Message}

theorem initial (keeps : discipline.Keeps Sound) :
    Tracks discipline Sound [] [] {} where
  distinct := List.nodup_nil
  sound _ := keeps.fresh

theorem congr
    (tracks : Tracks discipline Sound accepted returned queue)
    (same : rest.slots = queue.slots) :
    Tracks discipline Sound accepted returned rest where
  distinct := same ▸ tracks.distinct
  sound key := by
    have sound := tracks.sound key
    rwa [slot, ← same] at sound

theorem push
    (keeps : discipline.Keeps Sound)
    (tracks : Tracks discipline Sound accepted returned queue)
    {key : String} (routed : message.routingKey = .ok key)
    (pushed : queue.push discipline key message = .ok rest) :
    Tracks discipline Sound (accepted ++ [message]) returned rest := by
  rw [push_eq] at pushed
  cases inserted : discipline.insert key message (queue.slot discipline key) with
  | error refusal =>
      rw [inserted] at pushed
      cases pushed
  | ok after =>
      rw [inserted] at pushed
      cases pushed
      refine ⟨Association.nodup_keys_assign tracks.distinct key after, ?_⟩
      intro other
      by_cases same : key = other
      · subst other
        have kept := keeps.insert (tracks.sound key) inserted
        simpa [slot, Association.lookup_assign, List.filter_append,
          Message.isFor_of_routingKey routed] using kept
      · simpa [slot, Association.lookup_assign, List.filter_append,
          Message.isFor_of_routingKey routed, same, Ne.symm same]
          using tracks.sound other

/-- The message that a scan finds belongs to the key whose slot gave it. -/
theorem scan_some
    (keeps : discipline.Keeps Sound)
    (tracks : Tracks discipline Sound accepted returned queue)
    (found : queue.scan discipline = (some message, rest)) :
    ∃ key after,
      message.routingKey = .ok key ∧
      discipline.take (queue.slot discipline key) = some (message, after) ∧
      Tracks discipline Sound accepted (returned ++ [message]) rest := by
  obtain ⟨position, key, before, after, occupied, taken, slots, _⟩ :=
    scanFor_some found
  have located : queue.slots.lookup key = some before :=
    Association.lookup_of_mem tracks.distinct (List.mem_of_getElem? occupied)
  have own : queue.slot discipline key = before := by
    simp [slot, located]
  rw [← own] at taken
  obtain ⟨member, kept⟩ := keeps.take (tracks.sound key) taken
  have routed : message.routingKey = .ok key :=
    Message.isFor_iff.mp (List.of_mem_filter member)
  rw [Association.set_eq_assign tracks.distinct occupied] at slots
  refine ⟨key, after, routed, taken, ?_, ?_⟩
  · rw [slots]
    exact Association.nodup_keys_assign tracks.distinct key after
  · intro other
    by_cases same : key = other
    · subst other
      simpa [slot, slots, Association.lookup_assign, List.filter_append,
        Message.isFor_of_routingKey routed] using kept
    · simpa [slot, slots, Association.lookup_assign, List.filter_append,
        Message.isFor_of_routingKey routed, same, Ne.symm same]
        using tracks.sound other

end Tracks

end Queue.RoundRobin

end ParameterServer

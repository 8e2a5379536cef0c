import ParameterServer.Proofs.Queue.History

/-!
# The trace of a key

What a request queue holds for a key and whether the key can be served, read off the
messages that the key has accepted and returned.  The main statement is about the
asynchronous discipline: the classes returned follow the word of the rounds.
-/

namespace ParameterServer

open Queue

namespace Queue.RoundRobin

variable {σ : Type} (discipline : Discipline σ)

/-- When every slot holds messages of its own key only, the messages of a key are
those in its slot. -/
theorem filter_flatMap_slots
    {slots : List (String × σ)} (distinct : (slots.map Prod.fst).Nodup)
    (contents : σ → List Message) (empty : contents discipline.fresh = [])
    (own : ∀ entry ∈ slots, ∀ message ∈ contents entry.2,
      message.isFor entry.1 = true)
    (key : String) :
    (slots.flatMap fun entry => contents entry.2).filter (Message.isFor key) =
      contents ((slots.lookup key).getD discipline.fresh) := by
  induction slots with
  | nil =>
      simp [empty]
  | cons entry rest inductionHypothesis =>
      obtain ⟨name, slot⟩ := entry
      obtain ⟨absent, restDistinct⟩ := List.nodup_cons.mp distinct
      have later := inductionHypothesis restDistinct fun entry member =>
        own entry (List.mem_cons_of_mem _ member)
      have first : ∀ message ∈ contents slot, message.isFor name = true :=
        own (name, slot) List.mem_cons_self
      rw [List.flatMap_cons, List.filter_append, later]
      by_cases same : key = name
      · subst key
        have unknown : rest.lookup name = none := by
          rw [List.lookup_eq_none_iff]
          intro other member
          simp only [bne_iff_ne]
          rintro rfl
          exact absent (List.mem_map.mpr ⟨other, member, rfl⟩)
        simp [List.filter_eq_self.mpr first, unknown, empty]
      · have others : (contents slot).filter (Message.isFor key) = [] := by
          rw [List.filter_eq_nil_iff]
          intro message member
          have routed := Message.isFor_iff.mp (first message member)
          simp [Message.isFor_of_routingKey routed, Ne.symm same]
        have apart : (key == name) = false := beq_eq_false_iff_ne.mpr same
        simp [others, List.lookup_cons, apart]

end Queue.RoundRobin

namespace RequestQueue

/-- All waiting messages: slot by slot, and class by class in a slot with two
lists. -/
def buffered : RequestQueue → List Message
  | .sync slots => slots.slots.flatMap fun entry => entry.2
  | .async _ slots =>
      slots.slots.flatMap fun entry => entry.2.puts ++ entry.2.gets

/-- The queue with its cursor at another position. -/
def withCursor (cursor : Nat) : RequestQueue → RequestQueue
  | .sync slots => .sync { slots with cursor }
  | .async rounds slots => .async rounds { slots with cursor }

/-- Whether a key can be served next: a scan that starts at some position of the
cursor returns a message of the key. -/
def CanServe (key : String) (queue : RequestQueue) : Prop :=
  ∃ cursor message,
    (queue.withCursor cursor).tryNext.1 = some message ∧
      message.isFor key = true

namespace Tracks

variable {rounds : Rounds} {slots : RoundRobin PhasedSlot}
  {accepted returned : List Message}

theorem filter_buffered
    (tracks : (RequestQueue.async rounds slots).Tracks accepted returned)
    (key : String) (phase : Phase) :
    ((RequestQueue.async rounds slots).buffered.filter
        (Message.isFor key)).filter (Message.isOf phase) =
      (slots.slot (PhasedSlot.discipline rounds) key).waiting phase := by
  obtain ⟨_, distinct, sound⟩ := tracks
  have own : ∀ entry ∈ slots.slots, ∀ message ∈ entry.2.puts ++ entry.2.gets,
      message.isFor entry.1 = true := by
    intro entry member message waits
    have known : slots.slot (PhasedSlot.discipline rounds) entry.1 = entry.2 := by
      simp [RoundRobin.slot, Association.lookup_of_mem distinct member]
    have slotSound := sound entry.1
    rw [known] at slotSound
    have accepted : message ∈ accepted.filter (Message.isFor entry.1) := by
      rcases List.mem_append.mp waits with put | get
      · have waits : message ∈ entry.2.waiting .put := put
        exact (slotSound.mem_of_waiting waits).1
      · have waits : message ∈ entry.2.waiting .get := get
        exact (slotSound.mem_of_waiting waits).1
    exact List.of_mem_filter accepted
  have both := RoundRobin.filter_flatMap_slots
    (PhasedSlot.discipline rounds) distinct
    (fun slot => slot.puts ++ slot.gets) rfl own key
  rw [buffered, both]
  exact (sound key).filter_contents phase

/-- A key can be served next exactly when its slot has a message to give. -/
theorem canServe_iff
    (tracks : (RequestQueue.async rounds slots).Tracks accepted returned)
    (key : String) :
    (RequestQueue.async rounds slots).CanServe key ↔
      (slots.slot (PhasedSlot.discipline rounds) key).take rounds ≠ none := by
  obtain ⟨positive, tracks⟩ := tracks
  constructor
  · rintro ⟨cursor, message, found, belongs⟩ nothing
    have moved : RoundRobin.Tracks (PhasedSlot.discipline rounds)
        (PhasedSlot.Sound rounds) accepted returned { slots with cursor } :=
      tracks.congr rfl
    obtain ⟨name, after, routed, taken, _⟩ :=
      moved.scan_some (PhasedSlot.discipline_keeps positive)
        (Prod.ext found rfl)
    obtain rfl : name = key := by
      simpa [Message.isFor_of_routingKey routed] using belongs
    exact Option.some_ne_none _ (taken.symm.trans nothing)
  · intro gives
    obtain ⟨⟨message, after⟩, taken⟩ := Option.ne_none_iff_exists'.mp gives
    have belongs := ((tracks.sound key).mem_of_take taken).1
    cases known : slots.slots.lookup key with
    | none =>
        simp [RoundRobin.slot, known, PhasedSlot.discipline,
          PhasedSlot.take] at taken
    | some slot =>
        have own : slots.slot (PhasedSlot.discipline rounds) key = slot := by
          simp [RoundRobin.slot, known]
        rw [own] at taken
        obtain ⟨position, occupied⟩ :=
          List.mem_iff_getElem?.mp (Association.mem_of_lookup known)
        exact ⟨position, message, RoundRobin.scan_at occupied taken,
          List.of_mem_filter belongs⟩

end Tracks

/-! ## The asynchronous discipline -/

/-- After any calls on a fresh asynchronous queue and for every key: the classes of
the returned messages are the first ones of the word; of each class, what was
accepted is what was returned followed by what waits; and the key can be served next
exactly when a message of the next class of the word waits for it. -/
theorem async_trace
    (memoryServers : Nat) (flips : Bool) (calls : List Call) (key : String) :
    let rounds : Rounds := ⟨max memoryServers 1, flips⟩
    let history := History.run (.asynchronous memoryServers flips) calls
    let accepted := history.accepted.filter (Message.isFor key)
    let returned := history.returned.filter (Message.isFor key)
    let buffered := history.queue.buffered.filter (Message.isFor key)
    returned.map Message.phase =
        (List.range returned.length).map rounds.word ∧
      (∀ phase,
        accepted.filter (Message.isOf phase) =
          returned.filter (Message.isOf phase) ++
            buffered.filter (Message.isOf phase)) ∧
      (history.queue.CanServe key ↔
        buffered.filter (Message.isOf (rounds.word returned.length)) ≠ []) := by
  intro rounds history accepted returned buffered
  have tracked : history.Tracked :=
    History.tracked_run (Tracks.asynchronous memoryServers flips) calls
  have policy : history.queue.rounds? = some rounds :=
    History.rounds?_run (.asynchronous memoryServers flips) calls
  obtain ⟨slots, shape⟩ := eq_async policy
  rw [History.Tracked, shape] at tracked
  have sound := tracked.2.sound key
  have waiting := tracked.filter_buffered key
  simp only [buffered, shape]
  refine ⟨sound.classes, ?_, ?_⟩
  · intro phase
    rw [waiting phase]
    exact sound.conserved phase
  · rw [waiting, tracked.canServe_iff key, ← sound.phase]
    exact not_congr PhasedSlot.take_eq_none_iff

end RequestQueue

end ParameterServer

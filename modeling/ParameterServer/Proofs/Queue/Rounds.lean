import Mathlib.Data.List.Count
import Mathlib.Data.List.Induction
import Mathlib.Tactic.Ring
import ParameterServer.Proofs.Queue.RoundRobin
import ParameterServer.Queue.Phased

/-!
# The order of rounds

Under the asynchronous discipline the classes of the messages that a key is served
with follow one infinite word: full rounds of puts and of gets by turns, after a
single put if the first put flips.  The slot of a key always stands at the position
of that word which its returned messages have reached, and each of its lists is what
the key has accepted and not yet returned.
-/

namespace ParameterServer

open Queue (Phase)

/-- The class that a message is served with: gets in one, puts and updates in the
other. -/
def Message.phase (message : Message) : Phase :=
  Phase.ofTag message.tag

/-- Whether a message is of a class. -/
def Message.isOf (phase : Phase) (message : Message) : Bool :=
  message.phase = phase

namespace Queue

/-- The phase that alternates with this one. -/
def Phase.other : Phase → Phase
  | put => get
  | get => put

theorem Phase.eq_other_of_ne {phase tested : Phase}
    (different : tested ≠ phase) : tested = phase.other := by
  cases phase <;> cases tested <;> simp_all [Phase.other]

theorem Phase.other_ne (phase : Phase) : phase.other ≠ phase := by
  cases phase <;> simp [Phase.other]

namespace Rounds

/-! ## The word of a key -/

/-- The number of messages before the first full round: the first put of a key, if
it flips. -/
def lead (rounds : Rounds) : Nat :=
  if rounds.firstPutFlips then 1 else 0

/-- The phase of the first full round. -/
def leading (rounds : Rounds) : Phase :=
  if rounds.firstPutFlips then .get else .put

/-- The phase of a full round, counted from zero. -/
def turn (rounds : Rounds) (number : Nat) : Phase :=
  if number % 2 = 0 then rounds.leading else rounds.leading.other

/-- The class of the message that a key is served with after `position` others. -/
def word (rounds : Rounds) (position : Nat) : Phase :=
  if position < rounds.lead then .put
  else rounds.turn ((position - rounds.lead) / rounds.size)

/-- The number of messages served in the current round after `position` messages. -/
def progress (rounds : Rounds) (position : Nat) : Nat :=
  (position - rounds.lead) % rounds.size

theorem turn_succ (rounds : Rounds) (number : Nat) :
    rounds.turn (number + 1) = (rounds.turn number).other := by
  unfold turn
  rcases Nat.mod_two_eq_zero_or_one number with even | odd
  · rw [if_neg (by omega), if_pos even]
  · rw [if_pos (by omega), if_neg (by omega)]
    cases rounds.leading <;> rfl

theorem word_zero (rounds : Rounds) : rounds.word 0 = .put := by
  cases flips : rounds.firstPutFlips <;>
    simp [word, lead, turn, leading, flips]

theorem word_lead_add (rounds : Rounds) (offset : Nat) :
    rounds.word (rounds.lead + offset) = rounds.turn (offset / rounds.size) := by
  simp [word]

/-- The word starts with the put that flips, if any, and goes on with full rounds by
turns. -/
theorem map_word_range (rounds : Rounds) (offset : Nat) :
    (List.range (rounds.lead + offset)).map rounds.word =
      List.replicate rounds.lead .put ++
        (List.range offset).map fun step =>
          rounds.turn (step / rounds.size) := by
  rw [List.range_add, List.map_append, List.map_map]
  congr 1
  · rw [List.eq_replicate_iff]
    refine ⟨by simp, ?_⟩
    intro phase member
    obtain ⟨position, inside, rfl⟩ := List.mem_map.mp member
    simp [word, List.mem_range.mp inside]
  · refine List.map_congr_left ?_
    intro step _
    exact rounds.word_lead_add step

/-! ## One position further -/

private theorem succ_div_mod_of_full
    {offset size : Nat} (positive : 0 < size)
    (full : offset % size + 1 = size) :
    (offset + 1) / size = offset / size + 1 ∧ (offset + 1) % size = 0 := by
  have split := Nat.div_add_mod offset size
  have next : offset + 1 = size * (offset / size + 1) := by
    rw [Nat.mul_add, Nat.mul_one]
    omega
  rw [next]
  exact ⟨Nat.mul_div_cancel_left _ positive, Nat.mul_mod_right _ _⟩

private theorem succ_div_mod_of_not_full
    {offset size : Nat} (positive : 0 < size)
    (unfinished : offset % size + 1 ≠ size) :
    (offset + 1) / size = offset / size ∧
      (offset + 1) % size = offset % size + 1 := by
  have split := Nat.div_add_mod offset size
  have bound := Nat.mod_lt offset positive
  have next : offset + 1 = offset % size + 1 + size * (offset / size) := by
    omega
  rw [next, Nat.add_mul_div_left _ _ positive, Nat.add_mul_mod_self_left,
    Nat.div_eq_of_lt (by omega), Nat.mod_eq_of_lt (by omega)]
  simp

theorem word_progress_of_lead
    (rounds : Rounds) {position : Nat} (early : position < rounds.lead) :
    rounds.word position = .put ∧
      rounds.word (position + 1) = .get ∧ rounds.progress (position + 1) = 0 := by
  by_cases flips : rounds.firstPutFlips = true
  · have first : position = 0 := by
      simpa [lead, flips] using early
    subst position
    simp [word, lead, progress, turn, leading, flips]
  · simp [lead, flips] at early

theorem word_progress_of_full
    (rounds : Rounds) (positive : 0 < rounds.size) {position : Nat}
    (late : rounds.lead ≤ position)
    (full : rounds.progress position + 1 = rounds.size) :
    rounds.word (position + 1) = (rounds.word position).other ∧
      rounds.progress (position + 1) = 0 := by
  obtain ⟨offset, rfl⟩ := Nat.exists_eq_add_of_le late
  rw [progress, Nat.add_sub_cancel_left] at full
  obtain ⟨quotient, remainder⟩ := succ_div_mod_of_full positive full
  rw [Nat.add_assoc, word_lead_add, word_lead_add, quotient, turn_succ]
  simp [progress, remainder]

theorem word_progress_of_not_full
    (rounds : Rounds) (positive : 0 < rounds.size) {position : Nat}
    (late : rounds.lead ≤ position)
    (unfinished : rounds.progress position + 1 ≠ rounds.size) :
    rounds.word (position + 1) = rounds.word position ∧
      rounds.progress (position + 1) = rounds.progress position + 1 := by
  obtain ⟨offset, rfl⟩ := Nat.exists_eq_add_of_le late
  rw [progress, Nat.add_sub_cancel_left] at unfinished
  obtain ⟨quotient, remainder⟩ :=
    succ_div_mod_of_not_full positive unfinished
  rw [Nat.add_assoc, word_lead_add, word_lead_add, quotient]
  simp [progress, remainder]

end Rounds

/-! ## Lists in the order of a word -/

section Follows

variable {α : Type} {phase : α → Phase} {word : Nat → Phase}

/-- The classes of a list are the first ones of a word. -/
def Follows (phase : α → Phase) (word : Nat → Phase) (items : List α) : Prop :=
  items.map phase = (List.range items.length).map word

instance (items : List α) : Decidable (Follows phase word items) :=
  inferInstanceAs (Decidable (_ = _))

theorem follows_concat {items : List α} {item : α} :
    Follows phase word (items ++ [item]) ↔
      Follows phase word items ∧ phase item = word items.length := by
  unfold Follows
  rw [List.map_append, List.length_append, List.length_singleton, List.range_succ,
    List.map_append]
  constructor
  · intro same
    obtain ⟨first, last⟩ := List.append_inj same (by simp)
    exact ⟨first, by simpa using last⟩
  · rintro ⟨first, last⟩
    simp [first, last]

theorem Follows.of_append {before after : List α}
    (follows : Follows phase word (before ++ after)) : Follows phase word before := by
  induction after using List.reverseRecOn with
  | nil =>
      simpa using follows
  | append_singleton after item inductionHypothesis =>
      rw [← List.append_assoc] at follows
      exact inductionHypothesis (follows_concat.mp follows).1

/-- The class of an item is that of the word at its place. -/
theorem Follows.of_split {before after : List α} {item : α}
    (follows : Follows phase word (before ++ item :: after)) :
    Follows phase word before ∧ phase item = word before.length := by
  rw [List.append_cons] at follows
  exact follows_concat.mp follows.of_append

end Follows

namespace PhasedSlot

/-! ## Accepting and taking -/

theorem waiting_of_insert
    {rounds : Rounds} {slot after : PhasedSlot} {key : String}
    {message : Message}
    (accepted : slot.insert rounds key message = .ok after) (phase : Phase) :
    after.waiting phase =
        slot.waiting phase ++ [message].filter (Message.isOf phase) ∧
      after.phase = slot.phase ∧ after.served = slot.served ∧
      after.untouched = slot.untouched := by
  unfold insert at accepted
  by_cases full : rounds.size ≤ (slot.waiting (.ofTag message.tag)).length
  · simp [full] at accepted
  · simp only [full, ↓reduceIte] at accepted
    cases classified : Phase.ofTag message.tag <;>
      simp only [classified, Except.ok.injEq] at accepted <;>
      subst accepted <;>
      cases phase <;>
      simp [waiting, Message.isOf, Message.phase, classified]

theorem eq_capacityExceeded_of_insert
    {rounds : Rounds} {slot : PhasedSlot} {key : String} {message : Message}
    {error : Error} (refused : slot.insert rounds key message = .error error) :
    error = .capacityExceeded key message.phase.listName rounds.size := by
  simp only [insert] at refused
  split at refused
  · cases refused
    rfl
  · split at refused <;> cases refused

/-- A message is accepted as long as fewer than a whole round of its class wait. -/
theorem exists_insert_iff
    (rounds : Rounds) (slot : PhasedSlot) (key : String) (message : Message) :
    (∃ after, slot.insert rounds key message = .ok after) ↔
      (slot.waiting message.phase).length < rounds.size := by
  unfold insert Message.phase
  by_cases full : rounds.size ≤ (slot.waiting (.ofTag message.tag)).length
  · simp [full, Nat.not_lt.mpr full]
  · simp only [full, ↓reduceIte, Nat.lt_of_not_le full, iff_true]
    cases Phase.ofTag message.tag
    · exact ⟨_, rfl⟩
    · exact ⟨_, rfl⟩

/-- Whether serving one message more ends the current round. -/
def endsRound (rounds : Rounds) (slot : PhasedSlot) : Prop :=
  (slot.phase = .put ∧ slot.untouched = true ∧ rounds.firstPutFlips = true) ∨
    slot.served + 1 = rounds.size

/-- A slot gives the oldest message of its phase, and changes its phase when that
ends the round. -/
theorem of_take
    {rounds : Rounds} {slot after : PhasedSlot} {message : Message}
    (taken : slot.take rounds = some (message, after)) :
    slot.waiting slot.phase = message :: after.waiting slot.phase ∧
      after.waiting slot.phase.other = slot.waiting slot.phase.other ∧
      (slot.endsRound rounds →
        after.phase = slot.phase.other ∧ after.served = 0) ∧
      (¬ slot.endsRound rounds →
        after.phase = slot.phase ∧ after.served = slot.served + 1) ∧
      after.untouched = (slot.untouched && slot.phase = .get) := by
  obtain ⟨puts, gets, phase, served, untouched⟩ := slot
  cases phase with
  | put =>
      cases puts with
      | nil =>
          simp [take] at taken
      | cons oldest rest =>
          simp only [take] at taken
          split at taken
          all_goals
            rename_i ending
            simp only [Option.some.injEq, Prod.mk.injEq] at taken
            obtain ⟨rfl, rfl⟩ := taken
            simp_all [waiting, endsRound, Phase.other]
  | get =>
      cases gets with
      | nil =>
          simp [take] at taken
      | cons oldest rest =>
          simp only [take] at taken
          split at taken
          all_goals
            rename_i ending
            simp only [Option.some.injEq, Prod.mk.injEq] at taken
            obtain ⟨rfl, rfl⟩ := taken
            simp_all [waiting, endsRound, Phase.other]

/-- A slot gives nothing exactly when the list of its phase is empty. -/
theorem take_eq_none_iff
    {rounds : Rounds} {slot : PhasedSlot} :
    slot.take rounds = none ↔ slot.waiting slot.phase = [] := by
  obtain ⟨puts, gets, phase, served, untouched⟩ := slot
  cases phase with
  | put =>
      cases puts with
      | nil => simp [take, waiting]
      | cons => simp only [take, waiting]; split <;> simp
  | get =>
      cases gets with
      | nil => simp [take, waiting]
      | cons => simp only [take, waiting]; split <;> simp

/-! ## The place of a slot in the word -/

/-- What the messages that a key has accepted and returned say about its slot. -/
structure Sound (rounds : Rounds) (accepted returned : List Message)
    (slot : PhasedSlot) : Prop where
  classes :
    returned.map Message.phase =
      (List.range returned.length).map rounds.word
  conserved : ∀ phase,
    accepted.filter (Message.isOf phase) =
      returned.filter (Message.isOf phase) ++ slot.waiting phase
  phase : slot.phase = rounds.word returned.length
  served : slot.served = rounds.progress returned.length
  untouched : slot.untouched = decide (returned = [])

namespace Sound

variable {rounds : Rounds} {accepted returned : List Message}
  {slot after : PhasedSlot} {message : Message}

theorem fresh (rounds : Rounds) : Sound rounds [] [] {} where
  classes := rfl
  conserved phase := by cases phase <;> rfl
  phase := rounds.word_zero.symm
  served := by simp [Rounds.progress]
  untouched := rfl

theorem insert
    (sound : Sound rounds accepted returned slot) {key : String}
    (inserted : slot.insert rounds key message = .ok after) :
    Sound rounds (accepted ++ [message]) returned after := by
  obtain ⟨_, phase, served, untouched⟩ := waiting_of_insert inserted .put
  refine ⟨sound.classes, ?_, phase ▸ sound.phase, served ▸ sound.served,
    untouched ▸ sound.untouched⟩
  intro tested
  rw [(waiting_of_insert inserted tested).1, List.filter_append,
    sound.conserved tested, List.append_assoc]

theorem mem_of_waiting
    (sound : Sound rounds accepted returned slot) {phase : Phase}
    (waits : message ∈ slot.waiting phase) :
    message ∈ accepted ∧ message.phase = phase := by
  have member : message ∈ accepted.filter (Message.isOf phase) := by
    rw [sound.conserved phase]
    exact List.mem_append_right _ waits
  simpa [Message.isOf] using List.mem_filter.mp member

theorem filter_contents
    (sound : Sound rounds accepted returned slot) (phase : Phase) :
    (slot.puts ++ slot.gets).filter (Message.isOf phase) =
      slot.waiting phase := by
  have kept : (slot.waiting phase).filter (Message.isOf phase) =
      slot.waiting phase := by
    rw [List.filter_eq_self]
    intro message waits
    simp [Message.isOf, (sound.mem_of_waiting waits).2]
  have dropped : (slot.waiting phase.other).filter (Message.isOf phase) = [] := by
    rw [List.filter_eq_nil_iff]
    intro message waits
    simp [Message.isOf, (sound.mem_of_waiting waits).2, Phase.other_ne]
  rw [List.filter_append]
  cases phase with
  | put =>
      rw [show slot.puts.filter (Message.isOf .put) = slot.puts from kept,
        show slot.gets.filter (Message.isOf .put) = [] from dropped]
      exact List.append_nil _
  | get =>
      rw [show slot.gets.filter (Message.isOf .get) = slot.gets from kept,
        show slot.puts.filter (Message.isOf .get) = [] from dropped]
      rfl

theorem mem_of_take
    (sound : Sound rounds accepted returned slot)
    (taken : slot.take rounds = some (message, after)) :
    message ∈ accepted ∧ message.phase = slot.phase := by
  apply sound.mem_of_waiting
  rw [(of_take taken).1]
  exact List.mem_cons_self

/-- Serving a message ends the round exactly when the word changes its class. -/
theorem next_place
    (positive : 0 < rounds.size)
    (sound : Sound rounds accepted returned slot)
    (taken : slot.take rounds = some (message, after)) :
    after.phase = rounds.word (returned.length + 1) ∧
      after.served = rounds.progress (returned.length + 1) := by
  obtain ⟨_, _, ends, goesOn, _⟩ := of_take taken
  by_cases early : returned.length < rounds.lead
  · obtain ⟨now, later, progress⟩ := rounds.word_progress_of_lead early
    have flips : rounds.firstPutFlips = true := by
      by_contra off
      simp [Rounds.lead, off] at early
    have unserved : returned = [] := by
      apply List.eq_nil_of_length_eq_zero
      simpa [Rounds.lead, flips] using early
    have place : slot.phase = .put := sound.phase.trans now
    have untouched : slot.untouched = true := by
      simpa [unserved] using sound.untouched
    obtain ⟨phase, served⟩ := ends (Or.inl ⟨place, untouched, flips⟩)
    rw [phase, served, later, progress, place]
    exact ⟨rfl, rfl⟩
  · have late : rounds.lead ≤ returned.length := Nat.le_of_not_lt early
    have touched :
        ¬ (slot.phase = .put ∧ slot.untouched = true ∧
          rounds.firstPutFlips = true) := by
      rintro ⟨_, untouched, flips⟩
      have unserved : returned = [] := by
        simpa [untouched] using sound.untouched
      simp [Rounds.lead, flips, unserved] at late
    by_cases full : slot.served + 1 = rounds.size
    · obtain ⟨phase, served⟩ := ends (Or.inr full)
      rw [sound.served] at full
      obtain ⟨word, progress⟩ := rounds.word_progress_of_full positive late full
      rw [phase, served, word, progress, sound.phase]
      exact ⟨rfl, rfl⟩
    · obtain ⟨phase, served⟩ := goesOn (not_or.mpr ⟨touched, full⟩)
      rw [sound.served] at full
      obtain ⟨word, progress⟩ :=
        rounds.word_progress_of_not_full positive late full
      rw [phase, served, word, progress, sound.phase, sound.served]
      exact ⟨rfl, rfl⟩

theorem take
    (positive : 0 < rounds.size)
    (sound : Sound rounds accepted returned slot)
    (taken : slot.take rounds = some (message, after)) :
    Sound rounds accepted (returned ++ [message]) after := by
  obtain ⟨oldest, others, _, _, untouched⟩ := of_take taken
  obtain ⟨_, classified⟩ := sound.mem_of_take taken
  obtain ⟨phase, served⟩ := sound.next_place positive taken
  refine ⟨?_, ?_, ?_, ?_, ?_⟩
  · rw [List.map_append, List.length_append, List.length_singleton,
      List.range_succ, List.map_append, sound.classes]
    simp [classified, sound.phase]
  · intro tested
    by_cases same : tested = slot.phase
    · subst tested
      rw [sound.conserved slot.phase, oldest]
      simp [List.filter_append, Message.isOf, classified]
    · have apart : message.phase ≠ tested := by
        rw [classified]
        exact Ne.symm same
      rw [sound.conserved tested, Phase.eq_other_of_ne same, others,
        ← Phase.eq_other_of_ne same]
      simp [List.filter_append, Message.isOf, apart]
  · simpa using phase
  · simpa using served
  · rw [untouched, sound.untouched]
    by_cases first : returned = []
    · simp [first, sound.phase, Rounds.word_zero]
    · simp [first]

end Sound

/-- The discipline of rounds keeps every slot at its place in the word. -/
theorem discipline_keeps {rounds : Rounds} (positive : 0 < rounds.size) :
    (discipline rounds).Keeps (Sound rounds) where
  fresh := Sound.fresh rounds
  insert sound inserted := sound.insert inserted
  take sound taken :=
    ⟨(sound.mem_of_take taken).1, sound.take positive taken⟩

end PhasedSlot

end Queue

end ParameterServer

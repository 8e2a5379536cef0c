import Mathlib.Algebra.Order.Floor.Div
import ParameterServer.Proofs.Queue.Rounds

/-!
# Counting along the word

How many puts a key has been served with when its next request is a get: as many as
fit whole rounds of gets, up to the one that the get belongs to.
-/

namespace ParameterServer.Queue.Rounds

variable (rounds : Rounds)

/-- The number of messages of a class among the first ones of the word. -/
def tally (phase : Phase) (position : Nat) : Nat :=
  ((List.range position).map rounds.word).count phase

/-- The number of messages of a class among the first ones of the full rounds. -/
def roundsTally (phase : Phase) (offset : Nat) : Nat :=
  ((List.range offset).map fun step => rounds.turn (step / rounds.size)).count phase

theorem tally_lead_add (phase : Phase) (offset : Nat) :
    rounds.tally phase (rounds.lead + offset) =
      (if phase = .put then rounds.lead else 0) + rounds.roundsTally phase offset := by
  rw [tally, map_word_range, List.count_append, List.count_replicate]
  cases phase <;> rfl

theorem roundsTally_succ (phase : Phase) (offset : Nat) :
    rounds.roundsTally phase (offset + 1) =
      rounds.roundsTally phase offset +
        if rounds.turn (offset / rounds.size) = phase then 1 else 0 := by
  rw [roundsTally, List.range_succ, List.map_append, List.count_append]
  by_cases same : rounds.turn (offset / rounds.size) = phase <;>
    simp [roundsTally, same]

/-- Within a full round only the class of the round is counted. -/
theorem roundsTally_add (phase : Phase) (number : Nat) {extra : Nat}
    (short : extra ≤ rounds.size) :
    rounds.roundsTally phase (rounds.size * number + extra) =
      rounds.roundsTally phase (rounds.size * number) +
        if rounds.turn number = phase then extra else 0 := by
  induction extra with
  | zero =>
      simp
  | succ extra inductionHypothesis =>
      have place : (rounds.size * number + extra) / rounds.size = number := by
        rw [Nat.mul_add_div (by omega), Nat.div_eq_of_lt short, Nat.add_zero]
      rw [← Nat.add_assoc, roundsTally_succ, inductionHypothesis (by omega), place]
      split <;> omega

theorem turn_even (pairs : Nat) : rounds.turn (2 * pairs) = rounds.leading := by
  simp [turn]

theorem turn_odd (pairs : Nat) :
    rounds.turn (2 * pairs + 1) = rounds.leading.other := by
  rw [turn_succ, turn_even]

/-- A pair of rounds serves both classes alike. -/
theorem roundsTally_pairs (phase : Phase) (pairs : Nat) :
    rounds.roundsTally phase (rounds.size * (2 * pairs)) = rounds.size * pairs := by
  induction pairs with
  | zero =>
      rfl
  | succ pairs inductionHypothesis =>
      have split : rounds.size * (2 * (pairs + 1)) =
          rounds.size * (2 * pairs + 1) + rounds.size := by
        ring
      have first : rounds.size * (2 * pairs + 1) =
          rounds.size * (2 * pairs) + rounds.size := by
        ring
      rw [split, roundsTally_add _ _ _ le_rfl, turn_odd, first,
        roundsTally_add _ _ _ le_rfl, turn_even, inductionHypothesis, Nat.mul_succ]
      cases rounds.leading <;> cases phase <;> simp [Phase.other]

theorem ceilDiv_size {size : Nat} (pairs : Nat) {extra : Nat} (short : extra < size) :
    (size * pairs + extra + 1) ⌈/⌉ size = pairs + 1 := by
  have positive : 0 < size := by omega
  apply le_antisymm
  · rw [ceilDiv_le_iff_le_mul positive, Nat.mul_succ]
    omega
  · by_contra fewer
    have fits := (ceilDiv_le_iff_le_mul positive).mp
      (Nat.le_of_lt_succ (Nat.lt_of_not_le fewer))
    omega

/-- When a get is served next, the puts served so far fill as many rounds as the gets
need, this one included; if the first put flips, it stands for the first of these
rounds. -/
theorem tally_put_of_get (positive : 0 < rounds.size) {position : Nat}
    (get : rounds.word position = .get) :
    rounds.tally .put position =
      if rounds.firstPutFlips then
        1 + rounds.size * ((rounds.tally .get position + 1) ⌈/⌉ rounds.size - 1)
      else
        rounds.size * ((rounds.tally .get position + 1) ⌈/⌉ rounds.size) := by
  have late : rounds.lead ≤ position := by
    by_contra early
    rw [(rounds.word_progress_of_lead (Nat.lt_of_not_le early)).1] at get
    cases get
  obtain ⟨offset, rfl⟩ := Nat.exists_eq_add_of_le late
  rw [word_lead_add] at get
  obtain ⟨number, extra, short, rfl, place⟩ :
      ∃ number extra, extra < rounds.size ∧ offset = rounds.size * number + extra ∧
        offset / rounds.size = number :=
    ⟨offset / rounds.size, offset % rounds.size, Nat.mod_lt _ positive,
      (Nat.div_add_mod _ _).symm, rfl⟩
  rw [place] at get
  rw [tally_lead_add, tally_lead_add, roundsTally_add _ _ _ short.le,
    roundsTally_add _ _ _ short.le, get]
  obtain ⟨pairs, rfl | rfl⟩ := Nat.even_or_odd' number
  · -- An even round of gets: gets lead, so that the first put has flipped.
    rw [turn_even] at get
    have flips : rounds.firstPutFlips = true := by
      by_contra off
      simp [leading, off] at get
    simp [roundsTally_pairs, lead, flips, ceilDiv_size pairs short]
  · rw [turn_odd] at get
    have flips : rounds.firstPutFlips = false := by
      rw [← Bool.not_eq_true]
      intro on
      simp [leading, on, Phase.other] at get
    have first : rounds.size * (2 * pairs + 1) =
        rounds.size * (2 * pairs) + rounds.size := by
      ring
    rw [first, roundsTally_add _ _ _ le_rfl, roundsTally_add _ _ _ le_rfl, turn_even]
    simp [roundsTally_pairs, lead, leading, flips, ceilDiv_size pairs short,
      Nat.mul_succ]

end ParameterServer.Queue.Rounds

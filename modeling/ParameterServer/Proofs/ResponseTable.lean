import Mathlib.Algebra.BigOperators.Group.List.Basic
import Mathlib.Algebra.Order.Ring.Nat
import ParameterServer.ResponseTable

/-!
# Lanes of the response table

Each tag and sender has one lane.  A push appends to the lane of its message, and a
pop removes the head of one lane; all other lanes stay as they are.
-/

namespace ParameterServer.ResponseTable

/-- The payloads of one tag from one sender among some lanes. -/
def laneOf (tag : Tag) (source : Rank) : List ResponseLane → List Payload
  | [] => []
  | lane :: rest =>
      if lane.tag = tag ∧ lane.source = source then lane.waiting
      else laneOf tag source rest

/-- The waiting payloads of one tag from one sender, the oldest first. -/
def waiting (tag : Tag) (source : Rank) (table : ResponseTable) : List Payload :=
  laneOf tag source table.lanes

theorem laneOf_append
    (tag tested : Tag) (source sender : Rank) (payload : Payload)
    (lanes : List ResponseLane) :
    laneOf tested sender (append tag source payload lanes) =
      laneOf tested sender lanes ++
        if tag = tested ∧ source = sender then [payload] else [] := by
  induction lanes with
  | nil =>
      by_cases same : tag = tested ∧ source = sender <;>
        simp [append, laneOf, same]
  | cons lane rest inductionHypothesis =>
      by_cases own : lane.tag = tag ∧ lane.source = source
      · by_cases same : tag = tested ∧ source = sender
        · simp [append, laneOf, own, same]
        · simp [append, laneOf, own, same]
      · by_cases other : lane.tag = tested ∧ lane.source = sender
        · have apart : ¬ (tag = tested ∧ source = sender) := by
            rintro ⟨rfl, rfl⟩
            exact own other
          simp only [append, if_neg own, laneOf, if_pos other, if_neg apart,
            List.append_nil]
        · simp [append, own, laneOf, other, inductionHypothesis]

theorem waiting_of_push
    {table rest : ResponseTable} {tag : Tag} {source : Rank} {payload : Payload}
    (pushed : table.push tag source payload = .ok rest)
    (tested : Tag) (sender : Rank) :
    rest.waiting tested sender =
      table.waiting tested sender ++
        if tag = tested ∧ source = sender then [payload] else [] := by
  unfold push at pushed
  split at pushed
  · cases pushed
    exact laneOf_append tag tested source sender payload table.lanes
  · cases pushed

theorem laneOf_of_takeFrom
    {tag : Tag} {source : Rank} {payload : Payload}
    {lanes rest : List ResponseLane}
    (taken : takeFrom tag source lanes = some (payload, rest)) :
    ∀ tested sender,
      laneOf tested sender lanes =
        (if tag = tested ∧ source = sender then [payload] else []) ++
          laneOf tested sender rest := by
  induction lanes generalizing rest with
  | nil =>
      simp [takeFrom] at taken
  | cons lane others inductionHypothesis =>
      intro tested sender
      by_cases own : lane.tag = tag ∧ lane.source = source
      · simp only [takeFrom, own, and_self, ↓reduceIte] at taken
        split at taken
        · cases taken
        · rename_i oldest waiting shape
          simp only [Option.some.injEq, Prod.mk.injEq] at taken
          obtain ⟨rfl, rfl⟩ := taken
          by_cases same : tag = tested ∧ source = sender
          · simp [laneOf, own, same, shape]
          · simp [laneOf, own, same]
      · simp only [takeFrom, own, ↓reduceIte, Option.bind_eq_bind,
          Option.bind_eq_some_iff] at taken
        obtain ⟨⟨found, left⟩, deeper, shape⟩ := taken
        simp only [pure, Option.some.injEq, Prod.mk.injEq] at shape
        obtain ⟨rfl, rfl⟩ := shape
        by_cases other : lane.tag = tested ∧ lane.source = sender
        · have apart : ¬ (tag = tested ∧ source = sender) := by
            rintro ⟨rfl, rfl⟩
            exact own other
          simp [laneOf, other, apart]
        · simp [laneOf, other, inductionHypothesis deeper tested sender]

/-- What a pop does comes down to the lane of the sender that it chooses. -/
theorem popChosen_of_pop
    {table : ResponseTable} {source : Source} {tag : Tag}
    {outcome : Option (Rank × Payload) × ResponseTable}
    (popped : table.pop source tag = .ok outcome) :
    pop.popChosen source tag table = .ok outcome := by
  cases source with
  | any => exact popped
  | rank rank =>
      simp only [pop] at popped
      split at popped
      · cases popped
      · exact popped

/-- What a pop finds is the head of one lane. -/
theorem takeFrom_of_pop
    {table rest : ResponseTable} {source : Source} {tag : Tag} {rank : Rank}
    {payload : Payload}
    (popped : table.pop source tag = .ok (some (rank, payload), rest)) :
    tag.isKnown = true ∧ ∃ lanes,
      takeFrom tag rank table.lanes = some (payload, lanes) ∧
        rest = { table with lanes } := by
  have chosen := popChosen_of_pop popped
  unfold pop.popChosen at chosen
  split at chosen
  · rename_i known
    split at chosen
    · cases chosen
    · split at chosen
      · cases chosen
      · rename_i oldest lanes taken
        cases chosen
        exact ⟨known, lanes, taken, rfl⟩
  · cases chosen

theorem waiting_of_pop
    {table rest : ResponseTable} {source : Source} {tag : Tag} {rank : Rank}
    {payload : Payload}
    (popped : table.pop source tag = .ok (some (rank, payload), rest))
    (tested : Tag) (sender : Rank) :
    table.waiting tested sender =
      (if tag = tested ∧ rank = sender then [payload] else []) ++
        rest.waiting tested sender := by
  obtain ⟨_, lanes, taken, rfl⟩ := takeFrom_of_pop popped
  exact laneOf_of_takeFrom taken tested sender

theorem eq_of_pop_none
    {table rest : ResponseTable} {source : Source} {tag : Tag}
    (popped : table.pop source tag = .ok (none, rest)) : rest = table := by
  have chosen := popChosen_of_pop popped
  unfold pop.popChosen at chosen
  split at chosen
  · split at chosen
    · cases chosen
      rfl
    · split at chosen
      · cases chosen
        rfl
      · cases chosen
  · cases chosen

/-! ## The number of waiting payloads -/

/-- A push is refused for an unknown tag only. -/
theorem push_of_known {tag : Tag} (known : tag.isKnown = true) (source : Rank)
    (payload : Payload) (table : ResponseTable) :
    ∃ rest, table.push tag source payload = .ok rest :=
  ⟨_, by rw [push, if_pos known]⟩

theorem isKnown_of_push {tag : Tag} {source : Rank} {payload : Payload}
    {table rest : ResponseTable} (pushed : table.push tag source payload = .ok rest) :
    tag.isKnown = true := by
  unfold push at pushed
  split at pushed
  · assumption
  · cases pushed

theorem isKnown_of_push_error {tag : Tag} {source : Rank} {payload : Payload}
    {table : ResponseTable} {error : Error}
    (refused : table.push tag source payload = .error error) :
    tag.isKnown = false := by
  by_contra known
  obtain ⟨rest, pushed⟩ :=
    push_of_known (Bool.not_eq_false _ |>.mp known) source payload table
  cases pushed.symm.trans refused

theorem count_cons (tag : Tag) (size : Nat) (lane : ResponseLane)
    (lanes : List ResponseLane) :
    (⟨size, lane :: lanes⟩ : ResponseTable).count tag =
      (if lane.tag = tag then lane.waiting.length else 0) +
        (⟨size, lanes⟩ : ResponseTable).count tag := by
  by_cases own : lane.tag = tag <;> simp [count, own]

theorem count_append (tag tested : Tag) (source : Rank) (payload : Payload)
    (size : Nat) (lanes : List ResponseLane) :
    (⟨size, append tag source payload lanes⟩ : ResponseTable).count tested =
      (⟨size, lanes⟩ : ResponseTable).count tested +
        if tag = tested then 1 else 0 := by
  induction lanes with
  | nil =>
      by_cases same : tag = tested <;> simp [append, count, same]
  | cons lane rest inductionHypothesis =>
      by_cases own : lane.tag = tag ∧ lane.source = source
      · rw [append, if_pos own]
        simp only [count_cons, own.1, List.length_append, List.length_singleton]
        split_ifs <;> omega
      · simp only [append, if_neg own, count_cons, inductionHypothesis]
        omega

theorem count_takeFrom {tag : Tag} {source : Rank} {payload : Payload} {size : Nat}
    {lanes rest : List ResponseLane}
    (taken : takeFrom tag source lanes = some (payload, rest)) (tested : Tag) :
    (⟨size, lanes⟩ : ResponseTable).count tested =
      (⟨size, rest⟩ : ResponseTable).count tested +
        if tag = tested then 1 else 0 := by
  induction lanes generalizing rest with
  | nil =>
      simp [takeFrom] at taken
  | cons lane others inductionHypothesis =>
      by_cases own : lane.tag = tag ∧ lane.source = source
      · simp only [takeFrom, own, and_self, ↓reduceIte] at taken
        split at taken
        · cases taken
        · rename_i oldest waiting shape
          simp only [Option.some.injEq, Prod.mk.injEq] at taken
          obtain ⟨rfl, rfl⟩ := taken
          simp only [count_cons, own.1, shape, List.length_cons]
          split_ifs <;> omega
      · simp only [takeFrom, own, ↓reduceIte, Option.bind_eq_bind,
          Option.bind_eq_some_iff] at taken
        obtain ⟨⟨found, left⟩, deeper, shape⟩ := taken
        simp only [pure, Option.some.injEq, Prod.mk.injEq] at shape
        obtain ⟨rfl, rfl⟩ := shape
        simp only [count_cons, inductionHypothesis deeper]
        omega

/-- The number of waiting payloads, over all known tags. -/
def total (table : ResponseTable) : Nat :=
  ((List.range Tag.limit).map fun code : Nat => table.count ⟨(code : Int)⟩).sum

theorem total_empty (size : Nat) : ({ size } : ResponseTable).total = 0 := by
  simp [total, count]

theorem sum_indicator (tag : Tag) (bound : Nat) :
    ((List.range bound).map fun code : Nat =>
        if tag = ⟨(code : Int)⟩ then 1 else 0).sum =
      if 0 ≤ tag.code ∧ tag.code < bound then 1 else 0 := by
  obtain ⟨own⟩ := tag
  induction bound with
  | zero =>
      simp only [List.range_zero, List.map_nil, List.sum_nil]
      rw [if_neg (by omega)]
  | succ bound inductionHypothesis =>
      simp only [Tag.mk.injEq] at inductionHypothesis
      simp only [List.range_succ, List.map_append, List.sum_append,
        inductionHypothesis, List.map_cons, List.map_nil, List.sum_cons, List.sum_nil,
        Tag.mk.injEq]
      split_ifs <;> omega

/-- When the count of one known tag grows by one, so does the total. -/
theorem total_of_count {table rest : ResponseTable} {tag : Tag}
    (known : tag.isKnown = true)
    (grows : ∀ tested, rest.count tested =
      table.count tested + if tag = tested then 1 else 0) :
    rest.total = table.total + 1 := by
  have inside : 0 ≤ tag.code ∧ tag.code < Tag.limit := by
    by_contra outside
    simp [Tag.isKnown, Tag.index?, outside] at known
  simp only [total, grows, List.sum_map_add, sum_indicator, inside, and_self, ↓reduceIte]

theorem total_of_push {table rest : ResponseTable} {tag : Tag} {source : Rank}
    {payload : Payload} (pushed : table.push tag source payload = .ok rest) :
    rest.total = table.total + 1 := by
  unfold push at pushed
  split at pushed
  · rename_i known
    cases pushed
    exact total_of_count known fun tested =>
      count_append tag tested source payload table.size table.lanes
  · cases pushed

theorem total_of_pop {table rest : ResponseTable} {source : Source} {tag : Tag}
    {rank : Rank} {payload : Payload}
    (popped : table.pop source tag = .ok (some (rank, payload), rest)) :
    table.total = rest.total + 1 := by
  obtain ⟨known, lanes, taken, rfl⟩ := takeFrom_of_pop popped
  exact total_of_count known (count_takeFrom taken)

end ParameterServer.ResponseTable

import ParameterServer.Proofs.Engine.Reading

/-!
# The response table as a log

A response table behaves like a plain list of all waiting payloads in the order of their
pushes.  Whatever is pushed, popped and counted, by whatever tags, sources and selectors, the
answers are the same.
-/

namespace ParameterServer

/-! ## Logs -/

/-- A payload that waits, with its tag and its sender. -/
structure LoggedResponse where
  tag : Tag
  source : Rank
  payload : Payload
deriving DecidableEq, Repr

def LoggedResponse.isOf (tag : Tag) (source : Rank) (response : LoggedResponse) : Bool :=
  response.tag = tag && response.source = source

/-- The waiting payloads of a member in a group of `size`, in the order of their pushes. -/
structure ResponseLog where
  size : Nat
  entries : List LoggedResponse := []
deriving DecidableEq, Repr

namespace ResponseLog

open LoggedResponse (isOf)

/-- Appends an entry; the tag has to be known. -/
def push (tag : Tag) (source : Rank) (payload : Payload) (log : ResponseLog) :
    Except Error ResponseLog :=
  if tag.isKnown then
    .ok { log with entries := log.entries ++ [⟨tag, source, payload⟩] }
  else
    .error (.unknownTag tag)

/-- Removes the first entry of a tag from a sender, if there is one. -/
def takeFirst (tag : Tag) (rank : Rank) (log : ResponseLog) :
    Option (Rank × Payload) × ResponseLog :=
  ((log.entries.find? (isOf tag rank)).map fun entry => (rank, entry.payload),
    { log with entries := log.entries.eraseP (isOf tag rank) })

/-- Removes the first entry of a tag from the first of some senders that has one. -/
def takeAmong (tag : Tag) (ranks : List Rank) (log : ResponseLog) :
    Option (Rank × Payload) × ResponseLog :=
  match ranks.find? fun rank => log.entries.any (isOf tag rank) with
  | some rank => log.takeFirst tag rank
  | none => (none, log)

/-- Removes the first entry of a sender, or of the least sender in the group that has one.  A
rank outside the group is refused before an unknown tag. -/
def pop (source : Source) (tag : Tag) (log : ResponseLog) :
    Except Error (Option (Rank × Payload) × ResponseLog) :=
  match source with
  | .rank rank =>
      if log.size ≤ rank then .error (.invalidRank rank log.size)
      else if tag.isKnown then .ok (log.takeFirst tag rank)
      else .error (.unknownTag tag)
  | .any =>
      if tag.isKnown then .ok (log.takeAmong tag (List.range log.size))
      else .error (.unknownTag tag)

def count (tag : Tag) (log : ResponseLog) : Nat :=
  (log.entries.filter fun entry => entry.tag = tag).length

def payloads (tag : Tag) (source : Rank) (log : ResponseLog) : List Payload :=
  (log.entries.filter (isOf tag source)).map LoggedResponse.payload

end ResponseLog

/-! ## Stores -/

/-- What holds responses: pushes and pops that may fail, and the number of payloads. -/
structure ResponseStore (σ : Type) where
  push : Tag → Rank → Payload → σ → Except Error σ
  pop : Source → Tag → σ → Except Error (Option (Rank × Payload) × σ)
  count : Tag → σ → Nat

inductive ResponseCall where
  | push (tag : Tag) (source : Rank) (payload : Payload)
  | pop (source : Source) (tag : Tag)
  | count (tag : Tag)
deriving DecidableEq, Repr

inductive ResponseAnswer where
  | pushed (outcome : Except Error Unit)
  | popped (outcome : Except Error (Option (Rank × Payload)))
  | counted (number : Nat)

namespace ResponseStore

variable {σ : Type} (store : ResponseStore σ)

/-- Answers a call.  A call that fails changes nothing. -/
def answer (state : σ) : ResponseCall → ResponseAnswer × σ
  | .push tag source payload =>
      match store.push tag source payload state with
      | .ok after => (.pushed (.ok ()), after)
      | .error error => (.pushed (.error error), state)
  | .pop source tag =>
      match store.pop source tag state with
      | .ok (found, after) => (.popped (.ok found), after)
      | .error error => (.popped (.error error), state)
  | .count tag => (.counted (store.count tag state), state)

def run : List ResponseCall → σ → List ResponseAnswer × σ
  | [], state => ([], state)
  | call :: rest, state =>
      let (given, after) := store.answer state call
      let (others, last) := run rest after
      (given :: others, last)

end ResponseStore

def ResponseTable.store : ResponseStore ResponseTable :=
  ⟨ResponseTable.push, ResponseTable.pop, ResponseTable.count⟩

def ResponseLog.store : ResponseStore ResponseLog :=
  ⟨ResponseLog.push, ResponseLog.pop, ResponseLog.count⟩

/-! ## The entries of a log -/

namespace ResponseLog

open LoggedResponse (isOf)

variable {log : ResponseLog} {tag tested : Tag} {source sender rank : Rank}
  {payload : Payload} {entry : LoggedResponse}

theorem isOf_iff : entry.isOf tag source = true ↔ entry.tag = tag ∧ entry.source = source := by
  simp [isOf]

theorem head?_payloads (tag : Tag) (rank : Rank) (log : ResponseLog) :
    (log.payloads tag rank).head? =
      (log.entries.find? (isOf tag rank)).map LoggedResponse.payload := by
  rw [payloads, List.head?_map, List.head?_filter]

/-- The first entry of a tag from a sender stands between entries of others and the rest. -/
theorem split_of_find? (found : log.entries.find? (isOf tag rank) = some entry) :
    ∃ before after, log.entries = before ++ entry :: after ∧
      log.entries.eraseP (isOf tag rank) = before ++ after ∧
      (∀ other ∈ before, ¬ other.isOf tag rank) ∧ entry.tag = tag ∧ entry.source = rank := by
  obtain ⟨own, before, after, split, earlier⟩ := List.find?_eq_some_iff_append.mp found
  have others : ∀ other ∈ before, ¬ other.isOf tag rank := by simpa using earlier
  refine ⟨before, after, split, ?_, others, isOf_iff.mp own⟩
  rw [split, List.eraseP_append_right _ others, List.eraseP_cons_of_pos own]

theorem payloads_eraseP (found : log.entries.find? (isOf tag rank) = some entry)
    (tested : Tag) (sender : Rank) :
    log.payloads tested sender =
      (if tag = tested ∧ rank = sender then [entry.payload] else []) ++
        payloads tested sender { log with entries := log.entries.eraseP (isOf tag rank) } := by
  obtain ⟨before, after, split, erased, others, rfl, rfl⟩ := split_of_find? found
  simp only [payloads, erased]
  simp only [split, List.filter_append, List.filter_cons, List.map_append]
  by_cases same : entry.tag = tested ∧ entry.source = sender
  · have none_before : before.filter (isOf tested sender) = [] := by
      rw [List.filter_eq_nil_iff, ← same.1, ← same.2]
      exact others
    rw [if_pos same, if_pos (isOf_iff.mpr same), none_before]
    rfl
  · rw [if_neg same, if_neg (same ∘ isOf_iff.mp)]
    rfl

theorem count_eraseP (found : log.entries.find? (isOf tag rank) = some entry) (tested : Tag) :
    log.count tested =
      count tested { log with entries := log.entries.eraseP (isOf tag rank) } +
        if tag = tested then 1 else 0 := by
  obtain ⟨before, after, split, erased, _, rfl, rfl⟩ := split_of_find? found
  simp only [count, erased]
  simp only [split, List.filter_append, List.length_append, List.filter_cons,
    decide_eq_true_eq]
  split
  · rw [List.length_cons]
    omega
  · omega

/-- What a pop makes of a log: it takes the first entry of one of some senders, or nothing. -/
inductive Taken (tag : Tag) (ranks : List Rank) (log : ResponseLog) :
    Option (Rank × Payload) × ResponseLog → Prop
  | nothing : Taken tag ranks log (none, log)
  | first {rank : Rank} {entry : LoggedResponse} (accepted : rank ∈ ranks)
      (found : log.entries.find? (isOf tag rank) = some entry) :
      Taken tag ranks log
        (some (rank, entry.payload),
          { log with entries := log.entries.eraseP (isOf tag rank) })

theorem taken_takeFirst {ranks : List Rank} (accepted : rank ∈ ranks) (tag : Tag)
    (log : ResponseLog) : Taken tag ranks log (log.takeFirst tag rank) := by
  rw [takeFirst]
  cases found : log.entries.find? (isOf tag rank) with
  | none =>
      rw [List.eraseP_of_forall_not (List.find?_eq_none.mp found)]
      exact .nothing
  | some entry => exact .first accepted found

theorem taken_takeAmong (tag : Tag) (ranks : List Rank) (log : ResponseLog) :
    Taken tag ranks log (log.takeAmong tag ranks) := by
  rw [takeAmong]
  split
  · rename_i rank chosen
    exact taken_takeFirst (List.mem_of_find?_eq_some chosen) tag log
  · exact .nothing

theorem takeFirst_fst (tag : Tag) (rank : Rank) (log : ResponseLog) :
    (log.takeFirst tag rank).1 =
      (log.payloads tag rank).head?.map fun payload => (rank, payload) := by
  rw [head?_payloads, Option.map_map]
  rfl

theorem takeAmong_fst (tag : Tag) (ranks : List Rank) (log : ResponseLog) :
    (log.takeAmong tag ranks).1 =
      ranks.findSome? fun rank =>
        (log.payloads tag rank).head?.map fun payload => (rank, payload) := by
  induction ranks with
  | nil => rfl
  | cons rank rest inductionHypothesis =>
      rw [List.findSome?_cons, ← inductionHypothesis, ← takeFirst_fst, takeAmong, takeAmong,
        List.find?_cons]
      cases found : log.entries.find? (isOf tag rank) with
      | none =>
          have nobody : log.entries.any (isOf tag rank) = false := by
            simpa using found
          rw [nobody]
          simp [takeFirst, found]
      | some entry =>
          have somebody : log.entries.any (isOf tag rank) = true :=
            List.any_eq_true.mpr ⟨entry, List.mem_of_find?_eq_some found,
              List.find?_some found⟩
          rw [somebody]
          simp [takeFirst, found]

end ResponseLog

/-! ## The table and the log -/

namespace ResponseTable

open LoggedResponse (isOf)

/-- A table and a log hold the same responses. -/
structure Mirrors (log : ResponseLog) (table : ResponseTable) : Prop where
  sound : table.Sound log.size
  lanes : ∀ tag source, table.waiting tag source = log.payloads tag source
  counts : ∀ tag, table.count tag = log.count tag
  known : ∀ entry ∈ log.entries, entry.tag.isKnown = true

variable {table rest : ResponseTable} {log after : ResponseLog} {tag : Tag} {source : Source}
  {rank : Rank} {payload : Payload} {found : Option (Rank × Payload)}

namespace Mirrors

theorem start (size : Nat) : Mirrors { size } { size } :=
  ⟨.empty size, fun _ _ => rfl, fun _ => rfl, nofun⟩

theorem first?_eq (mirrors : Mirrors log table) (source : Source) (tag : Tag) :
    table.first? source tag =
      (source.members log.size).findSome? fun rank =>
        (log.payloads tag rank).head?.map fun payload => (rank, payload) := by
  rw [first?, mirrors.sound.size]
  simp only [mirrors.lanes]

theorem push (mirrors : Mirrors log table) (known : tag.isKnown = true) (rank : Rank)
    (payload : Payload) :
    Mirrors { log with entries := log.entries ++ [⟨tag, rank, payload⟩] }
      { table with lanes := append tag rank payload table.lanes } := by
  have pushed : table.push tag rank payload =
      .ok { table with lanes := append tag rank payload table.lanes } := by
    rw [ResponseTable.push, if_pos known]
  refine ⟨mirrors.sound.push pushed, fun tested sender => ?_, fun tested => ?_, ?_⟩
  · rw [waiting_of_push pushed, mirrors.lanes]
    by_cases same : tag = tested ∧ rank = sender <;>
      simp [ResponseLog.payloads, isOf, same]
  · rw [count_append, mirrors.counts]
    by_cases same : tag = tested <;> simp [ResponseLog.count, same]
  · intro entry member
    rcases List.mem_append.mp member with earlier | last
    · exact mirrors.known entry earlier
    · rw [List.mem_singleton.mp last]
      exact known

theorem pop (mirrors : Mirrors log table) (popped : table.pop source tag = .ok (found, rest))
    (taken : ResponseLog.Taken tag (source.members log.size) log (found, after)) :
    Mirrors after rest := by
  cases taken with
  | nothing => exact eq_of_pop_none popped ▸ mirrors
  | @first rank entry _ own =>
      refine ⟨mirrors.sound.pop popped, fun tested sender => ?_, fun tested => ?_, ?_⟩
      · have lanes := waiting_of_pop popped tested sender
        rw [mirrors.lanes, ResponseLog.payloads_eraseP own tested sender] at lanes
        exact (List.append_cancel_left lanes).symm
      · obtain ⟨_, lanes, taken, rfl⟩ := takeFrom_of_pop popped
        have counts : table.count tested =
            (⟨table.size, lanes⟩ : ResponseTable).count tested +
              if tag = tested then 1 else 0 :=
          count_takeFrom taken tested
        have same := mirrors.counts tested
        rw [ResponseLog.count_eraseP own tested] at same
        exact Nat.add_right_cancel (counts.symm.trans same)
      · exact fun entry member => mirrors.known entry (List.mem_of_mem_eraseP member)

/-- A pop that is in order finds the same in both. -/
theorem pop_ok (mirrors : Mirrors log table) (known : tag.isKnown = true)
    (within : source.IsWithin log.size) :
    ∃ found rest after, table.pop source tag = .ok (found, rest) ∧
      log.pop source tag = .ok (found, after) ∧
      ResponseLog.Taken tag (source.members log.size) log (found, after) := by
  obtain ⟨rest, popped⟩ := mirrors.sound.pop_eq known within
  rw [mirrors.first?_eq] at popped
  cases source with
  | rank rank =>
      have own : rank ∈ (Source.rank rank).members log.size := List.mem_singleton.mpr rfl
      have inside : rank < log.size := within rank own
      rw [Source.members, List.findSome?_singleton, ← ResponseLog.takeFirst_fst] at popped
      refine ⟨_, rest, _, popped, ?_, ResponseLog.taken_takeFirst own tag log⟩
      exact (if_neg (Nat.not_le.mpr inside)).trans (if_pos known)
  | any =>
      rw [Source.members, ← ResponseLog.takeAmong_fst] at popped
      refine ⟨_, rest, _, popped, ?_, ResponseLog.taken_takeAmong tag (List.range log.size) log⟩
      exact if_pos known

/-- A pop that is not in order is refused by both, with the same error. -/
theorem pop_error (mirrors : Mirrors log table)
    (wrong : ¬ (tag.isKnown = true ∧ source.IsWithin log.size)) :
    ∃ error, table.pop source tag = .error error ∧ log.pop source tag = .error error := by
  have unknown (within : source.IsWithin log.size) : ¬ tag.isKnown = true :=
    fun known => wrong ⟨known, within⟩
  cases source with
  | any =>
      have unknown := unknown (Source.isWithin_any log.size)
      exact ⟨.unknownTag tag, if_neg unknown, if_neg unknown⟩
  | rank rank =>
      rw [ResponseTable.pop, ResponseLog.pop, mirrors.sound.size]
      by_cases outside : log.size ≤ rank
      · exact ⟨_, if_pos outside, if_pos outside⟩
      · have within : (Source.rank rank).IsWithin log.size := by
          intro other member
          rw [List.mem_singleton.mp member]
          exact Nat.not_le.mp outside
        rw [if_neg outside, if_neg outside, pop.popChosen]
        exact ⟨.unknownTag tag, if_neg (unknown within), if_neg (unknown within)⟩

/-- A table and a log that hold the same give the same answer to a call, and hold the same
afterwards. -/
theorem answer (mirrors : Mirrors log table) (call : ResponseCall) :
    (store.answer table call).1 = (ResponseLog.store.answer log call).1 ∧
      Mirrors (ResponseLog.store.answer log call).2 (store.answer table call).2 := by
  cases call with
  | push tag rank payload =>
      simp only [ResponseStore.answer, store, ResponseLog.store, ResponseTable.push,
        ResponseLog.push]
      by_cases known : tag.isKnown = true
      · rw [if_pos known, if_pos known]
        exact ⟨rfl, mirrors.push known rank payload⟩
      · rw [if_neg known, if_neg known]
        exact ⟨rfl, mirrors⟩
  | pop source tag =>
      simp only [ResponseStore.answer, store, ResponseLog.store]
      by_cases valid : tag.isKnown = true ∧ source.IsWithin log.size
      · obtain ⟨found, rest, after, popped, same, taken⟩ := mirrors.pop_ok valid.1 valid.2
        rw [popped, same]
        exact ⟨rfl, mirrors.pop popped taken⟩
      · obtain ⟨error, refused, same⟩ := mirrors.pop_error valid
        rw [refused, same]
        exact ⟨rfl, mirrors⟩
  | count tag => exact ⟨congrArg ResponseAnswer.counted (mirrors.counts tag), mirrors⟩

theorem run (mirrors : Mirrors log table) (calls : List ResponseCall) :
    (store.run calls table).1 = (ResponseLog.store.run calls log).1 ∧
      Mirrors (ResponseLog.store.run calls log).2 (store.run calls table).2 := by
  induction calls generalizing table log with
  | nil => exact ⟨rfl, mirrors⟩
  | cons call rest inductionHypothesis =>
      obtain ⟨same, after⟩ := mirrors.answer call
      obtain ⟨others, last⟩ := inductionHypothesis after
      exact ⟨List.cons_eq_cons.mpr ⟨same, others⟩, last⟩

theorem count_of_unknown (mirrors : Mirrors log table) (unknown : ¬ tag.isKnown = true) :
    table.count tag = 0 := by
  rw [mirrors.counts, ResponseLog.count, List.length_eq_zero_iff, List.filter_eq_nil_iff]
  intro entry member own
  exact unknown (of_decide_eq_true own ▸ mirrors.known entry member)

end Mirrors

/-- Whatever is pushed, popped and counted, a table answers as the log of the same pushes and
pops does.  The lane of a tag and a sender holds the payloads of their entries, the oldest
first, and a tag counts as many payloads as it has entries, none if it is unknown. -/
theorem answers_as_log (size : Nat) (calls : List ResponseCall) :
    let (given, table) := store.run calls { size }
    let (expected, log) := ResponseLog.store.run calls { size }
    given = expected ∧
      (∀ tag source, table.waiting tag source =
        (log.entries.filter fun entry => entry.tag = tag && entry.source = source).map
          LoggedResponse.payload) ∧
      ∀ tag, table.count tag =
        if tag.isKnown then (log.entries.filter fun entry => entry.tag = tag).length else 0 := by
  obtain ⟨same, mirrors⟩ := (Mirrors.start size).run calls
  refine ⟨same, mirrors.lanes, fun tag => ?_⟩
  split
  · exact mirrors.counts tag
  · rename_i unknown
    exact mirrors.count_of_unknown unknown

end ResponseTable

end ParameterServer

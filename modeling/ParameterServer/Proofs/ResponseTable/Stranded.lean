import ParameterServer.Proofs.ResponseTable.Log

/-!
# Responses that no reader gets

A push accepts any sender, while a reader that accepts any sender looks at the members of the
group only.  What such a reader finds, and what is left when it finds nothing, is said here:
payloads from outside the group are counted and stay for ever.
-/

namespace ParameterServer

/-- What a call brings under a tag from outside a group of `size`. -/
def ResponseCall.stray? (size : Nat) (tag : Tag) : ResponseCall → Option LoggedResponse
  | .push own source payload =>
      if own = tag ∧ size ≤ source then some ⟨own, source, payload⟩ else none
  | .pop _ _ | .count _ => none

namespace ResponseLog

open LoggedResponse (isOf)

/-- The payloads of a tag from some senders, those of one sender after those of another. -/
def gathered (tag : Tag) (ranks : List Rank) (log : ResponseLog) : List (Rank × Payload) :=
  ranks.flatMap fun rank => (log.payloads tag rank).map fun payload => (rank, payload)

/-- The payloads of a tag from the members of the group, in the order in which a reader that
accepts any sender gets them. -/
def readable (tag : Tag) (log : ResponseLog) : List (Rank × Payload) :=
  log.gathered tag (List.range log.size)

def stranded (tag : Tag) (log : ResponseLog) : List LoggedResponse :=
  log.entries.filter fun entry => entry.tag = tag && log.size ≤ entry.source

variable {log after : ResponseLog} {tag tested : Tag} {rank : Rank} {payload : Payload}
  {ranks : List Rank} {found : Option (Rank × Payload)}

/-! ## The readable payloads -/

theorem head?_gathered (tag : Tag) (ranks : List Rank) (log : ResponseLog) :
    (log.takeAmong tag ranks).1 = (log.gathered tag ranks).head? := by
  rw [takeAmong_fst, gathered, List.head?_flatMap]
  simp only [List.head?_map]

theorem length_gathered (tag : Tag) (log : ResponseLog) (bound : Nat) :
    (log.gathered tag (List.range bound)).length =
      log.entries.countP fun entry => entry.tag = tag && entry.source < bound := by
  induction bound with
  | zero => simp [gathered]
  | succ bound inductionHypothesis =>
      -- One more sender brings its own entries and leaves those of the others.
      have split : (log.entries.countP fun entry => entry.tag = tag && entry.source < bound + 1) =
          (log.entries.countP fun entry => entry.tag = tag && entry.source < bound) +
            log.entries.countP (isOf tag bound) := by
        rw [List.countP_eq_countP_filter_add log.entries _ fun entry => entry.source < bound,
          List.countP_filter, List.countP_filter]
        congr 1
        · exact List.countP_congr fun entry _ => by grind
        · exact List.countP_congr fun entry _ => by grind [isOf]
      rw [gathered] at inductionHypothesis ⊢
      rw [List.range_succ, List.flatMap_append, List.length_append, inductionHypothesis, split]
      simp [payloads, List.countP_eq_length_filter]

/-- Every entry of a tag is readable or stranded. -/
theorem count_eq_add (tag : Tag) (log : ResponseLog) :
    log.count tag = (log.readable tag).length + (log.stranded tag).length := by
  rw [readable, length_gathered, count, stranded, ← List.countP_eq_length_filter,
    ← List.countP_eq_length_filter,
    List.countP_eq_countP_filter_add log.entries _ fun entry => entry.source < log.size,
    List.countP_filter, List.countP_filter]
  congr 1
  refine List.countP_congr fun entry _ => ?_
  simp

theorem gathered_of_silent (silent : ∀ sender ∈ ranks, log.payloads tag sender = []) :
    log.gathered tag ranks = [] := by
  refine List.flatMap_eq_nil_iff.mpr fun sender member => ?_
  rw [silent sender member]
  rfl

/-- What is taken from one sender is not missing from others. -/
theorem gathered_eraseP {entry : LoggedResponse}
    (own : log.entries.find? (isOf tag rank) = some entry) (others : rank ∉ ranks) :
    gathered tag ranks { log with entries := log.entries.eraseP (isOf tag rank) } =
      log.gathered tag ranks := by
  refine List.flatMap_congr fun sender member => ?_
  rw [payloads_eraseP own tag sender, if_neg, List.nil_append]
  rintro ⟨-, rfl⟩
  exact others member

/-- A reader that accepts any sender takes the first of the readable payloads. -/
theorem readable_eq_cons (taken : log.takeAmong tag (List.range log.size) =
      (some (rank, payload), after)) :
    log.readable tag = (rank, payload) :: after.readable tag := by
  have course := taken_takeAmong tag (List.range log.size) log
  have least := takeAmong_fst tag (List.range log.size) log
  rw [taken] at course least
  cases course with
  | @first rank entry accepted own =>
      -- The senders before the one that is served have nothing, and each is looked at once.
      obtain ⟨earlier, sender, later, split, found, before⟩ :=
        List.findSome?_eq_some_iff.mp least.symm
      obtain ⟨payload, head, same⟩ := Option.map_eq_some_iff.mp found
      cases same
      have distinct : (earlier ++ rank :: later).Nodup := split ▸ List.nodup_range
      obtain ⟨fresh, _⟩ := List.nodup_cons.mp (List.nodup_middle.mp distinct)
      rw [List.mem_append, not_or] at fresh
      have skipped : log.gathered tag earlier = [] :=
        gathered_of_silent fun sender member => by simpa using before sender member
      have rest := gathered_eraseP own fresh.1
      have last := gathered_eraseP own fresh.2
      simp only [readable, gathered, split, List.flatMap_append, List.flatMap_cons]
        at skipped rest last ⊢
      rw [rest, last, skipped, payloads_eraseP own tag, if_pos ⟨rfl, rfl⟩]
      rfl

/-! ## The stranded entries -/

theorem Taken.size (taken : Taken tag ranks log (found, after)) : after.size = log.size := by
  cases taken <;> rfl

/-- A reader leaves the entries from outside the group alone. -/
theorem Taken.stranded (taken : Taken tag ranks log (found, after))
    (inside : ∀ rank ∈ ranks, rank < log.size) (tested : Tag) :
    after.stranded tested = log.stranded tested := by
  cases taken with
  | nothing => rfl
  | @first rank entry accepted own =>
      obtain ⟨before, later, split, erased, _, _, sender⟩ := split_of_find? own
      have within : ¬ log.size ≤ entry.source := by
        rw [sender]
        exact Nat.not_le.mpr (inside rank accepted)
      simp only [ResponseLog.stranded, erased]
      simp [split, within]

end ResponseLog

namespace ResponseTable

namespace Mirrors

variable {log : ResponseLog} {table : ResponseTable} {tag : Tag}

/-- A reader that accepts any sender is answered as by the log. -/
theorem pop_any (mirrors : Mirrors log table) (known : tag.isKnown = true) :
    ∃ found rest after, table.pop .any tag = .ok (found, rest) ∧
      log.takeAmong tag (List.range log.size) = (found, after) ∧
      ResponseLog.Taken tag (List.range log.size) log (found, after) := by
  obtain ⟨found, rest, after, popped, same, taken⟩ :=
    mirrors.pop_ok known (Source.isWithin_any log.size)
  exact ⟨found, rest, after, popped, Except.ok.inj ((if_pos known).symm.trans same), taken⟩

theorem pop_any_none (mirrors : Mirrors log table) (known : tag.isKnown = true) :
    table.pop .any tag = .ok (none, table) ↔ log.readable tag = [] := by
  obtain ⟨found, rest, after, popped, whole, _⟩ := mirrors.pop_any known
  rw [← List.head?_eq_none_iff, ResponseLog.readable, ← ResponseLog.head?_gathered, whole, popped]
  cases found with
  | none => simp [eq_of_pop_none popped]
  | some found => simp

/-- Popping for any sender gives the readable payloads, one after another, and leaves the
stranded ones. -/
theorem drainFor (known : tag.isKnown = true) (limit : Nat) (mirrors : Mirrors log table)
    (enough : (log.readable tag).length < limit) :
    ∃ rest after, table.drainFor .any tag limit = ((log.readable tag).map .ok, rest) ∧
      Mirrors after rest ∧ after.readable tag = [] ∧ after.stranded tag = log.stranded tag := by
  induction limit generalizing table log with
  | zero => exact absurd enough (Nat.not_lt_zero _)
  | succ limit inductionHypothesis =>
      obtain ⟨found, rest, after, popped, whole, taken⟩ := mirrors.pop_any known
      have remains := taken.stranded (Source.isWithin_any log.size) tag
      cases found with
      | none =>
          have nothing := (mirrors.pop_any_none known).mp (eq_of_pop_none popped ▸ popped)
          cases taken
          refine ⟨rest, log, ?_, mirrors.pop popped .nothing, nothing, rfl⟩
          rw [ResponseTable.drainFor, popped, nothing]
          rfl
      | some found =>
          have shape := ResponseLog.readable_eq_cons whole
          rw [shape] at enough ⊢
          obtain ⟨last, final, drained, holds, nothing, left⟩ :=
            inductionHypothesis (mirrors.pop popped taken) (Nat.lt_of_succ_lt_succ enough)
          refine ⟨last, final, ?_, holds, nothing, left.trans remains⟩
          rw [ResponseTable.drainFor, popped]
          simp only [drained, List.map_cons]

/-- A call strands what it brings from outside the group, and frees nothing. -/
theorem stranded_answer (mirrors : Mirrors log table) (known : tag.isKnown = true)
    (call : ResponseCall) :
    let after := (ResponseLog.store.answer log call).2
    after.size = log.size ∧
      after.stranded tag = log.stranded tag ++ (call.stray? log.size tag).toList := by
  cases call with
  | push own rank payload =>
      by_cases accepted : own.isKnown = true
      · simp only [ResponseStore.answer, ResponseLog.store, ResponseLog.push, accepted,
          ↓reduceIte, ResponseLog.stranded, List.filter_append, ResponseCall.stray?, true_and]
        by_cases stray : own = tag ∧ log.size ≤ rank
        · simp [stray]
        · simp [stray]
      · have other : ¬ own = tag := by
          rintro rfl
          exact accepted known
        simp [ResponseStore.answer, ResponseLog.store, ResponseLog.push, accepted,
          ResponseCall.stray?, other]
  | pop source own =>
      by_cases valid : own.isKnown = true ∧ source.IsWithin log.size
      · obtain ⟨found, rest, after, _, same, taken⟩ := mirrors.pop_ok valid.1 valid.2
        simp only [ResponseStore.answer, ResponseLog.store, same]
        exact ⟨taken.size, (taken.stranded valid.2 tag).trans (List.append_nil _).symm⟩
      · obtain ⟨error, _, same⟩ := mirrors.pop_error valid
        simp only [ResponseStore.answer, ResponseLog.store, same]
        exact ⟨trivial, (List.append_nil _).symm⟩
  | count own => exact ⟨rfl, (List.append_nil _).symm⟩

theorem stranded_run (mirrors : Mirrors log table) (known : tag.isKnown = true)
    (calls : List ResponseCall) :
    (ResponseLog.store.run calls log).2.stranded tag =
      log.stranded tag ++ calls.filterMap (ResponseCall.stray? log.size tag) := by
  induction calls generalizing table log with
  | nil => exact (List.append_nil _).symm
  | cons call rest inductionHypothesis =>
      obtain ⟨size, stranded⟩ := mirrors.stranded_answer known call
      refine (inductionHypothesis (mirrors.answer call).2).trans ?_
      rw [size, stranded, List.append_assoc, List.filterMap_cons]
      cases call.stray? log.size tag <;> rfl

end Mirrors

/-- Whatever is pushed and popped, a reader that accepts any sender finds nothing exactly when
no payload of a member of the group waits, while a tag counts what was ever pushed from outside
the group too.  Popping until nothing is found gives all payloads of the members, those of lower
ranks first, and leaves the others.  In particular a tag without payloads is one for which
nothing is found only as long as nothing has come from outside the group. -/
theorem pop_any_none_iff_unreadable (size : Nat) (calls : List ResponseCall) (tag : Tag)
    (known : tag.isKnown = true) :
    let table := (store.run calls { size }).2
    let readable := (ResponseLog.store.run calls { size }).2.readable tag
    let strays := calls.filterMap (ResponseCall.stray? size tag)
    (table.pop .any tag = .ok (none, table) ↔ readable = []) ∧
      (table.isEmpty tag = true ↔ readable = [] ∧ strays = []) ∧
      ∃ rest, table.drain .any tag = (readable.map .ok, rest) ∧
        rest.pop .any tag = .ok (none, rest) ∧ rest.count tag = strays.length := by
  intro table readable strays
  obtain ⟨_, mirrors⟩ := (Mirrors.start size).run calls
  have stranded : (ResponseLog.store.run calls { size }).2.stranded tag = strays :=
    (Mirrors.start size).stranded_run known calls
  have count : table.count tag = readable.length + strays.length := by
    rw [mirrors.counts, ResponseLog.count_eq_add, stranded]
  have enough : readable.length < table.count tag + 1 := by omega
  refine ⟨mirrors.pop_any_none known, ?_, ?_⟩
  · rw [isEmpty, decide_eq_true_eq, count, Nat.add_eq_zero_iff, List.length_eq_zero_iff,
      List.length_eq_zero_iff]
  · obtain ⟨rest, after, drained, holds, nothing, left⟩ :=
      mirrors.drainFor known (table.count tag + 1) enough
    refine ⟨rest, drained, (holds.pop_any_none known).mpr nothing, ?_⟩
    rw [holds.counts, ResponseLog.count_eq_add, nothing, left, stranded]
    exact Nat.zero_add _

/-- A payload from a member and one from outside a group of two: the first one is read, and the
other one is counted for ever. -/
theorem pop_any_none_iff_unreadable_pair :
    let table := (store.run [.push .empty 2 [1], .push .empty 0 [2]] { size := 2 }).2
    Tag.empty.isKnown = true ∧
      ∃ rest, table.drain .any .empty = ([.ok (0, [2])], rest) ∧
        rest.pop .any .empty = .ok (none, rest) ∧ rest.count .empty = 1 :=
  ⟨by decide, (pop_any_none_iff_unreadable 2 [.push .empty 2 [1], .push .empty 0 [2]] .empty
    (by decide)).2.2⟩

/-- A tag with a payload for which a reader that accepts any sender finds nothing. -/
theorem pop_any_none_of_stray :
    let table := (store.run [.push .empty 2 [1]] { size := 2 }).2
    table.pop .any .empty = .ok (none, table) ∧ table.isEmpty .empty = false :=
  ⟨rfl, rfl⟩

end ResponseTable

end ParameterServer

import Mathlib.Data.List.Rotate
import Mathlib.Data.Nat.ModEq
import ParameterServer.Proofs.Queue.Waiting

/-!
# Draining a synchronous queue

Put one below the other, from the key at the cursor on, the lists of the keys are the rows
of a table.  Taking messages until none is left reads this table column by column: a round
takes one message of each key that has any left, wherever the cursor was at the start.
-/

namespace ParameterServer

/-! ## Rows and columns -/

section Columns

variable {α : Type}

/-- The items of some rows at one depth, from the first row to the last. -/
def column (depth : Nat) (rows : List (List α)) : List α :=
  rows.filterMap fun row => row[depth]?

/-- The first columns of some rows, one after another. -/
def columns (count : Nat) (rows : List (List α)) : List α :=
  (List.range count).flatMap fun depth => column depth rows

theorem columns_succ (count : Nat) (rows : List (List α)) :
    columns (count + 1) rows = columns count rows ++ column count rows := by
  simp [columns, List.range_succ]

theorem column_append (depth : Nat) (first rest : List (List α)) :
    column depth (first ++ rest) = column depth first ++ column depth rest :=
  List.filterMap_append

theorem column_of_short {depth : Nat} {rows : List (List α)}
    (short : ∀ row ∈ rows, row.length ≤ depth) : column depth rows = [] := by
  apply List.filterMap_eq_nil_iff.mpr
  intro row member
  exact List.getElem?_eq_none (short row member)

theorem columns_add_of_short {count : Nat} {rows : List (List α)}
    (short : ∀ row ∈ rows, row.length ≤ count) (more : Nat) :
    columns (count + more) rows = columns count rows := by
  induction more with
  | zero =>
      rfl
  | succ more inductionHypothesis =>
      have beyond : column (count + more) rows = [] := by
        apply column_of_short
        intro row member
        exact (short row member).trans (Nat.le_add_right count more)
      rw [← Nat.add_assoc, columns_succ, inductionHypothesis, beyond, List.append_nil]

/-- Empty rows add nothing to the columns, wherever they stand. -/
theorem columns_of_empty {passed : List (List α)} (empty : ∀ row ∈ passed, row = [])
    (count : Nat) (before after : List (List α)) :
    columns count (before ++ (passed ++ after)) = columns count (before ++ after) := by
  have nothing (depth : Nat) : column depth passed = [] := by
    apply column_of_short
    intro row member
    rw [empty row member]
    exact Nat.zero_le depth
  simp only [columns, column_append, nothing, List.nil_append]

/-- When the first item of the first row is taken and what is left of the row is put last,
the columns hold the same items in the same order: every row behind the first one now stands
one place ahead of it. -/
theorem columns_succ_cons (count : Nat) (item : α) (row : List α) (rows : List (List α)) :
    columns (count + 1) ((item :: row) :: rows) =
      item :: columns count (rows ++ [row]) ++ column count rows := by
  have split (depth : Nat) : column depth (rows ++ [row]) =
      column depth rows ++ row[depth]?.toList := by
    rw [column_append]
    cases found : row[depth]? <;> simp [column, found]
  induction count with
  | zero =>
      simp [columns, column]
  | succ count inductionHypothesis =>
      have next : column (count + 1) ((item :: row) :: rows) =
          row[count]?.toList ++ column (count + 1) rows := by
        cases found : row[count]? <;> simp [column, found]
      rw [columns_succ, inductionHypothesis, next, columns_succ, split]
      simp

theorem rotate_set {items : List α} {start steps : Nat} (inside : steps < items.length)
    (item : α) :
    (items.set ((start + steps) % items.length) item).rotate start =
      (items.rotate start).set steps item := by
  apply List.ext_getElem?
  intro position
  by_cases small : position < items.length
  · rw [List.getElem?_rotate (by simpa using small), List.length_set, List.getElem?_set,
      List.getElem?_set, List.length_rotate, List.getElem?_rotate small]
    have same : (start + steps) % items.length = (position + start) % items.length ↔
        steps = position := by
      rw [Nat.add_comm position start]
      constructor
      · intro equal
        have cancelled := Nat.ModEq.add_left_cancel' start equal
        rwa [Nat.ModEq, Nat.mod_eq_of_lt inside, Nat.mod_eq_of_lt small] at cancelled
      · rintro rfl
        rfl
    simp only [same]
    split
    · rename_i own
      subst own
      rw [if_pos (Nat.mod_lt _ (by omega))]
    · rfl
  · rw [List.getElem?_eq_none (by simpa using small), List.getElem?_eq_none (by simpa using small)]

end Columns

/-! ## The rows of a queue -/

namespace Queue.Fifo

variable {slots rest : RoundRobin Fifo} {message : Message}

/-- The lists of the keys, from the one at the cursor on. -/
def rows (slots : RoundRobin Fifo) : List Fifo :=
  (slots.slots.map Prod.snd).rotate slots.cursor

theorem mem_rows {row : Fifo} : row ∈ rows slots ↔ ∃ entry ∈ slots.slots, entry.2 = row := by
  rw [rows, List.mem_rotate, List.mem_map]

theorem length_flatten_rows (slots : RoundRobin Fifo) :
    (rows slots).flatten.length = (RequestQueue.sync slots).buffered.length := by
  exact (List.rotate_perm (slots.slots.map Prod.snd) slots.cursor).flatten.length_eq

/-- The row of the slot that is visited after some others. -/
theorem getElem?_rows {others : Nat} (inside : others < slots.keyCount) :
    (rows slots)[others]? = slots.slots[slots.visited others]?.map Prod.snd := by
  have small : others < (slots.slots.map Prod.snd).length := by
    simpa [RoundRobin.keyCount] using inside
  rw [rows, List.getElem?_rotate small, List.getElem?_map, List.length_map,
    RoundRobin.visited, RoundRobin.keyCount, Nat.add_comm]

theorem of_take {before after : Fifo} (taken : discipline.take before = some (message, after)) :
    before = message :: after := by
  cases before with
  | nil => cases taken
  | cons oldest rest =>
      cases taken
      rfl

theorem eq_nil_of_idleAt {others : Nat} (inside : others < slots.keyCount)
    (idle : slots.IdleAt discipline (slots.visited others)) {row : Fifo}
    (listed : (rows slots)[others]? = some row) : row = [] := by
  rw [getElem?_rows inside, Option.map_eq_some_iff] at listed
  obtain ⟨⟨key, slot⟩, occupied, rfl⟩ := listed
  have nothing := idle key slot occupied
  cases slot with
  | nil => rfl
  | cons oldest rest => cases nothing

/-- A row changes in its place, and the cursor moves behind it. -/
theorem rows_set {others : Nat} (inside : others < slots.keyCount) (key : String) (row : Fifo)
    (pending : Nat) :
    rows
        { slots with
          slots := slots.slots.set (slots.visited others) (key, row)
          cursor := slots.visited (others + 1)
          pending } =
      ((rows slots).set others row).rotate (others + 1) := by
  have count : (slots.slots.map Prod.snd).length = slots.keyCount := List.length_map _
  have around := List.rotate_mod
    ((slots.slots.map Prod.snd).set (slots.visited others) row) (slots.cursor + (others + 1))
  rw [List.length_set, count] at around
  simp only [rows]
  rw [List.map_set, ← rotate_set (count ▸ inside), List.rotate_rotate, count]
  exact around

/-- A scan takes the first message of the first row that has any, and the cursor moves
behind that row. -/
theorem rows_of_scan_some (found : slots.scan discipline = (some message, rest)) :
    ∃ passed row later, rows slots = passed ++ (message :: row) :: later ∧
      (∀ other ∈ passed, other = []) ∧ rows rest = later ++ (passed ++ [row]) := by
  obtain ⟨skipped, short, key, before, row, occupied, taken, idle, rfl⟩ :=
    RoundRobin.scanFor_some_path found
  obtain rfl := of_take taken
  have listed : (rows slots)[skipped]? = some (message :: row) := by
    rw [getElem?_rows short, occupied]
    rfl
  obtain ⟨passed, later, whole, length⟩ :
      ∃ passed later, rows slots = passed ++ (message :: row) :: later ∧
        passed.length = skipped := by
    obtain ⟨inside, same⟩ := List.getElem?_eq_some_iff.mp listed
    refine ⟨(rows slots).take skipped, (rows slots).drop (skipped + 1), ?_,
      List.length_take_of_le inside.le⟩
    rw [← same, List.getElem_cons_drop, List.take_append_drop]
  refine ⟨passed, row, later, whole, ?_, ?_⟩
  · intro other member
    obtain ⟨position, early, rfl⟩ := List.mem_iff_getElem.mp member
    rw [length] at early
    apply eq_nil_of_idleAt (early.trans short) (idle position early)
    rw [whole, List.getElem?_append_left (length ▸ early), List.getElem?_eq_getElem]
  · have behind : (passed ++ [row]).length = skipped + 1 := by
      rw [List.length_append, length, List.length_singleton]
    rw [rows_set short, whole, ← length, List.set_append_right _ _ (Nat.le_refl _),
      Nat.sub_self, List.set_cons_zero, List.append_cons, length, ← behind,
      List.rotate_append_length_eq]

/-- A scan that takes nothing has found all rows empty. -/
theorem rows_of_scan_none (missed : slots.scan discipline = (none, rest)) :
    ∀ row ∈ rows slots, row = [] := by
  intro row member
  obtain ⟨others, listed⟩ := List.mem_iff_getElem?.mp member
  have inside : others < slots.keyCount := by
    have bound := (List.getElem?_eq_some_iff.mp listed).1
    rwa [rows, List.length_rotate, List.length_map] at bound
  exact eq_nil_of_idleAt inside ((RoundRobin.scanFor_none_path missed).1 others inside) listed

end Queue.Fifo

/-! ## Drains -/

theorem Queue.RoundRobin.keys_of_scan_some {σ : Type} {discipline : Discipline σ}
    {queue rest : RoundRobin σ} {message : Message}
    (found : queue.scan discipline = (some message, rest)) :
    rest.slots.map Prod.fst = queue.slots.map Prod.fst := by
  obtain ⟨position, key, before, after, occupied, _, changed, _⟩ := scanFor_some found
  have listed : (queue.slots.map Prod.fst)[position]? = some key := by
    rw [List.getElem?_map, occupied]
    rfl
  obtain ⟨inside, own⟩ := List.getElem?_eq_some_iff.mp listed
  rw [changed, List.map_set, ← own]
  exact List.set_getElem_self inside

open Queue

namespace RequestQueue

variable {slots rest : RoundRobin Fifo} {message : Message}

namespace Stocked

theorem length_rows (stocked : (RequestQueue.sync slots).Stocked) :
    (Fifo.rows slots).flatten.length = slots.pending :=
  (Fifo.length_flatten_rows slots).trans stocked.pending.symm

theorem length_le (stocked : (RequestQueue.sync slots).Stocked) :
    ∀ row ∈ Fifo.rows slots, row.length ≤ slots.pending := by
  intro row member
  rw [← stocked.length_rows]
  exact (List.sublist_flatten_of_mem member).length_le

/-- A message that is taken is the next one of the columns. -/
theorem columns_scan (stocked : (RequestQueue.sync slots).Stocked)
    (found : slots.scan Fifo.discipline = (some message, rest)) :
    (RequestQueue.sync rest).Stocked ∧ slots.pending = rest.pending + 1 ∧
      columns slots.pending (Fifo.rows slots) =
        message :: columns rest.pending (Fifo.rows rest) := by
  obtain ⟨left, count, _⟩ :=
    stocked.tryNext_some (tryNext_sync.mpr ⟨rest, found, rfl⟩)
  have counted : slots.pending = rest.pending + 1 := count
  obtain ⟨passed, row, later, before, empty, after⟩ := Fifo.rows_of_scan_some found
  have short : ∀ other ∈ later, other.length ≤ rest.pending := by
    intro other member
    apply left.length_le
    rw [after]
    exact List.mem_append_left _ member
  refine ⟨left, counted, ?_⟩
  calc columns slots.pending (Fifo.rows slots)
    _ = columns (rest.pending + 1) ([] ++ (passed ++ (message :: row) :: later)) := by
        rw [before, counted, List.nil_append]
    _ = columns (rest.pending + 1) ((message :: row) :: later) := columns_of_empty empty _ _ _
    _ = message :: columns rest.pending (later ++ [row]) := by
        rw [columns_succ_cons, column_of_short short, List.append_nil]
    _ = message :: columns rest.pending (Fifo.rows rest) := by
        rw [after, columns_of_empty empty]

/-- Nothing is counted when nothing can be taken. -/
theorem pending_of_scan_none (stocked : (RequestQueue.sync slots).Stocked)
    (missed : slots.scan Fifo.discipline = (none, rest)) : slots.pending = 0 := by
  rw [← stocked.length_rows, List.length_eq_zero_iff, List.flatten_eq_nil_iff]
  exact Fifo.rows_of_scan_none missed

theorem length_columns (stocked : (RequestQueue.sync slots).Stocked) :
    (columns slots.pending (Fifo.rows slots)).length = slots.pending := by
  generalize count : slots.pending = pending
  induction pending generalizing slots with
  | zero => rfl
  | succ pending inductionHypothesis =>
      rcases scanned : slots.scan Fifo.discipline with ⟨_ | message, rest⟩
      · have idle := stocked.pending_of_scan_none scanned
        omega
      · obtain ⟨left, counted, next⟩ := stocked.columns_scan scanned
        have fewer : rest.pending = pending := by omega
        have shorter := inductionHypothesis left fewer
        rw [← count, next, fewer, List.length_cons, shorter, count]

/-- A drain follows the columns, as far as its limit allows. -/
theorem drainFor_eq (stocked : (RequestQueue.sync slots).Stocked) (limit : Nat) :
    ∃ after, (RequestQueue.sync slots).drainFor limit =
        ((columns slots.pending (Fifo.rows slots)).take limit, .sync after) ∧
      (RequestQueue.sync after).Stocked ∧ after.pending = slots.pending - limit ∧
      after.slots.map Prod.fst = slots.slots.map Prod.fst := by
  induction limit generalizing slots with
  | zero => exact ⟨slots, rfl, stocked, rfl, rfl⟩
  | succ limit inductionHypothesis =>
      rcases scanned : slots.scan Fifo.discipline with ⟨_ | message, rest⟩
      · have idle := stocked.pending_of_scan_none scanned
        have missed : (RequestQueue.sync slots).tryNext = (none, .sync rest) :=
          tryNext_sync.mpr ⟨rest, scanned, rfl⟩
        obtain ⟨same, pending⟩ := RoundRobin.stock_scan_none scanned
        refine ⟨rest, ?_, stocked.tryNext_none missed, ?_, congrArg (List.map Prod.fst) same⟩
        · simp [drainFor, missed, idle, columns]
        · omega
      · obtain ⟨left, counted, next⟩ := stocked.columns_scan scanned
        obtain ⟨after, drained, settled, pending, keys⟩ := inductionHypothesis left
        have found : (RequestQueue.sync slots).tryNext = (some message, .sync rest) :=
          tryNext_sync.mpr ⟨rest, scanned, rfl⟩
        refine ⟨after, ?_, settled, by omega, keys.trans ?_⟩
        · simp [drainFor, found, drained, next]
        · exact RoundRobin.keys_of_scan_some scanned

end Stocked

/-- A fresh synchronous queue after any calls.  A drain takes every message that waits and
ends when nothing is left; any limit on it only cuts it short.  The messages come in rounds:
with the lists of the keys in a row from the cursor on, round `r` takes the message at depth
`r` of each list that is that long, in this order. -/
theorem drain_by_columns (calls : List Call) (more : Nat) :
    let queue := (History.run .synchronous calls).queue
    ∃ slots rest, queue = .sync slots ∧
      let rounds := columns (slots.pending + more) (Fifo.rows slots)
      queue.drain = (rounds, .sync rest) ∧ rounds.length = queue.pending ∧
        (∀ limit, (queue.drainFor limit).1 = rounds.take limit) ∧
        (RequestQueue.sync rest).tryNext.1 = none ∧ rest.pending = 0 ∧
        rest.slots.map Prod.fst = slots.slots.map Prod.fst ∧
        ∀ entry ∈ rest.slots, entry.2 = [] := by
  intro queue
  obtain ⟨slots, shape⟩ : ∃ slots, queue = .sync slots :=
    eq_sync (History.rounds?_run .synchronous calls)
  have stocked : (RequestQueue.sync slots).Stocked := shape ▸ History.stocked_run {} calls
  have order := columns_add_of_short stocked.length_le more
  have drains (limit : Nat) := stocked.drainFor_eq limit
  obtain ⟨rest, drained, left, pending, keys⟩ := drains (slots.pending + 1)
  have empty : rest.pending = 0 := by omega
  refine ⟨slots, rest, shape, ?_⟩
  rw [shape, order]
  refine ⟨?_, stocked.length_columns, ?_, ?_, empty, keys, ?_⟩
  · refine drained.trans ?_
    rw [List.take_of_length_le]
    rw [stocked.length_columns]
    exact Nat.le_succ slots.pending
  · intro limit
    obtain ⟨_, cut, _⟩ := drains limit
    rw [cut]
  · rcases found : (RequestQueue.sync rest).tryNext with ⟨_ | message, after⟩
    · rfl
    · have counted := (left.tryNext_some found).2.1
      exact absurd (empty.symm.trans counted) (Nat.succ_ne_zero _).symm
  · intro entry listed
    have short := left.length_le entry.2 (Fifo.mem_rows.mpr ⟨entry, listed, rfl⟩)
    rw [empty] at short
    exact List.length_eq_zero_iff.mp (Nat.le_zero.mp short)

/-- Two requests for `a` and one for `b`, after one for `a` was served. -/
example :
    let calls : List Call := [.put "a" 0, .put "b" 1, .put "a" 2, .tryNext, .put "a" 3]
    (History.run .synchronous calls).queue.drain.1.map Message.source = [1, 2, 3] := by
  decide +kernel

end RequestQueue

end ParameterServer

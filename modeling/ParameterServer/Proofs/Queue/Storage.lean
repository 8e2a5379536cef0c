import Mathlib.Logic.Function.Basic
import ParameterServer.Proofs.Queue.Fairness
import ParameterServer.Proofs.Queue.Waiting

/-!
# How slots are stored

The slots of a round robin stand in a row, beside an index of the places of the known
keys.  A new key gets its place before the message is offered to its slot, so that a
refused message could leave an empty slot behind.  An operation on a row has no outcome
when it comes to a place without a slot, or when it takes a message while none is
counted.  The main statement is that neither happens in a run of calls on a fresh queue,
and that the stored slots are those of the request queue all the time.
-/

namespace ParameterServer

open Queue

/-! ## Rows of slots -/

namespace Queue

/-- Slots in a row, with an index of the places of the known keys. -/
structure SlotRow (σ : Type) where
  place? : String → Option Nat := fun _ => none
  slots : List σ := []
  cursor : Nat := 0
  pending : Nat := 0
  closed : Bool := false

namespace SlotRow

variable {σ : Type}

/-- The row with a place for a key: a new key gets a fresh slot at the end. -/
def opened (discipline : Discipline σ) (key : String) (row : SlotRow σ) : SlotRow σ :=
  match row.place? key with
  | some _ => row
  | none =>
      { row with
        place? := Function.update row.place? key (some row.slots.length)
        slots := row.slots ++ [discipline.fresh] }

/-- Opens a slot for the key, offers it the message, and counts the message if it is
accepted. -/
def push? (discipline : Discipline σ) (key : String) (message : Message)
    (row : SlotRow σ) : Option (Except Error Unit × SlotRow σ) := do
  let opened := row.opened discipline key
  let place ← opened.place? key
  let slot ← opened.slots[place]?
  match discipline.insert key message slot with
  | .error error => return (.error error, opened)
  | .ok after =>
      return (.ok (),
        { opened with
          slots := opened.slots.set place after
          pending := opened.pending + 1 })

/-- Visits up to the given number of places from the cursor on. -/
def scanFor? (discipline : Discipline σ) :
    (visits : Nat) → SlotRow σ → Option (Option Message × SlotRow σ)
  | 0, row => some (none, row)
  | visits + 1, row =>
      let place := row.cursor % row.slots.length
      let moved := { row with cursor := (place + 1) % row.slots.length }
      match row.slots[place]? with
      | none => none
      | some slot =>
          match discipline.take slot with
          | none => scanFor? discipline visits moved
          | some (message, after) =>
              if row.pending = 0 then
                none
              else
                some (some message,
                  { moved with
                    slots := row.slots.set place after
                    pending := row.pending - 1 })

def scan? (discipline : Discipline σ) (row : SlotRow σ) :
    Option (Option Message × SlotRow σ) :=
  scanFor? discipline row.slots.length row

def close (row : SlotRow σ) : SlotRow σ :=
  { row with closed := true }

/-- Whether a row holds the slots of a round robin, and its index leads from every key
to the place where the key stands. -/
structure Represents (row : SlotRow σ) (queue : RoundRobin σ) : Prop where
  place : ∀ key place,
    row.place? key = some place ↔ (queue.slots.map Prod.fst)[place]? = some key
  slots : row.slots = queue.slots.map Prod.snd
  cursor : row.cursor = queue.cursor
  pending : row.pending = queue.pending
  closed : row.closed = queue.closed

/-! ## A row follows its round robin -/

/-- A discipline under which a fresh slot accepts every message. -/
def Welcoming (discipline : Discipline σ) : Prop :=
  ∀ key message, ∃ after, discipline.insert key message discipline.fresh = .ok after

/-- Whether a queue counts a message as long as a slot has one to give. -/
def Counted (discipline : Discipline σ) (queue : RoundRobin σ) : Prop :=
  ∀ entry ∈ queue.slots, discipline.take entry.2 ≠ none → queue.pending ≠ 0

theorem getElem?_concat_eq_some {keys : List String} {key other : String}
    (absent : key ∉ keys) {place : Nat} :
    (keys ++ [key])[place]? = some other ↔
      if other = key then place = keys.length else keys[place]? = some other := by
  rcases Nat.lt_trichotomy place keys.length with inside | rfl | outside
  · rw [List.getElem?_append_left inside]
    split
    · rename_i same
      subst other
      refine iff_of_false (fun found => absent (List.mem_of_getElem? found)) ?_
      exact Nat.ne_of_lt inside
    · rfl
  · simp [eq_comm]
  · have beyond : keys[place]? = none := List.getElem?_eq_none (Nat.le_of_lt outside)
    have missing : (keys ++ [key])[place]? = none :=
      List.getElem?_eq_none (by rw [List.length_append, List.length_singleton]; omega)
    simp [beyond, missing, Nat.ne_of_gt outside]

theorem slot_concat_fresh (discipline : Discipline σ) (key : String)
    (queue : RoundRobin σ) :
    RoundRobin.slot discipline key
        { queue with slots := queue.slots ++ [(key, discipline.fresh)] } =
      queue.slot discipline key := by
  rw [RoundRobin.slot, RoundRobin.slot, List.lookup_append]
  cases queue.slots.lookup key <;> simp

/-- Opening a slot beforehand makes no difference to an offer. -/
theorem push_opened (discipline : Discipline σ) (key : String) (message : Message)
    (row : SlotRow σ) :
    (row.opened discipline key).push? discipline key message =
      row.push? discipline key message := by
  have again : (row.opened discipline key).opened discipline key =
      row.opened discipline key := by
    cases located : row.place? key <;> simp [SlotRow.opened, located]
  rw [push?, push?, again]

namespace Represents

variable {discipline : Discipline σ} {row : SlotRow σ} {queue rest : RoundRobin σ}
  {key : String} {message : Message}

theorem empty : Represents ({} : SlotRow σ) {} where
  place key place := by simp
  slots := rfl
  cursor := rfl
  pending := rfl
  closed := rfl

theorem length_slots (represents : row.Represents queue) :
    row.slots.length = queue.keyCount := by
  rw [represents.slots, List.length_map, RoundRobin.keyCount]

/-- The index gives every key at most one place. -/
theorem distinct (represents : row.Represents queue) :
    (queue.slots.map Prod.fst).Nodup := by
  rw [List.nodup_iff_injective_get]
  intro first second same
  have here (position : Fin (queue.slots.map Prod.fst).length) :
      row.place? ((queue.slots.map Prod.fst).get position) = some position :=
    (represents.place _ _).mpr (List.getElem?_eq_getElem position.isLt)
  exact Fin.ext (Option.some.inj ((here first).symm.trans (same ▸ here second)))

theorem not_mem_of_place_none (represents : row.Represents queue)
    (absent : row.place? key = none) : key ∉ queue.slots.map Prod.fst := by
  intro member
  obtain ⟨place, found⟩ := List.mem_iff_getElem?.mp member
  rw [(represents.place key place).mpr found] at absent
  cases absent

theorem occupied_of_place (represents : row.Represents queue) {place : Nat}
    (found : row.place? key = some place) :
    ∃ slot, queue.slots[place]? = some (key, slot) ∧ row.slots[place]? = some slot := by
  have known := (represents.place key place).mp found
  rw [List.getElem?_map, Option.map_eq_some_iff] at known
  obtain ⟨⟨_, slot⟩, occupied, rfl⟩ := known
  exact ⟨slot, occupied, by rw [represents.slots, List.getElem?_map, occupied]; rfl⟩

/-- The slot at the place of a key is the slot of the key. -/
theorem slot_of_place (represents : row.Represents queue) (discipline : Discipline σ)
    {place : Nat} (found : row.place? key = some place) :
    row.slots[place]? = some (queue.slot discipline key) := by
  obtain ⟨slot, occupied, stored⟩ := represents.occupied_of_place found
  rw [stored, RoundRobin.slot_of_getElem? discipline represents.distinct occupied]

theorem close (represents : row.Represents queue) : row.close.Represents queue.close where
  place := represents.place
  slots := represents.slots
  cursor := represents.cursor
  pending := represents.pending
  closed := rfl

/-- Offering a message to a known key is offering it to the slot of that key. -/
theorem push_known (represents : row.Represents queue) {place : Nat}
    (found : row.place? key = some place) :
    row.push? discipline key message =
      match discipline.insert key message (queue.slot discipline key) with
      | .error error => some (.error error, row)
      | .ok after =>
          some (.ok (),
            { row with
              slots := row.slots.set place after
              pending := row.pending + 1 }) := by
  have occupied := represents.slot_of_place discipline found
  simp only [push?, opened, found, Option.bind_eq_bind, Option.bind_some, occupied]
  cases discipline.insert key message (queue.slot discipline key) <;> rfl

/-- Replacing the slot of a known key. -/
theorem assign (represents : row.Represents queue) {place : Nat}
    (found : row.place? key = some place) (after : σ) (pending : Nat) :
    Represents { row with slots := row.slots.set place after, pending }
      { queue with slots := Association.assign key after queue.slots, pending } := by
  obtain ⟨_, occupied, _⟩ := represents.occupied_of_place found
  have listed : key ∈ queue.slots.map Prod.fst :=
    List.mem_map_of_mem (List.mem_of_getElem? occupied)
  refine ⟨?_, ?_, represents.cursor, rfl, represents.closed⟩
  · rw [Association.keys_assign, if_pos listed]
    exact represents.place
  · simp only
    rw [← Association.set_eq_assign represents.distinct occupied, List.map_set,
      represents.slots]

/-- A new key stands at the end. -/
theorem opened (represents : row.Represents queue) (discipline : Discipline σ)
    (unknown : row.place? key = none) :
    Represents (row.opened discipline key)
      { queue with slots := queue.slots ++ [(key, discipline.fresh)] } := by
  have absent := represents.not_mem_of_place_none unknown
  simp only [SlotRow.opened, unknown]
  refine ⟨?_, by simp [represents.slots], represents.cursor, represents.pending,
    represents.closed⟩
  intro other place
  have last := represents.length_slots
  simp only [List.map_append, List.map_cons, List.map_nil]
  rw [getElem?_concat_eq_some absent, last, List.length_map, ← RoundRobin.keyCount]
  by_cases same : other = key
  · rw [same, Function.update_self, if_pos rfl, Option.some.injEq, eq_comm]
  · rw [Function.update_of_ne same, if_neg same, represents.place]

/-- A refused message changes nothing, since no fresh slot refuses one. -/
theorem push_error (represents : row.Represents queue)
    (welcoming : Welcoming discipline) {error : Error}
    (refused : queue.push discipline key message = .error error) :
    row.push? discipline key message = some (.error error, row) := by
  rw [RoundRobin.push_eq, Outcome.map_eq_error] at refused
  cases located : row.place? key with
  | some place => rw [represents.push_known located, refused]
  | none =>
      rw [RoundRobin.slot_of_not_mem discipline
        (represents.not_mem_of_place_none located)] at refused
      obtain ⟨after, accepted⟩ := welcoming key message
      cases accepted.symm.trans refused

/-- Rounds without room for a single message would leave the slot behind. -/
example :
    (({} : SlotRow PhasedSlot).push? (PhasedSlot.discipline ⟨0, true⟩) "k"
      ⟨.getRequest, 0, []⟩).map (·.2.slots.length) = some 1 := by
  decide

theorem push_ok (represents : row.Represents queue)
    (pushed : queue.push discipline key message = .ok rest) :
    ∃ after, row.push? discipline key message = some (.ok (), after) ∧
      after.Represents rest := by
  rw [RoundRobin.push_eq, Outcome.map_eq_ok] at pushed
  obtain ⟨slot, inserted, rfl⟩ := pushed
  cases located : row.place? key with
  | some place =>
      rw [represents.push_known located, inserted]
      refine ⟨_, rfl, ?_⟩
      rw [represents.pending]
      exact represents.assign located slot (queue.pending + 1)
  | none =>
      -- The slot that is opened for the key is offered the message like a known one.
      have absent := represents.not_mem_of_place_none located
      have opened := represents.opened discipline located
      have found : (row.opened discipline key).place? key = some row.slots.length := by
        simp [SlotRow.opened, located]
      rw [← push_opened, opened.push_known found, slot_concat_fresh, inserted]
      refine ⟨_, rfl, ?_⟩
      have grown := opened.assign found slot (queue.pending + 1)
      simp only [Association.assign_concat absent] at grown
      rw [opened.pending]
      exact grown

theorem move (represents : row.Represents queue) (cursor : Nat) :
    Represents { row with cursor } { queue with cursor } where
  place := represents.place
  slots := represents.slots
  cursor := rfl
  pending := represents.pending
  closed := represents.closed

/-- A scan comes to slots only, and takes a message only if one is counted. -/
theorem scanFor (represents : row.Represents queue) (counted : Counted discipline queue)
    {visits : Nat} (short : visits ≤ queue.keyCount) :
    ∃ after,
      row.scanFor? discipline visits =
          some ((queue.scanFor discipline visits).1, after) ∧
        after.Represents (queue.scanFor discipline visits).2 := by
  induction visits generalizing row queue with
  | zero => exact ⟨row, rfl, represents⟩
  | succ visits inductionHypothesis =>
      have inside : queue.cursor % queue.keyCount < queue.keyCount :=
        Nat.mod_lt _ (by omega)
      obtain ⟨⟨key, slot⟩, occupied⟩ :
          ∃ entry, queue.slots[queue.cursor % queue.keyCount]? = some entry :=
        ⟨_, List.getElem?_eq_getElem inside⟩
      have stored : row.slots[queue.cursor % queue.keyCount]? = some slot := by
        rw [represents.slots, List.getElem?_map, occupied]
        rfl
      rw [scanFor?, RoundRobin.scanFor]
      simp only [represents.cursor, represents.length_slots, stored, occupied]
      cases taken : discipline.take slot with
      | none =>
          exact inductionHypothesis (represents.move _) counted (Nat.le_of_succ_le short)
      | some result =>
          obtain ⟨message, after⟩ := result
          have positive : row.pending ≠ 0 := by
            rw [represents.pending]
            exact counted _ (List.mem_of_getElem? occupied) (by simp [taken])
          have found : row.place? key = some (queue.cursor % queue.keyCount) :=
            (represents.place _ _).mpr (by rw [List.getElem?_map, occupied]; rfl)
          refine ⟨_, if_neg positive, ?_⟩
          have grown := (represents.assign found after (queue.pending - 1)).move
            ((queue.cursor % queue.keyCount + 1) % queue.keyCount)
          rw [← Association.set_eq_assign represents.distinct occupied] at grown
          simpa only [represents.pending] using grown

theorem scan (represents : row.Represents queue) (counted : Counted discipline queue) :
    ∃ after,
      row.scan? discipline = some ((queue.scan discipline).1, after) ∧
        after.Represents (queue.scan discipline).2 := by
  rw [scan?, RoundRobin.scan, represents.length_slots]
  exact represents.scanFor counted (Nat.le_refl _)

end Represents

/-- What waits in the slots is counted, if all of it is. -/
theorem counted_of_holds {discipline : Discipline σ} {contents : σ → List Message}
    (holds : discipline.Holds contents) {queue : RoundRobin σ}
    (same : queue.pending = (RoundRobin.stock contents queue.slots).length) :
    Counted discipline queue := by
  intro entry listed gives
  obtain ⟨⟨message, after⟩, taken⟩ := Option.ne_none_iff_exists'.mp gives
  have held : message ∈ contents entry.2 :=
    (holds.take taken).symm.subset List.mem_cons_self
  have stocked : message ∈ RoundRobin.stock contents queue.slots :=
    List.mem_flatMap.mpr ⟨entry, listed, held⟩
  rw [same]
  exact Nat.ne_of_gt (List.length_pos_of_mem stocked)

end SlotRow

theorem Fifo.welcoming : SlotRow.Welcoming Fifo.discipline :=
  fun _ message => ⟨[message], rfl⟩

/-- A fresh slot is not full, since a round has room for a message. -/
theorem PhasedSlot.welcoming {rounds : Rounds} (positive : 0 < rounds.size) :
    SlotRow.Welcoming (discipline rounds) := by
  intro key message
  apply (exists_insert_iff rounds {} key message).mpr
  cases message.phase <;> exact positive

end Queue

/-! ## Request queues in storage -/

namespace RequestQueue

/-- A request queue whose slots stand in a row. -/
inductive Store where
  | sync (row : SlotRow Fifo)
  | async (rounds : Rounds) (row : SlotRow PhasedSlot)

namespace Store

/-- The store that a configuration asks for. -/
def ofConfig (config : EngineConfig) : Store :=
  match config.updateMode with
  | .sync => .sync {}
  | .async => .async ⟨max config.memoryServers.toNat 1, config.firstPutFlips⟩ {}

/-- The place of a key in the row. -/
def place? (key : String) : Store → Option Nat
  | .sync row => row.place? key
  | .async _ row => row.place? key

def isClosed : Store → Bool
  | .sync row => row.closed
  | .async _ row => row.closed

def close : Store → Store
  | .sync row => .sync row.close
  | .async rounds row => .async rounds row.close

/-- Accepts a message under its key, or refuses it. -/
def enqueue? (message : Message) (store : Store) : Option (Except Error Unit × Store) :=
  match message.routingKey with
  | .error error => some (.error error, store)
  | .ok key =>
      match store with
      | .sync row =>
          (row.push? Fifo.discipline key message).map (Prod.map id .sync)
      | .async rounds row =>
          (row.push? (PhasedSlot.discipline rounds) key message).map
            (Prod.map id (.async rounds))

def tryNext? : Store → Option (Option Message × Store)
  | .sync row => (row.scan? Fifo.discipline).map (Prod.map id .sync)
  | .async rounds row =>
      (row.scan? (PhasedSlot.discipline rounds)).map (Prod.map id (.async rounds))

/-- One attempt of a caller that waits for the next request. -/
def nextRequest? (store : Store) : Option (NextRequest × Store) :=
  if store.isClosed then
    some (.closed, store)
  else
    store.tryNext?.map fun
      | (some message, rest) => (.request message, rest)
      | (none, rest) => (.blocked, rest)

/-- The store after a call. -/
def step? (store : Store) : Call → Option Store
  | .enqueue message => (store.enqueue? message).map Prod.snd
  | .tryNext => store.tryNext?.map Prod.snd
  | .nextRequest => store.nextRequest?.map Prod.snd
  | .close => some store.close

/-- The store after some calls. -/
def run? (store : Store) (calls : List Call) : Option Store :=
  calls.foldlM step? store

/-- Whether a store holds the slots of a request queue. -/
def Represents : Store → RequestQueue → Prop
  | .sync row, .sync slots => row.Represents slots
  | .async rounds row, .async own slots => rounds = own ∧ row.Represents slots
  | _, _ => False

namespace Represents

variable {store : Store} {queue rest : RequestQueue} {message : Message}
  {accepted returned : List Message}

theorem ofConfig (config : EngineConfig) :
    (Store.ofConfig config).Represents (RequestQueue.ofConfig config) := by
  unfold Store.ofConfig RequestQueue.ofConfig
  cases config.updateMode with
  | sync => exact SlotRow.Represents.empty
  | async => exact ⟨rfl, SlotRow.Represents.empty⟩

theorem close (represents : store.Represents queue) :
    store.close.Represents queue.close := by
  match store, queue, represents with
  | .sync row, .sync slots, represents => exact SlotRow.Represents.close represents
  | .async rounds row, .async own slots, ⟨same, represents⟩ =>
      exact ⟨same, represents.close⟩

theorem isClosed (represents : store.Represents queue) :
    store.isClosed = queue.isClosed := by
  match store, queue, represents with
  | .sync row, .sync slots, represents => exact SlotRow.Represents.closed represents
  | .async rounds row, .async own slots, ⟨same, represents⟩ => exact represents.closed

/-- A refused message leaves the store as it was. -/
theorem enqueue_error (represents : store.Represents queue)
    (tracks : queue.Tracks accepted returned) {error : Error}
    (refused : queue.enqueue message = .error error) :
    store.enqueue? message = some (.error error, store) := by
  cases routed : message.routingKey with
  | error unrouted =>
      cases (enqueue_of_unrouted routed).symm.trans refused
      simp only [enqueue?, routed]
  | ok key =>
      match store, queue, represents, tracks with
      | .sync row, .sync slots, represents, _ =>
          rw [sync_enqueue_of_routed routed, Outcome.map_eq_error] at refused
          have stored := SlotRow.Represents.push_error represents Fifo.welcoming refused
          simp [enqueue?, routed, stored]
      | .async rounds row, .async own slots, ⟨same, represents⟩, ⟨positive, _⟩ =>
          subst same
          rw [async_enqueue_of_routed routed, Outcome.map_eq_error] at refused
          have stored :=
            represents.push_error (PhasedSlot.welcoming positive) refused
          simp [enqueue?, routed, stored]

theorem enqueue_ok (represents : store.Represents queue)
    (enqueued : queue.enqueue message = .ok rest) :
    ∃ after, store.enqueue? message = some (.ok (), after) ∧ after.Represents rest := by
  match store, queue, represents with
  | .sync row, .sync slots, represents =>
      obtain ⟨key, routed, slots, pushed, rfl⟩ := enqueue_sync.mp enqueued
      obtain ⟨after, stored, represents⟩ := SlotRow.Represents.push_ok represents pushed
      exact ⟨.sync after, by simp [enqueue?, routed, stored], represents⟩
  | .async rounds row, .async own slots, ⟨same, represents⟩ =>
      subst same
      obtain ⟨key, routed, slots, pushed, rfl⟩ := enqueue_async.mp enqueued
      obtain ⟨after, stored, represents⟩ := represents.push_ok pushed
      exact ⟨.async rounds after, by simp [enqueue?, routed, stored], rfl, represents⟩

/-- Both give the same message. -/
theorem tryNext (represents : store.Represents queue) (stocked : queue.Stocked) :
    ∃ after, store.tryNext? = some (queue.tryNext.1, after) ∧
      after.Represents queue.tryNext.2 := by
  have pending := stocked.pending
  match store, queue, represents with
  | .sync row, .sync slots, represents =>
      obtain ⟨after, scanned, represents⟩ := SlotRow.Represents.scan represents
        (SlotRow.counted_of_holds Fifo.holds pending)
      exact ⟨.sync after, by simp [tryNext?, scanned, RequestQueue.tryNext], represents⟩
  | .async rounds row, .async own slots, ⟨same, represents⟩ =>
      subst same
      obtain ⟨after, scanned, represents⟩ := represents.scan
        (SlotRow.counted_of_holds (PhasedSlot.holds rounds) pending)
      exact ⟨.async rounds after, by simp [tryNext?, scanned, RequestQueue.tryNext],
        rfl, represents⟩

theorem nextRequest (represents : store.Represents queue) (stocked : queue.Stocked) :
    ∃ after, store.nextRequest? = some (queue.nextRequest.1, after) ∧
      after.Represents queue.nextRequest.2 := by
  rw [nextRequest?, RequestQueue.nextRequest, represents.isClosed]
  cases queue.isClosed with
  | true => exact ⟨store, rfl, represents⟩
  | false =>
      obtain ⟨after, asked, represents⟩ := represents.tryNext stocked
      rcases found : queue.tryNext with ⟨_ | message, rest⟩ <;>
        rw [found] at asked represents <;>
        exact ⟨after, by simp [asked], represents⟩

/-- A call on a store has an outcome, and the store goes on to hold the slots of the
queue. -/
theorem step {history : History} (represents : store.Represents history.queue)
    (tracked : history.Tracked) (stocked : history.queue.Stocked) (call : Call) :
    ∃ after, store.step? call = some after ∧
      after.Represents (history.step call).queue := by
  cases call with
  | enqueue message =>
      cases enqueued : history.queue.enqueue message with
      | ok rest =>
          obtain ⟨after, stored, represents⟩ := represents.enqueue_ok enqueued
          refine ⟨after, by simp [step?, stored], ?_⟩
          simpa only [History.step, enqueued] using represents
      | error error =>
          have stored := represents.enqueue_error tracked enqueued
          refine ⟨store, by simp [step?, stored], ?_⟩
          simpa only [History.step, enqueued] using represents
  | tryNext =>
      obtain ⟨after, asked, represents⟩ := represents.tryNext stocked
      refine ⟨after, by simp [step?, asked], ?_⟩
      rwa [History.step_tryNext]
  | nextRequest =>
      obtain ⟨after, asked, represents⟩ := represents.nextRequest stocked
      refine ⟨after, by simp [step?, asked], ?_⟩
      rwa [History.step_nextRequest]
  | close => exact ⟨store.close, rfl, represents.close⟩

end Represents

theorem run?_append (store : Store) (calls more : List Call) :
    store.run? (calls ++ more) = (store.run? calls).bind (run? · more) :=
  List.foldlM_append

/-- Whatever the calls on a fresh queue, the store has an outcome and holds the slots of
the queue. -/
theorem represents_run (config : EngineConfig) (calls : List Call) :
    ∃ store, (ofConfig config).run? calls = some store ∧
      store.Represents (History.run (.ofConfig config) calls).queue := by
  induction calls using List.reverseRecOn with
  | nil => exact ⟨_, rfl, Represents.ofConfig config⟩
  | append_singleton calls call inductionHypothesis =>
      obtain ⟨store, reached, represents⟩ := inductionHypothesis
      have tracked : (History.run (.ofConfig config) calls).Tracked :=
        History.tracked_run (Tracks.ofConfig config) calls
      obtain ⟨after, stepped, represents⟩ :=
        represents.step tracked (History.stocked_run config calls) call
      refine ⟨after, ?_, History.run_concat _ calls call ▸ represents⟩
      rw [run?_append, reached, Option.bind_some, run?, List.foldlM_cons, stepped]
      rfl

end Store

end RequestQueue

end ParameterServer

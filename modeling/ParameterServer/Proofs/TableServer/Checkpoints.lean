import Mathlib.Algebra.BigOperators.Group.List.Basic
import ParameterServer.Proofs.Outcome
import ParameterServer.Proofs.TableServer.BuiltIn

/-!
# How many checkpoints are due

A server with a built-in handler asks for a checkpoint of every version that a value goes
through.  The number of those that are due follows from the versions that are stored in the end.
-/

namespace ParameterServer

open Ieee (Binary32)

/-! ## Schedules -/

namespace CheckpointSchedule

/-- The difference of two words, unless it would be negative. -/
def difference? (left right : UInt64) : Option UInt64 :=
  if right ≤ left then some (left - right) else none

/-- The remainder of a division, unless it is by zero. -/
def remainder? (left right : UInt64) : Option UInt64 :=
  if right = 0 then none else some (left % right)

/-- Whether a version is due, evaluated from left to right by operations that can fail. -/
def isDue? (schedule : CheckpointSchedule) (version : UInt64) : Option Bool :=
  if 0 < schedule.frequency then
    if schedule.after ≤ version then do
      let elapsed ← difference? version schedule.after
      let rest ← remainder? elapsed schedule.frequency
      return rest = 0
    else return false
  else return false

/-- The number of due versions up to and including a version. -/
def dueUpTo (schedule : CheckpointSchedule) (version : UInt64) : Nat :=
  if schedule.frequency = 0 ∨ version < schedule.after then 0
  else (version.toNat - schedule.after.toNat) / schedule.frequency.toNat + 1

variable (schedule : CheckpointSchedule) (version : UInt64)

/-- No difference is negative and no division is by zero. -/
theorem isDue?_eq : schedule.isDue? version = some (schedule.isDue version) := by
  unfold isDue? isDue
  by_cases asked : 0 < schedule.frequency
  · have divides : schedule.frequency ≠ 0 := by
      rintro none
      rw [none] at asked
      exact absurd asked (by decide)
    by_cases reached : schedule.after ≤ version
    · simp [asked, reached, difference?, remainder?, divides]
    · simp [asked, reached]
  · simp [asked]

theorem isDue_iff :
    schedule.isDue version = true ↔
      schedule.frequency ≠ 0 ∧ schedule.after ≤ version ∧
        schedule.frequency.toNat ∣ version.toNat - schedule.after.toNat := by
  unfold isDue
  by_cases reached : schedule.after ≤ version
  · have difference := UInt64.toNat_sub_of_le _ _ reached
    rw [← difference, Nat.dvd_iff_mod_eq_zero, ← UInt64.toNat_mod]
    simp [reached, UInt64.pos_iff_ne_zero, ← UInt64.toNat_inj]
  · simp [reached]

theorem dueUpTo_zero : schedule.dueUpTo 0 = if schedule.isDue 0 then 1 else 0 := by
  simp only [isDue_iff, dueUpTo]
  by_cases never : schedule.frequency = 0
  · simp [never]
  by_cases early : (0 : UInt64) < schedule.after
  · simp [early, UInt64.not_le.mpr early]
  · simp [never, early, UInt64.not_lt.mp early]

theorem dueUpTo_succ (room : version.toNat + 1 < 2 ^ 64) :
    schedule.dueUpTo (version + 1) =
      schedule.dueUpTo version + if schedule.isDue (version + 1) then 1 else 0 := by
  have next : (version + 1).toNat = version.toNat + 1 := by
    rw [UInt64.toNat_add, UInt64.toNat_one, Nat.mod_eq_of_lt room]
  simp only [isDue_iff, dueUpTo, next, UInt64.lt_iff_toNat_lt, UInt64.le_iff_toNat_le]
  by_cases never : schedule.frequency = 0
  · simp [never]
  -- The next version is before the first due one, the first due one itself, or past it.
  by_cases early : version.toNat + 1 < schedule.after.toNat
  · simp [never, early, Nat.lt_of_succ_lt early, Nat.not_le.mpr early]
  by_cases first : version.toNat < schedule.after.toNat
  · have reached : version.toNat + 1 = schedule.after.toNat := by omega
    simp [never, reached, first]
  · have past : schedule.after.toNat ≤ version.toNat := Nat.not_lt.mp first
    rw [Nat.succ_sub past]
    simp [never, early, first, Nat.succ_div, Nat.le_succ_of_le past, Nat.add_right_comm]

end CheckpointSchedule

/-! ## One request -/

def StockHandler.schedule : StockHandler → CheckpointSchedule
  | accumulate state => state.checkpoints
  | overwrite state => state.checkpoints
  | picky _ => {}

namespace StockHandler.BuiltIn

variable {policy fresh : StockHandler}

theorem checkpointNow_eq (builtIn : policy.BuiltIn) (key : String) (value : ParamValue) :
    handler.checkpointNow key value policy = (policy.schedule.isDue value.version, policy) := by
  cases policy with
  | picky => exact builtIn.elim
  | accumulate | overwrite => rfl

theorem setup (builtIn : fresh.BuiltIn) {config : TableConfig}
    (prepared : handler.setup config fresh = .ok policy) :
    policy.BuiltIn ∧ policy.schedule = .ofConfig config := by
  cases fresh with
  | picky => exact builtIn.elim
  | accumulate state =>
      cases prepared
      exact ⟨trivial, rfl⟩
  | overwrite state =>
      simp only [handler, StockHandler.setup, Overwrite.handler] at prepared
      split at prepared
      · cases prepared
      · cases prepared
        exact ⟨trivial, rfl⟩

end StockHandler.BuiltIn

/-- There is room for another version as long as fewer values are accepted than there are
versions. -/
theorem StockHandler.Tells.room {policy : StockHandler} {first : Option ParamValue}
    {accepted : List ParamValue} {stored : ParamValue}
    (tells : policy.Tells first accepted (some stored)) (few : accepted.length < 2 ^ 64) :
    stored.version.toNat + 1 < 2 ^ 64 := by
  obtain ⟨start, rest, _, rfl, version, _⟩ := tells
  have low : stored.version.toNat ≤ rest.length := by
    rw [version, UInt64.toNat_ofNat']
    exact Nat.mod_le ..
  rw [List.length_cons] at few
  omega

namespace TableServer

/-- The number of due versions that the values of a table have gone through. -/
def dueVersions (schedule : CheckpointSchedule) (table : List (String × ParamValue)) : Nat :=
  (table.map fun entry => schedule.dueUpTo entry.2.version).sum

def dueVersionsOf (schedule : CheckpointSchedule) : Entry → Nat
  | none => 0
  | some value => schedule.dueUpTo value.version

theorem dueVersions_store (schedule : CheckpointSchedule) (key : String) (value : ParamValue)
    (table : List (String × ParamValue)) :
    dueVersions schedule (store key value table) + dueVersionsOf schedule (table.lookup key) =
      dueVersions schedule table + schedule.dueUpTo value.version := by
  induction table with
  | nil => simp [store, dueVersions, dueVersionsOf]
  | cons entry rest inductionHypothesis =>
      obtain ⟨other, earlier⟩ := entry
      by_cases same : other = key
      · subst other
        simp only [store, ↓reduceIte, dueVersions, List.map_cons, List.sum_cons,
          List.lookup_cons_self, dueVersionsOf]
        omega
      · have apart : (key == other) = false := beq_eq_false_iff_ne.mpr (Ne.symm same)
        simp only [store, same, ↓reduceIte, dueVersions, List.map_cons, List.sum_cons,
          List.lookup_cons, apart] at inductionHypothesis ⊢
        omega

/-- A server has counted as many checkpoints as there are due versions. -/
def Counted (server : TableServer StockHandler) : Prop :=
  server.stats.checkpointsDue = dueVersions server.handler.schedule server.table

section Step

variable {server : TableServer StockHandler} {key : String} {value stored : ParamValue}

theorem counted_accepted (builtIn : server.handler.BuiltIn)
    (found : server.table.lookup key = some value)
    (count : server.stats.checkpointsDue +
        (if server.handler.schedule.isDue value.version then 1 else 0) =
      dueVersions server.handler.schedule server.table) :
    Counted (conclude StockHandler.handler key (true, server)).2 := by
  simp only [conclude, checkCheckpoint, value?, found, builtIn.checkpointNow_eq, ↓reduceIte]
  refine Eq.trans ?_ count
  cases server.handler.schedule.isDue value.version <;> rfl

variable (counted : server.Counted) (builtIn : server.handler.BuiltIn)

include counted builtIn

theorem counted_merge (incoming : ParamValue) (found : server.table.lookup key = some stored)
    (room : server.handler.refuses stored incoming = false →
      stored.version.toNat + 1 < 2 ^ 64) :
    Counted (conclude StockHandler.handler key
      (server.merge StockHandler.handler key stored incoming)).2 := by
  have stores := dueVersions_store server.handler.schedule key
  simp only [merge, builtIn.update_eq]
  cases taken : server.handler.refuses stored incoming with
  | true =>
      have same := stores stored server.table
      rw [found, dueVersionsOf, Nat.add_right_cancel_iff] at same
      exact counted.trans same.symm
  | false =>
      let value : ParamValue := ⟨stored.version + 1, server.handler.combined stored incoming⟩
      have grown := stores value server.table
      rw [found, dueVersionsOf, server.handler.schedule.dueUpTo_succ _ (room taken)] at grown
      have due : server.stats.checkpointsDue +
          (if server.handler.schedule.isDue (stored.version + 1) then 1 else 0) =
            dueVersions server.handler.schedule (store key value server.table) := by
        rw [counted]
        omega
      exact counted_accepted builtIn (lookup_store_self key value server.table) due

theorem counted_initialise (incoming : ParamValue) (absent : server.table.lookup key = none) :
    Counted (conclude StockHandler.handler key
      (server.initialise StockHandler.handler key incoming)).2 := by
  let value : ParamValue := ⟨0, incoming.data⟩
  have grown := dueVersions_store server.handler.schedule key value server.table
  rw [absent, dueVersionsOf, CheckpointSchedule.dueUpTo_zero] at grown
  simp only [initialise, builtIn.put_eq, ↓reduceIte]
  refine counted_accepted builtIn (lookup_store_self key value server.table) ?_
  rw [counted]
  exact grown.symm

/-- A request leaves as many checkpoints counted as there are due versions, unless a version
overflows. -/
theorem counted_answer (request : Request)
    (room : ∀ stored, server.value? request.key = some stored →
      (server.answer StockHandler.handler request).1 = .put ⟨request.key, true⟩ →
        stored.version.toNat + 1 < 2 ^ 64) :
    Counted (server.answer StockHandler.handler request).2 := by
  have answers := answers_answer builtIn request
  obtain ⟨source, key, action⟩ := request
  -- What the handler does not refuse is accepted, so that the hypothesis applies.
  have accepts {stored incoming : ParamValue} (found : server.table.lookup key = some stored)
      (carried : action = .put incoming ∨ action = .update incoming)
      (taken : server.handler.refuses stored incoming = false) :
      stored.version.toNat + 1 < 2 ^ 64 := by
    refine room stored found (answers.reply.trans ?_)
    rw [Entry.step_reply builtIn (by rintro rfl; simp at carried), value?, found]
    rcases carried with rfl | rfl <;> simp [StockHandler.declines, taken]
  cases action with
  | get =>
      simp only [answer, answerGet, value?]
      cases found : server.table.lookup key with
      | none => exact counted
      | some stored =>
          simp only [builtIn.get_eq, ↓reduceIte]
          exact counted
  | put incoming =>
      let noted : TableServer StockHandler :=
        { server with stats := { server.stats with puts := server.stats.puts + 1 } }
      have same : noted.Counted := counted
      simp only [answer, answerPut, value?]
      cases found : server.table.lookup key with
      | none => exact counted_initialise same builtIn incoming found
      | some stored => exact counted_merge same builtIn incoming found (accepts found (.inl rfl))
  | update incoming =>
      let noted : TableServer StockHandler :=
        { server with stats := { server.stats with updates := server.stats.updates + 1 } }
      have same : noted.Counted := counted
      simp only [answer, answerUpdate, value?]
      cases found : server.table.lookup key with
      | none => exact same
      | some stored => exact counted_merge same builtIn incoming found (accepts found (.inr rfl))

end Step

/-! ## All requests -/

/-- No course gives a table two values of one key. -/
theorem Course.nodup_keys {server after : TableServer Unit} {request : Request}
    {asked : List Consultation} {reply : Reply}
    (course : Course server request asked reply after)
    (distinct : (server.table.map Prod.fst).Nodup) : (after.table.map Prod.fst).Nodup := by
  have stores (value : ParamValue) :
      ((store request.key value server.table).map Prod.fst).Nodup := by
    rw [store_eq_assign]
    exact Association.nodup_keys_assign distinct _ _
  cases course with
  | first | merged | declined => exact stores _
  | refused | unknown | shown | withheld | missing => exact distinct

theorem Course.carries_of_accepted {server after : TableServer Unit}
    {request : Request} {asked : List Consultation} {reply : Reply}
    (course : Course server request asked reply after)
    (accepted : reply = .put ⟨request.key, true⟩) : request.value?.isSome := by
  obtain ⟨question, value, due, shape, _⟩ := course.checkpoint_of_accepted accepted
  have proper := course.proper ⟨.checkpoint request.key value, due, value⟩ (by simp [shape])
  exact proper.2.1

theorem acceptedValues_concat {answered : List (Request × Reply)} {request : Request}
    {incoming : ParamValue} (carried : request.value? = some incoming) :
    acceptedValues request.key (answered ++ [(request, .put ⟨request.key, true⟩)]) =
      acceptedValues request.key answered ++ [incoming] := by
  simp [acceptedValues, acceptedValue?, carried]

theorem length_acceptedValues_le (key : String) (answered later : List (Request × Reply)) :
    (acceptedValues key answered).length ≤ (acceptedValues key (answered ++ later)).length := by
  rw [acceptedValues, acceptedValues, List.filterMap_append, List.length_append]
  exact Nat.le_add_right ..

/-- A server has counted the due versions of distinct keys after any requests in which no
version overflows. -/
theorem counted_serve {policy : StockHandler} (builtIn : policy.BuiltIn)
    (requests : List Request)
    (bounded : ∀ key,
      (acceptedValues key (transcript StockHandler.handler requests
        { handler := policy })).length ≤ 2 ^ 64) :
    let server := serve StockHandler.handler requests { handler := policy }
    (server.table.map Prod.fst).Nodup ∧ server.Counted := by
  induction requests using List.reverseRecOn with
  | nil => exact ⟨List.nodup_nil, rfl⟩
  | append_singleton earlier request inductionHypothesis =>
      rw [transcript_concat] at bounded
      obtain ⟨distinct, counted⟩ := inductionHypothesis fun key =>
        Nat.le_trans (length_acceptedValues_le key ..) (bounded key)
      obtain ⟨same, tells⟩ := tells_serve builtIn earlier
      have course := course_answer StockHandler.handler request
        (serve StockHandler.handler earlier { handler := policy })
      rw [serve_concat]
      refine ⟨course.nodup_keys distinct,
        counted_answer counted (same.symm ▸ builtIn) request fun stored found accepted => ?_⟩
      obtain ⟨incoming, carried⟩ :=
        Option.isSome_iff_exists.mp (course.carries_of_accepted accepted)
      have few := bounded request.key
      rw [accepted, acceptedValues_concat carried, List.length_append] at few
      exact StockHandler.Tells.room (found ▸ tells request.key) few

/-- A server with a built-in handler that is set up with a configuration. -/
inductive SetUp (config : TableConfig) : TableServer StockHandler → Prop
  | ofHandler {fresh : StockHandler} {server : TableServer StockHandler}
      (builtIn : fresh.BuiltIn)
      (made : TableServer.ofHandler StockHandler.handler config fresh = .ok server) :
      SetUp config server
  | ofRegistry {registry : HandlerRegistry StockHandler} {fresh : StockHandler}
      {server : TableServer StockHandler} (builtIn : fresh.BuiltIn)
      (registered : registry.create config.handler = .ok fresh)
      (made : TableServer.ofRegistry StockHandler.handler registry config = .ok server) :
      SetUp config server

/-- With a registry a server is set up as it is with the handler that is found there. -/
theorem ofRegistry_eq_ofHandler {registry : HandlerRegistry StockHandler} {config : TableConfig}
    {fresh : StockHandler} (registered : registry.create config.handler = .ok fresh) :
    ofRegistry StockHandler.handler registry config =
      ofHandler StockHandler.handler config fresh := by
  unfold ofRegistry ofHandler HandlerRegistry.createConfigured
  rw [registered]
  rfl

theorem SetUp.eq {config : TableConfig} {server : TableServer StockHandler}
    (ready : SetUp config server) :
    ∃ policy : StockHandler, policy.BuiltIn ∧ policy.schedule = .ofConfig config ∧
      server = { handler := policy } := by
  obtain ⟨fresh, builtIn, made⟩ : ∃ fresh : StockHandler, fresh.BuiltIn ∧
      TableServer.ofHandler StockHandler.handler config fresh = .ok server := by
    cases ready with
    | ofHandler builtIn made => exact ⟨_, builtIn, made⟩
    | ofRegistry builtIn registered made =>
        exact ⟨_, builtIn, (ofRegistry_eq_ofHandler registered).symm.trans made⟩
  obtain ⟨_, _, configured⟩ := Outcome.bind_eq_ok.mp made
  obtain ⟨policy, prepared, made⟩ := Outcome.bind_eq_ok.mp configured
  obtain ⟨kept, schedule⟩ := builtIn.setup prepared
  exact ⟨policy, kept, schedule, (Except.ok.inj made).symm⟩

/-- A server with a built-in handler after any requests in which no version overflows.  It has
counted one checkpoint for each due version that the value of a key has gone through, and how
many these are follows from the version that is stored.  No difference is negative and no
division is by zero when versions are examined. -/
theorem checkpoints_due_eq_sum {config : TableConfig} {server : TableServer StockHandler}
    (ready : SetUp config server) (requests : List Request)
    (bounded : ∀ key,
      (acceptedValues key (transcript StockHandler.handler requests server)).length ≤ 2 ^ 64) :
    let schedule := CheckpointSchedule.ofConfig config
    let served := serve StockHandler.handler requests server
    (served.table.map Prod.fst).Nodup ∧
      served.stats.checkpointsDue =
        (served.table.map fun entry => schedule.dueUpTo entry.2.version).sum ∧
      ∀ (schedule : CheckpointSchedule) (version : UInt64),
        schedule.isDue? version = some (schedule.isDue version) := by
  obtain ⟨policy, builtIn, scheduled, rfl⟩ := ready.eq
  obtain ⟨distinct, counted⟩ := counted_serve builtIn requests bounded
  obtain ⟨same, _⟩ := tells_serve builtIn requests
  rw [Counted, same, scheduled] at counted
  exact ⟨distinct, counted, CheckpointSchedule.isDue?_eq⟩

/-- From version one on every second version is due; the value of one key has come as far as
version three, that of another one has version zero, and one value is declined. -/
theorem checkpoints_due_eq_sum_two_keys :
    let config : TableConfig := { checkpointAfter := 1, checkpointFrequency := 2 }
    let server : TableServer StockHandler :=
      { handler := .accumulate ⟨.one, .ofConfig config⟩ }
    let put (key : String) (data : List Binary32) : Request := ⟨1, key, .put ⟨0, data⟩⟩
    let requests :=
      [put "w" [], put "w" [], put "v" [], put "w" [.one], put "w" [], put "w" []]
    let served := serve StockHandler.handler requests server
    SetUp config server ∧
      (∀ key, (acceptedValues key (transcript StockHandler.handler requests server)).length ≤
        2 ^ 64) ∧
      served.table.map (fun entry => (entry.1, entry.2.version)) = [("w", 3), ("v", 0)] ∧
      served.stats.checkpointsDue = 2 := by
  intro config server put requests served
  have builtIn : StockHandler.BuiltIn (.accumulate {}) := trivial
  have registered : HandlerRegistry.builtins.create config.handler = .ok (.accumulate {}) := rfl
  have ready : SetUp config server := .ofRegistry builtIn registered (by decide +kernel)
  have bounded (key : String) :
      (acceptedValues key (transcript StockHandler.handler requests server)).length ≤ 2 ^ 64 :=
    Nat.le_trans (List.length_filterMap_le ..) (by decide +kernel)
  obtain ⟨_, due, _⟩ := checkpoints_due_eq_sum ready requests bounded
  refine ⟨ready, bounded, by decide +kernel, ?_⟩
  rw [due]
  decide +kernel

end TableServer

end ParameterServer

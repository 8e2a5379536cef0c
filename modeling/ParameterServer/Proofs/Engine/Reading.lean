import Mathlib.Data.List.Nodup
import ParameterServer.Proofs.Engine.Accounts

/-!
# What readers get

A reader gets the oldest payload of the first member that its selector accepts and
that has one waiting.  This rests on the table having a single lane for each tag and
sender, which every step of a member preserves.
-/

namespace ParameterServer

variable {σ ω : Type}

namespace Source

/-- The members that a selector accepts in a group, in the order in which they are
tried. -/
def members (size : Nat) : Source → List Rank
  | any => List.range size
  | rank only => [only]

/-- A selector names no rank outside the group. -/
def IsWithin (size : Nat) (source : Source) : Prop :=
  ∀ rank ∈ source.members size, rank < size

theorem isWithin_any (size : Nat) : any.IsWithin size := by
  intro rank member
  exact List.mem_range.mp member

end Source

namespace ResponseTable

/-! ## The lanes of a table -/

def keys (lanes : List ResponseLane) : List (Tag × Rank) :=
  lanes.map fun lane => (lane.tag, lane.source)

/-- The table of a member in a group of `size`. -/
structure Sound (size : Nat) (table : ResponseTable) : Prop where
  size : table.size = size
  distinct : (keys table.lanes).Nodup

theorem keys_append (tag : Tag) (source : Rank) (payload : Payload)
    (lanes : List ResponseLane) :
    keys (append tag source payload lanes) =
      if (tag, source) ∈ keys lanes then keys lanes
      else keys lanes ++ [(tag, source)] := by
  induction lanes with
  | nil =>
      rfl
  | cons lane rest inductionHypothesis =>
      by_cases own : lane.tag = tag ∧ lane.source = source
      · obtain ⟨rfl, rfl⟩ := own
        rw [append, if_pos ⟨rfl, rfl⟩, if_pos (by simp [keys])]
        rfl
      · have apart : (tag, source) ≠ (lane.tag, lane.source) := by
          rintro ⟨⟩
          exact own ⟨rfl, rfl⟩
        have here : (tag, source) ∈ keys (lane :: rest) ↔ (tag, source) ∈ keys rest :=
          List.mem_cons.trans (or_iff_right apart)
        have unfolded : keys (append tag source payload (lane :: rest)) =
            (lane.tag, lane.source) :: keys (append tag source payload rest) := by
          rw [append, if_neg own]
          rfl
        rw [unfolded, inductionHypothesis]
        simp only [here]
        split
        · rfl
        · rfl

theorem keys_takeFrom {tag : Tag} {source : Rank} {payload : Payload}
    {lanes rest : List ResponseLane}
    (taken : takeFrom tag source lanes = some (payload, rest)) :
    keys rest = keys lanes := by
  induction lanes generalizing rest with
  | nil =>
      simp [takeFrom] at taken
  | cons lane others inductionHypothesis =>
      by_cases own : lane.tag = tag ∧ lane.source = source
      · simp only [takeFrom, own, and_self, ↓reduceIte] at taken
        split at taken
        · cases taken
        · cases taken
          simp [keys, own]
      · simp only [takeFrom, own, ↓reduceIte, Option.bind_eq_bind,
          Option.bind_eq_some_iff] at taken
        obtain ⟨⟨found, left⟩, deeper, shape⟩ := taken
        cases shape
        have later := inductionHypothesis deeper
        exact congrArg (List.cons _) later

theorem takeFrom_fst (tag : Tag) (source : Rank) (lanes : List ResponseLane) :
    (takeFrom tag source lanes).map Prod.fst = (laneOf tag source lanes).head? := by
  induction lanes with
  | nil =>
      rfl
  | cons lane rest inductionHypothesis =>
      by_cases own : lane.tag = tag ∧ lane.source = source
      · simp only [takeFrom, laneOf, own, and_self, ↓reduceIte]
        cases lane.waiting <;> rfl
      · simp only [takeFrom, laneOf, own, ↓reduceIte]
        rw [← inductionHypothesis]
        cases takeFrom tag source rest <;> rfl

theorem laneOf_of_mem {lane : ResponseLane} {lanes : List ResponseLane}
    (distinct : (keys lanes).Nodup) (member : lane ∈ lanes) :
    laneOf lane.tag lane.source lanes = lane.waiting := by
  induction lanes with
  | nil =>
      simp at member
  | cons first rest inductionHypothesis =>
      obtain ⟨absent, others⟩ := List.nodup_cons.mp distinct
      rcases List.mem_cons.mp member with rfl | later
      · rw [laneOf, if_pos ⟨rfl, rfl⟩]
      · have apart : ¬ (first.tag = lane.tag ∧ first.source = lane.source) := by
          rintro ⟨tag, source⟩
          have key : (first.tag, first.source) ∈ keys rest := by
            rw [tag, source]
            exact List.mem_map_of_mem later
          exact absent key
        rw [laneOf, if_neg apart]
        exact inductionHypothesis others later

theorem exists_of_laneOf {tag : Tag} {source : Rank} {lanes : List ResponseLane}
    (occupied : laneOf tag source lanes ≠ []) :
    ∃ lane ∈ lanes, lane.tag = tag ∧ lane.source = source ∧ lane.waiting ≠ [] := by
  induction lanes with
  | nil =>
      exact absurd rfl occupied
  | cons lane rest inductionHypothesis =>
      by_cases own : lane.tag = tag ∧ lane.source = source
      · rw [laneOf, if_pos own] at occupied
        exact ⟨lane, List.mem_cons_self, own.1, own.2, occupied⟩
      · rw [laneOf, if_neg own] at occupied
        obtain ⟨other, member, holds⟩ := inductionHypothesis occupied
        exact ⟨other, List.mem_cons_of_mem lane member, holds⟩

namespace Sound

variable {size : Nat} {table rest : ResponseTable} {tag : Tag} {source : Source}
  {sender : Rank} {payload : Payload}

theorem empty (size : Nat) : Sound size { size } :=
  ⟨rfl, List.nodup_nil⟩

theorem push (sound : table.Sound size)
    (pushed : table.push tag sender payload = .ok rest) : rest.Sound size := by
  unfold ResponseTable.push at pushed
  split at pushed
  · cases pushed
    refine ⟨sound.size, ?_⟩
    simp only [keys_append]
    split
    · exact sound.distinct
    · rename_i absent
      refine List.nodup_append.mpr ⟨sound.distinct, List.nodup_singleton _, ?_⟩
      intro key member other single
      rw [List.mem_singleton.mp single]
      rintro rfl
      exact absent member
  · cases pushed

theorem pop (sound : table.Sound size)
    (popped : table.pop source tag = .ok (some (sender, payload), rest)) :
    rest.Sound size := by
  obtain ⟨_, lanes, taken, rfl⟩ := takeFrom_of_pop popped
  exact ⟨sound.size, (keys_takeFrom taken).symm ▸ sound.distinct⟩

theorem mem_senders (sound : table.Sound size) {rank : Rank} :
    rank ∈ table.senders tag ↔ rank < size ∧ table.waiting tag rank ≠ [] := by
  rw [← sound.size]
  constructor
  · intro member
    obtain ⟨lane, kept, rfl⟩ := List.mem_map.mp member
    obtain ⟨listed, holds⟩ := List.mem_filter.mp kept
    simp only [Bool.and_eq_true, decide_eq_true_eq, Bool.not_eq_true',
      List.isEmpty_eq_false_iff] at holds
    obtain ⟨⟨rfl, occupied⟩, inside⟩ := holds
    refine ⟨inside, ?_⟩
    rw [waiting, laneOf_of_mem sound.distinct listed]
    exact occupied
  · rintro ⟨inside, occupied⟩
    obtain ⟨lane, listed, rfl, rfl, holds⟩ := exists_of_laneOf occupied
    apply List.mem_map.mpr
    refine ⟨lane, List.mem_filter.mpr ⟨listed, ?_⟩, rfl⟩
    simp [holds, inside]

end Sound

/-! ## What a pop finds -/

/-- The payload that a selector finds first, with its sender. -/
def first? (source : Source) (tag : Tag) (table : ResponseTable) :
    Option (Rank × Payload) :=
  (source.members table.size).findSome? fun rank =>
    (table.waiting tag rank).head?.map fun payload => (rank, payload)

theorem first?_eq_none {source : Source} {tag : Tag} {table : ResponseTable} :
    table.first? source tag = none ↔
      ∀ rank ∈ source.members table.size, table.waiting tag rank = [] := by
  rw [first?, List.findSome?_eq_none_iff]
  simp [List.head?_eq_none_iff]

theorem range_eq_append_cons {rank size : Nat} (inside : rank < size) :
    ∃ later, List.range size = List.range rank ++ rank :: later := by
  obtain ⟨gap, rfl⟩ := Nat.exists_eq_add_of_lt inside
  refine ⟨List.range' (rank + 1) gap, ?_⟩
  have split : List.range' 0 rank ++ List.range' (0 + rank) (gap + 1) =
      List.range' 0 (rank + (gap + 1)) := List.range'_append_1
  rw [Nat.zero_add, List.range'_succ] at split
  rw [List.range_eq_range', List.range_eq_range', split, Nat.add_assoc]

variable {size : Nat} {table : ResponseTable} {source : Source} {tag : Tag}

theorem Sound.chosen?_bind (sound : table.Sound size) :
    ((table.chosen? source tag).bind fun rank =>
        (table.waiting tag rank).head?.map fun payload => (rank, payload)) =
      table.first? source tag := by
  cases source with
  | rank rank =>
      simp [chosen?, first?, Source.members]
  | any =>
      rw [chosen?]
      cases least : (table.senders tag).min? with
      | none =>
          have nobody := List.min?_eq_none_iff.mp least
          symm
          apply first?_eq_none.mpr
          intro rank member
          by_contra occupied
          have sender := sound.mem_senders.mpr
            ⟨sound.size ▸ List.mem_range.mp member, occupied⟩
          rw [nobody] at sender
          exact List.not_mem_nil sender
      | some rank =>
          obtain ⟨member, lower⟩ := List.min?_eq_some_iff.mp least
          obtain ⟨inside, occupied⟩ := sound.mem_senders.mp member
          obtain ⟨payload, later, shape⟩ := List.exists_cons_of_ne_nil occupied
          have found : ((table.waiting tag rank).head?.map fun payload => (rank, payload)) =
              some (rank, payload) := by
            rw [shape]
            rfl
          obtain ⟨after, split⟩ := range_eq_append_cons (sound.size.symm ▸ inside)
          rw [Option.bind_some, found, eq_comm]
          apply List.findSome?_eq_some_iff.mpr
          refine ⟨_, rank, after, split, found, ?_⟩
          intro other earlier
          have before := List.mem_range.mp earlier
          by_contra occupied
          rw [Option.map_eq_none_iff, List.head?_eq_none_iff] at occupied
          have sender := sound.mem_senders.mpr ⟨before.trans inside, occupied⟩
          exact absurd (lower other sender) (Nat.not_le.mpr before)

theorem Sound.pop_eq (sound : table.Sound size) (known : tag.isKnown = true)
    (within : source.IsWithin size) :
    ∃ rest, table.pop source tag = .ok (table.first? source tag, rest) := by
  have chosen : table.pop source tag = pop.popChosen source tag table := by
    cases source with
    | any =>
        rfl
    | rank rank =>
        have inside : rank < size := within rank (List.mem_singleton.mpr rfl)
        rw [ResponseTable.pop, if_neg (Nat.not_le.mpr (sound.size.symm ▸ inside))]
  rw [chosen, pop.popChosen, if_pos known, ← sound.chosen?_bind]
  cases table.chosen? source tag with
  | none =>
      exact ⟨table, rfl⟩
  | some rank =>
      have oldest : _ = (table.waiting tag rank).head? := takeFrom_fst tag rank table.lanes
      rw [Option.bind_some, ← oldest]
      simp only
      rcases takeFrom tag rank table.lanes with _ | ⟨payload, lanes⟩
      · exact ⟨table, rfl⟩
      · exact ⟨{ table with lanes }, rfl⟩

theorem valid_of_pop {found : Option (Rank × Payload)} {rest : ResponseTable}
    (popped : table.pop source tag = .ok (found, rest)) :
    tag.isKnown = true ∧ source.IsWithin table.size := by
  constructor
  · have chosen := popChosen_of_pop popped
    unfold pop.popChosen at chosen
    split at chosen
    · assumption
    · cases chosen
  · cases source with
    | any =>
        exact Source.isWithin_any table.size
    | rank rank =>
        intro other member
        rw [List.mem_singleton.mp member]
        by_contra outside
        rw [pop, if_pos (Nat.not_lt.mp outside)] at popped
        cases popped

theorem ne_stopped_of_pop {error : Error}
    (refused : table.pop source tag = .error error) : error ≠ .stopped := by
  have unknown (chosen : pop.popChosen source tag table = .error error) :
      error ≠ .stopped := by
    unfold pop.popChosen at chosen
    split at chosen
    · split at chosen
      · cases chosen
      · split at chosen <;> cases chosen
    · cases chosen
      exact Error.noConfusion
  cases source with
  | any =>
      exact unknown refused
  | rank rank =>
      rw [pop] at refused
      split at refused
      · cases refused
        exact Error.noConfusion
      · exact unknown refused

end ResponseTable

/-! ## Reading -/

namespace Engine

/-- An active engine at its place in the group. -/
structure Seated (seat : Seat) (engine : Engine) : Prop where
  active : engine.active = true
  place : engine.seat = seat
  responses : engine.responses.Sound seat.size

theorem Seated.atSeat (config : EngineConfig) (seat : Seat) :
    Seated seat (.atSeat config seat true) :=
  ⟨rfl, rfl, ResponseTable.Sound.empty seat.size⟩

variable {engine after : Engine} {source : Source} {tag : Tag} {size : Nat} {error : Error}

theorem seek_of_active (active : engine.active = true) :
    engine.seek source tag =
      match engine.responses.pop source tag with
      | .error error => (.failed error, engine)
      | .ok (some found, responses) => (.done found, { engine with responses })
      | .ok (none, responses) => (.waiting, { engine with responses }) := by
  rw [seek, if_neg (by simp [active]), tryRead]
  rcases engine.responses.pop source tag with _ | ⟨_ | found, responses⟩ <;> rfl

theorem attemptRead_of_active (active : engine.active = true) :
    engine.attemptRead source tag =
      match engine.responses.pop source tag with
      | .error error => (.failed error, engine)
      | .ok (some found, responses) => (.done found, { engine with responses })
      | .ok (none, responses) =>
          (if engine.running then .waiting else .failed .stopped,
            { engine with responses }) := by
  rw [attemptRead, seek_of_active active]
  rcases engine.responses.pop source tag with _ | ⟨_ | found, responses⟩ <;> rfl

theorem attemptRead_fst (active : engine.active = true)
    (sound : engine.responses.Sound size) (known : tag.isKnown = true)
    (within : source.IsWithin size) :
    (engine.attemptRead source tag).1 =
      match engine.responses.first? source tag with
      | some found => .done found
      | none => if engine.running then .waiting else .failed .stopped := by
  obtain ⟨rest, popped⟩ := sound.pop_eq known within
  rw [attemptRead_of_active active, popped]
  cases engine.responses.first? source tag <;> rfl

/-- A look that finds something takes the oldest payload of one lane. -/
theorem seek_done {rank : Rank} {payload : Payload}
    (done : engine.seek source tag = (.done (rank, payload), after)) :
    engine.responses.pop source tag = .ok (some (rank, payload), after.responses) ∧
      after = { engine with responses := after.responses } := by
  by_cases active : engine.active = true
  · rw [seek_of_active active] at done
    rcases popped : engine.responses.pop source tag with _ | ⟨_ | found, responses⟩
    · simp [popped] at done
    · simp [popped] at done
    · simp only [popped, Prod.mk.injEq, Attempt.done.injEq] at done
      obtain ⟨rfl, rfl⟩ := done
      exact ⟨rfl, rfl⟩
  · simp [seek, active] at done

/-- A look that finds nothing leaves the engine as it is. -/
theorem seek_waiting (waits : engine.seek source tag = (.waiting, after)) :
    after = engine := by
  by_cases active : engine.active = true
  · rw [seek_of_active active] at waits
    rcases popped : engine.responses.pop source tag with _ | ⟨_ | found, responses⟩
    · simp [popped] at waits
    · rw [popped, ResponseTable.eq_of_pop_none popped] at waits
      exact (congrArg Prod.snd waits).symm
    · simp [popped] at waits
  · simp [seek, active] at waits

/-- A look finds nothing only when nothing matches. -/
theorem first?_of_seek_waiting (sound : engine.responses.Sound size)
    (waits : (engine.seek source tag).1 = .waiting) :
    engine.responses.first? source tag = none := by
  by_cases active : engine.active = true
  · rw [seek_of_active active] at waits
    rcases popped : engine.responses.pop source tag with _ | ⟨_ | found, responses⟩
    · simp [popped] at waits
    · obtain ⟨known, within⟩ := ResponseTable.valid_of_pop popped
      obtain ⟨rest, same⟩ := sound.pop_eq known (sound.size ▸ within)
      rw [popped] at same
      exact (congrArg Prod.fst (Except.ok.inj same)).symm
    · simp [popped] at waits
  · simp [seek, active] at waits

theorem ne_stopped_of_seek (failed : (engine.seek source tag).1 = .failed error) :
    error ≠ .stopped := by
  by_cases active : engine.active = true
  · rw [seek_of_active active] at failed
    rcases popped : engine.responses.pop source tag with refused | ⟨_ | found, responses⟩
    · rw [popped] at failed
      rw [← Attempt.failed.inj failed]
      exact ResponseTable.ne_stopped_of_pop popped
    · simp [popped] at failed
    · simp [popped] at failed
  · simp only [seek, active, Bool.not_false, ↓reduceIte, Attempt.failed.injEq] at failed
    rw [← failed]
    exact Error.noConfusion

/-- A read reports that the engine is stopped only when nothing matches. -/
theorem first?_of_attemptRead_stopped (sound : engine.responses.Sound size)
    (failed : (engine.attemptRead source tag).1 = .failed .stopped) :
    engine.responses.first? source tag = none := by
  rcases sought : engine.seek source tag with ⟨_ | error | _, after⟩
  · simp [attemptRead, sought] at failed
  · simp only [attemptRead, sought] at failed
    exact absurd (Attempt.failed.inj failed) (ne_stopped_of_seek (congrArg Prod.fst sought))
  · exact first?_of_seek_waiting sound (congrArg Prod.fst sought)

end Engine

namespace Host

variable {bindings : Bindings ω} {host after : Host ω} {noted : List Observation}
  {size : Nat}

theorem Delivers.sound {engine delivered : Engine} {message : Message}
    (delivers : Delivers engine message delivered) (sound : engine.responses.Sound size) :
    delivered.responses.Sound size := by
  cases delivers with
  | enqueued | malformed | unknown =>
      exact sound
  | fatal =>
      rw [Engine.fail, Engine.stop_eq]
      exact sound
  | buffered responses plain pushed =>
      exact sound.push pushed

theorem Move.sound (move : Move bindings host noted after)
    (sound : host.engine.responses.Sound size) : after.engine.responses.Sound size := by
  cases move with
  | finalize | accept | remember | miss | drop =>
      exact sound
  | stop =>
      rw [Engine.stop_eq]
      exact sound
  | deliver message engine live delivers =>
      exact delivers.sound sound
  | serve message queue handler request =>
      obtain ⟨_, rfl | rfl, called⟩ := call_engine handler request
        { host with engine := { host.engine with queue } }
      · rw [called]
        exact sound
      · rw [called, Engine.stop_eq]
        exact sound
  | take source tag rank payload responses popped =>
      exact sound.pop popped

theorem Move.seated {seat : Seat} (move : Move bindings host noted after)
    (seated : host.engine.Seated seat) : after.engine.Seated seat := by
  obtain ⟨place, active⟩ := move.frame
  exact ⟨active.trans seated.active, place.trans seated.place,
    move.sound seated.responses⟩

theorem seated_follow {seat : Seat} (seated : host.engine.Seated seat)
    (transport : Transport σ) (bindings : Bindings ω) (steps : List (Activity × σ)) :
    (host.follow transport bindings steps).2.engine.Seated seat :=
  follow_invariant bindings _ (motive := fun _ host => host.engine.Seated seat)
    Move.seated (fun _ ⟨active, place, responses⟩ => ⟨active, place, responses⟩) transport
    seated steps

end Host

/-! ## Waiting -/

/-- What happens at a member during one attempt of a call that waits: before the attempt, and
between its two looks if the first one does not end it. -/
structure Pause (σ : Type) where
  before : List (Activity × σ) := []
  between : List (Activity × σ) := []

def Pause.steps (pause : Pause σ) : List (Activity × σ) :=
  pause.before ++ pause.between

end ParameterServer

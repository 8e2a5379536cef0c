import ParameterServer.Proofs.Engine.Reading
import ParameterServer.Transport.Mesh

/-!
# Barriers

A member that broadcasts and waits for replies counts what it reads, from whomever it
is.  It has read from everyone who should answer exactly when nobody has been counted
twice and the coordinator has not been counted.
-/

namespace ParameterServer

variable {σ ω : Type}

/-- A list as long as a range covers the range exactly when it has no repetition and
nothing beyond the range. -/
theorem covers_range_iff {bound : Nat} {items : List Nat}
    (length : items.length = bound) :
    (∀ item < bound, item ∈ items) ↔ items.Nodup ∧ ∀ item ∈ items, item < bound := by
  constructor
  · intro covers
    have included : List.range bound ⊆ items := by
      intro item member
      exact covers item (List.mem_range.mp member)
    have within := List.subperm_of_subset List.nodup_range included
    have same : (List.range bound).Perm items := by
      apply within.perm_of_length_le
      rw [length, List.length_range]
    refine ⟨same.nodup_iff.mp List.nodup_range, ?_⟩
    intro item member
    exact List.mem_range.mp (same.mem_iff.mpr member)
  · rintro ⟨distinct, inside⟩ item small
    have included : items ⊆ List.range bound := by
      intro other member
      exact List.mem_range.mpr (inside other member)
    have within := List.subperm_of_subset distinct included
    have same : items.Perm (List.range bound) := by
      apply within.perm_of_length_le
      rw [length, List.length_range]
    exact same.mem_iff.mpr (List.mem_range.mpr small)

namespace Engine

variable {engine after : Engine} {seat : Seat} {tag : Tag}

theorem Seated.run {α : Type} (seated : engine.Seated seat)
    (program : Outbox.Program α) : (engine.run program).2.Seated seat := by
  obtain ⟨active, place, responses⟩ := seated
  rcases engine.run_snd program with goesOn | stops
  · rw [goesOn]
    exact ⟨active, place, responses⟩
  · rw [stops, stop_eq]
    exact ⟨active, place, responses⟩

theorem Seated.seek (seated : engine.Seated seat) (source : Source) (tag : Tag) :
    (engine.seek source tag).2.Seated seat := by
  rw [seek_of_active seated.active]
  rcases popped : engine.responses.pop source tag with
    _ | ⟨_ | ⟨rank, payload⟩, responses⟩
  · exact seated
  · rw [ResponseTable.eq_of_pop_none popped]
    exact seated
  · exact ⟨seated.active, seated.place, seated.responses.pop popped⟩

theorem Seated.rank_lt (seated : engine.Seated seat) {rank : Rank} {payload : Payload}
    (done : engine.seek .any tag = (.done (rank, payload), after)) :
    rank < seat.size := by
  obtain ⟨popped, _⟩ := seek_done done
  obtain ⟨known, _⟩ := ResponseTable.valid_of_pop popped
  obtain ⟨rest, found⟩ :=
    seated.responses.pop_eq known (Source.isWithin_any seat.size)
  rw [popped] at found
  have first : some (rank, payload) = engine.responses.first? .any tag :=
    congrArg Prod.fst (Except.ok.inj found)
  obtain ⟨other, member, own⟩ := List.exists_of_findSome?_eq_some first.symm
  obtain ⟨_, _, same⟩ := Option.map_eq_some_iff.mp own
  cases same
  rw [← seated.responses.size]
  exact List.mem_range.mp member

end Engine

namespace Host

variable (transport : Transport σ) (bindings : Bindings ω)

/-! ## Waiting for replies -/

/-- Reads until `count` replies have been read, one attempt after another; the wait is not over
when the given pauses are used up.  Returns what has been read. -/
def awaitReplies (reply : Tag) :
    (count : Nat) → (meanwhile : List (Pause σ)) → Host ω →
      Attempt Unit × List (Rank × Payload) × Host ω
  | 0, _, host => (.done (), [], host)
  | _ + 1, [], host => (.waiting, [], host)
  | count + 1, pause :: later, host =>
      let waited := (host.follow transport bindings pause.before).2
      match waited.engine.seek .any reply with
      | (.done found, engine) =>
          let (outcome, reads, last) :=
            awaitReplies reply count later { waited with engine }
          (outcome, found :: reads, last)
      | (.failed error, engine) => (.failed error, [], { waited with engine })
      | (.waiting, engine) =>
          let looked :=
            (Host.follow transport bindings { waited with engine } pause.between).2
          match looked.engine.persist with
          | .waiting => awaitReplies reply (count + 1) later looked
          | outcome => (outcome, [], looked)

/-- Broadcasts, and waits for as many replies as there are members but one. -/
def syncBroadcast (tag reply : Tag) (payload : Payload) (meanwhile : List (Pause σ))
    (host : Host ω) : Attempt Unit × List (Rank × Payload) × Host ω :=
  match host.engine.broadcast tag payload with
  | (.error error, engine) => (.failed error, [], { host with engine })
  | (.ok (), engine) =>
      awaitReplies transport bindings reply engine.barrierSize meanwhile
        { host with engine }

variable {host : Host ω} {seat : Seat} {reply : Tag}

theorem awaitReplies_of_waiting (count attempts : Nat)
    (waits : host.engine.seek .any reply = (.waiting, host.engine))
    (live : host.engine.running = true) :
    host.awaitReplies transport bindings reply (count + 1)
      (List.replicate attempts {}) = (.waiting, [], host) := by
  induction attempts with
  | zero =>
      rfl
  | succ attempts inductionHypothesis =>
      rw [List.replicate_succ, awaitReplies]
      simp only [follow, List.foldl_nil, waits, Engine.persist, live, ↓reduceIte]
      exact inductionHypothesis

/-- When nothing happens in between, a wait is what it is on the engine alone. -/
theorem awaitReplies_replicate (host : Host ω) (count attempts : Nat)
    (enough : count ≤ attempts) :
    let awaited := host.awaitReplies transport bindings reply count
      (List.replicate attempts {})
    let attempted := host.engine.attemptBarrier reply count
    awaited.1 = attempted.1 ∧ awaited.2.2.engine = attempted.2.2 := by
  induction attempts generalizing count host with
  | zero =>
      rw [Nat.le_zero.mp enough]
      exact ⟨rfl, rfl⟩
  | succ attempts inductionHypothesis =>
      cases count with
      | zero =>
          exact ⟨rfl, rfl⟩
      | succ count =>
          rw [List.replicate_succ, awaitReplies, Engine.attemptBarrier, Engine.attemptRead]
          simp only [follow, List.foldl_nil]
          rcases sought : host.engine.seek .any reply with ⟨_ | _ | _, engine⟩
          · exact inductionHypothesis _ count (Nat.le_of_succ_le_succ enough)
          · exact ⟨rfl, rfl⟩
          · obtain rfl := Engine.seek_waiting sought
            cases live : host.engine.running with
            | true =>
                have waits := awaitReplies_of_waiting transport bindings count attempts sought live
                simp only [Engine.persist, live, ↓reduceIte]
                rw [waits]
                exact ⟨rfl, rfl⟩
            | false =>
                simp only [Engine.persist, live, Bool.false_eq_true, ↓reduceIte, and_self]

/-- A wait that is over has read as many replies as it should, all from members. -/
theorem reads_of_done (host : Host ω) (count : Nat) (meanwhile : List (Pause σ))
    (seated : host.engine.Seated seat)
    (done : (host.awaitReplies transport bindings reply count meanwhile).1 = .done ()) :
    let reads := (host.awaitReplies transport bindings reply count meanwhile).2.1
    reads.length = count ∧ ∀ read ∈ reads, read.1 < seat.size := by
  induction meanwhile generalizing count host with
  | nil =>
      cases count with
      | zero =>
          simp [awaitReplies]
      | succ count =>
          cases done
  | cons pause later inductionHypothesis =>
      cases count with
      | zero =>
          simp [awaitReplies]
      | succ count =>
          have waited := seated_follow seated transport bindings pause.before
          have after := waited.seek .any reply
          rw [awaitReplies] at done ⊢
          simp only at done ⊢
          rcases sought : (host.follow transport bindings pause.before).2.engine.seek
            .any reply with ⟨⟨rank, payload⟩ | error | _, engine⟩
          · rw [sought] at done after
            obtain ⟨length, inside⟩ := inductionHypothesis _ count after done
            refine ⟨congrArg Nat.succ length, ?_⟩
            intro read member
            rcases List.mem_cons.mp member with rfl | later
            · exact waited.rank_lt sought
            · exact inside read later
          · rw [sought] at done
            cases done
          · rw [sought] at done after
            let unread := { (host.follow transport bindings pause.before).2 with engine }
            have still : unread.engine.Seated seat := after
            have looked := seated_follow still transport bindings pause.between
            dsimp only at done ⊢
            split at done
            · exact inductionHypothesis _ (count + 1) looked done
            -- A look at a stopped engine never ends a wait well.
            · rw [Engine.persist] at done
              split at done <;> cases done

/-- A barrier of a started member that is over has read one reply fewer than there are
members, from members only.  It has read a reply of every member but the coordinator
exactly when it has read at most one reply of each member and none of the
coordinator.  A wait during which nothing happens is what it is on the engine alone. -/
theorem barrier_covers_iff (config : EngineConfig) (seat : Seat) (memory : ω)
    (before : List (Activity × σ)) (tag reply : Tag) (payload : Payload)
    (meanwhile : List (Pause σ)) :
    let first : Host ω := ⟨.atSeat config seat true, memory⟩
    let host := (first.follow transport bindings before).2
    let called := host.syncBroadcast transport bindings tag reply payload meanwhile
    let sources := called.2.1.map Prod.fst
    (called.1 = .done () →
      sources.length = seat.size - 1 ∧ (∀ source ∈ sources, source < seat.size) ∧
        ((∀ rank < seat.size - 1, rank ∈ sources) ↔
          sources.Nodup ∧ seat.size - 1 ∉ sources)) ∧
    ∀ count attempts, count ≤ attempts →
      let awaited := host.awaitReplies transport bindings reply count
        (List.replicate attempts {})
      let attempted := host.engine.attemptBarrier reply count
      awaited.1 = attempted.1 ∧ awaited.2.2.engine = attempted.2.2 := by
  intro first host called sources
  refine ⟨fun done => ?_, awaitReplies_replicate transport bindings host⟩
  have seated : host.engine.Seated seat :=
    seated_follow (Engine.Seated.atSeat config seat) transport bindings before
  obtain ⟨length, inside⟩ : called.2.1.length = seat.size - 1 ∧
      ∀ read ∈ called.2.1, read.1 < seat.size := by
    have sent : (host.engine.broadcast tag payload).2.Seated seat := seated.run _
    unfold called syncBroadcast at done ⊢
    rcases broadcast : host.engine.broadcast tag payload with ⟨_ | _, engine⟩
    · rw [broadcast] at done
      cases done
    · rw [broadcast] at done sent
      have size : engine.barrierSize = seat.size - 1 := by
        rw [Engine.barrierSize, sent.place]
      rw [← size]
      exact reads_of_done transport bindings _ _ meanwhile sent done
  have counted : sources.length = seat.size - 1 := (List.length_map _).trans length
  have members : ∀ source ∈ sources, source < seat.size := by
    intro source member
    obtain ⟨read, listed, rfl⟩ := List.mem_map.mp member
    exact inside read listed
  refine ⟨counted, members, ?_⟩
  rw [covers_range_iff counted]
  refine and_congr_right fun _ => ⟨?_, ?_⟩
  · intro small coordinator
    exact absurd (small _ coordinator) (Nat.lt_irrefl _)
  · intro absent source member
    have bound := members source member
    have other : source ≠ seat.size - 1 := by
      rintro rfl
      exact absent member
    exact Nat.lt_of_le_of_ne (Nat.le_sub_one_of_lt bound) other

/-- The barrier of three members when both of the others reply. -/
theorem barrier_covers_three :
    let replied := fun rank => ((Mesh.ofSize 3).send rank 2 .empty []).2
    let first : Host Unit := ⟨.atSeat {} ⟨2, 3⟩ true, ()⟩
    let host := (first.follow (Mesh.transport 2) {} []).2
    let called := host.syncBroadcast (Mesh.transport 2) {} .shardAssignment .empty []
      [⟨[(.network, replied 0)], []⟩, ⟨[(.network, replied 1)], []⟩]
    called.1 = .done () ∧ ∀ rank < 3 - 1, rank ∈ called.2.1.map Prod.fst := by
  intro replied first host called
  have done : called.1 = .done () := by decide +kernel
  have ⟨covers, _⟩ := barrier_covers_iff (Mesh.transport 2) {} {} ⟨2, 3⟩ () [] .shardAssignment
    .empty [] [⟨[(.network, replied 0)], []⟩, ⟨[(.network, replied 1)], []⟩]
  refine ⟨done, ?_⟩
  apply (covers done).2.2.mpr
  decide +kernel

/-- While the coordinator of three members waits, member 0 replies twice.  The barrier
is over, although member 1 has not replied. -/
theorem barrier_misses_member :
    let mesh := ((Mesh.ofSize 3).send 0 2 .empty []).2
    let host : Host Unit := ⟨.atSeat {} ⟨2, 3⟩ true, ()⟩
    let called := host.syncBroadcast (Mesh.transport 2) {} .shardAssignment .empty []
      [⟨[(.network, mesh)], []⟩, ⟨[(.network, mesh)], []⟩]
    called.1 = .done () ∧ called.2.1.map Prod.fst = [0, 0] ∧
      ¬ ∀ rank < 2, rank ∈ called.2.1.map Prod.fst := by
  decide +kernel

end Host

end ParameterServer

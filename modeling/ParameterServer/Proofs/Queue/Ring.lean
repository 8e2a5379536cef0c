import Mathlib.Data.List.Nodup
import Mathlib.Data.List.Perm.Subperm
import Mathlib.Data.List.Perm.Lattice

/-!
# Service in turn

A ring is what the order of service depends on: the keys in the order of their first
appearance, the cursor, and which keys are ready.  It knows two kinds of changes: the
first ready key from the cursor on is served, or a key joins behind the others.  A key
that is ready is therefore not passed twice by another one, however many keys join.
-/

namespace ParameterServer.Queue

/-- The keys of a queue, the position where the next scan starts, and which keys have
something to give. -/
structure Ring where
  keys : List String
  cursor : Nat
  ready : String → Prop

namespace Ring

/-! ## Going round -/

/-- Going round from the cursor, one comes to the first position before one comes to
the second. -/
def Before (cursor first second : Nat) : Prop :=
  (cursor ≤ first ∧ (second < cursor ∨ first < second)) ∨
    (first < second ∧ second < cursor)

private theorem add_mod_of_lt_double (value count : Nat) (short : value < count + count) :
    (value < count ∧ value % count = value) ∨
      (count ≤ value ∧ value % count = value - count) := by
  rcases Nat.lt_or_ge value count with small | large
  · exact Or.inl ⟨small, Nat.mod_eq_of_lt small⟩
  · refine Or.inr ⟨large, ?_⟩
    rw [Nat.mod_eq_sub_mod large, Nat.mod_eq_of_lt (by omega)]

/-- From the place behind a position, one comes to every other position first. -/
theorem before_of_passed {count first second : Nat} (firstInside : first < count)
    (secondInside : second < count) (apart : first ≠ second) :
    Before ((second + 1) % count) first second := by
  rcases add_mod_of_lt_double (second + 1) count (by omega)
    with ⟨_, place⟩ | ⟨_, place⟩ <;>
    rw [place, Before] <;> omega

/-- Going on without coming to the first position, one does not come to the second one
either, and the first is still ahead of it. -/
theorem Before.advance {count cursor steps first second : Nat}
    (before : Before cursor first second) (inside : cursor < count)
    (short : steps < count) (firstInside : first < count)
    (unmet : ∀ earlier ≤ steps, (cursor + earlier) % count ≠ first) :
    (cursor + steps) % count ≠ second ∧
      Before ((cursor + steps + 1) % count) first second := by
  -- The number of steps to the first position is greater than those made.
  have ahead : (cursor ≤ first ∧ cursor + steps < first) ∨
      (first < cursor ∧ cursor + steps < count + first) := by
    rcases Nat.lt_or_ge first cursor with behind | ahead
    · refine Or.inr ⟨behind, ?_⟩
      by_contra reached
      apply unmet (count + first - cursor) (by omega)
      rw [show cursor + (count + first - cursor) = count + first by omega,
        Nat.add_mod_left, Nat.mod_eq_of_lt firstInside]
    · refine Or.inl ⟨ahead, ?_⟩
      by_contra reached
      apply unmet (first - cursor) (by omega)
      rw [show cursor + (first - cursor) = first by omega,
        Nat.mod_eq_of_lt firstInside]
  unfold Before at before ⊢
  rcases add_mod_of_lt_double (cursor + steps) count (by omega)
    with ⟨_, here⟩ | ⟨_, here⟩ <;>
    rcases add_mod_of_lt_double (cursor + steps + 1) count (by omega)
      with ⟨_, next⟩ | ⟨_, next⟩ <;>
    rw [here, next] <;> omega

/-! ## Changes -/

/-- The key that is visited after some others. -/
def visited? (ring : Ring) (others : Nat) : Option String :=
  ring.keys[(ring.cursor + others) % ring.keys.length]?

/-- The first ready key from the cursor on is served, and the cursor moves behind
it. -/
structure Serves (key : String) (ring after : Ring) : Prop where
  turn : ∃ skipped < ring.keys.length,
    ring.visited? skipped = some key ∧
      (∀ earlier < skipped, ∀ other,
        ring.visited? earlier = some other → ¬ ring.ready other) ∧
      after.cursor = (ring.cursor + skipped + 1) % ring.keys.length
  keys : after.keys = ring.keys
  others : ∀ other, other ≠ key → (after.ready other ↔ ring.ready other)

/-- A key has more to give than before; a new key comes last. -/
structure Admits (ring after : Ring) : Prop where
  keys : after.keys = ring.keys ∨
    ∃ key, key ∉ ring.keys ∧ after.keys = ring.keys ++ [key]
  cursor : after.cursor = ring.cursor
  ready : ∀ key, ring.ready key → after.ready key

/-- Changes one after another, with the keys that are served. -/
inductive Path : Ring → List String → Ring → Prop
  | refl (ring : Ring) : Path ring [] ring
  | serve {first middle last : Ring} {served : List String} {key : String} :
      Path first served middle → Serves key middle last →
        Path first (served ++ [key]) last
  | join {first middle last : Ring} {served : List String} :
      Path first served middle → Admits middle last → Path first served last

/-- The keys are distinct, and the cursor is at one of them, if there is any. -/
structure Sound (ring : Ring) : Prop where
  distinct : ring.keys.Nodup
  inside : ring.cursor = 0 ∨ ring.cursor < ring.keys.length

variable {ring first middle last after : Ring} {key waiting : String}
  {served : List String}

theorem Serves.sound (serves : Serves key ring after) (sound : ring.Sound) :
    after.Sound := by
  obtain ⟨skipped, short, _, _, cursor⟩ := serves.turn
  refine ⟨serves.keys ▸ sound.distinct, Or.inr ?_⟩
  rw [cursor, serves.keys]
  exact Nat.mod_lt _ (by omega)

theorem Admits.sound (admits : Admits ring after) (sound : ring.Sound) :
    after.Sound := by
  refine ⟨?_, ?_⟩
  · rcases admits.keys with same | ⟨key, absent, grown⟩
    · exact same ▸ sound.distinct
    · rw [grown, ← List.concat_eq_append]
      exact List.Nodup.concat absent sound.distinct
  · rw [admits.cursor]
    rcases admits.keys with same | ⟨key, _, grown⟩
    · exact same ▸ sound.inside
    · rw [grown, List.length_append]
      exact sound.inside.imp id fun inside => by omega

theorem Admits.keys_prefix (admits : Admits ring after) : ring.keys <+: after.keys := by
  rcases admits.keys with same | ⟨key, _, grown⟩
  · exact same ▸ List.prefix_rfl
  · exact grown ▸ List.prefix_append _ _

theorem idxOf_of_prefix {known grown : List String} (grows : known <+: grown)
    (member : key ∈ known) : grown.idxOf key = known.idxOf key := by
  obtain ⟨added, rfl⟩ := grows
  exact List.idxOf_append_of_mem member

namespace Path

theorem keys_prefix (path : Path first served last) : first.keys <+: last.keys := by
  induction path with
  | refl => exact List.prefix_rfl
  | serve _ serves inductionHypothesis => exact serves.keys ▸ inductionHypothesis
  | join _ admits inductionHypothesis =>
      exact inductionHypothesis.trans admits.keys_prefix

theorem sound (path : Path first served last) (sound : first.Sound) :
    last.Sound := by
  induction path with
  | refl => exact sound
  | serve _ serves inductionHypothesis => exact serves.sound inductionHypothesis
  | join _ admits inductionHypothesis => exact admits.sound inductionHypothesis

/-- The part of a path that serves the first of its keys. -/
theorem of_append {rest : List String} (path : Path first (served ++ rest) last) :
    ∃ middle, Path first served middle := by
  generalize whole : served ++ rest = all at path
  induction path generalizing rest with
  | refl =>
      obtain ⟨rfl, _⟩ := List.append_eq_nil_iff.mp whole
      exact ⟨_, .refl _⟩
  | serve path serves inductionHypothesis =>
      rcases List.eq_nil_or_concat rest with rfl | ⟨others, final, rfl⟩
      · rw [List.append_nil] at whole
        exact ⟨_, whole ▸ path.serve serves⟩
      · rw [List.concat_eq_append, ← List.append_assoc] at whole
        exact inductionHypothesis (List.append_inj_left' whole rfl)
  | join _ _ inductionHypothesis => exact inductionHypothesis whole

end Path

/-! ## No key is passed twice -/

/-- A key that has been ready all the time and has not been served is still ready, and
comes before all keys that have been served. -/
structure Ahead (waiting : String) (served : List String) (ring : Ring) : Prop where
  ready : ring.ready waiting
  member : waiting ∈ ring.keys
  known : ∀ key ∈ served, key ∈ ring.keys
  before : ∀ key ∈ served,
    Before ring.cursor (ring.keys.idxOf waiting) (ring.keys.idxOf key)
  distinct : served.Nodup

theorem idxOf_of_visited {others : Nat} (sound : ring.Sound)
    (visited : ring.visited? others = some key) :
    key ∈ ring.keys ∧
      (ring.cursor + others) % ring.keys.length = ring.keys.idxOf key := by
  obtain ⟨inside, found⟩ := List.getElem?_eq_some_iff.mp visited
  subst found
  exact ⟨List.getElem_mem inside, (sound.distinct.idxOf_getElem _ inside).symm⟩

theorem Ahead.admits (ahead : Ahead waiting served ring) (admits : Admits ring after) :
    Ahead waiting served after := by
  have grows := admits.keys_prefix
  refine ⟨admits.ready _ ahead.ready, grows.subset ahead.member,
    fun key member => grows.subset (ahead.known key member), ?_, ahead.distinct⟩
  intro key member
  rw [admits.cursor, idxOf_of_prefix grows ahead.member,
    idxOf_of_prefix grows (ahead.known key member)]
  exact ahead.before key member

/-- Whatever is served instead of a ready key has not been served since that key was
ready. -/
theorem Ahead.serves (ahead : Ahead waiting served ring) (sound : ring.Sound)
    (serves : Serves key ring after) (other : waiting ≠ key) :
    Ahead waiting (served ++ [key]) after := by
  obtain ⟨skipped, short, visited, passed, cursor⟩ := serves.turn
  obtain ⟨member, place⟩ := idxOf_of_visited sound visited
  have waitingInside := List.idxOf_lt_length_of_mem ahead.member
  have inside : ring.cursor < ring.keys.length := by
    rcases sound.inside with start | inside <;> omega
  have apart : ring.keys.idxOf waiting ≠ ring.keys.idxOf key := fun same =>
    other (List.idxOf_inj ahead.member |>.mp same)
  -- A scan would have stopped at the waiting key, so that it has not come to it.
  have unmet : ∀ earlier ≤ skipped,
      (ring.cursor + earlier) % ring.keys.length ≠ ring.keys.idxOf waiting := by
    intro earlier early met
    rcases Nat.lt_or_eq_of_le early with sooner | rfl
    · refine passed earlier sooner waiting ?_ ahead.ready
      rw [visited?, met, List.getElem?_eq_getElem waitingInside, List.getElem_idxOf]
    · exact apart (met.symm.trans place)
  have onward (earlier : String) (listed : earlier ∈ served) :=
    (ahead.before earlier listed).advance inside short waitingInside unmet
  have fresh : key ∉ served := fun listed => (onward key listed).1 place
  refine ⟨(serves.others _ other).mpr ahead.ready, serves.keys ▸ ahead.member,
    ?_, ?_, ?_⟩
  · intro earlier listed
    rw [serves.keys]
    rcases List.mem_append.mp listed with old | new
    · exact ahead.known earlier old
    · rwa [List.mem_singleton.mp new]
  · intro earlier listed
    rw [serves.keys, cursor]
    rcases List.mem_append.mp listed with old | new
    · exact (onward earlier old).2
    · rw [List.mem_singleton.mp new, ← Nat.mod_add_mod, place]
      exact before_of_passed waitingInside (place ▸ Nat.mod_lt _ (by omega)) apart
  · rw [← List.concat_eq_append]
    exact List.Nodup.concat fresh ahead.distinct

namespace Path

/-- As long as a ready key is not served, it stays ahead of those that are. -/
theorem ahead (path : Path first served last) (sound : first.Sound)
    (member : waiting ∈ first.keys) (ready : first.ready waiting)
    (unserved : waiting ∉ served) : Ahead waiting served last := by
  induction path with
  | refl => exact ⟨ready, member, by simp, by simp, List.nodup_nil⟩
  | serve path serves inductionHypothesis =>
      rw [List.mem_append, not_or] at unserved
      exact (inductionHypothesis unserved.1).serves (path.sound sound) serves
        (by simpa using unserved.2)
  | join path admits inductionHypothesis =>
      exact (inductionHypothesis unserved).admits admits

/-- A ready key is served before another key is served for the second time. -/
theorem mem_of_repeated {earlier later : List String}
    (path : Path first (earlier ++ key :: later) last) (sound : first.Sound)
    (member : waiting ∈ first.keys) (ready : first.ready waiting)
    (other : key ≠ waiting) (repeated : key ∈ earlier) : waiting ∈ earlier := by
  by_contra unserved
  rw [List.append_cons] at path
  obtain ⟨middle, path⟩ := path.of_append
  have distinct := (path.ahead sound member ready (by
    simpa [other.symm] using unserved)).distinct
  rw [← List.concat_eq_append, List.nodup_concat] at distinct
  exact distinct.1 repeated

/-- When all keys are ready, no key is served twice in as many services as there are
keys. -/
theorem nodup_of_all_ready (path : Path first served last) (sound : first.Sound)
    (ready : ∀ key ∈ first.keys, first.ready key)
    (short : served.length ≤ first.keys.length) : served.Nodup := by
  induction path with
  | refl => exact List.nodup_nil
  | @serve middle _ served key path serves inductionHypothesis =>
      rw [List.length_append, List.length_singleton] at short
      have distinct := inductionHypothesis (by omega)
      obtain ⟨waiting, member, unserved⟩ :
          ∃ waiting ∈ first.keys, waiting ∉ served := by
        by_contra! all
        have fits := (List.subperm_of_subset sound.distinct all).length_le
        omega
      by_cases own : key = waiting
      · rw [own, ← List.concat_eq_append]
        exact List.Nodup.concat unserved distinct
      · exact ((path.serve serves).ahead sound member (ready waiting member) (by
          simpa [Ne.symm own] using unserved)).distinct
  | join _ _ inductionHypothesis => exact inductionHypothesis short

theorem subset_keys (path : Path first served last) (sound : first.Sound) :
    served ⊆ last.keys := by
  induction path with
  | refl => exact List.nil_subset _
  | serve path serves inductionHypothesis =>
      obtain ⟨skipped, _, visited, _⟩ := serves.turn
      rw [serves.keys]
      refine List.append_subset.mpr ⟨inductionHypothesis, ?_⟩
      exact List.cons_subset.mpr
        ⟨(idxOf_of_visited (path.sound sound) visited).1, List.nil_subset _⟩
  | join _ admits inductionHypothesis =>
      exact fun key member => admits.keys_prefix.subset (inductionHypothesis member)

/-- When all keys are ready and no key joins, as many services as there are keys serve
each of them once. -/
theorem perm_of_all_ready (path : Path first served last) (sound : first.Sound)
    (ready : ∀ key ∈ first.keys, first.ready key)
    (same : last.keys.length = first.keys.length)
    (count : served.length = first.keys.length) : served.Perm first.keys := by
  have kept : first.keys = last.keys := path.keys_prefix.eq_of_length same.symm
  have distinct := path.nodup_of_all_ready sound ready (Nat.le_of_eq count)
  have inside := path.subset_keys sound
  rw [← kept] at inside
  exact (List.subperm_of_subset distinct inside).perm_of_length_le
    (Nat.le_of_eq count.symm)

end Path

end Ring

end ParameterServer.Queue

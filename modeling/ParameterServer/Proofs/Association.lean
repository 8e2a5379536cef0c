import Mathlib.Data.List.Basic

/-!
# Association lists

Slots and stored values are kept in lists of keys with values.  `assign` gives a key
a value without moving the other keys, and `lookup` reads it back.
-/

namespace ParameterServer.Association

variable {α : Type}

/-- Gives a key a value: in place of its earlier one, or at the end. -/
def assign (key : String) (value : α) :
    List (String × α) → List (String × α)
  | [] => [(key, value)]
  | (other, earlier) :: rest =>
      if other = key then (other, value) :: rest
      else (other, earlier) :: assign key value rest

theorem lookup_assign
    (key other : String) (value : α) (entries : List (String × α)) :
    (assign key value entries).lookup other =
      if other = key then some value else entries.lookup other := by
  induction entries with
  | nil =>
      by_cases same : other = key
      · simp [assign, same]
      · simp [assign, List.lookup_cons, beq_eq_false_iff_ne.mpr same, same]
  | cons entry rest inductionHypothesis =>
      obtain ⟨name, earlier⟩ := entry
      by_cases named : name = key
      · subst name
        by_cases same : other = key
        · simp [assign, same]
        · simp [assign, List.lookup_cons, beq_eq_false_iff_ne.mpr same, same]
      · by_cases same : other = name
        · subst other
          simp [assign, named]
        · have apart : (other == name) = false :=
            beq_eq_false_iff_ne.mpr same
          simp only [assign, named, ↓reduceIte, List.lookup_cons, apart,
            inductionHypothesis]

theorem keys_assign
    (key : String) (value : α) (entries : List (String × α)) :
    (assign key value entries).map Prod.fst =
      if key ∈ entries.map Prod.fst then entries.map Prod.fst
      else entries.map Prod.fst ++ [key] := by
  induction entries with
  | nil =>
      simp [assign]
  | cons entry rest inductionHypothesis =>
      obtain ⟨name, earlier⟩ := entry
      by_cases named : name = key
      · simp [assign, named]
      · have apart : key ≠ name := Ne.symm named
        simp only [assign, named, ↓reduceIte, List.map_cons, List.mem_cons,
          apart, false_or, inductionHypothesis]
        split <;> simp

theorem nodup_keys_assign
    {entries : List (String × α)}
    (distinct : (entries.map Prod.fst).Nodup)
    (key : String) (value : α) :
    ((assign key value entries).map Prod.fst).Nodup := by
  rw [keys_assign]
  split
  · exact distinct
  · rename_i absent
    exact List.nodup_append.mpr ⟨distinct, by simp, by
      intro name member other single same
      rw [List.mem_singleton.mp single] at same
      exact absent (same ▸ member)⟩

theorem mem_or_eq_of_mem_assign
    {key : String} {value : α} {entries : List (String × α)} {entry : String × α}
    (member : entry ∈ assign key value entries) :
    entry ∈ entries ∨ entry = (key, value) := by
  induction entries with
  | nil => exact Or.inr (List.mem_singleton.mp member)
  | cons first rest inductionHypothesis =>
      obtain ⟨name, earlier⟩ := first
      by_cases named : name = key
      · subst name
        simp only [assign, ↓reduceIte, List.mem_cons] at member
        exact member.symm.imp (List.mem_cons_of_mem _) id
      · simp only [assign, named, ↓reduceIte, List.mem_cons] at member
        rcases member with rfl | later
        · exact Or.inl List.mem_cons_self
        · exact (inductionHypothesis later).imp (List.mem_cons_of_mem _) id

theorem lookup_of_mem
    {entries : List (String × α)}
    (distinct : (entries.map Prod.fst).Nodup)
    {key : String} {value : α} (member : (key, value) ∈ entries) :
    entries.lookup key = some value := by
  obtain ⟨before, after, rfl⟩ := List.append_of_mem member
  refine List.lookup_eq_some_iff.mpr ⟨before, after, rfl, ?_⟩
  intro entry earlier
  rw [List.map_append, List.nodup_append] at distinct
  simp only [bne_iff_ne]
  exact (distinct.2.2 entry.1 (List.mem_map_of_mem earlier) key (by simp)).symm

theorem mem_of_lookup
    {entries : List (String × α)} {key : String} {value : α}
    (found : entries.lookup key = some value) :
    (key, value) ∈ entries := by
  obtain ⟨before, after, rfl, _⟩ := List.lookup_eq_some_iff.mp found
  simp

/-- Among distinct keys, the order of the entries does not matter. -/
theorem lookup_eq_of_perm
    {entries others : List (String × α)} (same : entries.Perm others)
    (distinct : (others.map Prod.fst).Nodup) (key : String) :
    entries.lookup key = others.lookup key := by
  have distinctHere : (entries.map Prod.fst).Nodup :=
    (same.map Prod.fst).nodup_iff.mpr distinct
  ext value
  constructor
  · intro found
    exact lookup_of_mem distinct (same.mem_iff.mp (mem_of_lookup found))
  · intro found
    exact lookup_of_mem distinctHere (same.mem_iff.mpr (mem_of_lookup found))

theorem lookup_filter
    (keep : String → Bool) (key : String) (entries : List (String × α)) :
    (entries.filter fun entry => keep entry.1).lookup key =
      if keep key then entries.lookup key else none := by
  induction entries with
  | nil => simp
  | cons entry rest inductionHypothesis =>
      obtain ⟨name, value⟩ := entry
      by_cases named : key = name
      · subst named
        cases kept : keep key <;> simp [kept, inductionHypothesis]
      · have apart : (key == name) = false := beq_eq_false_iff_ne.mpr named
        cases kept : keep name <;> simp [kept, List.lookup_cons, apart, inductionHypothesis]

/-- Among distinct keys, replacing the entry at the position of a key assigns to
that key. -/
theorem set_eq_assign
    {entries : List (String × α)}
    (distinct : (entries.map Prod.fst).Nodup)
    {position : Nat} {key : String} {earlier : α}
    (found : entries[position]? = some (key, earlier)) (value : α) :
    entries.set position (key, value) = assign key value entries := by
  induction entries generalizing position with
  | nil =>
      simp at found
  | cons entry rest inductionHypothesis =>
      obtain ⟨absent, restDistinct⟩ := List.nodup_cons.mp distinct
      cases position with
      | zero =>
          simp only [List.getElem?_cons_zero, Option.some.injEq] at found
          subst entry
          simp [assign]
      | succ position =>
          rw [List.getElem?_cons_succ] at found
          have apart : entry.1 ≠ key := by
            rintro rfl
            exact absent (List.mem_map.mpr
              ⟨_, List.mem_of_getElem? found, rfl⟩)
          simp [assign, apart, inductionHypothesis restDistinct found]

/-- Assigning to a key that has just come last is assigning to a new key. -/
theorem assign_concat
    {key : String} {entries : List (String × α)} (absent : key ∉ entries.map Prod.fst)
    (earlier value : α) :
    assign key value (entries ++ [(key, earlier)]) =
      assign key value entries := by
  induction entries with
  | nil => simp [assign]
  | cons entry rest inductionHypothesis =>
      rw [List.map_cons, List.mem_cons, not_or] at absent
      simp [assign, Ne.symm absent.1, inductionHypothesis absent.2]

end ParameterServer.Association

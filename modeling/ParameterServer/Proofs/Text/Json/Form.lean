import ParameterServer.Proofs.Association
import ParameterServer.Proofs.Text.Json.Value
import ParameterServer.Text.Json.Form

/-!
# The fields of a record

A record has the known fields among its members, as they stand, if each is given at most once.
Numbers and texts are read back from their JSON forms.
-/

namespace ParameterServer.Text.Json

/-! ## Scalars -/

theorem toInt?_ofNat (value : Nat) : (ofNat value).toInt? = some value :=
  Number.toInt?_ofInt value

theorem toNatBelow?_ofNat {value limit : Nat} (below : value < limit) :
    (ofNat value).toNatBelow? limit = some value := by
  have inRange : (0 : Int) ≤ value ∧ (value : Int) < limit := ⟨by omega, by omega⟩
  simp [toNatBelow?, toInt?_ofNat, inRange]

theorem toUInt64?_ofNat (value : UInt64) : (ofNat value.toNat).toUInt64? = some value := by
  rw [toUInt64?, toNatBelow?_ofNat value.toNat_lt]
  exact congrArg some (UInt64.ofNat_toNat)

/-- The compact text of a value whose literals are natural numbers writes it. -/
theorem writes_render_of_naturals {value : Json}
    (naturals : ∀ literal, .number literal ∈ value.tokens →
      ∃ number : Nat, literal = .ofInt number) :
    value.Writes value.render := by
  refine writes_render fun literal member => ?_
  obtain ⟨number, rfl⟩ := naturals literal member
  exact Number.wellFormed_ofInt number

/-! ## Fields -/

variable {names : List String}

theorem addField?_of_mem {fields : Fields} {name : String} (known : name ∈ names)
    (first : name ∉ fields.map Prod.fst) (json : Json) :
    addField? names fields (some name, json) = some (fields ++ [(name, json)]) := by
  have absent : fields.lookup name = none := by
    refine List.lookup_eq_none_iff.mpr fun entry member => bne_iff_ne.mpr ?_
    rintro rfl
    exact first (List.mem_map_of_mem member)
  simp [addField?, known, absent]

theorem addField?_of_notMem {name : String} (unknown : name ∉ names) (fields : Fields)
    (json : Json) : addField? names fields (some name, json) = some fields := by
  simp [addField?, unknown]

/-- Members are added to the fields one by one, and those with unknown names are passed over. -/
theorem foldlM_addField? (members : List (String × Json)) (fields : Fields)
    (once : ((fields ++ members.filter (·.1 ∈ names)).map Prod.fst).Nodup) :
    (members.map fun entry => (some entry.1, entry.2)).foldlM (addField? names) fields =
      some (fields ++ members.filter (·.1 ∈ names)) := by
  induction members generalizing fields with
  | nil => simp
  | cons entry rest inductionHypothesis =>
      obtain ⟨name, json⟩ := entry
      by_cases known : name ∈ names
      · have shape : fields ++ ((name, json) :: rest).filter (·.1 ∈ names) =
            fields ++ [(name, json)] ++ rest.filter (·.1 ∈ names) := by
          simp [known]
        rw [shape] at once ⊢
        have first : name ∉ fields.map Prod.fst := by
          rw [List.append_assoc, List.map_append, List.nodup_append] at once
          intro earlier
          exact once.2.2 name earlier name (by simp) rfl
        rw [List.map_cons, List.foldlM_cons, addField?_of_mem known first]
        exact inductionHypothesis _ once
      · have shape : ((name, json) :: rest).filter (·.1 ∈ names) = rest.filter (·.1 ∈ names) := by
          simp [known]
        rw [shape] at once ⊢
        rw [List.map_cons, List.foldlM_cons, addField?_of_notMem known]
        exact inductionHypothesis fields once

/-- The fields of a record are its members with known names. -/
theorem fields?_record {members : List (String × Json)}
    (once : ((members.filter (·.1 ∈ names)).map Prod.fst).Nodup) :
    (record members).fields? names = some (members.filter (·.1 ∈ names)) :=
  foldlM_addField? members [] once

/-- A field that is given when `given` holds is decoded, or else stands for its default. -/
theorem Fields.orDefault?_of_lookup {α : Type} {fields : Fields} {name : String} {given : Prop}
    [Decidable given] {json : Json}
    (found : fields.lookup name = if given then some json else none) {decode : Json → Option α}
    {value : α} (decoded : decode json = some value) (default : α) :
    fields.orDefault? name default decode = some (if given then value else default) := by
  unfold Fields.orDefault?
  rw [found]
  split <;> simp_all

end ParameterServer.Text.Json

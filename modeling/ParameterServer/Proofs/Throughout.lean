import Mathlib.Data.List.Induction

/-!
# Conditions throughout a run

A condition on every step of a run and on the steps before it.
-/

namespace ParameterServer

variable {α : Type} {condition : List α → α → Prop} {steps : List α}

/-- Whether all steps satisfy a condition on each step and those before it. -/
def Throughout (condition : List α → α → Prop) (steps : List α) : Prop :=
  ∀ before step after, steps = before ++ step :: after → condition before step

theorem throughout_concat {step : α} :
    Throughout condition (steps ++ [step]) ↔
      Throughout condition steps ∧ condition steps step := by
  constructor
  · intro holds
    refine ⟨?_, holds steps step [] rfl⟩
    intro before earlier after split
    exact holds before earlier (after ++ [step]) (by simp [split])
  · rintro ⟨holds, last⟩ before other after split
    rcases List.eq_nil_or_concat after with rfl | ⟨rest, final, rfl⟩
    · obtain ⟨rfl, same⟩ := List.append_inj' split rfl
      cases same
      exact last
    · rw [List.concat_eq_append, ← List.cons_append, ← List.append_assoc] at split
      exact holds before other rest (List.append_inj_left' split rfl)

theorem Throughout.of_append {rest : List α}
    (holds : Throughout condition (steps ++ rest)) : Throughout condition steps := by
  intro before step after split
  exact holds before step (after ++ rest) (by simp [split])

theorem throughout_append {more : List α} :
    Throughout condition (steps ++ more) ↔
      Throughout condition steps ∧
        Throughout (fun before => condition (steps ++ before)) more := by
  induction more using List.reverseRecOn with
  | nil => simp [Throughout]
  | append_singleton more last inductionHypothesis =>
      rw [← List.append_assoc, throughout_concat, throughout_concat,
        inductionHypothesis, and_assoc]

theorem throughout_iff :
    Throughout condition steps ↔
      ∀ position, (inside : position < steps.length) →
        condition (steps.take position) steps[position] := by
  constructor
  · intro holds position inside
    apply holds _ _ (steps.drop (position + 1))
    rw [List.getElem_cons_drop, List.take_append_drop]
  · rintro holds before step after rfl
    have here := holds before.length (by simp)
    simpa using here

instance [∀ before step, Decidable (condition before step)] :
    Decidable (Throughout condition steps) :=
  decidable_of_iff _ throughout_iff.symm

end ParameterServer

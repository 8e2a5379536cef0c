/-!
# Outcomes of steps that may fail

What is known of the steps of a computation that has succeeded.
-/

namespace ParameterServer.Outcome

variable {ε α β : Type}

theorem bind_eq_ok
    {first : Except ε α} {next : α → Except ε β} {value : β} :
    (first >>= next) = .ok value ↔
      ∃ middle, first = .ok middle ∧ next middle = .ok value := by
  cases first <;> simp [bind, Except.bind]

theorem map_eq_ok
    {first : Except ε α} {change : α → β} {value : β} :
    change <$> first = .ok value ↔
      ∃ middle, first = .ok middle ∧ change middle = value := by
  cases first <;> simp [Functor.map, Except.map]

theorem map_eq_error
    {first : Except ε α} {change : α → β} {error : ε} :
    change <$> first = .error error ↔ first = .error error := by
  cases first <;> simp [Functor.map, Except.map]

end ParameterServer.Outcome

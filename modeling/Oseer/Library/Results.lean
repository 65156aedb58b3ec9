/-!
# Computations that may fail

What is known when a computation with `Except` has succeeded: each of its parts
has.
-/

namespace Results

variable {ε α β : Type}

theorem bind_ok {first : Except ε α} {second : α → Except ε β} {value : β}
    (result : first.bind second = .ok value) :
    ∃ middle, first = .ok middle ∧ second middle = .ok value := by
  cases first with
  | error fault => cases result
  | ok middle => exact ⟨middle, rfl, result⟩

theorem map_ok {first : Except ε α} {function : α → β} {value : β}
    (result : first.map function = .ok value) :
    ∃ middle, first = .ok middle ∧ function middle = value := by
  cases first with
  | error fault => cases result
  | ok middle => exact ⟨middle, rfl, Except.ok.inj result⟩

theorem map_error {first : Except ε α} {function : α → β} {fault : ε}
    (result : first.map function = .error fault) : first = .error fault := by
  cases first with
  | error other =>
      obtain rfl := Except.error.inj result
      rfl
  | ok value => cases result

theorem bind_agree {first first' : Except ε α} {second second' : α → Except ε β}
    (same : first' = first) (agree : ∀ value, first = .ok value → second' value = second value) :
    first'.bind second' = first.bind second := by
  subst same
  cases first' with
  | error fault => rfl
  | ok value => exact agree value rfl

end Results

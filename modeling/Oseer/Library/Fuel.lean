/-!
# Computations with fuel

A computation that may recurse without end takes the depth that it may reach.  It settles if
from some depth on its outcome does not depend on the depth and is not the failure that stands
for too little of it.
-/

namespace Fuel

variable {ε α β : Type} {stuck : ε} {P : α → Prop} {Q : β → Prop} {runs runs' : Nat → Except ε α}

/-- With enough fuel the outcome is always the same, is not `stuck`, and satisfies `P` if it is a
value. -/
def Settles (stuck : ε) (P : α → Prop) (runs : Nat → Except ε α) : Prop :=
  ∃ enough outcome, outcome ≠ .error stuck ∧ (∀ fuel, enough < fuel → runs fuel = outcome) ∧
    ∀ value, outcome = .ok value → P value

theorem Settles.ok {value : α} (holds : P value) : Settles stuck P fun _ => .ok value := by
  refine ⟨0, .ok value, ?_, fun _ _ => rfl, fun other same => ?_⟩
  · intro same
    cases same
  · exact Except.ok.inj same ▸ holds

theorem Settles.error {failure : ε} (ends : failure ≠ stuck) :
    Settles stuck P fun _ => .error failure := by
  refine ⟨0, .error failure, ?_, fun _ _ => rfl, fun other same => ?_⟩
  · exact fun same => ends (Except.error.inj same)
  · cases same

theorem Settles.mono {P' : α → Prop} (settles : Settles stuck P runs)
    (weaker : ∀ value, P value → P' value) : Settles stuck P' runs := by
  obtain ⟨enough, outcome, ends, isOutcome, holds⟩ := settles
  exact ⟨enough, outcome, ends, isOutcome, fun value same => weaker value (holds value same)⟩

theorem Settles.of_eventually (enough : Nat) (same : ∀ fuel, enough < fuel → runs fuel = runs' fuel)
    (settles : Settles stuck P runs') : Settles stuck P runs := by
  obtain ⟨enough', outcome, ends, isOutcome, holds⟩ := settles
  refine ⟨max enough enough', outcome, ends, fun fuel less => ?_, holds⟩
  rw [same fuel (by omega), isOutcome fuel (by omega)]

theorem Settles.succ (settles : Settles stuck P fun fuel => runs (fuel + 1)) :
    Settles stuck P runs := by
  obtain ⟨enough, outcome, ends, isOutcome, holds⟩ := settles
  refine ⟨enough + 1, outcome, ends, fun fuel less => ?_, holds⟩
  cases fuel with
  | zero => exact absurd less (Nat.not_lt_zero _)
  | succ fuel => exact isOutcome fuel (by omega)

/-- One computation runs after the other. -/
theorem Settles.bind {second : α → Nat → Except ε β} (first : Settles stuck P runs)
    (after : ∀ value, P value → Settles stuck Q (second value)) :
    Settles stuck Q fun fuel => (runs fuel).bind fun value => second value fuel := by
  obtain ⟨enough, outcome, ends, isOutcome, holds⟩ := first
  cases outcome with
  | error failure =>
      have fails : Settles stuck Q fun _ => .error failure := .error fun same => ends (same ▸ rfl)
      apply fails.of_eventually enough
      intro fuel less
      rw [isOutcome fuel less]
      rfl
  | ok value =>
      apply (after value (holds value rfl)).of_eventually enough
      intro fuel less
      rw [isOutcome fuel less]
      rfl

end Fuel

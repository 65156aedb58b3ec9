import Mathlib.Logic.Relation
import Mathlib.Data.List.Basic

/-!
# Taking turns

One of several is at work, and the others queue up.  The one at work goes to the end of the queue,
or leaves, and the first one of the queue takes its place; new ones join the queue at its end.
-/

namespace TakingTurns

/-- Who is at work, who queues up, and how often the place has been given on. -/
structure Turns (τ : Type) where
  current : τ
  queue : List τ
  switches : Nat

variable {τ : Type}

/-- Somebody joins, or the place is given on. -/
inductive Step : Turns τ → Turns τ → Prop
  | join {turns : Turns τ} (entry : τ) :
      Step turns { turns with queue := turns.queue ++ [entry] }
  | rotate {turns : Turns τ} {next : τ} {rest : List τ}
      (shape : turns.queue ++ [turns.current] = next :: rest) :
      Step turns ⟨next, rest, turns.switches + 1⟩
  | leave {turns : Turns τ} {next : τ} {rest : List τ} (shape : turns.queue = next :: rest) :
      Step turns ⟨next, rest, turns.switches + 1⟩

variable {turns turns' first last : Turns τ} {entry : τ} {k : Nat}

/-- The place of somebody in the queue after a step. -/
theorem Step.place (step : Step turns turns') (place : turns.queue[k]? = some entry) :
    turns'.switches = turns.switches ∧ turns'.current = turns.current ∧
        turns'.queue[k]? = some entry ∨
      turns'.switches = turns.switches + 1 ∧
        ((turns'.current :: turns'.queue)[k]? = some entry) := by
  have bound := (List.getElem?_eq_some_iff.mp place).1
  cases step with
  | join other =>
      left
      refine ⟨rfl, rfl, ?_⟩
      rw [List.getElem?_append_left bound]
      exact place
  | rotate shape =>
      right
      refine ⟨rfl, ?_⟩
      rw [← shape, List.getElem?_append_left bound]
      exact place
  | leave shape =>
      right
      refine ⟨rfl, ?_⟩
      rw [← shape]
      exact place

theorem Step.switches_le (step : Step turns turns') : turns.switches ≤ turns'.switches := by
  cases step with
  | join => exact Nat.le_refl _
  | rotate => exact Nat.le_succ _
  | leave => exact Nat.le_succ _

/-- Who is at work stays there until the place is given on. -/
theorem Step.current (step : Step turns turns') (same : turns'.switches = turns.switches) :
    turns'.current = turns.current := by
  cases step with
  | join => rfl
  | rotate => exact absurd same (Nat.succ_ne_self _)
  | leave => exact absurd same (Nat.succ_ne_self _)

theorem switches_le (run : Relation.ReflTransGen Step first last) :
    first.switches ≤ last.switches := by
  induction run with
  | refl => exact Nat.le_refl _
  | tail _ step ih => exact Nat.le_trans ih step.switches_le

/-- Who has a place in the queue comes nearer each time that the place is given on, and is at work
when it has been given on to all before and once more. -/
theorem turn (run : Relation.ReflTransGen Step first last) (place : first.queue[k]? = some entry) :
    (last.switches ≤ first.switches + k →
      last.queue[first.switches + k - last.switches]? = some entry) ∧
    (last.switches = first.switches + k + 1 → last.current = entry) := by
  induction run with
  | refl => exact ⟨fun _ => by simpa using place, fun same => by omega⟩
  | @tail middle last' before step ih =>
      have later := switches_le before
      rcases Nat.lt_or_ge (first.switches + k) middle.switches with gone | waits
      · -- the entry is at work already
        refine ⟨fun early => ?_, fun same => ?_⟩
        · have further := step.switches_le
          omega
        · have further := step.switches_le
          rw [step.current (by omega)]
          exact ih.2 (by omega)
      · rcases step.place (ih.1 waits) with ⟨same, -, still⟩ | ⟨more, nearer⟩
        · rw [same]
          exact ⟨fun _ => still, fun at_end => by omega⟩
        · rw [more]
          refine ⟨fun early => ?_, fun at_end => ?_⟩
          · have split : first.switches + k - middle.switches =
                (first.switches + k - (middle.switches + 1)) + 1 := by omega
            rwa [split, List.getElem?_cons_succ] at nearer
          · have isFirst : first.switches + k - middle.switches = 0 := by omega
            rw [isFirst, List.getElem?_cons_zero] at nearer
            exact Option.some.inj nearer

end TakingTurns

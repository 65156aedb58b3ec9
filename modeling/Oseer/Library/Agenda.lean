import Mathlib.Algebra.Order.BigOperators.Group.Finset
import Mathlib.Data.List.Basic

/-!
# Agendas

Each item of an agenda has a state, and may have a date.  The item with the
earliest date is served while that is not after a limit, and then has its next
state: it may come again at a later date, or never.  What is served, in which
order and how often does not depend on how the earliest item is found.
-/

namespace Agenda

variable {ι σ τ : Type*} [Preorder τ] {date : σ → Option τ} {next : σ → σ} {limit : τ}
  {state state' : ι → σ} {served : List (ι × σ)} {item : ι} {rank : σ → ℕ} {items : Finset ι}

/-- An item with this state is to be served. -/
def IsDue (date : σ → Option τ) (limit : τ) (state : σ) : Prop :=
  ∃ t ∈ date state, t ≤ limit

variable [DecidableEq ι]

/-- The items are served that come first, each with the state it has then, until none is
due. -/
inductive Run (date : σ → Option τ) (next : σ → σ) (limit : τ) :
    (ι → σ) → List (ι × σ) → (ι → σ) → Prop
  | done {state : ι → σ} (rest : ∀ item, ¬ IsDue date limit (state item)) : Run date next limit
      state [] state
  | serve {state state' : ι → σ} {served : List (ι × σ)} (item : ι) (t : τ)
      (isDate : t ∈ date (state item)) (due : t ≤ limit)
      (earliest : ∀ other, ∀ u ∈ date (state other), t ≤ u)
      (later : Run date next limit (Function.update state item (next (state item))) served
        state') :
      Run date next limit state ((item, state item) :: served) state'

/-- An item is served in the states it goes through, until it is not due. -/
theorem Run.of_item (run : Run date next limit state served state') (item : ι) :
    ∃ n, (served.filter fun entry => entry.1 = item).map Prod.snd =
        (List.range n).map (fun k => next^[k] (state item)) ∧
      state' item = next^[n] (state item) ∧
      (∀ k < n, IsDue date limit (next^[k] (state item))) ∧
      ¬ IsDue date limit (state' item) := by
  induction run with
  | done rest => exact ⟨0, rfl, rfl, fun k less => absurd less (Nat.not_lt_zero k), rest item⟩
  | @serve state _ _ first t isDate due earliest later ih =>
      obtain ⟨n, states, last, isDue, notDue⟩ := ih
      by_cases same : first = item
      · subst same
        rw [Function.update_self] at states last isDue
        refine ⟨n + 1, ?_, last, ?_, notDue⟩
        · rw [List.filter_cons_of_pos (by simp), List.map_cons, states, List.range_succ_eq_map,
            List.map_cons, List.map_map]
          rfl
        · intro k less
          cases k with
          | zero => exact ⟨t, isDate, due⟩
          | succ k => exact isDue k (Nat.lt_of_succ_lt_succ less)
      · rw [Function.update_of_ne (Ne.symm same)] at states last isDue
        refine ⟨n, ?_, last, isDue, notDue⟩
        rw [List.filter_cons_of_neg (by simpa using same)]
        exact states

/-- What is kept by the step to the next state holds of the states that are served. -/
theorem Run.forall_served (good : σ → Prop) (good_next : ∀ state, good state → good (next state))
    (run : Run date next limit state served state') (isGood : ∀ item, good (state item)) :
    ∀ entry ∈ served, good entry.2 ∧ IsDue date limit entry.2 := by
  induction run with
  | done => simp
  | @serve state _ _ first t isDate due earliest later ih =>
      intro entry mem
      rcases List.mem_cons.mp mem with rfl | inRest
      · exact ⟨isGood first, t, isDate, due⟩
      · refine ih (fun item => ?_) entry inRest
        by_cases same : item = first
        · subst same
          rw [Function.update_self]
          exact good_next _ (isGood item)
        · rw [Function.update_of_ne same]
          exact isGood item

/-- The dates of an item in a good state go forward. -/
structure Advances (good : σ → Prop) (date : σ → Option τ) (next : σ → σ) : Prop where
  good_next : ∀ state, good state → good (next state)
  later : ∀ state, good state → ∀ t ∈ date state, ∀ u ∈ date (next state), t ≤ u

theorem Advances.update {good : σ → Prop} (advances : Advances good date next)
    (isGood : ∀ item, good (state item)) (first : ι) :
    ∀ item, good (Function.update state first (next (state first)) item) := by
  intro item
  by_cases same : item = first
  · subst same
    rw [Function.update_self]
    exact advances.good_next _ (isGood item)
  · rw [Function.update_of_ne same]
    exact isGood item

theorem Advances.earliest {good : σ → Prop} (advances : Advances good date next) {first : ι}
    (isGood : good (state first)) {s t : τ} (isDate : s ∈ date (state first)) (before : t ≤ s)
    (earliest : ∀ item, ∀ u ∈ date (state item), t ≤ u) :
    ∀ item, ∀ u ∈ date (Function.update state first (next (state first)) item), t ≤ u := by
  intro item u isNext
  by_cases same : item = first
  · subst same
    rw [Function.update_self] at isNext
    exact before.trans (advances.later _ isGood s isDate u isNext)
  · rw [Function.update_of_ne same] at isNext
    exact earliest item u isNext

theorem Run.from_earliest {good : σ → Prop} (advances : Advances good date next)
    (run : Run date next limit state served state') (isGood : ∀ item, good (state item)) {t : τ}
    (earliest : ∀ item, ∀ u ∈ date (state item), t ≤ u) :
    ∀ entry ∈ served, ∀ u ∈ date entry.2, t ≤ u := by
  induction run with
  | done => simp
  | serve first s isDate due before later ih =>
      intro entry mem
      rcases List.mem_cons.mp mem with rfl | inRest
      · exact earliest first
      · apply ih (advances.update isGood first) _ entry inRest
        exact advances.earliest (isGood first) isDate (earliest first s isDate) earliest

theorem Run.sorted {good : σ → Prop} (advances : Advances good date next)
    (run : Run date next limit state served state') (isGood : ∀ item, good (state item)) :
    served.Pairwise fun first second => ∀ t ∈ date first.2, ∀ u ∈ date second.2, t ≤ u := by
  induction run with
  | done => exact .nil
  | serve first s isDate due before later ih =>
      have good' := advances.update isGood first
      refine List.pairwise_cons.mpr ⟨fun entry mem t isFirst => ?_, ih good'⟩
      obtain rfl : s = t := Option.some.inj (isDate.symm.trans isFirst)
      apply later.from_earliest advances good' _ entry mem
      exact advances.earliest (isGood first) isDate le_rfl before

/-- What is left to do for the items. -/
def total (rank : σ → ℕ) (items : Finset ι) (state : ι → σ) : ℕ :=
  ∑ item ∈ items, rank (state item)

theorem total_lt (mem : item ∈ items) (less : rank (next (state item)) < rank (state item)) :
    total rank items (Function.update state item (next (state item))) <
      total rank items state := by
  apply Finset.sum_lt_sum
  · intro other _
    by_cases same : other = item
    · subst same
      rw [Function.update_self]
      exact less.le
    · rw [Function.update_of_ne same]
  · exact ⟨item, mem, by rwa [Function.update_self]⟩

end Agenda

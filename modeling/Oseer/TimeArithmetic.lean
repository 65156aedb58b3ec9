import Mathlib.Logic.Function.Basic
import Oseer.Time

/-!
# Exact times

Programs compute with `time_t` by `time_add` and `time_sub` in place, and compare the results with
`time_cmp`.  The results are exact as long as no sum of nanoseconds is a whole second: `time_add`
carries only when the sum is greater.
-/

namespace Oseer

namespace Time

variable {a b : Time}

/-- The nanoseconds are less than a second. -/
structure Normalised (time : Time) : Prop where
  nonneg : 0 ≤ time.nsec
  lt : time.nsec < N1E9

instance (time : Time) : Decidable time.Normalised :=
  decidable_of_iff (0 ≤ time.nsec ∧ time.nsec < N1E9)
    ⟨fun both => ⟨both.1, both.2⟩, fun normal => ⟨normal.nonneg, normal.lt⟩⟩

/-- The end of a `delay` of the length `t` that starts at `aps`. -/
def delayEnd (aps t : Time) : Time :=
  let sec := aps.sec + t.sec
  let nsec := aps.nsec + t.nsec
  if N1E9 < nsec then ⟨sec + 1, nsec - N1E9⟩ else ⟨sec, nsec⟩

theorem delayEnd_eq (aps t : Time) : delayEnd aps t = timeAdd aps t := rfl

/-- A sum is normalised unless its nanoseconds are a whole second. -/
theorem timeAdd_normalised_iff (first : a.Normalised) (second : b.Normalised) :
    (timeAdd a b).Normalised ↔ a.nsec + b.nsec ≠ N1E9 := by
  obtain ⟨nonneg, lt⟩ := first
  obtain ⟨nonneg', lt'⟩ := second
  unfold timeAdd
  constructor
  · rintro ⟨-, below⟩ whole
    rw [if_neg (by omega)] at below
    dsimp only at below
    omega
  · intro notWhole
    split_ifs with carries
    · exact ⟨by dsimp only; omega, by dsimp only; omega⟩
    · exact ⟨by dsimp only; omega, by dsimp only; omega⟩

theorem timeSub_normalised (first : a.Normalised) (second : b.Normalised) :
    (timeSub a b).Normalised := by
  obtain ⟨nonneg, lt⟩ := first
  obtain ⟨nonneg', lt'⟩ := second
  unfold timeSub
  split_ifs with enough
  · exact ⟨by dsimp only; omega, by dsimp only; omega⟩
  · exact ⟨by dsimp only; omega, by dsimp only; omega⟩

/-- `time_cmp` says how two numbers of nanoseconds are ordered. -/
structure Orders (a b : Time) (first second : Int) : Prop where
  less : timeCmp a b = -1 ↔ first < second
  equal : timeCmp a b = 0 ↔ first = second
  greater : timeCmp a b = 1 ↔ second < first

theorem Normalised.timeCmp_cases (first : a.Normalised) (second : b.Normalised) :
    timeCmp a b = -1 ∧ a.value < b.value ∨ timeCmp a b = 0 ∧ a.value = b.value ∨
      timeCmp a b = 1 ∧ b.value < a.value := by
  obtain ⟨nonneg, lt⟩ := first
  obtain ⟨nonneg', lt'⟩ := second
  unfold timeCmp value
  simp only [N1E9] at *
  split_ifs <;> omega

theorem Normalised.orders (first : a.Normalised) (second : b.Normalised) :
    Orders a b a.value b.value := by
  rcases first.timeCmp_cases second with ⟨result, order⟩ | ⟨result, order⟩ | ⟨result, order⟩
  · constructor <;> rw [result] <;> omega
  · constructor <;> rw [result] <;> omega
  · constructor <;> rw [result] <;> omega

end Time

open Time

/-- An operation on times in variables. -/
inductive TimeOp (ι : Type)
  /-- `time_add ( &a, &b )` -/
  | add (a b : ι)
  /-- `time_sub ( &a, &b )` -/
  | sub (a b : ι)
  /-- `a = b` -/
  | copy (a b : ι)

/-- The times in variables, and the numbers of nanoseconds that they should stand for. -/
structure TimeState (ι : Type) where
  time : ι → Time
  exact : ι → Int

namespace TimeOp

variable {ι : Type} [DecidableEq ι]

/-- One operation. -/
def step (op : TimeOp ι) (state : TimeState ι) : TimeState ι :=
  match op with
  | .add a b =>
      { time := Function.update state.time a (timeAdd (state.time a) (state.time b))
        exact := Function.update state.exact a (state.exact a + state.exact b) }
  | .sub a b =>
      { time := Function.update state.time a (timeSub (state.time a) (state.time b))
        exact := Function.update state.exact a (state.exact a - state.exact b) }
  | .copy a b =>
      { time := Function.update state.time a (state.time b)
        exact := Function.update state.exact a (state.exact b) }

/-- The nanoseconds that are added are no whole second. -/
def Careful (state : TimeState ι) : TimeOp ι → Prop
  | .add a b => (state.time a).nsec + (state.time b).nsec ≠ N1E9
  | _ => True

/-- Every operation of a run meets a condition in the state before it. -/
def Throughout (meets : TimeState ι → TimeOp ι → Prop) : List (TimeOp ι) → TimeState ι → Prop
  | [], _ => True
  | op :: ops, state => meets state op ∧ Throughout meets ops (op.step state)

/-- The states of a run. -/
def states : List (TimeOp ι) → TimeState ι → List (TimeState ι)
  | [], state => [state]
  | op :: ops, state => state :: states ops (op.step state)

end TimeOp

/-- All times are normalised and exact, and `time_cmp` orders any two of them as the exact
numbers. -/
structure TimeState.Right {ι : Type} (state : TimeState ι) : Prop where
  normalised : ∀ name, (state.time name).Normalised
  value : ∀ name, (state.time name).value = state.exact name
  ordered : ∀ first second,
    Orders (state.time first) (state.time second) (state.exact first) (state.exact second)

section Runs

variable {ι : Type} {state : TimeState ι} {op : TimeOp ι} {ops : List (TimeOp ι)}

theorem TimeState.right_of_exact (normalised : ∀ name, (state.time name).Normalised)
    (value : ∀ name, (state.time name).value = state.exact name) : state.Right where
  normalised := normalised
  value := value
  ordered := fun first second => by
    rw [← value first, ← value second]
    exact (normalised first).orders (normalised second)

variable [DecidableEq ι]

theorem TimeState.update_value (value : ∀ name, (state.time name).value = state.exact name)
    {time : Time} {number : Int} (same : time.value = number) (a name : ι) :
    (Function.update state.time a time name).value =
      Function.update state.exact a number name := by
  by_cases isName : name = a
  · subst isName
    rw [Function.update_self, Function.update_self, same]
  · rw [Function.update_of_ne isName, Function.update_of_ne isName, value]

theorem TimeOp.step_value (value : ∀ name, (state.time name).value = state.exact name) :
    ∀ name, ((op.step state).time name).value = (op.step state).exact name := by
  cases op with
  | add a b =>
      apply TimeState.update_value value
      rw [timeAdd_value, value, value]
  | sub a b =>
      apply TimeState.update_value value
      rw [timeSub_value, value, value]
  | copy a b => exact TimeState.update_value value (value b) a

/-- The times stay normalised exactly if the operation is careful. -/
theorem TimeOp.step_normalised_iff (normalised : ∀ name, (state.time name).Normalised) :
    (∀ name, ((op.step state).time name).Normalised) ↔ op.Careful state := by
  have updated : ∀ a time, (∀ name, (Function.update state.time a time name).Normalised) ↔
      time.Normalised := by
    intro a time
    constructor
    · intro all
      have stored := all a
      rwa [Function.update_self] at stored
    · intro isNormalised name
      rw [Function.update_apply]
      split_ifs
      · exact isNormalised
      · exact normalised name
  cases op with
  | add a b => exact (updated a _).trans (timeAdd_normalised_iff (normalised a) (normalised b))
  | sub a b =>
      exact (updated a _).trans
        (iff_of_true (timeSub_normalised (normalised a) (normalised b)) trivial)
  | copy a b => exact (updated a _).trans (iff_of_true (normalised b) trivial)

theorem TimeOp.mem_states (ops : List (TimeOp ι)) (state : TimeState ι) :
    state ∈ TimeOp.states ops state := by
  cases ops <;> simp [TimeOp.states]

/-- A run gives right times exactly if each of its additions is careful. -/
theorem TimeOp.states_right_iff (right : state.Right) :
    (∀ reached ∈ TimeOp.states ops state, reached.Right) ↔
      TimeOp.Throughout (fun state op => op.Careful state) ops state := by
  induction ops generalizing state with
  | nil => simp [TimeOp.states, TimeOp.Throughout, right]
  | cons op ops ih =>
      have rightStep : (op.step state).Right ↔ op.Careful state := by
        rw [← TimeOp.step_normalised_iff right.normalised]
        constructor
        · exact TimeState.Right.normalised
        · intro normalised
          exact TimeState.right_of_exact normalised (TimeOp.step_value right.value)
      unfold TimeOp.states TimeOp.Throughout
      rw [List.forall_mem_cons]
      constructor
      · rintro ⟨-, later⟩
        have next := later _ (TimeOp.mem_states ops (op.step state))
        exact ⟨rightStep.mp next, (ih next).mp later⟩
      · rintro ⟨careful, rest⟩
        exact ⟨right, (ih (rightStep.mpr careful)).mpr rest⟩

/-- Sums are exact unless their nanoseconds are a whole second, and differences always are.  A
sequence of operations gives exact times, in the order of `time_cmp`, if and only if no addition
in it is such a sum. -/
theorem time_exact {start : TimeState ι} (normalised : ∀ name, (start.time name).Normalised)
    (value : ∀ name, (start.time name).value = start.exact name) (ops : List (TimeOp ι)) :
    (∀ a b : Time, a.Normalised → b.Normalised →
      ((timeAdd a b).Normalised ∧ (timeAdd a b).value = a.value + b.value ↔
        a.nsec + b.nsec ≠ N1E9)) ∧
    (∀ a b : Time, a.Normalised → b.Normalised →
      (timeSub a b).Normalised ∧ (timeSub a b).value = a.value - b.value) ∧
    ((∀ reached ∈ TimeOp.states ops start, reached.Right) ↔
      TimeOp.Throughout (fun state op => op.Careful state) ops start) := by
  refine ⟨fun a b first second => ?_, fun a b first second => ?_, ?_⟩
  · rw [and_iff_left timeAdd_value]
    exact timeAdd_normalised_iff first second
  · exact ⟨timeSub_normalised first second, timeSub_value⟩
  · exact TimeOp.states_right_iff (TimeState.right_of_exact normalised value)

def carryStart : TimeState Bool :=
  ⟨fun name => if name then ⟨0, 999999999⟩ else ⟨3, 2⟩,
    fun name => if name then 999999999 else 3000000002⟩

/-- A sum that carries, and the difference that takes it back. -/
theorem time_exact_carry :
    (∀ reached ∈ TimeOp.states [.add false true, .sub false true] carryStart, reached.Right) ∧
      (timeAdd ⟨3, 2⟩ ⟨0, 999999999⟩).Normalised := by
  have exact := time_exact (by decide) (by decide : ∀ name, (carryStart.time name).value =
    carryStart.exact name) [.add false true, .sub false true]
  constructor
  · exact exact.2.2.mpr ⟨by simp [TimeOp.Careful, carryStart, N1E9], trivial, trivial⟩
  · exact ((exact.1 ⟨3, 2⟩ ⟨0, 999999999⟩ (by decide) (by decide)).mpr (by decide)).1

/-- Two half seconds: the sum is the same instant as one second, and is less for `time_cmp`. -/
theorem time_exact_fail : ∃ a b c : Time, a.Normalised ∧ b.Normalised ∧ c.Normalised ∧
    (timeAdd a b).value = c.value ∧ ¬ (timeAdd a b).Normalised ∧ timeCmp (timeAdd a b) c = -1 :=
  ⟨⟨0, 500000000⟩, ⟨0, 500000000⟩, ⟨1, 0⟩, by decide, by decide, by decide, by decide, by decide,
    by decide⟩

end Runs

end Oseer

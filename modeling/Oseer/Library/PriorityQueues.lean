import Mathlib.Data.List.Basic
import Mathlib.Logic.Function.Iterate

/-!
# Queues by priority

Entries stand in queues with names.  Some queues are levels, one for each priority, for those that
can run; one entry runs.  The entry to run next is the first one of the greatest level that is not
empty, and an entry that is made to wait for its turn goes to the end of its level.
-/

namespace PriorityQueues

/-- The queues, the priorities and the entry that runs. -/
structure Dispatcher (τ κ : Type) where
  queues : κ → List τ
  prio : τ → Nat
  running : Option τ

namespace Dispatcher

variable {τ κ : Type}

/-- An entry leaves the queues. -/
def remove [DecidableEq τ] (entry : τ) (dispatcher : Dispatcher τ κ) : Dispatcher τ κ :=
  { dispatcher with queues := fun queue => (dispatcher.queues queue).erase entry }

/-- An entry gets a priority. -/
def assign [DecidableEq τ] (entry : τ) (prio : Nat) (dispatcher : Dispatcher τ κ) : Dispatcher τ κ :=
  { dispatcher with prio := Function.update dispatcher.prio entry prio }

/-- The greatest level below a bound that is not empty. -/
def highest (level : Nat → κ) (dispatcher : Dispatcher τ κ) : Nat → Option Nat
  | 0 => none
  | count + 1 =>
      if dispatcher.queues (level count) = [] then highest level dispatcher count else some count

variable [DecidableEq κ]

/-- An entry goes to the end of a queue. -/
def append (queue : κ) (entry : τ) (dispatcher : Dispatcher τ κ) : Dispatcher τ κ :=
  { dispatcher with
    queues := Function.update dispatcher.queues queue (dispatcher.queues queue ++ [entry]) }

/-- An entry goes to the end of its level. -/
def arrive (level : Nat → κ) (entry : τ) (dispatcher : Dispatcher τ κ) : Dispatcher τ κ :=
  dispatcher.append (level (dispatcher.prio entry)) entry

/-- The first entry of a queue goes to its level. -/
def wake (level : Nat → κ) (queue : κ) (dispatcher : Dispatcher τ κ) : Dispatcher τ κ :=
  match dispatcher.queues queue with
  | [] => dispatcher
  | entry :: rest =>
      { dispatcher with queues := Function.update dispatcher.queues queue rest }.arrive level entry

/-- All entries of a queue go to their levels, one after the other. -/
def wakeAll (level : Nat → κ) (queue : κ) (dispatcher : Dispatcher τ κ) : Dispatcher τ κ :=
  (wake level queue)^[(dispatcher.queues queue).length] dispatcher

/-- The entry that runs does so no longer. -/
def quit (dispatcher : Dispatcher τ κ) : Dispatcher τ κ := { dispatcher with running := none }

/-- The entry that runs goes to a queue. -/
def sleep (queue : κ) (dispatcher : Dispatcher τ κ) : Dispatcher τ κ :=
  match dispatcher.running with
  | none => dispatcher
  | some entry => (dispatcher.append queue entry).quit

/-- The entry that runs goes to its level. -/
def preempt (level : Nat → κ) (dispatcher : Dispatcher τ κ) : Dispatcher τ κ :=
  match dispatcher.running with
  | none => dispatcher
  | some entry => (dispatcher.arrive level entry).quit

/-- The first entry of a queue runs. -/
def start (queue : κ) (dispatcher : Dispatcher τ κ) : Dispatcher τ κ :=
  match dispatcher.queues queue with
  | [] => dispatcher
  | entry :: rest =>
      { dispatcher with
        queues := Function.update dispatcher.queues queue rest
        running := some entry }

/-- The entry that runs goes on, unless a greater level has an entry. -/
def dispatch (level : Nat → κ) (count : Nat) (dispatcher : Dispatcher τ κ) : Dispatcher τ κ :=
  match highest level dispatcher count with
  | none => dispatcher
  | some top =>
      if dispatcher.running.any fun entry => top ≤ dispatcher.prio entry then dispatcher
      else (dispatcher.preempt level).start (level top)

variable {level : Nat → κ} {dispatcher : Dispatcher τ κ} {entry other : τ} {queue : κ}
  {count top : Nat} {front : List τ}

section Prio

@[simp]
theorem append_prio : (dispatcher.append queue entry).prio = dispatcher.prio := rfl

@[simp]
theorem arrive_prio : (dispatcher.arrive level entry).prio = dispatcher.prio := rfl

@[simp]
theorem wake_prio : (dispatcher.wake level queue).prio = dispatcher.prio := by
  unfold wake
  split <;> rfl

@[simp]
theorem preempt_prio : (dispatcher.preempt level).prio = dispatcher.prio := by
  unfold preempt
  split <;> rfl

@[simp]
theorem sleep_prio : (dispatcher.sleep queue).prio = dispatcher.prio := by
  unfold sleep
  split <;> rfl

@[simp]
theorem start_prio : (dispatcher.start queue).prio = dispatcher.prio := by
  unfold start
  split <;> rfl

@[simp]
theorem dispatch_prio : (dispatcher.dispatch level count).prio = dispatcher.prio := by
  unfold dispatch
  split
  · rfl
  · split
    · rfl
    · rw [start_prio, preempt_prio]

end Prio

@[simp]
theorem wake_running : (dispatcher.wake level queue).running = dispatcher.running := by
  unfold wake
  split <;> rfl

@[simp]
theorem wakeAll_running : (dispatcher.wakeAll level queue).running = dispatcher.running := by
  unfold wakeAll
  generalize (dispatcher.queues queue).length = times
  induction times generalizing dispatcher with
  | zero => rfl
  | succ times ih => rw [Function.iterate_succ_apply, ih, wake_running]

@[simp]
theorem sleep_running : (dispatcher.sleep queue).running = none := by
  unfold sleep
  split
  · assumption
  · rfl

@[simp]
theorem preempt_running : (dispatcher.preempt level).running = none := by
  unfold preempt
  split
  · assumption
  · rfl

/-- A queue that is not a level is shorter by its first entry. -/
theorem wake_queue {rest : List τ} (place : dispatcher.queues queue = entry :: rest)
    (apart : ∀ p, level p ≠ queue) : (dispatcher.wake level queue).queues queue = rest := by
  unfold wake
  rw [place]
  change Function.update (Function.update dispatcher.queues queue rest) (level _) _ queue = rest
  rw [Function.update_of_ne (apart _).symm, Function.update_self]

section Highest

omit [DecidableEq κ] in
theorem highest_none (empty : ∀ p < count, dispatcher.queues (level p) = []) :
    highest level dispatcher count = none := by
  induction count with
  | zero => rfl
  | succ count ih =>
      unfold highest
      rw [if_pos (empty count (Nat.lt_succ_self count))]
      apply ih
      intro p below
      exact empty p (Nat.lt_succ_of_lt below)

omit [DecidableEq κ] in
theorem highest_some (below : top < count) (filled : dispatcher.queues (level top) ≠ [])
    (above : ∀ p < count, top < p → dispatcher.queues (level p) = []) :
    highest level dispatcher count = some top := by
  induction count with
  | zero => exact absurd below (Nat.not_lt_zero _)
  | succ count ih =>
      unfold highest
      rcases Nat.lt_succ_iff_lt_or_eq.mp below with less | same
      · rw [if_pos (above count (Nat.lt_succ_self count) less)]
        apply ih less
        intro p under greater
        exact above p (Nat.lt_succ_of_lt under) greater
      · subst same
        rw [if_neg filled]

omit [DecidableEq κ] in
theorem highest_filled (greatest : highest level dispatcher count = some top) :
    dispatcher.queues (level top) ≠ [] := by
  induction count with
  | zero => cases greatest
  | succ count ih =>
      unfold highest at greatest
      split at greatest
      · exact ih greatest
      · obtain rfl := Option.some.inj greatest
        assumption

/-- When no entry runs, the first one of the greatest level does next. -/
theorem dispatch_idle {rest : List τ} (idle : dispatcher.running = none)
    (greatest : highest level dispatcher count = some top)
    (place : dispatcher.queues (level top) = entry :: rest) :
    dispatcher.dispatch level count = { dispatcher with
      queues := Function.update dispatcher.queues (level top) rest
      running := some entry } := by
  have stays : dispatcher.preempt level = dispatcher := by
    unfold preempt
    rw [idle]
  unfold dispatch
  rw [greatest, idle]
  dsimp only
  rw [if_neg (by simp), stays]
  unfold start
  rw [place]

end Highest

section Ahead

/-- The entry stands in its level, behind the given ones. -/
def Ahead (level : Nat → κ) (p : Nat) (entry : τ) (front : List τ)
    (dispatcher : Dispatcher τ κ) : Prop :=
  ∃ back, dispatcher.queues (level p) = front ++ entry :: back

variable {p : Nat}

theorem Ahead.append (ahead : dispatcher.Ahead level p entry front) (queue : κ) (other : τ) :
    (dispatcher.append queue other).Ahead level p entry front := by
  obtain ⟨back, place⟩ := ahead
  by_cases same : level p = queue
  · refine ⟨back ++ [other], ?_⟩
    change Function.update dispatcher.queues queue _ (level p) = _
    rw [same, Function.update_self, ← same, place]
    simp
  · refine ⟨back, ?_⟩
    change Function.update dispatcher.queues queue _ (level p) = _
    rw [Function.update_of_ne same, place]

theorem Ahead.wake (ahead : dispatcher.Ahead level p entry front) (apart : queue ≠ level p) :
    (dispatcher.wake level queue).Ahead level p entry front := by
  unfold Dispatcher.wake
  split
  · exact ahead
  · obtain ⟨back, place⟩ := ahead
    apply Ahead.append
    refine ⟨back, ?_⟩
    change Function.update dispatcher.queues queue _ (level p) = _
    rw [Function.update_of_ne apart.symm, place]

theorem Ahead.wakeAll (ahead : dispatcher.Ahead level p entry front) (apart : queue ≠ level p) :
    (dispatcher.wakeAll level queue).Ahead level p entry front := by
  unfold Dispatcher.wakeAll
  generalize (dispatcher.queues queue).length = times
  induction times generalizing dispatcher with
  | zero => exact ahead
  | succ times ih =>
      rw [Function.iterate_succ_apply]
      exact ih (ahead.wake apart)

theorem Ahead.sleep (ahead : dispatcher.Ahead level p entry front) (queue : κ) :
    (dispatcher.sleep queue).Ahead level p entry front := by
  unfold Dispatcher.sleep
  split
  · exact ahead
  · exact ahead.append queue _

theorem Ahead.preempt (ahead : dispatcher.Ahead level p entry front) :
    (dispatcher.preempt level).Ahead level p entry front := by
  unfold Dispatcher.preempt
  split
  · exact ahead
  · exact ahead.append _ _

omit [DecidableEq κ] in
/-- When another entry leaves, no more entries stand before. -/
theorem Ahead.remove [DecidableEq τ] (ahead : dispatcher.Ahead level p entry front) (different : other ≠ entry) :
    ∃ front', List.Sublist front' front ∧ (dispatcher.remove other).Ahead level p entry front' := by
  obtain ⟨back, place⟩ := ahead
  have erased : (dispatcher.remove other).queues (level p) = (front ++ entry :: back).erase other :=
    congrArg (List.erase · other) place
  by_cases mem : other ∈ front
  · refine ⟨front.erase other, List.erase_sublist, back, ?_⟩
    rw [erased, List.erase_append_left _ mem]
  · refine ⟨front, List.Sublist.refl front, back.erase other, ?_⟩
    rw [erased, List.erase_append_right _ mem, List.erase_cons_tail]
    simpa using different.symm

theorem preempt_filled (filled : dispatcher.queues queue ≠ []) :
    (dispatcher.preempt level).queues queue ≠ [] := by
  unfold preempt
  split
  · exact filled
  · rename_i entry _
    by_cases same : queue = level (dispatcher.prio entry)
    · change Function.update dispatcher.queues _ _ queue ≠ []
      rw [same, Function.update_self]
      simp
    · change Function.update dispatcher.queues _ _ queue ≠ []
      rwa [Function.update_of_ne same]

theorem mem_preempt (mem : other ∈ (dispatcher.preempt level).queues queue) :
    other ∈ dispatcher.queues queue ∨
      dispatcher.running = some other ∧ queue = level (dispatcher.prio other) := by
  unfold preempt at mem
  split at mem
  · exact .inl mem
  · rename_i entry runs
    change other ∈ Function.update dispatcher.queues _ _ queue at mem
    by_cases same : queue = level (dispatcher.prio entry)
    · rw [same, Function.update_self, List.mem_append, List.mem_singleton, ← same] at mem
      rcases mem with old | isEntry
      · exact .inl old
      · exact .inr (isEntry ▸ ⟨runs, same⟩)
    · rw [Function.update_of_ne same] at mem
      exact .inl mem

/-- What the choice of the entry to run means for one in its level: it is chosen, or the first one
before it, or its level is left alone. -/
theorem Ahead.dispatch (ahead : dispatcher.Ahead level p entry front) (count : Nat) :
    (dispatcher.dispatch level count).running = some entry ∨
      (∃ first front', front = first :: front' ∧
        (dispatcher.dispatch level count).running = some first ∧
        (dispatcher.dispatch level count).Ahead level p entry front') ∨
      (dispatcher.dispatch level count).Ahead level p entry front ∧
        ((dispatcher.dispatch level count).running = dispatcher.running ∨
          ∃ q first, level q ≠ level p ∧
            (dispatcher.dispatch level count).running = some first ∧
            (first ∈ dispatcher.queues (level q) ∨
              dispatcher.running = some first ∧ level q = level (dispatcher.prio first))) := by
  unfold Dispatcher.dispatch
  split
  · exact .inr (.inr ⟨ahead, .inl rfl⟩)
  · rename_i top greatest
    split
    · exact .inr (.inr ⟨ahead, .inl rfl⟩)
    · have filled : (dispatcher.preempt level).queues (level top) ≠ [] :=
        preempt_filled (highest_filled greatest)
      obtain ⟨back, place⟩ := ahead.preempt
      unfold Dispatcher.start
      by_cases same : level top = level p
      · rw [same, place]
        cases front with
        | nil => exact .inl rfl
        | cons first front => exact .inr (.inl ⟨first, front, rfl, rfl, back, Function.update_self ..⟩)
      · right
        right
        split
        · rename_i empty
          exact absurd empty filled
        · rename_i first rest shape
          refine ⟨⟨back, ?_⟩, .inr ⟨top, first, same, rfl, ?_⟩⟩
          · change Function.update (dispatcher.preempt level).queues (level top) rest (level p) = _
            rw [Function.update_of_ne (Ne.symm same), place]
          · apply mem_preempt
            rw [shape]
            exact List.mem_cons_self

end Ahead

end Dispatcher

end PriorityQueues

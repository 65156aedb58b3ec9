import Mathlib.Algebra.BigOperators.Ring.Finset
import Mathlib.Algebra.Order.BigOperators.Group.Finset
import Oseer.Library.MonitorRooms

/-!
# Units of semaphores

Threads run a program in steps, and a step may wait for a semaphore or post one.  A thread that
finds no unit queues up, and takes no step until a post lets it pass.  What the threads hold of a
semaphore, told by where they are in the program, and what is left of it always add up to what the
program has supplied.
-/

namespace SemaphoreUnits

open MonitorRooms (Queued)

/-- The values of semaphores, and the threads that wait for them. -/
structure Semaphores (σ τ : Type) where
  value : σ → Int
  waiting : σ → List τ

/-- A call of a thread. -/
inductive Call (σ : Type)
  | wait (sem : σ)
  | post (sem : σ)
deriving DecidableEq

namespace Semaphores

variable {σ τ : Type} [DecidableEq σ]

/-- A thread takes a unit, or queues up. -/
def wait (sem : σ) (thread : τ) (semaphores : Semaphores σ τ) : Semaphores σ τ :=
  if 0 < semaphores.value sem then
    { semaphores with
      value := Function.update semaphores.value sem (semaphores.value sem - 1) }
  else
    { semaphores with
      waiting := Function.update semaphores.waiting sem (semaphores.waiting sem ++ [thread]) }

/-- The first thread of the queue passes, or the unit is kept. -/
def post (sem : σ) (semaphores : Semaphores σ τ) : Semaphores σ τ :=
  match semaphores.waiting sem with
  | [] =>
      { semaphores with
        value := Function.update semaphores.value sem (semaphores.value sem + 1) }
  | _ :: rest => { semaphores with waiting := Function.update semaphores.waiting sem rest }

/-- A step of a thread, as far as the semaphores go. -/
def call (thread : τ) : Option (Call σ) → Semaphores σ τ → Semaphores σ τ
  | none, semaphores => semaphores
  | some (.wait sem), semaphores => semaphores.wait sem thread
  | some (.post sem), semaphores => semaphores.post sem

/-- Threads wait only for units that are not there, and nobody waits twice. -/
structure Orderly (semaphores : Semaphores σ τ) : Prop extends Queued semaphores.waiting where
  nonneg : ∀ sem, 0 ≤ semaphores.value sem
  free : ∀ sem, 0 < semaphores.value sem → semaphores.waiting sem = []

/-- The units that are left, less those that threads wait for. -/
def balance (sem : σ) (semaphores : Semaphores σ τ) : Int :=
  semaphores.value sem - (semaphores.waiting sem).length

/-- What a call changes in the balance of a semaphore. -/
def change (sem : σ) : Option (Call σ) → Int
  | none => 0
  | some (.wait other) => if sem = other then -1 else 0
  | some (.post other) => if sem = other then 1 else 0

variable {semaphores : Semaphores σ τ} {sem other : σ} {thread entry : τ} {rest : List τ}

theorem post_nil (none : semaphores.waiting sem = []) :
    semaphores.post sem = { semaphores with
      value := Function.update semaphores.value sem (semaphores.value sem + 1) } := by
  unfold post
  rw [none]

theorem post_cons (shape : semaphores.waiting sem = thread :: rest) :
    semaphores.post sem = { semaphores with
      waiting := Function.update semaphores.waiting sem rest } := by
  unfold post
  rw [shape]

theorem wait_balance : (semaphores.wait sem thread).balance other =
    semaphores.balance other + if other = sem then -1 else 0 := by
  unfold wait balance
  by_cases same : other = sem
  · subst same
    split
    · simp
      omega
    · simp
      omega
  · split <;> simp [same]

theorem post_balance : (semaphores.post sem).balance other =
    semaphores.balance other + if other = sem then 1 else 0 := by
  cases shape : semaphores.waiting sem with
  | nil =>
      rw [post_nil shape]
      by_cases same : other = sem
      · subst same
        simp [balance]
        omega
      · simp [balance, same]
  | cons first rest =>
      rw [post_cons shape]
      by_cases same : other = sem
      · subst same
        simp [balance, shape]
        omega
      · simp [balance, same]

theorem call_balance (call : Option (Call σ)) :
    (semaphores.call thread call).balance sem = semaphores.balance sem + change sem call := by
  cases call with
  | none => exact (Int.add_zero _).symm
  | some called =>
      cases called with
      | wait other => exact wait_balance
      | post other => exact post_balance

/-- Who waits after a call has waited before, or has just called. -/
theorem mem_waiting_call {call : Option (Call σ)}
    (mem : entry ∈ (semaphores.call thread call).waiting sem) :
    entry ∈ semaphores.waiting sem ∨ entry = thread ∧ call = some (.wait sem) := by
  cases call with
  | none => exact .inl mem
  | some called =>
      cases called with
      | wait other =>
          change entry ∈ (semaphores.wait other thread).waiting sem at mem
          unfold wait at mem
          split at mem
          · exact .inl mem
          · dsimp only at mem
            by_cases same : sem = other
            · subst same
              rw [Function.update_self, List.mem_append, List.mem_singleton] at mem
              exact mem.imp id fun isThread => ⟨isThread, rfl⟩
            · rw [Function.update_of_ne same] at mem
              exact .inl mem
      | post other =>
          left
          change entry ∈ (semaphores.post other).waiting sem at mem
          cases shape : semaphores.waiting other with
          | nil => rwa [post_nil shape] at mem
          | cons first rest =>
              rw [post_cons shape] at mem
              dsimp only at mem
              by_cases same : sem = other
              · subst same
                rw [Function.update_self] at mem
                rw [shape]
                exact .tail _ mem
              · rwa [Function.update_of_ne same] at mem

theorem Orderly.wait (orderly : semaphores.Orderly)
    (idle : ∀ other, thread ∉ semaphores.waiting other) : (semaphores.wait sem thread).Orderly := by
  unfold Semaphores.wait
  split
  next free =>
    refine ⟨orderly.toQueued, fun other => ?_, fun other positive => ?_⟩
    all_goals
      dsimp only at *
      by_cases same : other = sem
    · subst same
      rw [Function.update_self]
      omega
    · rw [Function.update_of_ne same]
      exact orderly.nonneg other
    · subst same
      exact orderly.free other free
    · rw [Function.update_of_ne same] at positive
      exact orderly.free other positive
  next taken =>
    refine ⟨orderly.push idle, orderly.nonneg, fun other positive => ?_⟩
    by_cases same : other = sem
    · subst same
      exact absurd positive taken
    · dsimp only
      rw [Function.update_of_ne same]
      exact orderly.free other positive

theorem Orderly.post (orderly : semaphores.Orderly) : (semaphores.post sem).Orderly := by
  cases shape : semaphores.waiting sem with
  | nil =>
      rw [post_nil shape]
      refine ⟨orderly.toQueued, fun other => ?_, fun other positive => ?_⟩
      all_goals
        dsimp only at *
        by_cases same : other = sem
      · subst same
        have nonneg := orderly.nonneg other
        rw [Function.update_self]
        omega
      · rw [Function.update_of_ne same]
        exact orderly.nonneg other
      · subst same
        exact shape
      · rw [Function.update_of_ne same] at positive
        exact orderly.free other positive
  | cons first rest =>
      rw [post_cons shape]
      refine ⟨(orderly.pop shape).1, orderly.nonneg, fun other positive => ?_⟩
      have none := orderly.free other positive
      by_cases same : other = sem
      · subst same
        rw [none] at shape
        cases shape
      · dsimp only
        rwa [Function.update_of_ne same]

theorem Orderly.call (orderly : semaphores.Orderly)
    (idle : ∀ other, thread ∉ semaphores.waiting other) (call : Option (Call σ)) :
    (semaphores.call thread call).Orderly := by
  cases call with
  | none => exact orderly
  | some called =>
      cases called with
      | wait sem => exact orderly.wait idle
      | post sem => exact orderly.post

end Semaphores

open Semaphores

section Programs

variable {σ τ P : Type} [DecidableEq σ]

/-- What each thread does next in a program: the call, and the state of the program behind it. -/
abbrev Next (σ τ P : Type) := τ → P → Option (Option (Call σ) × P)

/-- A thread that waits for nothing takes its next step. -/
inductive Step (next : Next σ τ P) : Semaphores σ τ × P → Semaphores σ τ × P → Prop
  | take {semaphores : Semaphores σ τ} {program program' : P} {call : Option (Call σ)} (thread : τ)
      (free : ∀ sem, thread ∉ semaphores.waiting sem)
      (takes : next thread program = some (call, program')) :
      Step next (semaphores, program) (semaphores.call thread call, program')

/-- What a program says about its threads: which of them are behind a wait for a semaphore and
have done nothing since, how many units each of them holds, and how many there are in all. -/
structure Accounts (σ τ P : Type) where
  threads : Finset τ
  stopped : σ → P → τ → Prop
  held : σ → P → τ → Int
  supply : σ → P → Int

/-- The steps of the program agree with the accounts. -/
structure Accounts.Follows (accounts : Accounts σ τ P) (next : Next σ τ P) : Prop where
  mine : ∀ {thread program call program'}, next thread program = some (call, program') →
    thread ∈ accounts.threads
  apart : ∀ {thread program call program'}, next thread program = some (call, program') →
    ∀ other, other ≠ thread → ∀ sem, accounts.held sem program' other = accounts.held sem program other ∧
      (accounts.stopped sem program other → accounts.stopped sem program' other)
  stops : ∀ {thread program sem program'}, next thread program = some (some (.wait sem), program') →
    accounts.stopped sem program' thread
  pays : ∀ {thread program call program'}, next thread program = some (call, program') → ∀ sem,
    change sem call + accounts.held sem program' thread + accounts.supply sem program =
      accounts.held sem program thread + accounts.supply sem program'

/-- The accounts of a state: nobody waits who is not at the wait, and all units are accounted
for. -/
structure Accounts.Sound (accounts : Accounts σ τ P) (semaphores : Semaphores σ τ) (program : P) :
    Prop where
  orderly : semaphores.Orderly
  waits : ∀ sem, ∀ thread ∈ semaphores.waiting sem,
    thread ∈ accounts.threads ∧ accounts.stopped sem program thread
  balanced : ∀ sem, semaphores.balance sem + ∑ thread ∈ accounts.threads, accounts.held sem program thread =
    accounts.supply sem program

variable {accounts : Accounts σ τ P} {next : Next σ τ P} {semaphores : Semaphores σ τ}
  {program program' : P} {sem : σ} {thread : τ} {call : Option (Call σ)}
  {state state' : Semaphores σ τ × P}

theorem Accounts.Sound.take (sound : accounts.Sound semaphores program) (follows : accounts.Follows next)
    (idle : ∀ sem, thread ∉ semaphores.waiting sem)
    (takes : next thread program = some (call, program')) :
    accounts.Sound (semaphores.call thread call) program' := by
  refine ⟨sound.orderly.call idle call, fun sem entry mem => ?_, fun sem => ?_⟩
  · rcases mem_waiting_call mem with old | ⟨rfl, rfl⟩
    · have different : entry ≠ thread := fun same => idle sem (same ▸ old)
      obtain ⟨known, stopped⟩ := sound.waits sem entry old
      exact ⟨known, (follows.apart takes entry different sem).2 stopped⟩
    · exact ⟨follows.mine takes, follows.stops takes⟩
  · have balanced := sound.balanced sem
    have pays := follows.pays takes sem
    have mem := follows.mine takes
    classical
    have others : ∑ other ∈ accounts.threads.erase thread, accounts.held sem program' other =
        ∑ other ∈ accounts.threads.erase thread, accounts.held sem program other :=
      Finset.sum_congr rfl fun other inRest =>
        (follows.apart takes other (Finset.ne_of_mem_erase inRest) sem).1
    have before := Finset.add_sum_erase accounts.threads (accounts.held sem program) mem
    have after := Finset.add_sum_erase accounts.threads (accounts.held sem program') mem
    rw [call_balance]
    omega

theorem Accounts.Sound.step (sound : accounts.Sound state.1 state.2) (follows : accounts.Follows next)
    (step : Step next state state') : accounts.Sound state'.1 state'.2 := by
  cases step with
  | take thread free takes => exact sound.take follows free takes

/-- The units that a thread holds and does not wait for. -/
noncomputable def Accounts.own (accounts : Accounts σ τ P) (semaphores : Semaphores σ τ) (program : P)
    (sem : σ) (thread : τ) : Int :=
  open Classical in
  accounts.held sem program thread - if thread ∈ semaphores.waiting sem then 1 else 0

omit [DecidableEq σ] in
/-- The value of a semaphore and what the threads own of it are the supply. -/
theorem Accounts.Sound.value_add_own (sound : accounts.Sound semaphores program) (sem : σ) :
    semaphores.value sem + ∑ thread ∈ accounts.threads, accounts.own semaphores program sem thread =
      accounts.supply sem program := by
  classical
  have balanced := sound.balanced sem
  have waiting : ∑ thread ∈ accounts.threads,
      (if thread ∈ semaphores.waiting sem then (1 : Int) else 0) =
        (semaphores.waiting sem).length := by
    have isQueue : accounts.threads.filter (· ∈ semaphores.waiting sem) =
        (semaphores.waiting sem).toFinset := by
      ext thread
      rw [Finset.mem_filter, List.mem_toFinset]
      exact ⟨And.right, fun mem => ⟨(sound.waits sem thread mem).1, mem⟩⟩
    rw [Finset.sum_boole, isQueue, List.toFinset_card_of_nodup (sound.orderly.nodup sem)]
  unfold own
  rw [Finset.sum_sub_distrib, waiting]
  unfold balance at balanced
  omega

omit [DecidableEq σ] in
/-- The only unit of a semaphore is owned by one thread. -/
theorem Accounts.Sound.alone (sound : accounts.Sound semaphores program)
    (nonneg : ∀ thread ∈ accounts.threads, 0 ≤ accounts.own semaphores program sem thread)
    (single : accounts.supply sem program = 1) {other : τ} (mem : thread ∈ accounts.threads)
    (owns : 1 ≤ accounts.own semaphores program sem thread) (otherMem : other ∈ accounts.threads)
    (otherOwns : 1 ≤ accounts.own semaphores program sem other) : other = thread := by
  classical
  by_contra different
  have units := sound.value_add_own sem
  have left := sound.orderly.nonneg sem
  have inRest : other ∈ accounts.threads.erase thread := Finset.mem_erase.mpr ⟨different, otherMem⟩
  have split := Finset.add_sum_erase accounts.threads (accounts.own semaphores program sem) mem
  have rest : accounts.own semaphores program sem other ≤
      ∑ entry ∈ accounts.threads.erase thread, accounts.own semaphores program sem entry :=
    Finset.single_le_sum (fun entry inErased => nonneg entry (Finset.mem_of_mem_erase inErased))
      inRest
  omega

end Programs

/-- A sum over threads after the state of one of them has changed. -/
theorem sum_update {τ α : Type} [DecidableEq τ] {threads : Finset τ} {thread : τ}
    (mem : thread ∈ threads) (state : τ → α) (new : α) (weight : α → Int) :
    ∑ other ∈ threads, weight (Function.update state thread new other) =
      ∑ other ∈ threads, weight (state other) - weight (state thread) + weight new := by
  have before := Finset.add_sum_erase threads (fun other => weight (state other)) mem
  have after := Finset.add_sum_erase threads
    (fun other => weight (Function.update state thread new other)) mem
  have others : ∑ other ∈ threads.erase thread, weight (Function.update state thread new other) =
      ∑ other ∈ threads.erase thread, weight (state other) :=
    Finset.sum_congr rfl fun other inRest => by
      rw [Function.update_of_ne (Finset.ne_of_mem_erase inRest)]
  rw [Function.update_self] at after
  omega

end SemaphoreUnits

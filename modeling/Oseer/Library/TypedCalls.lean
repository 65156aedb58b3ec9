import Mathlib.Data.List.Basic
import Mathlib.Logic.Function.Iterate

/-!
# Receivers that are called

Receivers of one kind of element, or of any kind, wait for a queue of elements.  The first one
that waits is called when an element is put in the queue, and it takes an element later, when
other receivers may have come before it.
-/

namespace TypedCalls

variable {κ : Type*} [DecidableEq κ]

/-- What a receiver of one kind, or of any kind, can take. -/
def Accepts (filter : Option κ) (kind : κ) : Prop := ∀ wanted ∈ filter, wanted = kind

/-- A receiver takes the first element that it accepts. -/
def take (filter : Option κ) (queue : List κ) : List κ :=
  match filter with
  | none => queue.tail
  | some kind => queue.erase kind

/-- The queue holds no element of a kind when the receivers of the kind have taken theirs, and
the receivers of any kind after them. -/
def Served (kind : κ) (typed any : Nat) (queue : List κ) : Prop :=
  kind ∉ ((fun rest : List κ => rest.erase kind)^[typed] queue).drop any

/-- The receivers that are called serve a kind. -/
def Covered (kind : κ) (calls : List (Option κ)) (queue : List κ) : Prop :=
  Served kind (calls.count (some kind)) (calls.count none) queue

/-- All that the receivers that wait could take is served by those that are called. -/
def Safe (queue : List κ) (calls waiting : List (Option κ)) : Prop :=
  ∀ filter ∈ waiting, ∀ kind, Accepts filter kind → Covered kind calls queue

/-- An element that is put at the end is left to nobody behind the first receiver that waits,
when the first one is called: the receivers of its kind, or all that accept it, are more than the
elements that they may take. -/
def Answered (queue : List κ) (calls : List (Option κ)) (first : Option κ)
    (later : List (Option κ)) (kind : κ) : Prop :=
  ∀ filter ∈ later, Accepts filter kind →
    queue.count kind < (first :: calls).count (some kind) ∨
    queue.length < (first :: calls).count (some kind) + (first :: calls).count none

variable {kind other : κ} {typed typed' any any' : Nat} {queue : List κ}
  {calls calls' waiting waiting' : List (Option κ)} {filter : Option κ}

section Served

theorem served_nil : Served kind typed any [] := by
  unfold Served
  have same : (fun rest : List κ => rest.erase kind)^[typed] [] = [] :=
    Function.iterate_fixed rfl typed
  rw [same, List.drop_nil]
  exact List.not_mem_nil

theorem served_typed : Served kind (typed + 1) any (kind :: queue) ↔ Served kind typed any queue := by
  unfold Served
  rw [Function.iterate_succ_apply, List.erase_cons_head]

theorem served_any : Served kind 0 (any + 1) (kind :: queue) ↔ Served kind 0 any queue := Iff.rfl

theorem not_served : ¬ Served kind 0 0 (kind :: queue) :=
  fun served => served List.mem_cons_self

theorem served_other (different : other ≠ kind) :
    Served kind typed any (other :: queue) ↔ Served kind typed (any - 1) queue := by
  have kept : (fun rest : List κ => rest.erase kind)^[typed] (other :: queue) =
      other :: (fun rest : List κ => rest.erase kind)^[typed] queue := by
    induction typed generalizing queue with
    | zero => rfl
    | succ typed ih =>
        rw [Function.iterate_succ_apply, Function.iterate_succ_apply,
          List.erase_cons_tail (by simpa using different), ih]
  unfold Served
  rw [kept]
  cases any with
  | zero => simp [Ne.symm different]
  | succ any => rfl

/-- More receivers serve as much. -/
theorem Served.mono (served : Served kind typed any queue) (more : typed ≤ typed')
    (more' : any ≤ any') : Served kind typed' any' queue := by
  induction queue generalizing typed typed' any any' with
  | nil => exact served_nil
  | cons first queue ih =>
      by_cases same : first = kind
      · subst same
        cases typed with
        | succ typed =>
            obtain ⟨typed', rfl⟩ := Nat.exists_eq_add_one_of_ne_zero (Nat.ne_zero_of_lt more)
            exact served_typed.mpr (ih (served_typed.mp served) (Nat.le_of_succ_le_succ more) more')
        | zero =>
            cases any with
            | zero => exact absurd served not_served
            | succ any =>
                obtain ⟨any', rfl⟩ := Nat.exists_eq_add_one_of_ne_zero (Nat.ne_zero_of_lt more')
                have rest := served_any.mp served
                cases typed' with
                | zero => exact served_any.mpr (ih rest (Nat.le_refl 0) (Nat.le_of_succ_le_succ more'))
                | succ typed' =>
                    exact served_typed.mpr (ih rest (Nat.zero_le _)
                      (Nat.le_of_succ_le more'))
      · rw [served_other same] at served ⊢
        exact ih served more (Nat.sub_le_sub_right more' 1)

/-- A receiver of the kind serves it at least as well as one of any kind. -/
theorem Served.trade (served : Served kind typed (any + 1) queue) :
    Served kind (typed + 1) any queue := by
  induction queue generalizing typed any with
  | nil => exact served_nil
  | cons first queue ih =>
      by_cases same : first = kind
      · subst same
        rw [served_typed]
        cases typed with
        | zero => exact served_any.mp served
        | succ typed => exact ih (served_typed.mp served)
      · rw [served_other same] at served ⊢
        cases any with
        | zero => exact Served.mono served (Nat.le_succ typed) (Nat.le_refl 0)
        | succ any => exact ih served

theorem served_of_notMem (none : kind ∉ queue) : Served kind typed any queue := by
  induction queue generalizing any with
  | nil => exact served_nil
  | cons first queue ih =>
      obtain ⟨different, notMem⟩ := not_or.mp (mt List.mem_cons.mpr none)
      exact (served_other (Ne.symm different)).mpr (ih notMem)

/-- An element of another kind is put in the queue. -/
theorem Served.put_other (served : Served kind typed any queue) (different : other ≠ kind) :
    Served kind typed any (queue ++ [other]) := by
  induction queue generalizing typed any with
  | nil => exact (served_other different).mpr served_nil
  | cons first queue ih =>
      by_cases same : first = kind
      · subst same
        rw [List.cons_append]
        cases typed with
        | succ typed => exact served_typed.mpr (ih (served_typed.mp served))
        | zero =>
            cases any with
            | zero => exact absurd served not_served
            | succ any => exact served_any.mpr (ih (served_any.mp served))
      · rw [List.cons_append]
        rw [served_other same] at served ⊢
        exact ih served

/-- An element of the kind is put in the queue, where it comes in reach of a receiver. -/
theorem Served.put (served : Served kind typed any queue)
    (reached : queue.count kind < typed ∨ queue.length < typed + any) :
    Served kind typed any (queue ++ [kind]) := by
  induction queue generalizing typed any with
  | nil =>
      rw [List.nil_append]
      cases typed with
      | succ typed => exact served_typed.mpr served_nil
      | zero =>
          cases any with
          | zero => simp at reached
          | succ any => exact served_any.mpr served_nil
  | cons first queue ih =>
      rw [List.cons_append]
      rw [List.length_cons] at reached
      by_cases same : first = kind
      · subst same
        rw [List.count_cons_self] at reached
        cases typed with
        | succ typed =>
            exact served_typed.mpr (ih (served_typed.mp served) (by omega))
        | zero =>
            cases any with
            | zero => exact absurd served not_served
            | succ any => exact served_any.mpr (ih (served_any.mp served) (by omega))
      · rw [List.count_cons_of_ne same] at reached
        rw [served_other same] at served ⊢
        exact ih served (by omega)

/-- A receiver of another kind takes an element. -/
theorem Served.take_other (served : Served kind typed any queue) (different : other ≠ kind) :
    Served kind typed any (queue.erase other) := by
  induction queue generalizing typed any with
  | nil => exact served
  | cons first queue ih =>
      by_cases isOther : first = other
      · subst isOther
        rw [List.erase_cons_head]
        exact ((served_other different).mp served).mono (Nat.le_refl typed) (Nat.sub_le any 1)
      rw [List.erase_cons_tail (by simpa using isOther)]
      by_cases same : first = kind
      · subst same
        cases typed with
        | succ typed => exact served_typed.mpr (ih (served_typed.mp served))
        | zero =>
            cases any with
            | zero => exact absurd served not_served
            | succ any => exact served_any.mpr (ih (served_any.mp served))
      · rw [served_other same] at served ⊢
        exact ih served

/-- A receiver of the kind that was not called takes an element. -/
theorem Served.take_typed (served : Served kind typed any queue) :
    Served kind typed any (queue.erase kind) := by
  have more : Served kind (typed + 1) any queue := served.mono (Nat.le_succ typed) (Nat.le_refl any)
  unfold Served at more ⊢
  rwa [Function.iterate_succ_apply] at more

/-- A receiver of any kind takes the first element. -/
theorem Served.take_any (served : Served kind typed (any + 1) queue) :
    Served kind typed any queue.tail := by
  cases queue with
  | nil => exact served_nil
  | cons first queue =>
      by_cases same : first = kind
      · subst same
        cases typed with
        | zero => exact served_any.mp served
        | succ typed => exact (served_typed.mp served).trade
      · exact (served_other same).mp served

end Served

section Safe

theorem Covered.perm (covered : Covered kind calls queue) (same : calls.Perm calls') :
    Covered kind calls' queue := by
  unfold Covered at covered ⊢
  rwa [← same.count_eq, ← same.count_eq]

/-- One of those that were called takes what it accepts first. -/
theorem Covered.take (covered : Covered kind (filter :: calls) queue) :
    Covered kind calls (take filter queue) := by
  unfold Covered at covered ⊢
  cases filter with
  | none =>
      rw [List.count_cons_self, List.count_cons_of_ne (by simp)] at covered
      exact covered.take_any
  | some wanted =>
      rw [List.count_cons_of_ne (a := none) (by simp)] at covered
      by_cases same : wanted = kind
      · subst same
        rw [List.count_cons_self] at covered
        unfold Served at covered ⊢
        rwa [Function.iterate_succ_apply] at covered
      · rw [List.count_cons_of_ne (by simpa using same)] at covered
        exact covered.take_other same

/-- A receiver that was not called takes what it accepts first. -/
theorem Covered.steal (covered : Covered kind calls queue) :
    Covered kind calls (TypedCalls.take filter queue) := by
  have more : Covered kind (filter :: calls) queue :=
    Served.mono covered List.count_le_count_cons List.count_le_count_cons
  exact more.take

theorem Safe.take (safe : Safe queue calls waiting) (called : calls.Perm (filter :: calls')) :
    Safe (take filter queue) calls' waiting :=
  fun waits mem kind accepts => ((safe waits mem kind accepts).perm called).take

theorem Safe.steal (safe : Safe queue calls waiting) :
    Safe (TypedCalls.take filter queue) calls waiting :=
  fun waits mem kind accepts => (safe waits mem kind accepts).steal

/-- A receiver that finds nothing waits. -/
theorem Safe.wait (safe : Safe queue calls waiting)
    (none : ∀ kind ∈ queue, ¬ Accepts filter kind) : Safe queue calls (waiting ++ [filter]) := by
  intro waits mem kind accepts
  rcases List.mem_append.mp mem with old | isNew
  · exact safe waits old kind accepts
  · rw [List.mem_singleton.mp isNew] at accepts
    exact served_of_notMem fun inQueue => none kind inQueue accepts

/-- One of those that were called finds nothing. -/
theorem Safe.miss (safe : Safe queue calls waiting) (called : calls.Perm (filter :: calls'))
    (none : ∀ kind ∈ queue, ¬ Accepts filter kind) : Safe queue calls' waiting := by
  intro waits mem kind accepts
  by_cases takes : Accepts filter kind
  · exact served_of_notMem fun inQueue => none kind inQueue takes
  · have covered := (safe waits mem kind accepts).perm called
    unfold Covered at covered ⊢
    have different : filter ≠ some kind := by
      rintro rfl
      exact takes fun wanted isWanted => (Option.some.inj isWanted).symm
    have typed : filter ≠ Option.none := by
      rintro rfl
      exact takes fun wanted isWanted => by cases isWanted
    rwa [List.count_cons_of_ne different, List.count_cons_of_ne typed] at covered

/-- Fewer receivers wait. -/
theorem Safe.fewer (safe : Safe queue calls waiting) (fewer : waiting' ⊆ waiting) :
    Safe queue calls waiting' :=
  fun waits mem => safe waits (fewer mem)

/-- An element is put in the queue, and the first receiver that waits is called. -/
theorem Safe.put {first : Option κ} (safe : Safe queue calls (first :: waiting))
    (answered : Answered queue calls first waiting kind) :
    Safe (queue ++ [kind]) (calls ++ [first]) waiting := by
  intro waits mem other accepts
  have covered : Covered other (first :: calls) queue :=
    Served.mono (safe waits (List.mem_cons_of_mem first mem) other accepts)
      List.count_le_count_cons List.count_le_count_cons
  have put : Covered other (first :: calls) (queue ++ [kind]) := by
    by_cases same : kind = other
    · subst same
      exact Served.put covered (answered waits mem accepts)
    · exact Served.put_other covered same
  exact put.perm (List.perm_append_singleton first calls).symm

/-- When all that were called have come, nobody waits for an element of the queue. -/
theorem Safe.quiet (safe : Safe queue [] waiting) (mem : filter ∈ waiting) (inQueue : kind ∈ queue) :
    ¬ Accepts filter kind :=
  fun accepts => safe filter mem kind accepts inQueue

end Safe

end TypedCalls

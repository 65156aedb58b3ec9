import Mathlib.Data.List.Basic

/-!
# Queues with elements of several kinds

Elements are put at the end of a queue, and the first one of a kind, or the first of all, is
taken out.  Each element is stamped with the number of those that were accepted before it.
-/

namespace TypedQueue

variable {α κ : Type*} [DecidableEq κ]

/-- The elements that were received and those in the queue are the ones that were accepted: of
each kind in the same order, and in the queue the oldest first. -/
structure Delivered (kind : α → κ) (accepted received : List α) (queued : List (Nat × α)) :
    Prop where
  order : ∀ k, (received ++ queued.map Prod.snd).filter (fun x => kind x = k) =
    accepted.filter fun x => kind x = k
  ages : (queued.map Prod.fst).Pairwise (· < ·)
  stamped : ∀ entry ∈ queued, accepted[entry.1]? = some entry.2

namespace Delivered

variable {kind : α → κ} {accepted received : List α} {queued before after : List (Nat × α)}
  {entry : Nat × α}

theorem start (kind : α → κ) : Delivered kind [] [] [] :=
  ⟨fun _ => rfl, .nil, fun _ mem => absurd mem List.not_mem_nil⟩

/-- What was received of a kind is a prefix of what was accepted of it. -/
theorem received_prefix (delivered : Delivered kind accepted received queued) (k : κ) :
    received.filter (fun x => kind x = k) <+: accepted.filter fun x => kind x = k := by
  rw [← delivered.order k, List.filter_append]
  exact List.prefix_append ..

theorem stamp_lt (delivered : Delivered kind accepted received queued) (mem : entry ∈ queued) :
    entry.1 < accepted.length :=
  (List.getElem?_eq_some_iff.mp (delivered.stamped entry mem)).1

/-- The first element of the queue is the oldest one. -/
theorem first_oldest (delivered : Delivered kind accepted received (entry :: after)) :
    ∀ other ∈ after, entry.1 < other.1 := by
  intro other mem
  have ages := delivered.ages
  rw [List.map_cons, List.pairwise_cons] at ages
  exact ages.1 other.1 (List.mem_map_of_mem mem)

theorem put (delivered : Delivered kind accepted received queued) (x : α) :
    Delivered kind (accepted ++ [x]) received (queued ++ [(accepted.length, x)]) where
  order k := by
    rw [List.map_append, ← List.append_assoc, List.filter_append, delivered.order k,
      List.filter_append]
    rfl
  ages := by
    rw [List.map_append, List.pairwise_append]
    refine ⟨delivered.ages, List.pairwise_singleton .., ?_⟩
    intro old mem new isNew
    obtain ⟨entry, inQueue, rfl⟩ := List.mem_map.mp mem
    obtain rfl := List.mem_singleton.mp isNew
    exact delivered.stamp_lt inQueue
  stamped entry mem := by
    rcases List.mem_append.mp mem with old | isNew
    · rw [List.getElem?_append_left (delivered.stamp_lt old)]
      exact delivered.stamped entry old
    · obtain rfl := List.mem_singleton.mp isNew
      exact List.getElem?_concat_length

/-- An element is taken that has none of its kind before it. -/
theorem take (delivered : Delivered kind accepted received (before ++ entry :: after))
    (first : ∀ other ∈ before, kind other.2 ≠ kind entry.2) :
    Delivered kind accepted (received ++ [entry.2]) (before ++ after) where
  order k := by
    rw [← delivered.order k]
    simp only [List.map_append, List.map_cons, List.filter_append, List.filter_cons,
      List.filter_nil, List.append_assoc]
    by_cases same : kind entry.2 = k
    · have none : (before.map Prod.snd).filter (fun x => kind x = k) = [] := by
        apply List.filter_eq_nil_iff.mpr
        intro x mem
        obtain ⟨other, inBefore, rfl⟩ := List.mem_map.mp mem
        have different := first other inBefore
        rw [same] at different
        simpa using different
      simp [same, none]
    · simp [same]
  ages := by
    have ages := delivered.ages
    rw [List.map_append] at ages ⊢
    exact List.Pairwise.sublist (List.Sublist.append_left (List.sublist_cons_self ..) _) ages
  stamped other mem := by
    apply delivered.stamped
    rcases List.mem_append.mp mem with inBefore | inAfter
    · exact List.mem_append_left _ inBefore
    · exact List.mem_append_right _ (List.mem_cons_of_mem _ inAfter)

end Delivered

end TypedQueue

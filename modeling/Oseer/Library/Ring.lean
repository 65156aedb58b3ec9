import Mathlib.Data.List.Chain
import Mathlib.Data.List.Nodup

/-!
# Rings of links

A linked list with a head pointer is a circle through a hub: the hub links to
the first member, every member to the next one, and the last member back to
the hub.  The hub stands for the list header, or for the null pointer that
ends the list.  Linking a node in and taking one out then change two links
each, with no case distinction on the ends of the list.
-/

namespace LinkedRing

variable {α : Type*} {R R' : α → α → Prop} {hub node : α}
  {members before after : List α}

/-- Consecutive entries of the circle from `hub` through `members` back to
`hub` are linked. -/
def Ring (R : α → α → Prop) (hub : α) (members : List α) : Prop :=
  (hub :: (members ++ [hub])).IsChain R

/-- The entry of the circle that stands before `after`. -/
def lastOf (hub : α) (before : List α) : α := before.getLastD hub

/-- The entry of the circle that stands after `before`. -/
def headOf (hub : α) (after : List α) : α := after.headD hub

@[simp]
theorem ring_nil : Ring R hub [] ↔ R hub hub := by
  simp [Ring]

@[simp]
theorem lastOf_nil : lastOf hub [] = hub := rfl

@[simp]
theorem lastOf_concat : lastOf hub (before ++ [node]) = node := by
  simp [lastOf]

@[simp]
theorem headOf_nil : headOf hub [] = hub := rfl

@[simp]
theorem headOf_cons : headOf hub (node :: after) = node := rfl

theorem lastOf_mem : lastOf hub before ∈ hub :: before := by
  cases before using List.reverseRecOn <;> simp

theorem lastOf_cons : lastOf hub (node :: before) = lastOf node before :=
  List.getLastD_cons ..

theorem lastOf_mem_cons : lastOf hub (node :: before) ∈ node :: before := by
  rw [lastOf_cons]
  exact lastOf_mem

theorem lastOf_append_cons :
    lastOf hub (before ++ node :: after) = lastOf node after := by
  induction before generalizing hub with
  | nil => exact lastOf_cons
  | cons first before ih => rw [List.cons_append, lastOf_cons, ih]

theorem headOf_mem : headOf hub after ∈ hub :: after := by
  cases after <;> simp

theorem getLast?_hub_cons :
    (hub :: before).getLast? = some (lastOf hub before) := by
  cases before using List.reverseRecOn with
  | nil => rfl
  | append_singleton before node _ =>
      rw [← List.cons_append, List.getLast?_append]
      simp

theorem head?_concat_hub :
    (after ++ [hub]).head? = some (headOf hub after) := by
  cases after <;> rfl

/-- A circle splits at any place into the links before, the links after, and
the link between. -/
theorem ring_append :
    Ring R hub (before ++ after) ↔
      (hub :: before).IsChain R ∧ (after ++ [hub]).IsChain R ∧
        R (lastOf hub before) (headOf hub after) := by
  rw [Ring, List.append_assoc, ← List.cons_append, List.isChain_append,
    getLast?_hub_cons, head?_concat_hub]
  simp

theorem Ring.links (ring : Ring R hub (before ++ node :: after)) :
    R (lastOf hub before) node ∧ R node (headOf hub after) := by
  have split := ring_append.mp ring
  refine ⟨split.2.2, ?_⟩
  rw [← List.singleton_append, ← List.append_assoc] at ring
  simpa using (ring_append.mp ring).2.2

theorem Ring.head (ring : Ring R hub members) : R hub (headOf hub members) := by
  rw [← List.nil_append members] at ring
  exact (ring_append.mp ring).2.2

theorem Ring.last (ring : Ring R hub members) : R (lastOf hub members) hub := by
  rw [← List.append_nil members] at ring
  exact (ring_append.mp ring).2.2

/-- Where each entry has one successor, a circle is the only one through its hub. -/
theorem Ring.unique (deterministic : ∀ a b c, R a b → R a c → b = c) {members' : List α}
    (ring : Ring R hub members) (ring' : Ring R hub members') (outside : hub ∉ members)
    (outside' : hub ∉ members') : members = members' := by
  have walk : ∀ start, (start :: (members ++ [hub])).IsChain R →
      (start :: (members' ++ [hub])).IsChain R → members = members' := by
    clear ring ring'
    induction members generalizing members' with
    | nil =>
        intro start chain chain'
        cases members' with
        | nil => rfl
        | cons first' rest' =>
            rw [List.cons_append] at chain'
            have same := deterministic _ _ _ (List.isChain_cons_cons.mp chain).1
              (List.isChain_cons_cons.mp chain').1
            exact absurd (same ▸ List.mem_cons_self) outside'
    | cons first rest ih =>
        intro start chain chain'
        rw [List.cons_append, List.isChain_cons_cons] at chain
        cases members' with
        | nil =>
            have same := deterministic _ _ _ chain.1 (List.isChain_cons_cons.mp chain').1
            exact absurd (same ▸ List.mem_cons_self) outside
        | cons first' rest' =>
            rw [List.cons_append, List.isChain_cons_cons] at chain'
            obtain rfl := deterministic _ _ _ chain.1 chain'.1
            rw [ih (mt (List.mem_cons_of_mem _) outside) (mt (List.mem_cons_of_mem _) outside')
              _ chain.2 chain'.2]
  exact walk hub ring ring'

theorem Ring.change (ring : Ring R hub members)
    (keep : ∀ a ∈ hub :: members, ∀ b ∈ hub :: members, R a b → R' a b) :
    Ring R' hub members := by
  refine List.IsChain.imp_of_mem_imp (fun a b memA memB => ?_) ring
  refine keep a ?_ b ?_ <;> simp_all [or_comm]

/-- In a chain without repetitions no link leaves the last entry and none
enters the first. -/
private theorem isChain_change {entries : List α} (chain : entries.IsChain R)
    (nodup : entries.Nodup)
    (keep : ∀ a ∈ entries, ∀ b ∈ entries,
      entries.getLast? ≠ some a → entries.head? ≠ some b → R a b → R' a b) :
    entries.IsChain R' := by
  induction entries with
  | nil => exact .nil
  | cons a rest ih =>
      cases rest with
      | nil => exact .singleton a
      | cons b rest =>
          obtain ⟨notMem, nodupRest⟩ := List.nodup_cons.mp nodup
          have chains := List.isChain_cons_cons.mp chain
          refine List.isChain_cons_cons.mpr ⟨?_, ih chains.2 nodupRest ?_⟩
          · refine keep a (by simp) b (by simp) ?_ ?_ chains.1
            · intro last
              rw [List.getLast?_cons_cons] at last
              exact notMem (List.mem_of_getLast? last)
            · intro first
              simp only [List.head?_cons, Option.some.injEq] at first
              exact notMem (by simp [first])
          · intro x memX y memY notLast notFirst
            refine keep x (.tail a memX) y (.tail a memY) ?_ ?_
            · rwa [List.getLast?_cons_cons]
            · rintro first
              simp only [List.head?_cons, Option.some.injEq] at first
              exact notMem (first ▸ memY)

section Edit

variable (nodup : (hub :: (before ++ after)).Nodup)
  (keep : ∀ a ∈ hub :: (before ++ after), ∀ b ∈ hub :: (before ++ after),
    a ≠ lastOf hub before → b ≠ headOf hub after → R a b → R' a b)

include nodup keep

private theorem isChain_before (chain : (hub :: before).IsChain R) :
    (hub :: before).IsChain R' := by
  obtain ⟨hubNotMem, nodupMembers⟩ := List.nodup_cons.mp nodup
  have nodupBefore : (hub :: before).Nodup :=
    (List.cons_append ▸ nodup : (hub :: before ++ after).Nodup).of_append_left
  refine isChain_change chain nodupBefore fun a memA b memB notLast notFirst => ?_
  have inBefore : b ∈ before := (List.mem_cons.mp memB).resolve_left fun isHub =>
    notFirst (by simp [isHub])
  refine keep a ?_ b (by simp [inBefore]) ?_ ?_
  · exact List.mem_cons.mpr ((List.mem_cons.mp memA).imp id (by simp +contextual))
  · rintro rfl
    exact notLast getLast?_hub_cons
  · rintro rfl
    rcases List.mem_cons.mp (headOf_mem : headOf hub after ∈ hub :: after) with isHub | inAfter
    · exact hubNotMem (isHub ▸ List.mem_append_left _ inBefore)
    · exact List.disjoint_of_nodup_append nodupMembers inBefore inAfter

private theorem isChain_after (chain : (after ++ [hub]).IsChain R) :
    (after ++ [hub]).IsChain R' := by
  obtain ⟨hubNotMem, nodupMembers⟩ := List.nodup_cons.mp nodup
  have nodupAfter : (after ++ [hub]).Nodup := by
    refine List.nodup_append_comm.mp (List.nodup_cons.mpr ⟨fun mem => ?_, ?_⟩)
    · exact hubNotMem (List.mem_append_right _ mem)
    · exact nodupMembers.of_append_right
  refine isChain_change chain nodupAfter fun a memA b memB notLast notFirst => ?_
  have inAfter : a ∈ after := by
    rcases List.mem_append.mp memA with mem | isHub
    · exact mem
    · exact absurd (by simp_all) notLast
  refine keep a (by simp [inAfter]) b ?_ ?_ ?_
  · rcases List.mem_append.mp memB with mem | isHub
    · simp [mem]
    · simp_all
  · rintro rfl
    rcases List.mem_cons.mp (lastOf_mem : lastOf hub before ∈ hub :: before) with isHub | inBefore
    · exact hubNotMem (isHub ▸ List.mem_append_right _ inAfter)
    · exact List.disjoint_of_nodup_append nodupMembers inBefore inAfter
  · rintro rfl
    exact notFirst head?_concat_hub

end Edit

theorem Ring.unlink (ring : Ring R hub (before ++ node :: after))
    (nodup : (hub :: (before ++ node :: after)).Nodup)
    (join : R' (lastOf hub before) (headOf hub after))
    (keep : ∀ a ∈ hub :: (before ++ after), ∀ b ∈ hub :: (before ++ after),
      a ≠ lastOf hub before → b ≠ headOf hub after → R a b → R' a b) :
    Ring R' hub (before ++ after) := by
  have nodup' : (hub :: (before ++ after)).Nodup := by
    refine nodup.sublist ?_
    simp
  have split := ring_append.mp ring
  exact ring_append.mpr ⟨isChain_before nodup' keep split.1,
    isChain_after nodup' keep split.2.1.of_cons, join⟩

/-- Linking a node in between two neighbours sets its two links and keeps all
other links. -/
theorem Ring.link (ring : Ring R hub (before ++ after))
    (nodup : (hub :: (before ++ after)).Nodup)
    (toNode : R' (lastOf hub before) node) (fromNode : R' node (headOf hub after))
    (keep : ∀ a ∈ hub :: (before ++ after), ∀ b ∈ hub :: (before ++ after),
      a ≠ lastOf hub before → b ≠ headOf hub after → R a b → R' a b) :
    Ring R' hub (before ++ node :: after) := by
  have split := ring_append.mp ring
  refine ring_append.mpr ⟨isChain_before nodup keep split.1, ?_, toNode⟩
  have chainAfter := isChain_after nodup keep split.2.1
  refine List.isChain_cons.mpr ⟨?_, chainAfter⟩
  intro next isNext
  have isHead := Option.mem_some_iff.mp (head?_concat_hub ▸ isNext)
  exact isHead ▸ fromNode

end LinkedRing

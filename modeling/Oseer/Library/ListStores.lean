import Oseer.Library.MemoryList
import Oseer.Library.WordMemory

/-!
# The stores of the list operations

Taking a node out of a doubly linked list and putting one in front of it are a
few stores each.  This file says which, and that they do what they should as
long as the link words of the list are different words.
-/

namespace LinkedRing.ListFormat

open WordMemory

variable {format : ListFormat} {memory : Memory} {node address : Nat}
  {nodes before after : List Nat}

/-- The link words of a list are different words. -/
structure Apart (format : ListFormat) (nodes : List Nat) : Prop where
  slots : ∀ a ∈ 0 :: nodes, ∀ b ∈ 0 :: nodes, a ≠ b → format.slot a ≠ format.slot b
  prevs : ∀ a ∈ 0 :: nodes, ∀ b ∈ nodes, format.slot a ≠ b + format.prev

/-- The entries on both sides of a removed node name each other. -/
def unlinkStores (format : ListFormat) (last first : Nat) (memory : Memory) : Memory :=
  let memory := memory.write (format.slot last) first
  if first ≠ 0 then memory.write (first + format.prev) (format.nameOf last) else memory

/-- A node and the list after it name each other. -/
def pushStores (format : ListFormat) (node first : Nat) (memory : Memory) : Memory :=
  let memory := memory.write (node + format.next) first
  let memory := if first ≠ 0 then memory.write (first + format.prev) node else memory
  (memory.write format.head node).write (node + format.prev) format.tag

theorem unlinkStores_apply {last first : Nat} :
    format.unlinkStores last first memory address =
      if first ≠ 0 ∧ address = first + format.prev then format.nameOf last
      else if address = format.slot last then first else memory address := by
  by_cases empty : first = 0 <;> simp [unlinkStores, empty, write_apply]

theorem pushStores_apply {first : Nat} :
    format.pushStores node first memory address =
      if address = node + format.prev then format.tag
      else if address = format.head then node
      else if first ≠ 0 ∧ address = first + format.prev then node
      else if address = node + format.next then first else memory address := by
  by_cases empty : first = 0 <;> simp [pushStores, empty, write_apply]

private theorem last_mem : lastOf 0 before ∈ 0 :: (before ++ node :: after) := by
  have place : lastOf 0 before ∈ 0 :: before := lastOf_mem
  simp only [List.mem_cons, List.mem_append] at place ⊢
  tauto

private theorem first_mem (nonzero : headOf 0 after ≠ 0) :
    headOf 0 after ∈ before ++ node :: after := by
  have place : headOf 0 after ∈ 0 :: after := headOf_mem
  simp only [List.mem_cons, List.mem_append] at place ⊢
  tauto

/-- The stores of a removal take the node out. -/
theorem Holds.unlinkStores (holds : format.Holds memory (before ++ node :: after))
    (apart : format.Apart (before ++ node :: after)) :
    format.Holds (format.unlinkStores (lastOf 0 before) (headOf 0 after) memory)
      (before ++ after) := by
  have members : ∀ a ∈ before ++ after, a ∈ before ++ node :: after := by
    simp only [List.mem_append, List.mem_cons]
    tauto
  apply holds.unlink
  · rw [unlinkStores_apply, if_neg, if_pos rfl]
    rintro ⟨nonzero, clash⟩
    exact apart.prevs _ last_mem _ (first_mem nonzero) clash
  · intro nonzero
    rw [unlinkStores_apply, if_pos ⟨nonzero, rfl⟩]
  · intro a mem notLast
    have memA : a ∈ 0 :: (before ++ node :: after) := by
      rcases List.mem_cons.mp mem with rfl | inList
      · simp
      · exact .tail _ (members a inList)
    rw [unlinkStores_apply, if_neg, if_neg (apart.slots a memA _ last_mem notLast)]
    rintro ⟨nonzero, clash⟩
    exact apart.prevs a memA _ (first_mem nonzero) clash
  · intro a mem notFirst
    rw [unlinkStores_apply, if_neg, if_neg (apart.prevs _ last_mem a (members a mem)).symm]
    rintro ⟨-, clash⟩
    exact notFirst (Nat.add_right_cancel clash)

/-- The stores of an insertion put the node in front. -/
theorem Holds.pushStores (holds : format.Holds memory nodes) (nonzero : node ≠ 0)
    (fresh : node ∉ nodes) (apart : format.Apart (node :: nodes))
    (ownApart : node + format.next ≠ node + format.prev) :
    format.Holds (format.pushStores node (headOf 0 nodes) memory) (node :: nodes) := by
  have first : headOf 0 nodes ≠ 0 → headOf 0 nodes ∈ nodes := fun notHub =>
    (List.mem_cons.mp headOf_mem).resolve_left notHub
  have headApart : ∀ a ∈ node :: nodes, format.head ≠ a + format.prev :=
    apart.prevs 0 (by simp)
  have slotIs : ∀ a ∈ node :: nodes, format.slot a = a + format.next := by
    intro a mem
    apply format.slot_of_ne_zero
    rcases List.mem_cons.mp mem with rfl | inList
    · exact nonzero
    · exact holds.ne_zero inList
  have nextApart : ∀ a ∈ node :: nodes, ∀ b ∈ node :: nodes,
      a + format.next ≠ b + format.prev := by
    intro a memA b memB
    rw [← slotIs a memA]
    exact apart.prevs a (.tail _ memA) b memB
  have nextHead : ∀ a ∈ node :: nodes, a + format.next ≠ format.head := by
    intro a memA
    rw [← slotIs a memA]
    refine apart.slots a (.tail _ memA) 0 (by simp) ?_
    rintro rfl
    rcases List.mem_cons.mp memA with isNode | inList
    · exact nonzero isNode.symm
    · exact holds.ne_zero inList rfl
  have inTail : ∀ a ∈ nodes, a ∈ node :: nodes := fun a mem => .tail _ mem
  have notNode : ∀ a ∈ nodes, a ≠ node := by
    rintro a mem rfl
    exact fresh mem
  apply holds.push nonzero fresh
  · rw [pushStores_apply, if_neg (headApart node (by simp)), if_pos rfl]
  · rw [pushStores_apply, if_neg ownApart, if_neg (nextHead node (by simp)), if_neg,
      if_pos rfl]
    rintro ⟨notHub, clash⟩
    exact nextApart node (by simp) _ (inTail _ (first notHub)) clash
  · rw [pushStores_apply, if_pos rfl]
  · intro notHub
    have place := first notHub
    rw [pushStores_apply, if_neg, if_neg (headApart _ (inTail _ place)).symm,
      if_pos ⟨notHub, rfl⟩]
    exact fun clash => notNode _ place (Nat.add_right_cancel clash)
  · intro a mem
    rw [pushStores_apply, if_neg (nextApart a (inTail a mem) node (by simp)),
      if_neg (nextHead a (inTail a mem)), if_neg, if_neg]
    · exact fun clash => notNode a mem (Nat.add_right_cancel clash)
    · rintro ⟨notHub, clash⟩
      exact nextApart a (inTail a mem) _ (inTail _ (first notHub)) clash
  · intro a mem notFirst
    rw [pushStores_apply, if_neg, if_neg (headApart a (inTail a mem)).symm, if_neg,
      if_neg (nextApart node (by simp) a (inTail a mem)).symm]
    · rintro ⟨-, clash⟩
      exact notFirst (Nat.add_right_cancel clash)
    · exact fun clash => notNode a mem (Nat.add_right_cancel clash)

end LinkedRing.ListFormat

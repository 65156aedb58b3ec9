import Oseer.Library.Ring

/-!
# Doubly linked lists inside a word memory

A memory maps addresses to words.  A list is rooted at the word `head`; each
node keeps its successor at offset `next` and its predecessor at offset
`prev`.  Address zero ends the list.  The first node has no predecessor and
keeps the word `tag` there instead, which may be null or a marked pointer back
to the root.  The list is a ring whose hub is the address zero.
-/

namespace LinkedRing

/-- Where a list is rooted and how its nodes store their two links. -/
structure ListFormat where
  head : Nat
  next : Nat
  prev : Nat
  tag : Nat

namespace ListFormat

variable (format : ListFormat) (memory memory' : Nat → Nat)
  {node : Nat} {nodes before after : List Nat}

/-- The address that holds the successor of a node, or the root for the hub. -/
def slot (node : Nat) : Nat :=
  if node = 0 then format.head else node + format.next

/-- The word that names a predecessor. -/
def nameOf (node : Nat) : Nat :=
  if node = 0 then format.tag else node

@[simp]
theorem slot_zero : format.slot 0 = format.head := rfl

theorem slot_of_ne_zero (nonzero : node ≠ 0) :
    format.slot node = node + format.next := if_neg nonzero

@[simp]
theorem nameOf_zero : format.nameOf 0 = format.tag := rfl

theorem nameOf_of_ne_zero (nonzero : node ≠ 0) : format.nameOf node = node :=
  if_neg nonzero

/-- Node `b` is the successor of node `a`. -/
def Linked (a b : Nat) : Prop :=
  memory (format.slot a) = b ∧
    (b ≠ 0 → memory (b + format.prev) = format.nameOf a)

/-- The memory holds the list with the given nodes, in this order. -/
structure Holds (nodes : List Nat) : Prop where
  ring : Ring (format.Linked memory) 0 nodes
  nodup : (0 :: nodes).Nodup

variable {format memory memory'}

theorem Holds.ne_zero (holds : format.Holds memory nodes)
    (member : node ∈ nodes) : node ≠ 0 := by
  rintro rfl
  exact (List.nodup_cons.mp holds.nodup).1 member

theorem Holds.head (holds : format.Holds memory nodes) :
    memory format.head = headOf 0 nodes :=
  holds.ring.head.1

theorem Holds.next (holds : format.Holds memory (before ++ node :: after)) :
    memory (node + format.next) = headOf 0 after := by
  have nonzero : node ≠ 0 := holds.ne_zero (by simp)
  simpa [Linked, slot_of_ne_zero _ nonzero] using holds.ring.links.2.1

theorem Holds.prev (holds : format.Holds memory (before ++ node :: after)) :
    memory (node + format.prev) = format.nameOf (lastOf 0 before) :=
  holds.ring.links.1.2 (holds.ne_zero (by simp))

theorem Holds.slot (holds : format.Holds memory (before ++ after)) :
    memory (format.slot (lastOf 0 before)) = headOf 0 after :=
  (ring_append.mp holds.ring).2.2.1

private theorem Holds.suffix_unique {other : List Nat}
    (holds : format.Holds memory (before ++ nodes))
    (holds' : format.Holds memory (before ++ other)) : nodes = other := by
  have heads : headOf 0 nodes = headOf 0 other := holds.slot.symm.trans holds'.slot
  induction nodes generalizing before other with
  | nil =>
      cases other with
      | nil => rfl
      | cons node rest =>
          exact absurd heads.symm (holds'.ne_zero (by simp))
  | cons node rest ih =>
      cases other with
      | nil => exact absurd heads (holds.ne_zero (by simp))
      | cons node' rest' =>
          obtain rfl : node = node' := heads
          have step : format.Holds memory ((before ++ [node]) ++ rest) := by simpa using holds
          have step' : format.Holds memory ((before ++ [node]) ++ rest') := by
            simpa using holds'
          rw [ih step step' (step.slot.symm.trans step'.slot)]

theorem Holds.unique {other : List Nat} (holds : format.Holds memory nodes)
    (holds' : format.Holds memory other) : nodes = other :=
  Holds.suffix_unique (show format.Holds memory ([] ++ nodes) from holds) holds'

theorem holds_nil (empty : memory format.head = 0) : format.Holds memory [] where
  ring := by simp [Linked, empty]
  nodup := by simp

/-- A change that leaves the link words of the list alone leaves the list. -/
theorem Holds.congr (holds : format.Holds memory nodes)
    (head : memory' format.head = memory format.head)
    (next : ∀ a ∈ nodes, memory' (a + format.next) = memory (a + format.next))
    (prev : ∀ a ∈ nodes, memory' (a + format.prev) = memory (a + format.prev)) :
    format.Holds memory' nodes where
  nodup := holds.nodup
  ring := by
    refine holds.ring.change fun a memA b memB link => ?_
    constructor
    · rcases List.mem_cons.mp memA with rfl | inA
      · rw [slot_zero, head]; exact link.1
      · have := link.1
        rw [slot_of_ne_zero _ (holds.ne_zero inA)] at this ⊢
        rw [next a inA, this]
    · intro nonzero
      rw [prev b ((List.mem_cons.mp memB).resolve_left nonzero)]
      exact link.2 nonzero

/-- Taking a node out: its predecessor's slot names its successor, and its
successor names its predecessor. -/
theorem Holds.unlink (holds : format.Holds memory (before ++ node :: after))
    (slot : memory' (format.slot (lastOf 0 before)) = headOf 0 after)
    (name : headOf 0 after ≠ 0 →
      memory' (headOf 0 after + format.prev) = format.nameOf (lastOf 0 before))
    (slots : ∀ a ∈ 0 :: (before ++ after), a ≠ lastOf 0 before →
      memory' (format.slot a) = memory (format.slot a))
    (prevs : ∀ a ∈ before ++ after, a ≠ headOf 0 after →
      memory' (a + format.prev) = memory (a + format.prev)) :
    format.Holds memory' (before ++ after) where
  nodup := holds.nodup.sublist (by simp)
  ring := by
    refine holds.ring.unlink holds.nodup ⟨slot, name⟩ ?_
    intro a memA b memB notLast notFirst link
    refine ⟨(slots a memA notLast).trans link.1, fun nonzero => ?_⟩
    rw [prevs b ((List.mem_cons.mp memB).resolve_left nonzero) notFirst]
    exact link.2 nonzero

/-- Putting a node in between: its predecessor's slot and its successor name
it, and it names them. -/
theorem Holds.link (holds : format.Holds memory (before ++ after)) (nonzero : node ≠ 0)
    (fresh : node ∉ before ++ after)
    (slot : memory' (format.slot (lastOf 0 before)) = node)
    (next : memory' (node + format.next) = headOf 0 after)
    (prev : memory' (node + format.prev) = format.nameOf (lastOf 0 before))
    (name : headOf 0 after ≠ 0 → memory' (headOf 0 after + format.prev) = node)
    (slots : ∀ a ∈ 0 :: (before ++ after), a ≠ lastOf 0 before →
      memory' (format.slot a) = memory (format.slot a))
    (prevs : ∀ a ∈ before ++ after, a ≠ headOf 0 after →
      memory' (a + format.prev) = memory (a + format.prev)) :
    format.Holds memory' (before ++ node :: after) where
  nodup := by
    obtain ⟨notHub, nodup⟩ := List.nodup_cons.mp holds.nodup
    refine List.nodup_cons.mpr ⟨fun isHub => ?_, ?_⟩
    · simp only [List.mem_append, List.mem_cons] at isHub notHub
      tauto
    · exact List.nodup_middle.mpr (List.nodup_cons.mpr ⟨fresh, nodup⟩)
  ring := by
    refine holds.ring.link holds.nodup ⟨slot, fun _ => prev⟩ ⟨?_, ?_⟩ ?_
    · rw [slot_of_ne_zero _ nonzero, next]
    · rw [nameOf_of_ne_zero _ nonzero]
      exact name
    · intro a memA b memB notLast notFirst link
      refine ⟨(slots a memA notLast).trans link.1, fun nonzeroB => ?_⟩
      rw [prevs b ((List.mem_cons.mp memB).resolve_left nonzeroB) notFirst]
      exact link.2 nonzeroB

/-- Putting a node in front of the list. -/
theorem Holds.push (holds : format.Holds memory nodes) (nonzero : node ≠ 0)
    (fresh : node ∉ nodes)
    (head : memory' format.head = node)
    (next : memory' (node + format.next) = headOf 0 nodes)
    (prev : memory' (node + format.prev) = format.tag)
    (name : headOf 0 nodes ≠ 0 → memory' (headOf 0 nodes + format.prev) = node)
    (nexts : ∀ a ∈ nodes, memory' (a + format.next) = memory (a + format.next))
    (prevs : ∀ a ∈ nodes, a ≠ headOf 0 nodes →
      memory' (a + format.prev) = memory (a + format.prev)) :
    format.Holds memory' (node :: nodes) := by
  have holds' : format.Holds memory ([] ++ nodes) := holds
  refine holds'.link nonzero fresh head next prev name ?_ prevs
  intro a memA notFirst
  have inNodes := (List.mem_cons.mp memA).resolve_left (by simpa using notFirst)
  rw [slot_of_ne_zero _ (holds.ne_zero inNodes), nexts a inNodes]

end ListFormat

end LinkedRing

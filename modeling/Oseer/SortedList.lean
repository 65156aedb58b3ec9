import Oseer.LinkedList

/-!
# Sorted lists of objects

`list_sort_add` of `lib/list.c` puts an object behind all objects that are not
greater.  It looks at the last object first, which is right on a sorted list
only.
-/

namespace Oseer

open LinkedRing

namespace Lists

variable {ι : Type}

/-- The search loop of `list_sort_add`, for at most `fuel` steps. -/
def sortSearch (cmp : Ptr → Ptr → Int) (object : Ptr) (lists : Lists ι) : Nat → Ptr → Ptr
  | 0, iter => iter
  | fuel + 1, iter =>
      if iter ≠ 0 ∧ 0 ≤ cmp object (lists.object iter) then
        sortSearch cmp object lists fuel (lists.next iter)
      else iter

section Functions

variable [DecidableEq ι]

/-- The end of `list_sort_add`: the header goes before `iter`, or to the end of the
list when `iter` is null. -/
def sortInsert (list : ι) (hdr iter : Ptr) (lists : Lists ι) : Lists ι :=
  let lists := { lists with next := Function.update lists.next hdr iter }
  if iter ≠ 0 then
    let lists := { lists with prev := Function.update lists.prev hdr (lists.prev iter) }
    let lists :=
      if lists.prev iter ≠ 0 then
        { lists with next := Function.update lists.next (lists.prev iter) hdr }
      else { lists with first := Function.update lists.first list hdr }
    { lists with prev := Function.update lists.prev iter hdr }
  else if lists.last list ≠ 0 then
    { lists with
      prev := Function.update lists.prev hdr (lists.last list)
      next := Function.update lists.next (lists.last list) hdr
      last := Function.update lists.last list hdr }
  else
    { lists with
      first := Function.update lists.first list hdr
      last := Function.update lists.last list hdr
      prev := Function.update lists.prev hdr 0 }

/-- Where the search of `list_sort_add` starts. -/
def sortStart (list : ι) (cmp : Ptr → Ptr → Int) (object : Ptr) (lists : Lists ι) : Ptr :=
  if lists.last list ≠ 0 ∧ 0 ≤ cmp object (lists.object (lists.last list)) then 0
  else lists.first list

/-- `list_sort_add`. -/
def listSortAdd (list : ι) (hdr : Ptr) (cmp : Ptr → Ptr → Int) (lists : Lists ι) : Lists ι :=
  let lists := { lists with object := Function.update lists.object hdr hdr }
  let iter := sortStart list cmp hdr lists
  lists.sortInsert list hdr (sortSearch cmp hdr lists addressCount iter)

end Functions

/-- A comparison that orders all objects. -/
structure Orders (cmp : Ptr → Ptr → Int) : Prop where
  swap : ∀ a b, 0 ≤ cmp a b → cmp b a ≤ 0
  trans : ∀ a b c, cmp a b ≤ 0 → cmp b c ≤ 0 → cmp a c ≤ 0

/-- No object stands before a smaller one. -/
def Sorted (cmp : Ptr → Ptr → Int) (entries : List Ptr) : Prop :=
  entries.Pairwise fun a b => cmp a b ≤ 0

variable {lists : Lists ι} {list : ι} {members : ι → List Ptr} {node : Ptr}
  {before after rest : List Ptr} {cmp : Ptr → Ptr → Int} {fuel : Nat}

/-- The search walks a suffix of the list to its first greater object. -/
theorem Linked.sortSearch_suffix (linked : lists.Linked members)
    (place : members list = before ++ rest) (enough : rest.length < fuel) :
    ∃ middle after, rest = middle ++ after ∧ (∀ entry ∈ middle, 0 ≤ cmp node entry) ∧
      (∀ entry ∈ after.head?, cmp node entry < 0) ∧
      sortSearch cmp node lists fuel (headOf 0 rest) = headOf 0 after := by
  induction rest generalizing before fuel with
  | nil =>
      refine ⟨[], [], rfl, by simp, by simp, ?_⟩
      cases fuel <;> simp [sortSearch]
  | cons entry rest ih =>
      obtain ⟨fuel, rfl⟩ : ∃ less, fuel = less + 1 :=
        ⟨fuel - 1, by simp only [List.length_cons] at enough; omega⟩
      have mem : entry ∈ members list := by simp [place]
      have nonzero : entry ≠ 0 := linked.ne_zero mem
      have object := linked.object list entry mem
      rw [headOf_cons, sortSearch, object]
      by_cases passed : 0 ≤ cmp node entry
      · have place' : members list = (before ++ [entry]) ++ rest := by simp [place]
        have enough' : rest.length < fuel := by simpa using enough
        obtain ⟨middle, after, split, small, large, search⟩ := ih place' enough'
        refine ⟨entry :: middle, after, by simp [split], ?_, large, ?_⟩
        · exact List.forall_mem_cons.mpr ⟨passed, small⟩
        · rw [if_pos ⟨nonzero, passed⟩, linked.next_eq place, search]
      · refine ⟨[], entry :: rest, rfl, by simp, ?_, ?_⟩
        · simpa using passed
        · rw [if_neg fun both => passed both.2, headOf_cons]

/-- The place that `list_sort_add` finds in a sorted list. -/
theorem Linked.sort_place (linked : lists.Linked members) (orders : Orders cmp)
    (sorted : Sorted cmp (members list)) (short : (members list).length < addressCount) :
    ∃ before after, members list = before ++ after ∧ (∀ entry ∈ before, cmp entry node ≤ 0) ∧
      (∀ entry ∈ after, cmp node entry ≤ 0) ∧
      sortSearch cmp node lists addressCount (lists.sortStart list cmp node) =
        headOf 0 after := by
  unfold sortStart
  by_cases shortcut : lists.last list ≠ 0 ∧ 0 ≤ cmp node (lists.object (lists.last list))
  · -- nothing in a sorted list is greater than its last object
    refine ⟨members list, [], by simp, fun entry mem => ?_, by simp, ?_⟩
    · rw [linked.last_eq] at shortcut
      have lastMem := (List.mem_cons.mp
        (lastOf_mem : lastOf 0 (members list) ∈ 0 :: members list)).resolve_left shortcut.1
      rw [linked.object list _ lastMem] at shortcut
      have lastLe := orders.swap _ _ shortcut.2
      cases shape : members list using List.reverseRecOn with
      | nil => simp [shape] at mem
      | append_singleton front last _ =>
          rw [shape] at mem lastLe sorted
          rw [lastOf_concat] at lastLe
          rcases List.mem_append.mp mem with inFront | isLast
          · have le := (List.pairwise_append.mp sorted).2.2 entry inFront last (by simp)
            exact orders.trans _ _ _ le lastLe
          · obtain rfl := List.mem_singleton.mp isLast
            exact lastLe
    · rw [if_pos shortcut]
      simp [addressCount, sortSearch]
  · rw [if_neg shortcut, linked.first_eq]
    obtain ⟨middle, after, split, small, large, search⟩ :=
      linked.sortSearch_suffix (List.nil_append (members list)).symm short
    refine ⟨middle, after, split, fun entry mem => orders.swap _ _ (small entry mem), ?_, search⟩
    cases after with
    | nil => simp
    | cons next after =>
        have nextLe : cmp node next ≤ 0 := Int.le_of_lt (large next (by simp))
        rw [split] at sorted
        have tail := (List.pairwise_cons.mp (List.pairwise_append.mp sorted).2.1).1
        refine List.forall_mem_cons.mpr ⟨nextLe, fun entry mem => ?_⟩
        exact orders.trans _ _ _ nextLe (tail entry mem)

/-- The search looks at members only, so storing the object of a new header does
not change it. -/
theorem Linked.with_object (linked : lists.Linked members)
    (fresh : ∀ list, node ∉ members list) : (lists.setObject node).Linked members where
  ring := linked.ring
  nodup := linked.nodup
  apart := linked.apart
  object := by
    intro list entry mem
    rw [setObject_object]
    split_ifs with same
    · exact absurd (same ▸ mem) (fresh list)
    · exact linked.object list entry mem

variable [DecidableEq ι]

/-- The links that `list_sort_add` sets around a header. -/
theorem Linked.sortInsert_eq (linked : lists.Linked members)
    (place : members list = before ++ after) (nonzero : node ≠ 0)
    (fresh : ∀ list, node ∉ members list) :
    (lists.setObject node).sortInsert list node (headOf 0 after) =
      lists.linkBetween list (lastOf 0 before) node (headOf 0 after) := by
  cases after with
  | nil =>
      have last : lists.last list = lastOf 0 before := by
        rw [linked.last_eq, place, List.append_nil]
      by_cases empty : lastOf 0 before = 0
      · simp [sortInsert, linkBetween, setFollow, setPrecede, setObject, last, empty, nonzero]
      · simp [sortInsert, linkBetween, setFollow, setPrecede, setObject, last, empty, nonzero]
  | cons next after =>
      have nextMem : next ∈ members list := by simp [place]
      have nextNonzero := linked.ne_zero nextMem
      have notNext : next ≠ node := fun same => fresh list (same ▸ nextMem)
      have prev := linked.prev_eq place
      by_cases empty : lastOf 0 before = 0
      · simp [sortInsert, linkBetween, setFollow, setPrecede, setObject, prev, empty, nonzero,
          nextNonzero, notNext]
      · simp [sortInsert, linkBetween, setFollow, setPrecede, setObject, prev, empty, nonzero,
          nextNonzero, notNext]

/-- `list_sort_add` keeps a list sorted and the other lists as they are. -/
theorem Linked.sortAdd (linked : lists.Linked members) (orders : Orders cmp)
    (sorted : Sorted cmp (members list)) (short : (members list).length < addressCount)
    (nonzero : node ≠ 0) (fresh : ∀ list, node ∉ members list) :
    ∃ before after, members list = before ++ after ∧ Sorted cmp (before ++ node :: after) ∧
      (lists.listSortAdd list node cmp).Linked
        (Function.update members list (before ++ node :: after)) := by
  obtain ⟨before, after, place, small, large, search⟩ :=
    (linked.with_object fresh).sort_place orders sorted short
  refine ⟨before, after, place, ?_, ?_⟩
  · rw [place] at sorted
    obtain ⟨sortedBefore, sortedAfter, across⟩ := List.pairwise_append.mp sorted
    refine List.pairwise_append.mpr
      ⟨sortedBefore, List.pairwise_cons.mpr ⟨large, sortedAfter⟩, fun a memA b memB => ?_⟩
    rcases List.mem_cons.mp memB with rfl | inAfter
    · exact small a memA
    · exact across a memA b inAfter
  · have stored : lists.listSortAdd list node cmp =
        (lists.setObject node).sortInsert list node (headOf 0 after) := by
      rw [← search]
      rfl
    rw [stored, linked.sortInsert_eq place nonzero fresh]
    exact linked.insert place nonzero fresh

end Lists

end Oseer

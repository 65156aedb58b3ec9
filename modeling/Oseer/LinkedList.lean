import Mathlib.Data.List.Perm.Subperm
import Mathlib.Logic.Function.Basic
import Oseer.Library.Ring

/-!
# Doubly linked lists of objects

The functions of `lib/list.c`.  All lists that use the same `list_h` member of
their objects are kept together, because a header is in one such list at a
time.  A header is named by the object that contains it, and the null pointer
by zero.  The invariant `Linked` gives the members of every list.
-/

namespace Oseer

open LinkedRing

/-- Addresses of kernel objects; zero is `NULL`. -/
abbrev Ptr := Nat

/-- Number of addresses: no loop over distinct objects is longer. -/
def addressCount : Nat := 0x100000000

/-- There are fewer objects than addresses. -/
theorem length_lt_addressCount {entries : List Ptr} (nodup : (0 :: entries).Nodup)
    (pointer : ∀ entry ∈ entries, entry < addressCount) : entries.length < addressCount := by
  have inside : 0 :: entries ⊆ List.range addressCount := by
    intro entry mem
    rcases List.mem_cons.mp mem with rfl | inList
    · exact List.mem_range.mpr (by decide)
    · exact List.mem_range.mpr (pointer entry inList)
  have short := (nodup.subperm inside).length_le
  rwa [List.length_cons, List.length_range] at short

/-- The flag `FIRST`. -/
def FIRST : Nat := 0

/-- The flag `LAST`. -/
def LAST : Nat := 1

/-- The fields `prev`, `next` and `object` of the `list_h` headers, and the
fields `first` and `last` of the lists that they are linked in. -/
structure Lists (ι : Type) where
  prev : Ptr → Ptr
  next : Ptr → Ptr
  object : Ptr → Ptr
  first : ι → Ptr
  last : ι → Ptr

namespace Lists

variable {ι : Type}

section Functions

variable [DecidableEq ι]

/-- `list_init`. -/
def listInit (list : ι) (lists : Lists ι) : Lists ι :=
  { lists with
    first := Function.update lists.first list 0
    last := Function.update lists.last list 0 }

/-- `list_append`. -/
def listAppend (list : ι) (hdr : Ptr) (lists : Lists ι) : Lists ι :=
  let lists := { lists with
    object := Function.update lists.object hdr hdr
    next := Function.update lists.next hdr 0 }
  if lists.first list ≠ 0 then
    { lists with
      next := Function.update lists.next (lists.last list) hdr
      prev := Function.update lists.prev hdr (lists.last list)
      last := Function.update lists.last list hdr }
  else
    { lists with
      first := Function.update lists.first list hdr
      last := Function.update lists.last list hdr
      prev := Function.update lists.prev hdr 0 }

/-- `list_prepend`. -/
def listPrepend (list : ι) (hdr : Ptr) (lists : Lists ι) : Lists ι :=
  let lists := { lists with
    object := Function.update lists.object hdr hdr
    prev := Function.update lists.prev hdr 0
    next := Function.update lists.next hdr (lists.first list) }
  let lists :=
    if lists.first list ≠ 0 then
      { lists with prev := Function.update lists.prev (lists.first list) hdr }
    else
      { lists with last := Function.update lists.last list hdr }
  { lists with first := Function.update lists.first list hdr }

/-- `list_remove`: the removed object, or zero when there is none, and the
lists afterwards. -/
def listRemove (list : ι) (flags : Nat) (ref : Ptr) (lists : Lists ι) :
    Ptr × Lists ι :=
  let hdr :=
    if ref ≠ 0 then ref
    else if flags &&& LAST ≠ 0 then lists.last list
    else lists.first list
  if hdr ≠ 0 then
    let lists :=
      if lists.prev hdr ≠ 0 then
        { lists with next := Function.update lists.next (lists.prev hdr) (lists.next hdr) }
      else lists
    let lists :=
      if lists.next hdr ≠ 0 then
        { lists with prev := Function.update lists.prev (lists.next hdr) (lists.prev hdr) }
      else lists
    let lists :=
      if lists.first list = hdr then
        { lists with first := Function.update lists.first list (lists.next hdr) }
      else lists
    let lists :=
      if lists.last list = hdr then
        { lists with last := Function.update lists.last list (lists.prev hdr) }
      else lists
    (lists.object hdr, lists)
  else (0, lists)

end Functions

/-- `list_get`. -/
def listGet (list : ι) (flags : Nat) (lists : Lists ι) : Ptr :=
  let hdr := if flags &&& LAST ≠ 0 then lists.last list else lists.first list
  if hdr ≠ 0 then lists.object hdr else 0

/-- `list_get_next`. -/
def listGetNext (hdr : Ptr) (lists : Lists ι) : Ptr :=
  if hdr = 0 ∨ lists.next hdr = 0 then 0 else lists.object (lists.next hdr)

/-- The pointer that leads on from a header, or from the list itself. -/
def follow (lists : Lists ι) (list : ι) (node : Ptr) : Ptr :=
  if node = 0 then lists.first list else lists.next node

/-- The pointer that leads back from a header, or from the list itself. -/
def precede (lists : Lists ι) (list : ι) (node : Ptr) : Ptr :=
  if node = 0 then lists.last list else lists.prev node

/-- Two headers of a list are linked both ways. -/
def Link (lists : Lists ι) (list : ι) (a b : Ptr) : Prop :=
  lists.follow list a = b ∧ lists.precede list b = a

/-- `members` gives the elements of each list in order. -/
structure Linked (lists : Lists ι) (members : ι → List Ptr) : Prop where
  ring : ∀ list, Ring (lists.Link list) 0 (members list)
  nodup : ∀ list, (0 :: members list).Nodup
  apart : ∀ list other node, node ∈ members list → node ∈ members other → list = other
  object : ∀ list, ∀ node ∈ members list, lists.object node = node

variable {lists lists' : Lists ι} {list other : ι} {members : ι → List Ptr}
  {node : Ptr} {before after rest : List Ptr}

section Read

theorem Linked.ne_zero (linked : lists.Linked members) (mem : node ∈ members list) :
    node ≠ 0 := by
  rintro rfl
  exact (List.nodup_cons.mp (linked.nodup list)).1 mem

theorem Linked.nodup_members (linked : lists.Linked members) : (members list).Nodup :=
  (List.nodup_cons.mp (linked.nodup list)).2

theorem Linked.first_eq (linked : lists.Linked members) :
    lists.first list = headOf 0 (members list) :=
  (linked.ring list).head.1

theorem Linked.last_eq (linked : lists.Linked members) :
    lists.last list = lastOf 0 (members list) :=
  (linked.ring list).last.2

theorem Linked.next_eq (linked : lists.Linked members)
    (place : members list = before ++ node :: after) :
    lists.next node = headOf 0 after := by
  have nonzero : node ≠ 0 := linked.ne_zero (by rw [place]; simp)
  have link := (place ▸ linked.ring list).links.2.1
  rwa [follow, if_neg nonzero] at link

theorem Linked.prev_eq (linked : lists.Linked members)
    (place : members list = before ++ node :: after) :
    lists.prev node = lastOf 0 before := by
  have nonzero : node ≠ 0 := linked.ne_zero (by rw [place]; simp)
  have link := (place ▸ linked.ring list).links.1.2
  rwa [precede, if_neg nonzero] at link

theorem Linked.listGet_first (linked : lists.Linked members) (list : ι) :
    lists.listGet list FIRST = headOf 0 (members list) := by
  have flag : ¬ FIRST &&& LAST ≠ 0 := by decide
  simp only [listGet, if_neg flag, linked.first_eq]
  cases shape : members list with
  | nil => rfl
  | cons first rest =>
      have mem : first ∈ members list := by simp [shape]
      simp [linked.ne_zero mem, linked.object list first mem]

theorem Linked.eq_nil (linked : lists.Linked members) (empty : lists.listGet list FIRST = 0) :
    members list = [] := by
  cases shape : members list with
  | nil => rfl
  | cons first rest =>
      have mem : first ∈ members list := by simp [shape]
      rw [linked.listGet_first, shape, headOf_cons] at empty
      exact absurd empty (linked.ne_zero mem)

/-- What `list_get` finds is in the list. -/
theorem Linked.first_mem (linked : lists.Linked members) (first : lists.listGet list FIRST = node)
    (nonzero : node ≠ 0) : node ∈ members list := by
  rw [linked.listGet_first] at first
  cases shape : members list with
  | nil =>
      rw [shape] at first
      exact absurd first.symm nonzero
  | cons entry rest =>
      rw [shape, headOf_cons] at first
      simp [first]

theorem Linked.listGetNext_eq (linked : lists.Linked members)
    (place : members list = before ++ node :: after) :
    lists.listGetNext node = headOf 0 after := by
  have nonzero : node ≠ 0 := linked.ne_zero (by rw [place]; simp)
  unfold listGetNext
  rw [linked.next_eq place]
  cases after with
  | nil => simp
  | cons next after =>
      have mem : next ∈ members list := by simp [place]
      simp [nonzero, linked.ne_zero mem, linked.object list next mem]

theorem Linked.unique {members' : ι → List Ptr} (linked : lists.Linked members)
    (linked' : lists.Linked members') (list : ι) : members list = members' list :=
  (linked.ring list).unique (fun _ _ _ link link' => link.1.symm.trans link'.1)
    (linked'.ring list) (List.nodup_cons.mp (linked.nodup list)).1
    (List.nodup_cons.mp (linked'.nodup list)).1

/-- A member is the first one iff nothing stands before it. -/
theorem Linked.first_eq_iff (linked : lists.Linked members)
    (place : members list = before ++ node :: after) :
    lists.first list = node ↔ lastOf 0 before = 0 := by
  rw [linked.first_eq, place]
  cases before with
  | nil => simp
  | cons first before =>
      have nodup : ((first :: before) ++ node :: after).Nodup := place ▸ linked.nodup_members
      have notFirst : first ≠ node := by
        rintro rfl
        simp at nodup
      have lastMem : lastOf 0 (first :: before) ∈ members list := by
        rw [place]
        exact List.mem_append_left _ lastOf_mem_cons
      simp [notFirst, linked.ne_zero lastMem]

/-- A member is the last one iff nothing stands after it. -/
theorem Linked.last_eq_iff (linked : lists.Linked members)
    (place : members list = before ++ node :: after) :
    lists.last list = node ↔ headOf 0 after = 0 := by
  rw [linked.last_eq, place]
  cases after with
  | nil => simp
  | cons next after =>
      have nodup : (before ++ node :: next :: after).Nodup := place ▸ linked.nodup_members
      have lastMem : lastOf 0 (before ++ node :: next :: after) ∈ next :: after := by
        rw [lastOf_append_cons]
        exact lastOf_mem_cons
      have notLast : lastOf 0 (before ++ node :: next :: after) ≠ node := by
        intro same
        rw [same] at lastMem
        have nodupAfter := (List.nodup_append.mp nodup).2.1
        exact (List.nodup_cons.mp nodupAfter).1 lastMem
      have nextMem : next ∈ members list := by simp [place]
      simp [notLast, linked.ne_zero nextMem]

/-- The neighbours of a member are other headers. -/
theorem Linked.neighbours_ne (linked : lists.Linked members)
    (place : members list = before ++ node :: after) :
    lastOf 0 before ≠ node ∧ headOf 0 after ≠ node := by
  have nonzero : node ≠ 0 := linked.ne_zero (by rw [place]; simp)
  have nodup : (before ++ node :: after).Nodup := place ▸ linked.nodup_members
  have parts := List.nodup_append.mp nodup
  constructor
  · intro same
    rcases List.mem_cons.mp (lastOf_mem : lastOf 0 before ∈ 0 :: before) with isHub | mem
    · exact nonzero (same ▸ isHub)
    · exact parts.2.2 _ mem node (by simp) same
  · intro same
    rcases List.mem_cons.mp (headOf_mem : headOf 0 after ∈ 0 :: after) with isHub | mem
    · exact nonzero (same ▸ isHub)
    · exact (List.nodup_cons.mp parts.2.1).1 (same ▸ mem)

/-- A slot of a member of another list is not the slot of an entry of this
list. -/
theorem Linked.slot_apart (linked : lists.Linked members) {entry : Ptr}
    (different : other ≠ list) (memEntry : entry ∈ 0 :: members list)
    (mem : node ∈ 0 :: members other) :
    node ≠ entry ∨ node = 0 ∧ other ≠ list := by
  by_cases zero : node = 0
  · exact .inr ⟨zero, different⟩
  · refine .inl fun same => different ?_
    have inOther := (List.mem_cons.mp mem).resolve_left zero
    have inList := (List.mem_cons.mp memEntry).resolve_left (same ▸ zero)
    exact linked.apart other list node inOther (same ▸ inList)

end Read

/-- Make a header name the object that contains it. -/
def setObject (node : Ptr) (lists : Lists ι) : Lists ι :=
  { lists with object := Function.update lists.object node node }

theorem setObject_object {node' : Ptr} : (lists.setObject node).object node' =
    if node' = node then node else lists.object node' := by
  by_cases same : node' = node <;> simp [setObject, same]

theorem follow_setObject {node' : Ptr} :
    (lists.setObject node).follow other node' = lists.follow other node' := rfl

theorem precede_setObject {node' : Ptr} :
    (lists.setObject node).precede other node' = lists.precede other node' := rfl

section Edit

variable [DecidableEq ι]

/-- Make a header, or the list itself, lead on to `value`. -/
def setFollow (list : ι) (node value : Ptr) (lists : Lists ι) : Lists ι :=
  if node = 0 then { lists with first := Function.update lists.first list value }
  else { lists with next := Function.update lists.next node value }

/-- Make a header, or the list itself, lead back to `value`. -/
def setPrecede (list : ι) (node value : Ptr) (lists : Lists ι) : Lists ι :=
  if node = 0 then { lists with last := Function.update lists.last list value }
  else { lists with prev := Function.update lists.prev node value }

variable {node' value : Ptr}

@[simp]
theorem setFollow_object : (lists.setFollow list node value).object = lists.object := by
  unfold setFollow
  split <;> rfl

@[simp]
theorem setPrecede_object : (lists.setPrecede list node value).object = lists.object := by
  unfold setPrecede
  split <;> rfl

@[simp]
theorem precede_setFollow :
    (lists.setFollow list node value).precede other node' = lists.precede other node' := by
  by_cases zero : node = 0 <;> simp [setFollow, precede, zero]

@[simp]
theorem follow_setPrecede :
    (lists.setPrecede list node value).follow other node' = lists.follow other node' := by
  by_cases zero : node = 0 <;> simp [setPrecede, follow, zero]

theorem follow_setFollow_same :
    (lists.setFollow list node value).follow list node = value := by
  by_cases zero : node = 0 <;> simp [setFollow, follow, zero]

theorem follow_setFollow_other (apart : node' ≠ node ∨ node' = 0 ∧ other ≠ list) :
    (lists.setFollow list node value).follow other node' = lists.follow other node' := by
  unfold setFollow follow
  by_cases zero : node = 0 <;> by_cases zero' : node' = 0 <;>
    simp_all

theorem precede_setPrecede_same :
    (lists.setPrecede list node value).precede list node = value := by
  by_cases zero : node = 0 <;> simp [setPrecede, precede, zero]

theorem precede_setPrecede_other (apart : node' ≠ node ∨ node' = 0 ∧ other ≠ list) :
    (lists.setPrecede list node value).precede other node' = lists.precede other node' := by
  unfold setPrecede precede
  by_cases zero : node = 0 <;> by_cases zero' : node' = 0 <;>
    simp_all

/-- `list_remove` of a member joins its neighbours. -/
theorem Linked.listRemove_eq (linked : lists.Linked members) {flags : Nat}
    (place : members list = before ++ node :: after) :
    lists.listRemove list flags node =
      (node, (lists.setFollow list (lastOf 0 before) (headOf 0 after)).setPrecede list
        (headOf 0 after) (lastOf 0 before)) := by
  have mem : node ∈ members list := by simp [place]
  have nonzero := linked.ne_zero mem
  have next := linked.next_eq place
  have prev := linked.prev_eq place
  have first := linked.first_eq_iff place
  have last := linked.last_eq_iff place
  have object := linked.object list node mem
  obtain ⟨notPrev, -⟩ := linked.neighbours_ne place
  by_cases hasPrev : lastOf 0 before = 0 <;> by_cases hasNext : headOf 0 after = 0 <;>
    simp [listRemove, setFollow, setPrecede, nonzero, next, prev, first, last, object,
      hasPrev, hasNext, notPrev.symm]

/-- The family stays linked when one list is relinked and the pointers of the
others stay as they are. -/
theorem Linked.relink (linked : lists.Linked members) {new : List Ptr}
    (ring : Ring (lists'.Link list) 0 new) (nodup : (0 :: new).Nodup)
    (object : ∀ node ∈ new, lists'.object node = node)
    (fresh : ∀ node ∈ new, ∀ other, other ≠ list → node ∉ members other)
    (keep : ∀ other, other ≠ list → ∀ node ∈ 0 :: members other,
      lists'.follow other node = lists.follow other node ∧
        lists'.precede other node = lists.precede other node ∧
        (node ≠ 0 → lists'.object node = lists.object node)) :
    lists'.Linked (Function.update members list new) where
  ring := by
    intro other
    by_cases same : other = list
    · subst same
      rwa [Function.update_self]
    · rw [Function.update_of_ne same]
      refine (linked.ring other).change fun a memA b memB link => ?_
      exact ⟨(keep other same a memA).1.trans link.1, (keep other same b memB).2.1.trans link.2⟩
  nodup := by
    intro other
    by_cases same : other = list
    · subst same
      rwa [Function.update_self]
    · rw [Function.update_of_ne same]
      exact linked.nodup other
  apart := by
    intro first second node memFirst memSecond
    by_cases isFirst : first = list <;> by_cases isSecond : second = list
    · rw [isFirst, isSecond]
    · subst isFirst
      rw [Function.update_self] at memFirst
      rw [Function.update_of_ne isSecond] at memSecond
      exact absurd memSecond (fresh node memFirst second isSecond)
    · subst isSecond
      rw [Function.update_self] at memSecond
      rw [Function.update_of_ne isFirst] at memFirst
      exact absurd memFirst (fresh node memSecond first isFirst)
    · rw [Function.update_of_ne isFirst] at memFirst
      rw [Function.update_of_ne isSecond] at memSecond
      exact linked.apart first second node memFirst memSecond
  object := by
    intro other node mem
    by_cases same : other = list
    · subst same
      rw [Function.update_self] at mem
      exact object node mem
    · rw [Function.update_of_ne same] at mem
      rw [(keep other same node (.tail _ mem)).2.2 (linked.ne_zero mem)]
      exact linked.object other node mem

/-- `list_remove` of a member takes it out of its list and leaves the others. -/
theorem Linked.remove (linked : lists.Linked members) (flags : Nat)
    (place : members list = before ++ node :: after) :
    (lists.listRemove list flags node).1 = node ∧
      (lists.listRemove list flags node).2.Linked
        (Function.update members list (before ++ after)) := by
  rw [linked.listRemove_eq place]
  have members' : ∀ entry ∈ 0 :: (before ++ after), entry ∈ 0 :: members list := by
    intro entry mem
    rw [place]
    simp only [List.mem_cons, List.mem_append] at mem ⊢
    tauto
  have memLast : lastOf 0 before ∈ 0 :: members list := by
    refine members' _ (List.mem_cons.mpr ?_)
    exact (List.mem_cons.mp lastOf_mem).imp id (List.mem_append_left after)
  have memHead : headOf 0 after ∈ 0 :: members list := by
    refine members' _ (List.mem_cons.mpr ?_)
    exact (List.mem_cons.mp headOf_mem).imp id (List.mem_append_right before)
  have nodup : (0 :: (before ++ node :: after)).Nodup := place ▸ linked.nodup list
  refine ⟨rfl, linked.relink ?_ (nodup.sublist (by simp)) ?_ ?_ ?_⟩
  · refine (place ▸ linked.ring list).unlink nodup ⟨?_, ?_⟩ ?_
    · rw [follow_setPrecede, follow_setFollow_same]
    · rw [precede_setPrecede_same]
    · intro a _ b _ notLast notHead link
      constructor
      · rw [follow_setPrecede, follow_setFollow_other (.inl notLast), link.1]
      · rw [precede_setPrecede_other (.inl notHead), precede_setFollow, link.2]
  · intro entry mem
    rw [setPrecede_object, setFollow_object]
    refine linked.object list entry ?_
    rw [place]
    simp only [List.mem_append, List.mem_cons] at mem ⊢
    tauto
  · intro entry mem other different inOther
    have inList := members' entry (.tail _ mem)
    have nonzero := linked.ne_zero inOther
    exact different (linked.apart other list entry inOther
      ((List.mem_cons.mp inList).resolve_left nonzero))
  · intro other different entry mem
    refine ⟨?_, ?_, fun _ => by rw [setPrecede_object, setFollow_object]⟩
    · rw [follow_setPrecede,
        follow_setFollow_other (linked.slot_apart different memLast mem)]
    · rw [precede_setPrecede_other (linked.slot_apart different memHead mem),
        precede_setFollow]

theorem Linked.listRemove_first (linked : lists.Linked members)
    (place : members list = node :: rest) :
    lists.listRemove list FIRST 0 = lists.listRemove list FIRST node := by
  have first : lists.first list = node := by rw [linked.first_eq, place, headOf_cons]
  have nonzero : node ≠ 0 := linked.ne_zero (by rw [place]; simp)
  have flag : ¬ FIRST &&& LAST ≠ 0 := by decide
  simp only [listRemove, if_neg flag, first, ne_eq, not_true_eq_false, if_false, nonzero,
    not_false_eq_true, if_true]

theorem Linked.listRemove_empty (linked : lists.Linked members) (empty : members list = []) :
    lists.listRemove list FIRST 0 = (0, lists) := by
  have first : lists.first list = 0 := by rw [linked.first_eq, empty, headOf_nil]
  have flag : ¬ FIRST &&& LAST ≠ 0 := by decide
  simp [listRemove, first, flag]

/-- The links that put a header between two neighbours. -/
def linkBetween (list : ι) (previous node next : Ptr) (lists : Lists ι) : Lists ι :=
  setPrecede list next node (setPrecede list node previous
    (setFollow list previous node (setFollow list node next (lists.setObject node))))

/-- Putting a header that is in no list between two neighbours of a list. -/
theorem Linked.insert (linked : lists.Linked members) (place : members list = before ++ after)
    (nonzero : node ≠ 0) (fresh : ∀ list, node ∉ members list) :
    (lists.linkBetween list (lastOf 0 before) node (headOf 0 after)).Linked
      (Function.update members list (before ++ node :: after)) := by
  have memLast : lastOf 0 before ∈ 0 :: members list := by
    rw [place]
    refine List.mem_cons.mpr ?_
    exact (List.mem_cons.mp lastOf_mem).imp id (List.mem_append_left after)
  have memHead : headOf 0 after ∈ 0 :: members list := by
    rw [place]
    refine List.mem_cons.mpr ?_
    exact (List.mem_cons.mp headOf_mem).imp id (List.mem_append_right before)
  have old : ∀ other, ∀ entry ∈ 0 :: members other, entry ≠ node := by
    rintro other entry mem rfl
    rcases List.mem_cons.mp mem with isHub | inOther
    · exact nonzero isHub
    · exact fresh other inOther
  have notLast := (old list _ memLast).symm
  have notHead := (old list _ memHead).symm
  have nodup : (0 :: (before ++ after)).Nodup := place ▸ linked.nodup list
  unfold linkBetween
  refine linked.relink ?_ ?_ ?_ ?_ ?_
  · refine (place ▸ linked.ring list).link nodup ⟨?_, ?_⟩ ⟨?_, ?_⟩ ?_
    · simp only [follow_setPrecede, follow_setFollow_same]
    · rw [precede_setPrecede_other (.inl notHead), precede_setPrecede_same]
    · rw [follow_setPrecede, follow_setPrecede, follow_setFollow_other (.inl notLast),
        follow_setFollow_same]
    · rw [precede_setPrecede_same]
    · intro a memA b memB notEnd notStart link
      rw [← place] at memA memB
      constructor
      · rw [follow_setPrecede, follow_setPrecede, follow_setFollow_other (.inl notEnd),
          follow_setFollow_other (.inl (old list a memA)), follow_setObject, link.1]
      · rw [precede_setPrecede_other (.inl notStart),
          precede_setPrecede_other (.inl (old list b memB)), precede_setFollow,
          precede_setFollow, precede_setObject, link.2]
  · rw [← List.cons_append, List.nodup_middle, List.cons_append]
    refine List.nodup_cons.mpr ⟨fun mem => ?_, nodup⟩
    exact old list node (place ▸ mem) rfl
  · intro entry mem
    simp only [setPrecede_object, setFollow_object, setObject_object]
    split_ifs with same
    · exact same.symm
    · refine linked.object list entry ?_
      rw [place]
      simpa [same] using mem
  · intro entry mem other different inOther
    have notNode := old other entry (.tail _ inOther)
    have inList : entry ∈ members list := by
      rw [place]
      simpa [notNode] using mem
    exact different (linked.apart other list entry inOther inList)
  · intro other different entry mem
    have apartLast := linked.slot_apart different memLast mem
    have apartHead := linked.slot_apart different memHead mem
    have notNode := old other entry mem
    refine ⟨?_, ?_, fun _ => ?_⟩
    · rw [follow_setPrecede, follow_setPrecede, follow_setFollow_other apartLast,
        follow_setFollow_other (.inl notNode), follow_setObject]
    · rw [precede_setPrecede_other apartHead, precede_setPrecede_other (.inl notNode),
        precede_setFollow, precede_setFollow, precede_setObject]
    · simp only [setPrecede_object, setFollow_object, setObject_object, if_neg notNode]

/-- `list_append` sets the links around the new last member. -/
theorem Linked.listAppend_eq (linked : lists.Linked members) (nonzero : node ≠ 0) :
    lists.listAppend list node =
      lists.linkBetween list (lastOf 0 (members list)) node 0 := by
  have first : lists.first list = headOf 0 (members list) := linked.first_eq
  have last : lists.last list = lastOf 0 (members list) := linked.last_eq
  by_cases empty : members list = []
  · simp [listAppend, linkBetween, setFollow, setPrecede, setObject, first, empty, nonzero]
  · obtain ⟨head, tail, shape⟩ := List.exists_cons_of_ne_nil empty
    have headMem : head ∈ members list := by simp [shape]
    have lastMem : lastOf 0 (members list) ∈ members list := by
      rw [shape]
      exact lastOf_mem_cons
    have notEmpty : headOf 0 (members list) ≠ 0 := by
      rw [shape, headOf_cons]
      exact linked.ne_zero headMem
    simp [listAppend, linkBetween, setFollow, setPrecede, setObject, first, last, notEmpty,
      nonzero, linked.ne_zero lastMem]

theorem Linked.append (linked : lists.Linked members) (nonzero : node ≠ 0)
    (fresh : ∀ list, node ∉ members list) :
    (lists.listAppend list node).Linked
      (Function.update members list (members list ++ [node])) := by
  rw [linked.listAppend_eq nonzero]
  exact linked.insert (List.append_nil _).symm nonzero fresh

theorem Linked.listPrepend_eq (linked : lists.Linked members) (nonzero : node ≠ 0) :
    lists.listPrepend list node =
      lists.linkBetween list 0 node (headOf 0 (members list)) := by
  have first : lists.first list = headOf 0 (members list) := linked.first_eq
  by_cases empty : headOf 0 (members list) = 0
  · simp [listPrepend, linkBetween, setFollow, setPrecede, setObject, first, empty, nonzero]
  · simp [listPrepend, linkBetween, setFollow, setPrecede, setObject, first, empty, nonzero]

theorem Linked.prepend (linked : lists.Linked members) (nonzero : node ≠ 0)
    (fresh : ∀ list, node ∉ members list) :
    (lists.listPrepend list node).Linked
      (Function.update members list (node :: members list)) := by
  rw [linked.listPrepend_eq nonzero]
  exact linked.insert (List.nil_append _).symm nonzero fresh

theorem Linked.listInit_eq (linked : lists.Linked members) (empty : members list = []) :
    lists.listInit list = lists := by
  have first : lists.first list = 0 := by rw [linked.first_eq, empty, headOf_nil]
  have last : lists.last list = 0 := by rw [linked.last_eq, empty, lastOf_nil]
  have firstKept : Function.update lists.first list 0 = lists.first :=
    Function.update_eq_self_iff.mpr first.symm
  have lastKept : Function.update lists.last list 0 = lists.last :=
    Function.update_eq_self_iff.mpr last.symm
  rw [listInit, firstKept, lastKept]

end Edit

section Single

variable {list : Lists Unit} {entries : List Ptr}

theorem Linked.init_single : (list.listInit ()).Linked fun _ => [] where
  ring := fun _ => by simp [LinkedRing.Ring, Link, follow, precede, listInit]
  nodup := by simp
  apart := by simp
  object := by simp

theorem Linked.append_single (linked : list.Linked fun _ => entries) (nonzero : node ≠ 0)
    (fresh : node ∉ entries) : (list.listAppend () node).Linked fun _ => entries ++ [node] := by
  have appended : (list.listAppend () node).Linked
      (Function.update (fun _ : Unit => entries) () (entries ++ [node])) :=
    linked.append nonzero fun _ => fresh
  have only : Function.update (fun _ : Unit => entries) () (entries ++ [node]) =
      fun _ => entries ++ [node] := by
    funext
    rfl
  rwa [only] at appended

/-- `list_remove` where there is one list only. -/
theorem Linked.remove_single (linked : list.Linked fun _ => entries) (flags : Nat)
    (mem : node ∈ entries) :
    (list.listRemove () flags node).1 = node ∧
      (list.listRemove () flags node).2.Linked fun _ => entries.erase node := by
  obtain ⟨before, after, place⟩ := List.append_of_mem mem
  have removed : (list.listRemove () flags node).1 = node ∧
      (list.listRemove () flags node).2.Linked
        (Function.update (fun _ : Unit => entries) () (before ++ after)) :=
    linked.remove flags place
  have nodup : entries.Nodup := (List.nodup_cons.mp (linked.nodup ())).2
  have rest : entries.erase node = before ++ after := by
    rw [place] at nodup ⊢
    have notBefore := (List.nodup_cons.mp (List.nodup_middle.mp nodup)).1
    rw [List.erase_append_right _ fun inBefore =>
      notBefore (List.mem_append_left _ inBefore), List.erase_cons_head]
  have only : Function.update (fun _ : Unit => entries) () (before ++ after) =
      fun _ => entries.erase node := by
    funext
    rw [rest]
    rfl
  rwa [only] at removed

end Single

end Lists

end Oseer

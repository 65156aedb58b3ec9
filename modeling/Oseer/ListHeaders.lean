import Oseer.SortedList

/-!
# Lists of headers inside of objects

The functions of `lib/list.c` once more, for one list, where a header may lie anywhere in its
object.  Without the objects they are the functions on headers that name their objects, and of a
list nothing is known but that its own links are consistent.
-/

namespace Oseer

open LinkedRing Lists

namespace ListHeaders

variable {ι : Type}

section Functions

variable [DecidableEq ι]

/-- `list_append`. -/
def listAppend (list : ι) (object hdr : Ptr) (lists : Lists ι) : Lists ι :=
  let lists := { lists with
    object := Function.update lists.object hdr object
    next := Function.update lists.next hdr 0 }
  if lists.first list ≠ 0 then
    { lists with
      next := Function.update lists.next (lists.last list) hdr
      prev := Function.update lists.prev hdr (lists.last list)
      last := Function.update lists.last list hdr }
  else
    { lists with
      first := Function.update lists.first list hdr
      last := Function.update lists.last list hdr
      prev := Function.update lists.prev hdr 0 }

/-- `list_prepend`. -/
def listPrepend (list : ι) (object hdr : Ptr) (lists : Lists ι) : Lists ι :=
  let lists := { lists with
    object := Function.update lists.object hdr object
    prev := Function.update lists.prev hdr 0
    next := Function.update lists.next hdr (lists.first list) }
  let lists :=
    if lists.first list ≠ 0 then
      { lists with prev := Function.update lists.prev (lists.first list) hdr }
    else
      { lists with last := Function.update lists.last list hdr }
  { lists with first := Function.update lists.first list hdr }

/-- `list_sort_add` with the start of its search as a parameter. -/
def sortAddFrom (start : Lists ι → Ptr) (list : ι) (object hdr : Ptr) (cmp : Ptr → Ptr → Int)
    (lists : Lists ι) : Lists ι :=
  let lists := { lists with object := Function.update lists.object hdr object }
  lists.sortInsert list hdr (sortSearch cmp object lists addressCount (start lists))

/-- `list_sort_add`. -/
def listSortAdd (list : ι) (object hdr : Ptr) (cmp : Ptr → Ptr → Int) (lists : Lists ι) :
    Lists ι :=
  sortAddFrom (sortStart list cmp object) list object hdr cmp lists

/-- The objects from one on, as a loop with `list_get_next` meets them, where `header` gives the
header inside of an object. -/
def walk (header : Ptr → Ptr) (lists : Lists ι) : Nat → Ptr → List Ptr
  | 0, _ => []
  | fuel + 1, object =>
      if object ≠ 0 then object :: walk header lists fuel (lists.listGetNext (header object))
      else []

end Functions

/-- A list is linked both ways through its headers. -/
structure Chain (lists : Lists ι) (list : ι) (entries : List Ptr) : Prop where
  ring : Ring (lists.Link list) 0 entries
  nodup : (0 :: entries).Nodup
  pointer : ∀ hdr ∈ entries, hdr < addressCount

/-- A header that is not in the list. -/
structure New (entries : List Ptr) (hdr : Ptr) : Prop where
  nonzero : hdr ≠ 0
  pointer : hdr < addressCount
  fresh : hdr ∉ entries

/-- The objects of a list in order, each through its header. -/
structure Holds (lists : Lists ι) (list : ι) (entries objects : List Ptr) : Prop where
  chain : Chain lists list entries
  objects : entries.map lists.object = objects

/-- `cmp` tells the order of any two objects, which may be equal in it. -/
structure Preorders (cmp : Ptr → Ptr → Int) : Prop where
  swap : ∀ a b, 0 ≤ cmp a b ↔ cmp b a ≤ 0
  trans : ∀ a b c, cmp a b ≤ 0 → cmp b c ≤ 0 → cmp a c ≤ 0

/-- One list, where each header names itself. -/
def bare (list : ι) (lists : Lists ι) : Lists Unit where
  prev := lists.prev
  next := lists.next
  object := id
  first := fun _ => lists.first list
  last := fun _ => lists.last list

variable {lists lists' : Lists ι} {list : ι} {entries objects before after rest : List Ptr}
  {object hdr : Ptr} {cmp : Ptr → Ptr → Int} {fuel flags : Nat}

section Bare

theorem Chain.linked (chain : Chain lists list entries) :
    (bare list lists).Linked fun _ => entries where
  ring := fun _ => chain.ring
  nodup := fun _ => chain.nodup
  apart := fun _ _ _ _ _ => rfl
  object := fun _ _ _ => rfl

theorem Chain.of_linked (linked : (bare list lists).Linked fun _ => entries)
    (pointer : ∀ hdr ∈ entries, hdr < addressCount) : Chain lists list entries :=
  ⟨linked.ring (), linked.nodup (), pointer⟩

theorem update_unit {α : Type} (a b : α) : Function.update (fun _ : Unit => a) () b = fun _ => b :=
  funext fun _ => rfl

theorem update_id : Function.update id hdr hdr = (id : Ptr → Ptr) :=
  Function.update_eq_self hdr id

theorem Chain.ne_zero (chain : Chain lists list entries) (mem : hdr ∈ entries) : hdr ≠ 0 := by
  rintro rfl
  exact (List.nodup_cons.mp chain.nodup).1 mem

theorem Chain.next_eq (chain : Chain lists list entries)
    (place : entries = before ++ hdr :: after) : lists.next hdr = headOf 0 after := by
  have follows := (place ▸ chain.ring).links.2.1
  rwa [follow, if_neg (chain.ne_zero (by simp [place]))] at follows

theorem Chain.length_lt (chain : Chain lists list entries) : entries.length < addressCount :=
  length_lt_addressCount chain.nodup chain.pointer

/-- A search reads the objects of the headers that it passes. -/
theorem sortSearch_bare (list : ι) (stored : lists.object hdr = object) (iter : Ptr) :
    sortSearch cmp object lists fuel iter =
      sortSearch (fun a b => cmp (lists.object a) (lists.object b)) hdr (bare list lists)
        fuel iter := by
  subst stored
  induction fuel generalizing iter with
  | zero => rfl
  | succ fuel ih =>
      have named : (bare list lists).object iter = iter := rfl
      unfold sortSearch
      rw [named]
      by_cases passed : iter ≠ 0 ∧ 0 ≤ cmp (lists.object hdr) (lists.object iter)
      · rw [if_pos passed, if_pos passed]
        exact ih (lists.next iter)
      · rw [if_neg passed, if_neg passed]

theorem bare_setObject : (bare list lists).setObject hdr = bare list lists := by
  unfold setObject bare
  dsimp only
  rw [update_id]

variable [DecidableEq ι]

theorem bare_listAppend :
    bare list (listAppend list object hdr lists) = (bare list lists).listAppend () hdr := by
  unfold listAppend Lists.listAppend bare
  by_cases empty : lists.first list = 0
  · simp [empty, update_id, update_unit]
  · simp [empty, update_id, update_unit]

theorem bare_listPrepend :
    bare list (listPrepend list object hdr lists) = (bare list lists).listPrepend () hdr := by
  unfold listPrepend Lists.listPrepend bare
  by_cases empty : lists.first list = 0
  · simp [empty, update_id, update_unit]
  · simp [empty, update_id, update_unit]

theorem bare_sortInsert (iter : Ptr) :
    bare list (lists.sortInsert list hdr iter) = (bare list lists).sortInsert () hdr iter := by
  unfold sortInsert bare
  by_cases isEnd : iter = 0
  · by_cases empty : lists.last list = 0
    · simp [isEnd, empty, update_unit]
    · simp [isEnd, empty, update_unit]
  · by_cases isFirst : Function.update lists.prev hdr (lists.prev iter) iter = 0
    · simp [isEnd, isFirst, update_unit]
    · simp [isEnd, isFirst]

end Bare

section Unlink

/-- The first assignment of `list_remove`. -/
def unlinkNext (hdr : Ptr) (lists : Lists ι) : Lists ι :=
  if lists.prev hdr ≠ 0 then
    { lists with next := Function.update lists.next (lists.prev hdr) (lists.next hdr) }
  else lists

/-- The second assignment of `list_remove`. -/
def unlinkPrev (hdr : Ptr) (lists : Lists ι) : Lists ι :=
  if lists.next hdr ≠ 0 then
    { lists with prev := Function.update lists.prev (lists.next hdr) (lists.prev hdr) }
  else lists

/-- The third assignment of `list_remove`. -/
def unlinkFirst [DecidableEq ι] (list : ι) (hdr : Ptr) (lists : Lists ι) : Lists ι :=
  if lists.first list = hdr then
    { lists with first := Function.update lists.first list (lists.next hdr) }
  else lists

/-- The fourth assignment of `list_remove`. -/
def unlinkLast [DecidableEq ι] (list : ι) (hdr : Ptr) (lists : Lists ι) : Lists ι :=
  if lists.last list = hdr then
    { lists with last := Function.update lists.last list (lists.prev hdr) }
  else lists

theorem bare_unlinkNext : bare list (unlinkNext hdr lists) = unlinkNext hdr (bare list lists) := by
  unfold unlinkNext bare
  split <;> rfl

theorem unlinkNext_object : (unlinkNext hdr lists).object = lists.object := by
  unfold unlinkNext
  split <;> rfl

theorem bare_unlinkPrev : bare list (unlinkPrev hdr lists) = unlinkPrev hdr (bare list lists) := by
  unfold unlinkPrev bare
  split <;> rfl

theorem unlinkPrev_object : (unlinkPrev hdr lists).object = lists.object := by
  unfold unlinkPrev
  split <;> rfl

variable [DecidableEq ι]

theorem bare_unlinkFirst :
    bare list (unlinkFirst list hdr lists) = unlinkFirst () hdr (bare list lists) := by
  unfold unlinkFirst bare
  split
  · simp [update_unit]
  · rfl

theorem unlinkFirst_object : (unlinkFirst list hdr lists).object = lists.object := by
  unfold unlinkFirst
  split <;> rfl

theorem bare_unlinkLast :
    bare list (unlinkLast list hdr lists) = unlinkLast () hdr (bare list lists) := by
  unfold unlinkLast bare
  split
  · simp [update_unit]
  · rfl

theorem unlinkLast_object : (unlinkLast list hdr lists).object = lists.object := by
  unfold unlinkLast
  split <;> rfl

theorem listRemove_eq (flags : Nat) (nonzero : hdr ≠ 0) :
    lists.listRemove list flags hdr = (lists.object hdr,
      unlinkLast list hdr (unlinkFirst list hdr (unlinkPrev hdr (unlinkNext hdr lists)))) := by
  have given : (if hdr ≠ 0 then hdr
      else if flags &&& LAST ≠ 0 then lists.last list else lists.first list) = hdr :=
    if_pos nonzero
  have kept : (unlinkLast list hdr
      (unlinkFirst list hdr (unlinkPrev hdr (unlinkNext hdr lists)))).object = lists.object := by
    rw [unlinkLast_object, unlinkFirst_object, unlinkPrev_object, unlinkNext_object]
  rw [← kept]
  unfold Lists.listRemove
  rw [given]
  exact if_pos nonzero

theorem bare_listRemove (nonzero : hdr ≠ 0) :
    bare list (lists.listRemove list flags hdr).2 =
      ((bare list lists).listRemove () flags hdr).2 := by
  rw [listRemove_eq flags nonzero, listRemove_eq flags nonzero]
  dsimp only
  rw [bare_unlinkLast, bare_unlinkFirst, bare_unlinkPrev, bare_unlinkNext]

theorem listRemove_object (flags : Nat) (nonzero : hdr ≠ 0) :
    (lists.listRemove list flags hdr).2.object = lists.object := by
  rw [listRemove_eq flags nonzero, unlinkLast_object, unlinkFirst_object, unlinkPrev_object,
    unlinkNext_object]

/-- The member that `list_remove` takes when it is given none. -/
theorem listRemove_zero (flags : Nat)
    (nonzero : (if flags &&& LAST ≠ 0 then lists.last list else lists.first list) ≠ 0) :
    lists.listRemove list flags 0 = lists.listRemove list flags
      (if flags &&& LAST ≠ 0 then lists.last list else lists.first list) := by
  have given : ∀ hdr : Ptr, hdr ≠ 0 → (if hdr ≠ 0 then hdr
      else if flags &&& LAST ≠ 0 then lists.last list else lists.first list) = hdr :=
    fun hdr given => if_pos given
  have notGiven : (if (0 : Ptr) ≠ 0 then 0
      else if flags &&& LAST ≠ 0 then lists.last list else lists.first list) =
    if flags &&& LAST ≠ 0 then lists.last list else lists.first list := rfl
  unfold Lists.listRemove
  rw [given _ nonzero, notGiven]

end Unlink

section Sorted

theorem Preorders.le_of_nonneg (preorders : Preorders cmp) {a b : Ptr} (le : 0 ≤ cmp a b) :
    cmp b a ≤ 0 :=
  (preorders.swap a b).mp le

theorem Preorders.neg_of_le (preorders : Preorders cmp) {a b c : Ptr} (less : cmp a b < 0)
    (le : cmp b c ≤ 0) : cmp a c < 0 := by
  by_contra notLess
  have back := preorders.le_of_nonneg (Int.not_lt.mp notLess)
  have around := (preorders.swap a b).mpr (preorders.trans b c a le back)
  omega

/-- Where the plain scan of a sorted list stops. -/
theorem scan_place {rows : Lists ι} {members : ι → List Ptr} (linked : rows.Linked members)
    (list : ι) (hdr : Ptr) (preorders : Preorders cmp) (sorted : Sorted cmp (members list))
    (short : (members list).length < addressCount) :
    ∃ before after, members list = before ++ after ∧ (∀ entry ∈ before, cmp entry hdr ≤ 0) ∧
      (∀ entry ∈ after, cmp hdr entry < 0) ∧
      sortSearch cmp hdr rows addressCount (rows.first list) = headOf 0 after := by
  obtain ⟨before, after, place, passed, stopped, search⟩ :=
    linked.sortSearch_suffix (List.nil_append (members list)).symm short
  rw [← linked.first_eq] at search
  refine ⟨before, after, place, fun entry mem => ?_, fun entry mem => ?_, search⟩
  · exact preorders.le_of_nonneg (passed entry mem)
  · cases after with
    | nil => simp at mem
    | cons next after =>
        have less : cmp hdr next < 0 := stopped next (by simp)
        rw [place] at sorted
        have tail := (List.pairwise_cons.mp (List.pairwise_append.mp sorted).2.1).1
        rcases List.mem_cons.mp mem with rfl | inAfter
        · exact less
        · exact preorders.neg_of_le less (tail entry inAfter)

/-- Looking at the last object first finds the same place. -/
theorem shortcut_eq {rows : Lists ι} {members : ι → List Ptr} (linked : rows.Linked members)
    (list : ι) (hdr : Ptr) (preorders : Preorders cmp) (sorted : Sorted cmp (members list))
    (short : (members list).length < addressCount) :
    sortSearch cmp hdr rows addressCount (rows.sortStart list cmp hdr) =
      sortSearch cmp hdr rows addressCount (rows.first list) := by
  unfold sortStart
  split
  next shortcut =>
    obtain ⟨before, after, place, -, larger, search⟩ := scan_place linked list hdr preorders sorted short
    rw [search]
    cases after using List.reverseRecOn with
    | nil => simp [addressCount, sortSearch]
    | append_singleton front last _ =>
        have isLast : rows.last list = last := by
          rw [linked.last_eq, place, ← List.append_assoc, lastOf_concat]
        have object : rows.object last = last :=
          linked.object list last (by rw [place]; simp)
        rw [isLast, object] at shortcut
        exact absurd (larger last (by simp)) (Int.not_lt.mpr shortcut.2)
  next => rfl

/-- The search of `list_sort_add` in a list whose objects are sorted. -/
theorem Chain.search [DecidableEq ι] (chain : Chain lists list entries)
    (named : lists.object hdr = object) (preorders : Preorders cmp)
    (sorted : Sorted cmp (entries.map lists.object)) :
    sortSearch cmp object lists addressCount (sortStart list cmp object lists) =
        sortSearch cmp object lists addressCount (lists.first list) ∧
      ∃ before after, entries = before ++ after ∧
        (∀ entry ∈ before, cmp (lists.object entry) object ≤ 0) ∧
        (∀ entry ∈ after, cmp object (lists.object entry) < 0) ∧
        sortSearch cmp object lists addressCount (lists.first list) = headOf 0 after := by
  have linked := chain.linked
  have short := chain.length_lt
  have preorders' : Preorders fun a b => cmp (lists.object a) (lists.object b) :=
    ⟨fun a b => preorders.swap _ _, fun a b c => preorders.trans _ _ _⟩
  have sorted' : Sorted (fun a b => cmp (lists.object a) (lists.object b)) entries :=
    List.pairwise_map.mp sorted
  have start : sortStart list cmp object lists = (bare list lists).sortStart ()
      (fun a b => cmp (lists.object a) (lists.object b)) hdr := by
    rw [← named]
    rfl
  rw [start, sortSearch_bare list named, sortSearch_bare list named]
  refine ⟨shortcut_eq linked () hdr preorders' sorted' short, ?_⟩
  obtain ⟨before, after, place, le, less, search⟩ :=
    scan_place linked () hdr preorders' sorted' short
  rw [← named]
  exact ⟨before, after, place, le, less, search⟩

end Sorted

section Operations

theorem map_update (absent : hdr ∉ entries) :
    entries.map (Function.update lists.object hdr object) = entries.map lists.object := by
  apply List.map_congr_left
  intro entry mem
  have other : entry ≠ hdr := by
    rintro rfl
    exact absent mem
  rw [Function.update_of_ne other]

theorem New.fresh_bare (new : New entries hdr) : ∀ _ : Unit, hdr ∉ entries := fun _ => new.fresh

/-- A header that is put in between two others. -/
theorem Holds.put (holds : Holds lists list entries objects) (new : New entries hdr)
    (place : entries = before ++ after)
    (linked : (bare list lists').Linked fun _ => before ++ hdr :: after)
    (stored : lists'.object = Function.update lists.object hdr object) :
    Holds lists' list (before ++ hdr :: after)
      (before.map lists.object ++ object :: after.map lists.object) := by
  subst place
  have pointer : ∀ entry ∈ before ++ hdr :: after, entry < addressCount := by
    intro entry mem
    by_cases same : entry = hdr
    · rw [same]
      exact new.pointer
    · apply holds.chain.pointer
      simpa [same] using mem
  have absent := List.mem_append.not.mp new.fresh
  rw [not_or] at absent
  refine ⟨Chain.of_linked linked pointer, ?_⟩
  rw [List.map_append, List.map_cons, stored, map_update absent.1, map_update absent.2,
    Function.update_self]

variable [DecidableEq ι]

theorem Holds.listInit (lists : Lists ι) (list : ι) : Holds (lists.listInit list) list [] [] where
  chain :=
    { ring := by simp [Link, follow, precede, Lists.listInit]
      nodup := List.nodup_singleton 0
      pointer := by simp }
  objects := rfl

theorem Holds.listAppend (holds : Holds lists list entries objects) (new : New entries hdr) :
    Holds (ListHeaders.listAppend list object hdr lists) list (entries ++ [hdr])
      (objects ++ [object]) := by
  have linked : (bare list (ListHeaders.listAppend list object hdr lists)).Linked
      fun _ => entries ++ [hdr] := by
    rw [bare_listAppend, ← update_unit entries]
    exact holds.chain.linked.append new.nonzero new.fresh_bare
  have stored : (ListHeaders.listAppend list object hdr lists).object =
      Function.update lists.object hdr object := by
    unfold ListHeaders.listAppend
    dsimp only
    split_ifs <;> rfl
  have put := holds.put new (List.append_nil entries).symm linked stored
  rwa [holds.objects] at put

theorem Holds.listPrepend (holds : Holds lists list entries objects) (new : New entries hdr) :
    Holds (ListHeaders.listPrepend list object hdr lists) list (hdr :: entries)
      (object :: objects) := by
  have linked : (bare list (ListHeaders.listPrepend list object hdr lists)).Linked
      fun _ => hdr :: entries := by
    rw [bare_listPrepend, ← update_unit entries]
    exact holds.chain.linked.prepend new.nonzero new.fresh_bare
  have stored : (ListHeaders.listPrepend list object hdr lists).object =
      Function.update lists.object hdr object := by
    unfold ListHeaders.listPrepend
    dsimp only
    split_ifs <;> rfl
  have put := holds.put new (List.nil_append entries).symm linked stored
  rwa [holds.objects] at put

theorem sortInsert_object (iter : Ptr) :
    (lists.sortInsert list hdr iter).object = lists.object := by
  unfold sortInsert
  dsimp only
  split_ifs <;> rfl

/-- The sorted place of an object, which the shortcut finds too. -/
theorem Holds.listSortAdd (holds : Holds lists list entries objects) (new : New entries hdr)
    (preorders : Preorders cmp) (sorted : Sorted cmp objects) :
    ListHeaders.listSortAdd list object hdr cmp lists =
        sortAddFrom (fun lists => lists.first list) list object hdr cmp lists ∧
      ∃ before after, entries = before ++ after ∧
        (∀ entry ∈ before, cmp (lists.object entry) object ≤ 0) ∧
        (∀ entry ∈ after, cmp object (lists.object entry) < 0) ∧
        Holds (ListHeaders.listSortAdd list object hdr cmp lists) list (before ++ hdr :: after)
          (before.map lists.object ++ object :: after.map lists.object) := by
  obtain ⟨stored, isStored⟩ : ∃ stored : Lists ι,
      stored = { lists with object := Function.update lists.object hdr object } := ⟨_, rfl⟩
  have named : stored.object hdr = object := by
    rw [isStored]
    exact Function.update_self ..
  have kept : entries.map stored.object = entries.map lists.object := by
    rw [isStored]
    exact map_update new.fresh
  have chain : Chain stored list entries := by
    rw [isStored]
    exact ⟨holds.chain.ring, holds.chain.nodup, holds.chain.pointer⟩
  rw [← holds.objects, ← kept] at sorted
  obtain ⟨same, before, after, place, le, less, search⟩ := chain.search named preorders sorted
  have inserted : ListHeaders.listSortAdd list object hdr cmp lists =
      stored.sortInsert list hdr (headOf 0 after) := by
    rw [← search, ← same, isStored]
    rfl
  have scanned : sortAddFrom (fun lists => lists.first list) list object hdr cmp lists =
      stored.sortInsert list hdr (headOf 0 after) := by
    rw [← search, isStored]
    rfl
  have linkedNow : (bare list (stored.sortInsert list hdr (headOf 0 after))).Linked
      fun _ => before ++ hdr :: after := by
    have links : ((bare list stored).setObject hdr).sortInsert () hdr (headOf 0 after) =
        (bare list stored).linkBetween () (lastOf 0 before) hdr (headOf 0 after) :=
      chain.linked.sortInsert_eq place new.nonzero new.fresh_bare
    rw [bare_setObject] at links
    rw [bare_sortInsert, links, ← update_unit entries]
    exact chain.linked.insert place new.nonzero new.fresh_bare
  have storedNow : (stored.sortInsert list hdr (headOf 0 after)).object =
      Function.update lists.object hdr object := by
    rw [sortInsert_object, isStored]
  have absent := List.mem_append.not.mp (place ▸ new.fresh)
  rw [not_or] at absent
  have keptObjects : ∀ part : List Ptr, hdr ∉ part → ∀ entry ∈ part,
      lists.object entry = stored.object entry := by
    intro part notMem
    rw [isStored]
    exact List.map_inj_left.mp (map_update notMem).symm
  rw [inserted, scanned]
  refine ⟨rfl, before, after, place, fun entry mem => ?_, fun entry mem => ?_,
    holds.put new place linkedNow storedNow⟩
  · rw [keptObjects before absent.1 entry mem]
    exact le entry mem
  · rw [keptObjects after absent.2 entry mem]
    exact less entry mem

/-- A header that is taken out from between its neighbours. -/
theorem Holds.listRemove (holds : Holds lists list entries objects) (flags : Nat)
    (place : entries = before ++ hdr :: after) :
    (lists.listRemove list flags hdr).1 = lists.object hdr ∧
      Holds (lists.listRemove list flags hdr).2 list (before ++ after)
        (before.map lists.object ++ after.map lists.object) := by
  have nonzero : hdr ≠ 0 := holds.chain.ne_zero (by simp [place])
  have removed : (bare list (lists.listRemove list flags hdr).2).Linked
      fun _ => before ++ after := by
    rw [bare_listRemove nonzero, ← update_unit entries]
    exact (holds.chain.linked.remove flags place).2
  refine ⟨by rw [listRemove_eq flags nonzero], Chain.of_linked removed ?_, ?_⟩
  · intro entry mem
    apply holds.chain.pointer
    rw [place]
    simp only [List.mem_append, List.mem_cons] at mem ⊢
    tauto
  · rw [listRemove_object flags nonzero, List.map_append]

/-- Without a member `list_remove` takes the first one or the last one. -/
theorem Holds.listRemove_end (holds : Holds lists list entries objects) (flags : Nat) :
    (entries = [] → lists.listRemove list flags 0 = (0, lists)) ∧
      (flags &&& LAST = 0 → ∀ hdr rest, entries = hdr :: rest →
        lists.listRemove list flags 0 = lists.listRemove list flags hdr) ∧
      (flags &&& LAST ≠ 0 → ∀ hdr rest, entries = rest ++ [hdr] →
        lists.listRemove list flags 0 = lists.listRemove list flags hdr) := by
  have first : lists.first list = headOf 0 entries := holds.chain.ring.head.1
  have last : lists.last list = lastOf 0 entries := holds.chain.ring.last.2
  refine ⟨?_, ?_, ?_⟩
  · rintro rfl
    unfold Lists.listRemove
    simp [first, last]
  · rintro flag hdr rest rfl
    have found : (if flags &&& LAST ≠ 0 then lists.last list else lists.first list) = hdr := by
      rw [if_neg (not_not.mpr flag), first, headOf_cons]
    rw [listRemove_zero flags, found]
    rw [found]
    exact holds.chain.ne_zero (by simp)
  · rintro flag hdr rest rfl
    have found : (if flags &&& LAST ≠ 0 then lists.last list else lists.first list) = hdr := by
      rw [if_pos flag, last, lastOf_concat]
    rw [listRemove_zero flags, found]
    rw [found]
    exact holds.chain.ne_zero (by simp)

end Operations

section Reading

theorem Holds.listGet (holds : Holds lists list entries objects) (flags : Nat) :
    lists.listGet list flags =
      if flags &&& LAST ≠ 0 then objects.getLastD 0 else objects.headD 0 := by
  have first : lists.first list = headOf 0 entries := holds.chain.ring.head.1
  have last : lists.last list = lastOf 0 entries := holds.chain.ring.last.2
  unfold Lists.listGet
  rw [← holds.objects]
  by_cases flag : flags &&& LAST ≠ 0
  · rw [if_pos flag, if_pos flag, last]
    cases entries using List.reverseRecOn with
    | nil => rfl
    | append_singleton front end' _ =>
        have nonzero : end' ≠ 0 := holds.chain.ne_zero (by simp)
        simp [nonzero]
  · rw [if_neg flag, if_neg flag, first]
    cases entries with
    | nil => rfl
    | cons head rest =>
        have nonzero : head ≠ 0 := holds.chain.ne_zero (by simp)
        simp [nonzero]

theorem Holds.listGetNext (holds : Holds lists list entries objects)
    (place : entries = before ++ hdr :: after) :
    lists.listGetNext hdr = (after.map lists.object).headD 0 := by
  have nonzero : hdr ≠ 0 := holds.chain.ne_zero (by simp [place])
  unfold Lists.listGetNext
  rw [holds.chain.next_eq place]
  cases after with
  | nil => simp
  | cons head rest =>
      have nonzero' : head ≠ 0 := holds.chain.ne_zero (by simp [place])
      simp [nonzero, nonzero']

/-- A loop with `list_get_next` meets the objects behind a place of the list. -/
theorem Holds.walk (holds : Holds lists list entries objects) {header : Ptr → Ptr}
    (headers : ∀ hdr ∈ entries, lists.object hdr ≠ 0 ∧ header (lists.object hdr) = hdr)
    (place : entries = before ++ rest) (enough : rest.length ≤ fuel) :
    ListHeaders.walk header lists fuel ((rest.map lists.object).headD 0) =
      rest.map lists.object := by
  induction rest generalizing before fuel with
  | nil => cases fuel <;> rfl
  | cons hdr rest ih =>
      cases fuel with
      | zero => simp at enough
      | succ fuel =>
          have named := headers hdr (by simp [place])
          have place' : entries = (before ++ [hdr]) ++ rest := by simp [place]
          unfold ListHeaders.walk
          rw [List.map_cons, List.headD_cons, if_pos named.1, named.2, holds.listGetNext place,
            ih place' (Nat.le_of_succ_le_succ enough)]

end Reading

/-- An object that stands behind what is not greater and before what is greater keeps the order. -/
theorem Sorted.put (sorted : Sorted cmp (before ++ after))
    (le : ∀ entry ∈ before, cmp entry object ≤ 0) (less : ∀ entry ∈ after, cmp object entry < 0) :
    Sorted cmp (before ++ object :: after) := by
  obtain ⟨sortedBefore, sortedAfter, across⟩ := List.pairwise_append.mp sorted
  have ahead : ∀ entry ∈ after, cmp object entry ≤ 0 := fun entry mem =>
    Int.le_of_lt (less entry mem)
  apply List.pairwise_append.mpr
  refine ⟨sortedBefore, List.pairwise_cons.mpr ⟨ahead, sortedAfter⟩, fun a memA b memB => ?_⟩
  rcases List.mem_cons.mp memB with rfl | inAfter
  · exact le a memA
  · exact across a memA b inAfter

end ListHeaders

open ListHeaders

/-- The operations on a list do to the sequence of its objects what they are called for. -/
theorem lists_refine_sequences {ι : Type} [DecidableEq ι] {lists : Lists ι} {list : ι}
    {entries objects : List Ptr} (holds : Holds lists list entries objects) :
    (∀ object hdr, New entries hdr →
      Holds (ListHeaders.listAppend list object hdr lists) list (entries ++ [hdr])
        (objects ++ [object]) ∧
      Holds (ListHeaders.listPrepend list object hdr lists) list (hdr :: entries)
        (object :: objects) ∧
      ∀ cmp, Preorders cmp → Sorted cmp objects →
        ListHeaders.listSortAdd list object hdr cmp lists =
          sortAddFrom (fun lists => lists.first list) list object hdr cmp lists ∧
        ∃ before after, entries = before ++ after ∧
          (∀ entry ∈ before, cmp (lists.object entry) object ≤ 0) ∧
          (∀ entry ∈ after, ¬ cmp (lists.object entry) object ≤ 0) ∧
          Holds (ListHeaders.listSortAdd list object hdr cmp lists) list (before ++ hdr :: after)
            (before.map lists.object ++ object :: after.map lists.object) ∧
          Sorted cmp (before.map lists.object ++ object :: after.map lists.object)) ∧
    (∀ flags before hdr after, entries = before ++ hdr :: after →
      (lists.listRemove list flags hdr).1 = lists.object hdr ∧
      Holds (lists.listRemove list flags hdr).2 list (before ++ after)
        (before.map lists.object ++ after.map lists.object)) ∧
    (∀ flags, (entries = [] → lists.listRemove list flags 0 = (0, lists)) ∧
      (flags &&& LAST = 0 → ∀ hdr rest, entries = hdr :: rest →
        lists.listRemove list flags 0 = lists.listRemove list flags hdr) ∧
      (flags &&& LAST ≠ 0 → ∀ hdr rest, entries = rest ++ [hdr] →
        lists.listRemove list flags 0 = lists.listRemove list flags hdr)) ∧
    (∀ flags, lists.listGet list flags =
      if flags &&& LAST ≠ 0 then objects.getLastD 0 else objects.headD 0) ∧
    (∀ before hdr after, entries = before ++ hdr :: after →
      lists.listGetNext hdr = (after.map lists.object).headD 0) ∧
    ∀ header : Ptr → Ptr,
      (∀ hdr ∈ entries, lists.object hdr ≠ 0 ∧ header (lists.object hdr) = hdr) →
      walk header lists addressCount (lists.listGet list FIRST) = objects := by
  refine ⟨fun object hdr new => ⟨holds.listAppend new, holds.listPrepend new, ?_⟩,
    fun flags before hdr after place => holds.listRemove flags place, holds.listRemove_end,
    holds.listGet, fun before hdr after place => holds.listGetNext place, ?_⟩
  · intro cmp preorders sorted
    obtain ⟨same, before, after, place, le, less, put⟩ := holds.listSortAdd new preorders sorted
    have split : objects = before.map lists.object ++ after.map lists.object := by
      rw [← holds.objects, place, List.map_append]
    refine ⟨same, before, after, place, le, fun entry mem notLess => ?_, put, ?_⟩
    · have back := (preorders.swap object (lists.object entry)).mpr notLess
      exact absurd (less entry mem) (Int.not_lt.mpr back)
    · rw [split] at sorted
      exact Sorted.put sorted (List.forall_mem_map.mpr le) (List.forall_mem_map.mpr less)
  · intro header headers
    have short := Nat.le_of_lt holds.chain.length_lt
    have walked := holds.walk headers (List.nil_append entries).symm short
    rw [holds.objects] at walked
    rw [holds.listGet, if_neg (by decide)]
    exact walked

theorem lists_refine_sequences_two :
    ∃ lists : Lists Unit, Holds lists () [12, 22] [10, 20] ∧
      Holds (ListHeaders.listSortAdd () 15 17 (fun a b => (a : Int) - b) lists) () [12, 17, 22]
        [10, 15, 20] ∧
      Holds (lists.listRemove () FIRST 12).2 () [22] [20] ∧
      walk (fun object => object + 2) lists addressCount (lists.listGet () FIRST) = [10, 20] := by
  obtain ⟨lists, holds⟩ : ∃ lists : Lists Unit, Holds lists () [12, 22] [10, 20] := by
    have empty := Holds.listInit ⟨fun _ => 0, fun _ => 0, fun _ => 0, fun _ => 0, fun _ => 0⟩ ()
    have one : Holds _ () [12] [10] := empty.listAppend ⟨by decide, by decide, by simp⟩
    exact ⟨_, one.listAppend ⟨by decide, by decide, by simp⟩⟩
  obtain ⟨object12, object22⟩ : lists.object 12 = 10 ∧ lists.object 22 = 20 := by
    simpa using holds.objects
  obtain ⟨adds, removes, -, -, -, walks⟩ := lists_refine_sequences holds
  refine ⟨lists, holds, ?_, ?_, ?_⟩
  · obtain ⟨-, before, after, place, le, notLe, put, -⟩ :=
      (adds 15 17 ⟨by decide, by decide, by simp⟩).2.2 (fun a b => (a : Int) - b)
        ⟨fun a b => by omega, fun a b c => by omega⟩ (by simp [Sorted])
    rcases before with _ | ⟨first, _ | ⟨second, before⟩⟩
    · obtain rfl : [12, 22] = after := place
      have := notLe 12 (by simp)
      simp [object12] at this
    · obtain ⟨rfl, rfl⟩ : 12 = first ∧ [22] = after := by simpa using place
      simpa [object12, object22] using put
    · obtain ⟨rfl, rfl, -⟩ : 12 = first ∧ 22 = second ∧ [] = before ++ after := by
        simpa using place
      have := le 22 (by simp)
      simp [object22] at this
  · have removed := (removes FIRST [] 12 [22] rfl).2
    simpa [object22] using removed
  · exact walks _ (by simp [object12, object22])

end Oseer

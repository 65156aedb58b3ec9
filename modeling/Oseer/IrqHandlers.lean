import Oseer.InterruptController
import Oseer.LinkedList

/-!
# Handlers of interrupts

The lists of handlers in `arch/i386/arch/interrupts.c`.  The handlers themselves are left out: an
interrupt gives the calls that it makes.
-/

namespace Oseer

open InterruptChip LinkedRing

def INTERRUPTS : Nat := 49

def KERNEL_MODE : Int := 0
def USER_MODE : Int := -1

/-- `struct ihndlr`. -/
structure Ihndlr where
  device : Ptr
  ihandler : Nat
deriving DecidableEq

/-- The variables of `interrupts.c`, and the controller. -/
structure Interrupts where
  pics : Pair
  ihandlers : Lists Nat
  ihndlr : Ptr → Ihndlr
  prevMode : Int
  newMode : Int

namespace Interrupts

/-- `arch_init_interrupts`. -/
def archInitInterrupts (interrupts : Interrupts) : Interrupts :=
  { interrupts with
    pics := i8259Init interrupts.pics
    ihandlers := (List.range INTERRUPTS).foldl (fun lists i => lists.listInit i)
      interrupts.ihandlers }

/-- `arch_register_interrupt_handler`, where `kmalloc` returns `ih`; nothing is returned where the
kernel stops. -/
def archRegisterInterruptHandler (ih : Ptr) (inum : BitVec 32) (handler : Nat) (device : Ptr)
    (interrupts : Interrupts) : Option Interrupts :=
  if inum.toNat < INTERRUPTS ∧ ih ≠ 0 then
    some { interrupts with
      ihndlr := Function.update interrupts.ihndlr ih ⟨device, handler⟩
      ihandlers := interrupts.ihandlers.listAppend inum.toNat ih }
  else none

/-- The loop of `arch_unregister_interrupt_handler`. -/
def unregisterLoop (irqNum : Nat) (entry : Ihndlr) : Nat → Ptr → Interrupts → Interrupts
  | 0, _, interrupts => interrupts
  | fuel + 1, ih, interrupts =>
    if ih = 0 then interrupts
    else
      let next := interrupts.ihandlers.listGetNext ih
      if interrupts.ihndlr ih = entry then
        unregisterLoop irqNum entry fuel next
          { interrupts with ihandlers := (interrupts.ihandlers.listRemove irqNum FIRST ih).2 }
      else unregisterLoop irqNum entry fuel next interrupts

/-- `arch_unregister_interrupt_handler`; nothing is returned if the assertion fails. -/
def archUnregisterInterruptHandler (irqNum : BitVec 32) (handler : Nat) (device : Ptr)
    (interrupts : Interrupts) : Option Interrupts :=
  if irqNum.toNat < INTERRUPTS then
    some (unregisterLoop irqNum.toNat ⟨device, handler⟩ addressCount
      (interrupts.ihandlers.listGet irqNum.toNat FIRST) interrupts)
  else none

/-- The calls of the handlers from one of them on. -/
def callHandlers (interrupts : Interrupts) : Nat → Ptr → List Ihndlr
  | 0, _ => []
  | fuel + 1, ih =>
    if ih = 0 then []
    else interrupts.ihndlr ih :: interrupts.callHandlers fuel (interrupts.ihandlers.listGetNext ih)

/-- `arch_interrupt_handler`: the calls, and the state afterwards; nothing is returned where the
kernel stops. -/
def archInterruptHandler (irqNum : BitVec 32) (interrupts : Interrupts) :
    Option (List Ihndlr × Interrupts) :=
  let interrupts := { interrupts with prevMode := interrupts.newMode, newMode := KERNEL_MODE }
  let ih := interrupts.ihandlers.listGet irqNum.toNat FIRST
  if irqNum.toNat < INTERRUPTS ∧ ih ≠ 0 then
    some (interrupts.callHandlers addressCount ih,
      { interrupts with
        pics := i8259AtExit irqNum interrupts.pics
        prevMode := interrupts.newMode
        newMode := USER_MODE })
  else none

/-- The handlers of each interrupt, in the order in which they are called. -/
structure Registered (interrupts : Interrupts) (registered : Nat → List Ihndlr)
    (members : Nat → List Ptr) : Prop where
  linked : interrupts.ihandlers.Linked members
  entries : ∀ irq, (members irq).map interrupts.ihndlr = registered irq
  bounded : ∀ irq, ∀ ih ∈ members irq, ih < addressCount

variable {interrupts interrupts' : Interrupts} {registered : Nat → List Ihndlr}
  {members : Nat → List Ptr} {ih : Ptr} {inum irqNum : BitVec 32} {handler : Nat} {device : Ptr}
  {fuel irq : Nat} {before after : List Ptr}

theorem callHandlers_eq (linked : interrupts.ihandlers.Linked members)
    (place : members irq = before ++ after) (enough : after.length < fuel) :
    interrupts.callHandlers fuel (headOf 0 after) = after.map interrupts.ihndlr := by
  induction after generalizing before fuel with
  | nil =>
      cases fuel with
      | zero => rfl
      | succ fuel => rw [headOf_nil, callHandlers, if_pos rfl, List.map_nil]
  | cons ih after induction =>
      cases fuel with
      | zero => cases enough
      | succ fuel =>
          have mem : ih ∈ members irq := by simp [place]
          have nonzero : ih ≠ 0 := linked.ne_zero mem
          have place' : members irq = (before ++ [ih]) ++ after := by
            rw [place, List.append_assoc, List.singleton_append]
          rw [headOf_cons, callHandlers, if_neg nonzero, linked.listGetNext_eq place,
            induction place' (Nat.lt_of_succ_lt_succ enough), List.map_cons]

/-- An interrupt calls its handlers in the order in which they were registered. -/
theorem Registered.calls (state : Registered interrupts registered members)
    (inRange : irqNum.toNat < INTERRUPTS) (nonempty : registered irqNum.toNat ≠ []) :
    interrupts.archInterruptHandler irqNum = some (registered irqNum.toNat,
      { interrupts with
        pics := i8259AtExit irqNum interrupts.pics
        prevMode := KERNEL_MODE
        newMode := USER_MODE }) := by
  have first := state.linked.listGet_first irqNum.toNat
  have entries := state.entries irqNum.toNat
  obtain ⟨ih, rest, shape⟩ : ∃ ih rest, members irqNum.toNat = ih :: rest := by
    apply List.exists_cons_of_ne_nil
    intro empty
    rw [empty] at entries
    exact nonempty entries.symm
  have mem : ih ∈ members irqNum.toNat := by simp [shape]
  have nonzero : ih ≠ 0 := state.linked.ne_zero mem
  have linked : ({ interrupts with prevMode := interrupts.newMode, newMode := KERNEL_MODE } :
      Interrupts).ihandlers.Linked members := state.linked
  have place : members irqNum.toNat = [] ++ members irqNum.toNat := rfl
  have short := length_lt_addressCount (state.linked.nodup irqNum.toNat) (state.bounded irqNum.toNat)
  have called := callHandlers_eq linked place short
  unfold archInterruptHandler
  dsimp only
  rw [first, if_pos ⟨inRange, by rw [shape, headOf_cons]; exact nonzero⟩, called]
  exact congrArg (fun calls => some (calls, _)) entries

/-- A handler that is registered is called after the others. -/
theorem Registered.register (state : Registered interrupts registered members)
    (fresh : ∀ irq, ih ∉ members irq) (below : ih < addressCount)
    (result : interrupts.archRegisterInterruptHandler ih inum handler device = some interrupts') :
    interrupts'.pics = interrupts.pics ∧
    Registered interrupts'
      (Function.update registered inum.toNat (registered inum.toNat ++ [⟨device, handler⟩]))
      (Function.update members inum.toNat (members inum.toNat ++ [ih])) := by
  unfold archRegisterInterruptHandler at result
  split at result
  · rename_i guard
    obtain rfl := Option.some.inj result
    have others : ∀ irq, (members irq).map
        (Function.update interrupts.ihndlr ih ⟨device, handler⟩) = registered irq := by
      intro irq
      rw [← state.entries irq]
      apply List.map_congr_left
      rintro other mem
      apply Function.update_of_ne
      rintro rfl
      exact fresh irq mem
    refine ⟨rfl, state.linked.append guard.2 fresh, fun irq => ?_, fun irq => ?_⟩
    · by_cases same : irq = inum.toNat
      · subst same
        rw [Function.update_self, Function.update_self, List.map_append, others]
        simp
      · rw [Function.update_of_ne same, Function.update_of_ne same]
        exact others irq
    · by_cases same : irq = inum.toNat
      · subst same
        rw [Function.update_self]
        intro other mem
        rcases List.mem_append.mp mem with old | isNew
        · exact state.bounded _ other old
        · rw [List.mem_singleton.mp isNew]
          exact below
      · rw [Function.update_of_ne same]
        exact state.bounded irq
  · cases result

theorem unregisterLoop_registered (linked : interrupts.ihandlers.Linked members)
    (entry : Ihndlr) (place : members irq = before ++ after) (enough : after.length < fuel) :
    (unregisterLoop irq entry fuel (headOf 0 after) interrupts).pics = interrupts.pics ∧
    (unregisterLoop irq entry fuel (headOf 0 after) interrupts).ihndlr = interrupts.ihndlr ∧
    (unregisterLoop irq entry fuel (headOf 0 after) interrupts).ihandlers.Linked
      (Function.update members irq
        (before ++ after.filter fun ih => interrupts.ihndlr ih ≠ entry)) := by
  induction after generalizing before fuel interrupts members with
  | nil =>
      have same : Function.update members irq (before ++ []) = members := by
        rw [← place, Function.update_eq_self]
      cases fuel with
      | zero => cases enough
      | succ fuel =>
          rw [headOf_nil, unregisterLoop, if_pos rfl, List.filter_nil, same]
          exact ⟨rfl, rfl, linked⟩
  | cons ih after induction =>
      cases fuel with
      | zero => cases enough
      | succ fuel =>
          have mem : ih ∈ members irq := by simp [place]
          have nonzero : ih ≠ 0 := linked.ne_zero mem
          rw [headOf_cons, unregisterLoop, if_neg nonzero]
          dsimp only
          rw [linked.listGetNext_eq place]
          split
          · rename_i isEntry
            have removed := (linked.remove FIRST place).2
            have place' : Function.update members irq (before ++ after) irq = before ++ after :=
              Function.update_self ..
            have linked' : ({ interrupts with
                ihandlers := (interrupts.ihandlers.listRemove irq FIRST ih).2 } :
                  Interrupts).ihandlers.Linked _ := removed
            obtain ⟨pics, ihndlr, rest⟩ :=
              induction linked' place' (Nat.lt_of_succ_lt_succ enough)
            rw [Function.update_idem] at rest
            refine ⟨pics, ihndlr, ?_⟩
            rw [List.filter_cons_of_neg (by simpa using isEntry)]
            exact rest
          · rename_i different
            have place' : members irq = (before ++ [ih]) ++ after := by
              rw [place, List.append_assoc, List.singleton_append]
            obtain ⟨pics, ihndlr, rest⟩ :=
              induction linked place' (Nat.lt_of_succ_lt_succ enough)
            refine ⟨pics, ihndlr, ?_⟩
            rw [List.filter_cons_of_pos (by simpa using different)]
            rw [List.append_assoc, List.singleton_append] at rest
            exact rest

/-- All handlers that are the same are taken out, and the others keep their order. -/
theorem Registered.unregister (state : Registered interrupts registered members)
    (result : interrupts.archUnregisterInterruptHandler irqNum handler device = some interrupts') :
    interrupts'.pics = interrupts.pics ∧ ∃ members', Registered interrupts'
      (Function.update registered irqNum.toNat
        ((registered irqNum.toNat).filter fun entry => entry ≠ ⟨device, handler⟩)) members' ∧
      ∀ irq, members' irq ⊆ members irq := by
  unfold archUnregisterInterruptHandler at result
  split at result
  · obtain rfl := Option.some.inj result
    have place : members irqNum.toNat = [] ++ members irqNum.toNat := rfl
    have short := length_lt_addressCount (state.linked.nodup irqNum.toNat) (state.bounded irqNum.toNat)
    obtain ⟨pics, ihndlr, linked⟩ :=
      unregisterLoop_registered state.linked ⟨device, handler⟩ place short
    rw [← state.linked.listGet_first] at pics ihndlr linked
    have fewer : ∀ irq, Function.update members irqNum.toNat ([] ++ (members irqNum.toNat).filter
        fun ih => interrupts.ihndlr ih ≠ ⟨device, handler⟩) irq ⊆ members irq := by
      intro irq
      by_cases same : irq = irqNum.toNat
      · subst same
        rw [Function.update_self, List.nil_append]
        exact List.filter_sublist.subset
      · rw [Function.update_of_ne same]
        exact fun _ mem => mem
    refine ⟨pics, _, ⟨linked, fun irq => ?_, fun irq ih mem => ?_⟩, fewer⟩
    · rw [ihndlr]
      by_cases same : irq = irqNum.toNat
      · subst same
        rw [Function.update_self, Function.update_self, ← state.entries, List.filter_map]
        rfl
      · rw [Function.update_of_ne same, Function.update_of_ne same]
        exact state.entries irq
    · exact state.bounded irq ih (fewer irq mem)
  · cases result

end Interrupts

end Oseer

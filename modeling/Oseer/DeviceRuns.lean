import Mathlib.Logic.Relation
import Oseer.DeviceTable

/-!
# Runs of devices and interrupts

In every run an interrupt that the controller delivers finds the handlers of its line, and a device
that is not shared is open once at most.
-/

namespace Oseer

open InterruptChip LinkedRing

/-- The device has no interrupt, or one of a line. -/
def Device.Wired (device : Device) : Prop :=
  device.irqNum = -1 ∧ device.irqHandler = 0 ∨ ∃ line, device.irqNum = lineIrq line

/-- The devices with the handlers that are registered, the devices that were added, and how often
each is open. -/
structure DeviceRun where
  table : DeviceTable
  registered : Nat → List Ihndlr
  added : List Ptr
  opened : Ptr → Nat

namespace DeviceRun

/-- One more handler. -/
def withHandler (irq : Nat) (entry : Ihndlr) (run : DeviceRun) : Nat → List Ihndlr :=
  Function.update run.registered irq (run.registered irq ++ [entry])

/-- `kmalloc` returns memory that is not a handler's already. -/
def FreshHandler (ih : Ptr) (run : DeviceRun) : Prop :=
  ih < addressCount ∧
    ∀ members, Interrupts.Registered run.table.interrupts run.registered members →
      ∀ irq, ih ∉ members irq

/-- A handler is registered, that of the timer with its line enabled; a device is installed, opened,
closed by who has it, or removed when it is not open; an interrupt comes. -/
inductive Step : DeviceRun → DeviceRun → Prop
  | register {run : DeviceRun} {interrupts : Interrupts} (ih : Ptr) (inum : BitVec 32)
      (handler : Nat) (device : Ptr) (fresh : run.FreshHandler ih)
      (result : run.table.interrupts.archRegisterInterruptHandler ih inum handler device =
        some interrupts) :
      Step run { run with
        table := { run.table with interrupts := interrupts }
        registered := run.withHandler inum.toNat ⟨device, handler⟩ }
  | timer {run : DeviceRun} {interrupts : Interrupts} (ih : Ptr) (line : Fin 16) (handler : Nat)
      (device : Ptr) (fresh : run.FreshHandler ih)
      (result : run.table.interrupts.archRegisterInterruptHandler ih (lineIrq line) handler device =
        some interrupts) :
      Step run { run with
        table := { run.table with
          interrupts := { interrupts with pics := i8259IrqEnable (lineIrq line) interrupts.pics } }
        registered := run.withHandler (lineIrq line).toNat ⟨device, handler⟩ }
  | install {run : DeviceRun} {table table' : DeviceTable} (kdev : Ptr) (dev : Device)
      (flags : BitVec 32) (params callback : Nat) (retval : Int) (ih : Ptr) (wired : dev.Wired)
      (fresh : run.FreshHandler ih) (freshDevice : kdev ∉ run.added) (below : kdev < addressCount)
      (adds : run.table.kDeviceAdd kdev dev = some table)
      (inits : table.kDeviceInit kdev flags params callback retval ih = some (retval, table')) :
      Step run { run with
        table := table'
        registered :=
          if retval = 0 ∧ dev.irqHandler ≠ 0 then
            run.withHandler dev.irqNum.toNat ⟨kdev, dev.irqHandler⟩
          else run.registered
        added := run.added ++ [kdev]
        opened := Function.update run.opened kdev 0 }
  | remove {run : DeviceRun} {table : DeviceTable} (kdev : Ptr) (mem : kdev ∈ run.added)
      (closed : run.opened kdev = 0) (result : run.table.kDeviceRemove kdev = some table) :
      Step run { run with
        table := table
        registered :=
          if (run.table.kdev kdev).irqHandler ≠ 0 then
            Function.update run.registered (run.table.kdev kdev).irqNum.toNat
              ((run.registered (run.table.kdev kdev).irqNum.toNat).filter
                fun entry => entry ≠ ⟨kdev, (run.table.kdev kdev).irqHandler⟩)
          else run.registered
        added := run.added.erase kdev }
  | openDevice {run : DeviceRun} (name : List UInt8) :
      Step run { run with
        table := (run.table.kDeviceOpen name).2
        opened :=
          if (run.table.kDeviceOpen name).1 = 0 then run.opened
          else Function.update run.opened (run.table.kDeviceOpen name).1
            (run.opened (run.table.kDeviceOpen name).1 + 1) }
  | closeDevice {run : DeviceRun} (kdev : Ptr) (mem : kdev ∈ run.added)
      (has : 0 < run.opened kdev) :
      Step run { run with
        table := run.table.kDeviceClose kdev
        opened := Function.update run.opened kdev (run.opened kdev - 1) }
  | deliver {run : DeviceRun} {pics : Pair} {interrupts : Interrupts} {vector : BitVec 8}
      {calls : List Ihndlr}
      (delivers : Delivers run.table.interrupts.pics vector pics)
      (result : ({ run.table.interrupts with pics := pics } : Interrupts).archInterruptHandler
        (vector.setWidth 32) = some (calls, interrupts)) :
      Step run { run with table := { run.table with interrupts := interrupts } }
  | raise {run : DeviceRun} {interrupts : Interrupts} {calls : List Ihndlr} (irq : BitVec 32)
      -- a program can raise the software interrupt and those of the processor only
      (own : irq < IRQ_OFFSET ∨ irq = HW_INTERRUPTS)
      (result : run.table.interrupts.archInterruptHandler irq = some (calls, interrupts)) :
      Step run { run with table := { run.table with interrupts := interrupts } }

/-- What holds in every state. -/
structure Kept (run : DeviceRun) (members : Nat → List Ptr) : Prop where
  settled : Settled8259 run.table.interrupts.pics
  handlers : Interrupts.Registered run.table.interrupts run.registered members
  enabled : ∀ line : Fin 16, line ≠ 2 → Masked run.table.interrupts.pics line = false →
    run.registered (lineIrq line).toNat ≠ []
  linked : run.table.devices.Linked fun _ => run.added
  bounded : ∀ kdev ∈ run.added, kdev < addressCount
  wired : ∀ kdev ∈ run.added, (run.table.kdev kdev).Wired
  exclusive : ∀ kdev ∈ run.added, (run.table.kdev kdev).NotShared →
    run.opened kdev = (run.table.kdev kdev).isOpen.toNat

variable {run run' first last : DeviceRun} {members : Nat → List Ptr} {kdev : Ptr}

section Steps

theorem lineIrq_toNat (line : Fin 16) : (lineIrq line).toNat = 32 + line := by
  revert line
  decide

theorem lineIrq_inRange (line : Fin 16) : (lineIrq line).toNat < INTERRUPTS := by
  rw [lineIrq_toNat, INTERRUPTS]
  omega

/-- No line loses its handlers when one is registered. -/
theorem withHandler_ne_nil {irq other : Nat} {entry : Ihndlr} (nonempty : run.registered other ≠ []) :
    run.withHandler irq entry other ≠ [] := by
  unfold withHandler
  by_cases same : other = irq
  · subst same
    rw [Function.update_self]
    exact List.append_ne_nil_of_right_ne_nil _ (List.cons_ne_nil _ _)
  · rw [Function.update_of_ne same]
    exact nonempty

theorem withHandler_self {irq : Nat} {entry : Ihndlr} : run.withHandler irq entry irq ≠ [] := by
  unfold withHandler
  rw [Function.update_self]
  exact List.append_ne_nil_of_right_ne_nil _ (List.cons_ne_nil _ _)

/-- A line that is enabled after a handler was registered has one. -/
theorem enable_enabled {pics : Pair} {registered registered' : Nat → List Ihndlr} {line : Fin 16}
    (settled : Settled8259 pics)
    (enabled : ∀ line : Fin 16, line ≠ 2 → Masked pics line = false →
      registered (lineIrq line).toNat ≠ [])
    (more : ∀ irq, registered irq ≠ [] → registered' irq ≠ [])
    (self : registered' (lineIrq line).toNat ≠ []) (other : Fin 16) (direct : other ≠ 2)
    (unmasked : Masked (i8259IrqEnable (lineIrq line) pics) other = false) :
    registered' (lineIrq other).toNat ≠ [] := by
  rw [(i8259IrqEnable_masked settled line).2] at unmasked
  by_cases same : other = line
  · subst same
    exact self
  · rw [decide_eq_false same, Bool.not_false, Bool.true_and] at unmasked
    exact more _ (enabled other direct unmasked)

theorem Kept.register (kept : Kept run members) {interrupts : Interrupts} {ih : Ptr}
    {inum : BitVec 32} {handler : Nat} {device : Ptr} (fresh : run.FreshHandler ih)
    (result : run.table.interrupts.archRegisterInterruptHandler ih inum handler device =
      some interrupts) :
    interrupts.pics = run.table.interrupts.pics ∧
    ∃ members', Interrupts.Registered interrupts (run.withHandler inum.toNat ⟨device, handler⟩)
      members' := by
  obtain ⟨below, unused⟩ := fresh
  obtain ⟨pics, registered⟩ := kept.handlers.register (unused members kept.handlers) below result
  exact ⟨pics, _, registered⟩

/-- The handlers do not depend on the masks. -/
theorem registered_pics {interrupts : Interrupts} {registered : Nat → List Ihndlr}
    (state : Interrupts.Registered interrupts registered members) (pics : Pair) (prev new : Int) :
    Interrupts.Registered
      { interrupts with pics := pics, prevMode := prev, newMode := new } registered members :=
  ⟨state.linked, state.entries, state.bounded⟩

/-- A handler with its line enabled. -/
theorem Kept.enables (kept : Kept run members) {interrupts : Interrupts} {ih : Ptr}
    {line : Fin 16} {handler : Nat} {device : Ptr} (fresh : run.FreshHandler ih)
    (result : run.table.interrupts.archRegisterInterruptHandler ih (lineIrq line) handler device =
      some interrupts) :
    Settled8259 (i8259IrqEnable (lineIrq line) interrupts.pics) ∧
    (∃ members', Interrupts.Registered
      { interrupts with pics := i8259IrqEnable (lineIrq line) interrupts.pics }
      (run.withHandler (lineIrq line).toNat ⟨device, handler⟩) members') ∧
    ∀ other : Fin 16, other ≠ 2 →
      Masked (i8259IrqEnable (lineIrq line) interrupts.pics) other = false →
        run.withHandler (lineIrq line).toNat ⟨device, handler⟩ (lineIrq other).toNat ≠ [] := by
  obtain ⟨pics, members', registered⟩ := kept.register fresh result
  rw [pics]
  refine ⟨(i8259IrqEnable_masked kept.settled line).1, ⟨members', registered_pics registered _ _ _⟩, ?_⟩
  exact enable_enabled kept.settled kept.enabled (fun irq nonempty => withHandler_ne_nil nonempty)
    withHandler_self

theorem Kept.registers (kept : Kept run members) {interrupts : Interrupts} {ih : Ptr}
    {inum : BitVec 32} {handler : Nat} {device : Ptr} (fresh : run.FreshHandler ih)
    (result : run.table.interrupts.archRegisterInterruptHandler ih inum handler device =
      some interrupts) :
    ∃ members', Kept { run with
      table := { run.table with interrupts := interrupts }
      registered := run.withHandler inum.toNat ⟨device, handler⟩ } members' := by
  obtain ⟨pics, members', registered⟩ := kept.register fresh result
  refine ⟨members', ?_, registered, ?_, kept.linked, kept.bounded, kept.wired, kept.exclusive⟩
  · dsimp only
    rw [pics]
    exact kept.settled
  · intro line direct unmasked
    dsimp only at unmasked
    rw [pics] at unmasked
    exact withHandler_ne_nil (kept.enabled line direct unmasked)

theorem Kept.starts_timer (kept : Kept run members) {interrupts : Interrupts} {ih : Ptr}
    {line : Fin 16} {handler : Nat} {device : Ptr} (fresh : run.FreshHandler ih)
    (result : run.table.interrupts.archRegisterInterruptHandler ih (lineIrq line) handler device =
      some interrupts) :
    ∃ members', Kept { run with
      table := { run.table with
        interrupts := { interrupts with pics := i8259IrqEnable (lineIrq line) interrupts.pics } }
      registered := run.withHandler (lineIrq line).toNat ⟨device, handler⟩ } members' := by
  obtain ⟨settled, ⟨members', registered⟩, enabled⟩ := kept.enables fresh result
  exact ⟨members', settled, registered, enabled, kept.linked, kept.bounded, kept.wired,
    kept.exclusive⟩

/-- A device is added at the end, and the others are left. -/
theorem Kept.adds (kept : Kept run members) {table : DeviceTable} {dev : Device} (wired : dev.Wired)
    (fresh : kdev ∉ run.added) (below : kdev < addressCount)
    (adds : run.table.kDeviceAdd kdev dev = some table) :
    table.kdev kdev = { dev with isOpen := false, locked := (run.table.kdev kdev).locked } ∧
    Kept { run with
      table := table
      added := run.added ++ [kdev]
      opened := Function.update run.opened kdev 0 } members := by
  unfold DeviceTable.kDeviceAdd at adds
  split at adds
  · cases adds
  rename_i nonzero
  obtain rfl := Option.some.inj adds
  refine ⟨Function.update_self .., ?_⟩
  have old : ∀ other ∈ run.added, other ≠ kdev := fun other mem same => fresh (same ▸ mem)
  constructor
  case settled => exact kept.settled
  case handlers => exact kept.handlers
  case enabled => exact kept.enabled
  case linked =>
    have appended : (run.table.devices.listAppend () kdev).Linked _ :=
      kept.linked.append nonzero fun _ => fresh
    have same : Function.update (fun _ : Unit => run.added) () (run.added ++ [kdev]) =
        fun _ => run.added ++ [kdev] := by
      funext list
      exact Function.update_self ..
    rw [same] at appended
    exact appended
  case bounded =>
    intro other mem
    rcases List.mem_append.mp mem with isOld | isNew
    · exact kept.bounded other isOld
    · rw [List.mem_singleton.mp isNew]
      exact below
  case wired =>
    intro other mem
    dsimp only
    rcases List.mem_append.mp mem with isOld | isNew
    · rw [Function.update_of_ne (old other isOld)]
      exact kept.wired other isOld
    · rw [List.mem_singleton.mp isNew, Function.update_self]
      exact wired
  case exclusive =>
    intro other mem
    dsimp only
    rcases List.mem_append.mp mem with isOld | isNew
    · rw [Function.update_of_ne (old other isOld), Function.update_of_ne (old other isOld)]
      exact kept.exclusive other isOld
    · rw [List.mem_singleton.mp isNew, Function.update_self, Function.update_self]
      exact fun _ => rfl

/-- The stores into the descriptor of a device that is not open. -/
theorem Kept.stores (kept : Kept run members) {device : Kdevice} (wired : device.Wired)
    (isClosed : run.opened kdev = 0) (stays : device.isOpen = false) :
    Kept { run with
      table := { run.table with kdev := Function.update run.table.kdev kdev device } } members := by
  refine ⟨kept.settled, kept.handlers, kept.enabled, kept.linked, kept.bounded, ?_, ?_⟩
  · intro other mem
    dsimp only
    by_cases same : other = kdev
    · subst same
      rw [Function.update_self]
      exact wired
    · rw [Function.update_of_ne same]
      exact kept.wired other mem
  · intro other mem
    dsimp only
    by_cases same : other = kdev
    · subst same
      rw [Function.update_self, isClosed, stays]
      exact fun _ => rfl
    · rw [Function.update_of_ne same]
      exact kept.exclusive other mem

theorem Kept.installs (kept : Kept run members) {table table' : DeviceTable} {retval : Int}
    {dev : Device} {flags : BitVec 32} {params callback : Nat} {ih : Ptr} (wired : dev.Wired)
    (fresh : run.FreshHandler ih) (freshDevice : kdev ∉ run.added) (below : kdev < addressCount)
    (adds : run.table.kDeviceAdd kdev dev = some table)
    (inits : table.kDeviceInit kdev flags params callback retval ih = some (retval, table')) :
    ∃ members', Kept { run with
      table := table'
      registered :=
        if retval = 0 ∧ dev.irqHandler ≠ 0 then
          run.withHandler dev.irqNum.toNat ⟨kdev, dev.irqHandler⟩
        else run.registered
      added := run.added ++ [kdev]
      opened := Function.update run.opened kdev 0 } members' := by
  obtain ⟨isDevice, added⟩ := kept.adds wired freshDevice below adds
  have sameInterrupts : table.interrupts = run.table.interrupts := by
    unfold DeviceTable.kDeviceAdd at adds
    split at adds
    · cases adds
    · obtain rfl := Option.some.inj adds
      rfl
  unfold DeviceTable.kDeviceInit at inits
  dsimp only at inits
  obtain ⟨interrupts, prepared, isTable⟩ := Option.map_eq_some_iff.mp inits
  obtain rfl := (Prod.mk.inj isTable).2
  have isHandler : (DeviceTable.configure flags params (table.kdev kdev)).irqHandler =
      dev.irqHandler := by
    rw [isDevice]
    rfl
  have isNum : (DeviceTable.configure flags params (table.kdev kdev)).irqNum = dev.irqNum := by
    rw [isDevice]
    rfl
  let device := DeviceTable.setCallback callback
    (DeviceTable.configure flags params (table.kdev kdev))
  have stays : device.isOpen = false := by
    simp only [device, isDevice]
    rfl
  have isWired : device.Wired := by
    simp only [device, isDevice]
    exact wired
  have stored := added.stores isWired (Function.update_self ..) stays
  rw [isHandler, isNum, sameInterrupts] at prepared
  split at prepared
  · rename_i registers
    rw [if_pos registers]
    obtain ⟨interrupts', result, rfl⟩ := Option.map_eq_some_iff.mp prepared
    obtain ⟨-, none⟩ | ⟨line, isLine⟩ := wired
    · exact absurd none registers.2
    · rw [isLine] at result ⊢
      obtain ⟨settled, ⟨members', registered⟩, enabled⟩ := kept.enables fresh result
      exact ⟨members', settled, registered, enabled, stored.linked, stored.bounded, stored.wired,
        stored.exclusive⟩
  · rename_i nothing
    rw [if_neg nothing]
    obtain rfl := Option.some.inj prepared
    exact ⟨members, kept.settled, kept.handlers, kept.enabled, stored.linked, stored.bounded,
      stored.wired, stored.exclusive⟩

theorem Kept.removes (kept : Kept run members) {table : DeviceTable} (mem : kdev ∈ run.added)
    (result : run.table.kDeviceRemove kdev = some table) :
    ∃ members', Kept { run with
      table := table
      registered :=
        if (run.table.kdev kdev).irqHandler ≠ 0 then
          Function.update run.registered (run.table.kdev kdev).irqNum.toNat
            ((run.registered (run.table.kdev kdev).irqNum.toNat).filter
              fun entry => entry ≠ ⟨kdev, (run.table.kdev kdev).irqHandler⟩)
        else run.registered
      added := run.added.erase kdev } members' := by
  have wired := kept.wired kdev mem
  have removed := (kept.linked.remove_single FIRST mem).2
  have fewer : ∀ other, other ∈ run.added.erase kdev → other ∈ run.added :=
    fun other left => List.mem_of_mem_erase left
  unfold DeviceTable.kDeviceRemove at result
  dsimp only at result
  obtain ⟨interrupts, prepared, rfl⟩ := Option.map_eq_some_iff.mp result
  -- the line is masked, where there is one
  obtain ⟨settled, hides⟩ : Settled8259 (if (run.table.kdev kdev).irqNum ≠ -1 then
        i8259IrqDisable (run.table.kdev kdev).irqNum run.table.interrupts.pics
        else run.table.interrupts.pics) ∧
      ∀ other : Fin 16, Masked (if (run.table.kdev kdev).irqNum ≠ -1 then
        i8259IrqDisable (run.table.kdev kdev).irqNum run.table.interrupts.pics
        else run.table.interrupts.pics) other = false →
          Masked run.table.interrupts.pics other = false ∧
          (lineIrq other).toNat ≠ (run.table.kdev kdev).irqNum.toNat := by
    rcases wired with ⟨isNone, -⟩ | ⟨line, isLine⟩
    · rw [isNone, if_neg (by decide)]
      refine ⟨kept.settled, fun other unmasked => ⟨unmasked, ?_⟩⟩
      rw [lineIrq_toNat]
      have large : (-1 : BitVec 32).toNat = 4294967295 := by decide
      rw [large]
      omega
    · have isHardware : ∀ line, lineIrq line ≠ -1 := by decide
      rw [isLine, if_pos (isHardware line)]
      obtain ⟨settled, masked⟩ := i8259IrqDisable_masked kept.settled line
      refine ⟨settled, fun other unmasked => ?_⟩
      rw [masked, Bool.or_eq_false_iff, decide_eq_false_iff_not] at unmasked
      refine ⟨unmasked.2, fun sameNum => unmasked.1 ?_⟩
      rw [lineIrq_toNat, lineIrq_toNat] at sameNum
      exact Fin.ext (Nat.add_left_cancel sameNum)
  split at prepared
  · rename_i hasHandler
    rw [if_pos hasHandler]
    obtain ⟨pics, members', registered, -⟩ :=
      (registered_pics kept.handlers _ _ _).unregister prepared
    refine ⟨members', ?_, registered, ?_, removed, fun other left => kept.bounded other (fewer other left),
      fun other left => kept.wired other (fewer other left),
      fun other left => kept.exclusive other (fewer other left)⟩
    · dsimp only
      rw [pics]
      exact settled
    · intro line direct unmasked
      dsimp only at unmasked ⊢
      rw [pics] at unmasked
      obtain ⟨enabled, different⟩ := hides line unmasked
      rw [Function.update_of_ne different]
      exact kept.enabled line direct enabled
  · rename_i noHandler
    rw [if_neg noHandler]
    obtain rfl := Option.some.inj prepared
    refine ⟨members, settled, registered_pics kept.handlers _ _ _, ?_, removed,
      fun other left => kept.bounded other (fewer other left),
      fun other left => kept.wired other (fewer other left),
      fun other left => kept.exclusive other (fewer other left)⟩
    intro line direct unmasked
    exact kept.enabled line direct (hides line unmasked).1

theorem openLoop_eq {table : DeviceTable} {name : List UInt8} {fuel : Nat}
    {entries : Unit → List Ptr} {before after : List Ptr} (linked : table.devices.Linked entries)
    (place : entries () = before ++ after) (enough : after.length < fuel) :
    table.openLoop name fuel (headOf 0 after) =
      match after.find? fun kdev => (table.kdev kdev).devName = name with
      | none => (0, table)
      | some kdev =>
        if (table.kdev kdev).NotShared ∧ (table.kdev kdev).isOpen then (0, table)
        else (kdev, { table with
          kdev := Function.update table.kdev kdev { table.kdev kdev with isOpen := true } }) := by
  induction after generalizing before fuel with
  | nil =>
      cases fuel with
      | zero => cases enough
      | succ fuel => rw [headOf_nil, DeviceTable.openLoop, if_pos rfl, List.find?_nil]
  | cons kdev after induction =>
      cases fuel with
      | zero => cases enough
      | succ fuel =>
          have mem : kdev ∈ entries () := by simp [place]
          have nonzero : kdev ≠ 0 := linked.ne_zero mem
          rw [headOf_cons, DeviceTable.openLoop, if_neg nonzero]
          dsimp only
          by_cases isName : (table.kdev kdev).devName = name
          · rw [if_pos isName.symm, List.find?_cons_of_pos (by simpa using isName)]
          · have place' : entries () = (before ++ [kdev]) ++ after := by
              rw [place, List.append_assoc, List.singleton_append]
            rw [if_neg (Ne.symm isName), List.find?_cons_of_neg (by simpa using isName),
              linked.listGetNext_eq place]
            exact induction place' (Nat.lt_of_succ_lt_succ enough)

/-- `k_device_open` finds the first device of the name. -/
theorem Kept.kDeviceOpen_eq (kept : Kept run members) (name : List UInt8) :
    run.table.kDeviceOpen name =
      match run.added.find? fun kdev => (run.table.kdev kdev).devName = name with
      | none => (0, run.table)
      | some kdev =>
        if (run.table.kdev kdev).NotShared ∧ (run.table.kdev kdev).isOpen then (0, run.table)
        else (kdev, { run.table with
          kdev := Function.update run.table.kdev kdev
            { run.table.kdev kdev with isOpen := true } }) := by
  have first := kept.linked.listGet_first ()
  have short := length_lt_addressCount (kept.linked.nodup ()) kept.bounded
  have place : (fun _ : Unit => run.added) () = [] ++ run.added := rfl
  unfold DeviceTable.kDeviceOpen
  rw [first]
  exact openLoop_eq kept.linked place short

theorem Kept.closes (kept : Kept run members) (mem : kdev ∈ run.added) (has : 0 < run.opened kdev) :
    Kept { run with
      table := run.table.kDeviceClose kdev
      opened := Function.update run.opened kdev (run.opened kdev - 1) } members := by
  refine ⟨kept.settled, kept.handlers, kept.enabled, kept.linked, kept.bounded, ?_, ?_⟩
  · intro other otherMem
    simp only [DeviceTable.kDeviceClose]
    by_cases same : other = kdev
    · subst same
      rw [Function.update_self]
      exact kept.wired other mem
    · rw [Function.update_of_ne same]
      exact kept.wired other otherMem
  · intro other otherMem
    simp only [DeviceTable.kDeviceClose]
    by_cases same : other = kdev
    · subst same
      rw [Function.update_self, Function.update_self]
      intro notShared
      have once := kept.exclusive other mem notShared
      have bound := (run.table.kdev other).isOpen.toNat_le
      dsimp only
      rw [Bool.toNat_false]
      omega
    · rw [Function.update_of_ne same, Function.update_of_ne same]
      exact kept.exclusive other otherMem

theorem Kept.opens (kept : Kept run members) (name : List UInt8) :
    Kept { run with
      table := (run.table.kDeviceOpen name).2
      opened :=
        if (run.table.kDeviceOpen name).1 = 0 then run.opened
        else Function.update run.opened (run.table.kDeviceOpen name).1
          (run.opened (run.table.kDeviceOpen name).1 + 1) } members := by
  rw [kept.kDeviceOpen_eq name]
  cases found : run.added.find? fun kdev => (run.table.kdev kdev).devName = name with
  | none => exact kept
  | some kdev =>
      dsimp only
      split
      · exact kept
      · rename_i free
        have mem := List.mem_of_find?_eq_some found
        have nonzero : kdev ≠ 0 := fun zero =>
          (List.nodup_cons.mp (kept.linked.nodup ())).1 (zero ▸ mem)
        dsimp only
        rw [if_neg nonzero]
        refine ⟨kept.settled, kept.handlers, kept.enabled, kept.linked, kept.bounded, ?_, ?_⟩
        · intro other otherMem
          dsimp only
          by_cases same : other = kdev
          · subst same
            rw [Function.update_self]
            exact kept.wired other mem
          · rw [Function.update_of_ne same]
            exact kept.wired other otherMem
        · intro other otherMem
          dsimp only
          by_cases same : other = kdev
          · subst same
            rw [Function.update_self, Function.update_self]
            intro notShared
            have isClosed : (run.table.kdev other).isOpen = false := by
              rw [← Bool.not_eq_true]
              exact fun isOpen => free ⟨notShared, isOpen⟩
            rw [kept.exclusive other mem notShared, isClosed]
            rfl
          · rw [Function.update_of_ne same, Function.update_of_ne same]
            exact kept.exclusive other otherMem

/-- A delivered interrupt calls what is registered for its line, and leaves the controller as it
was. -/
theorem Kept.delivers (kept : Kept run members) {vector : BitVec 8} {pics : Pair}
    (delivers : Delivers run.table.interrupts.pics vector pics) :
    run.registered vector.toNat ≠ [] ∧
    ({ run.table.interrupts with pics := pics } : Interrupts).archInterruptHandler
      (vector.setWidth 32) = some (run.registered vector.toNat,
        { run.table.interrupts with prevMode := KERNEL_MODE, newMode := USER_MODE }) := by
  obtain ⟨line, direct, isVector, unmasked, ended⟩ := delivers_line kept.settled delivers
  have number : vector.toNat = (lineIrq line).toNat := by
    rw [← isVector, BitVec.toNat_setWidth]
    have bound := vector.isLt
    omega
  have nonempty := kept.enabled line direct unmasked
  have calls := (registered_pics kept.handlers pics run.table.interrupts.prevMode
    run.table.interrupts.newMode).calls (lineIrq_inRange line) nonempty
  rw [number]
  refine ⟨nonempty, ?_⟩
  rw [isVector]
  dsimp only at calls
  rw [ended] at calls
  exact calls

theorem Kept.step (kept : Kept run members) (step : Step run run') :
    ∃ members', Kept run' members' := by
  cases step with
  | register ih inum handler device fresh result => exact kept.registers fresh result
  | timer ih line handler device fresh result => exact kept.starts_timer fresh result
  | install kdev dev flags params callback retval ih wired fresh freshDevice below adds inits =>
      exact kept.installs wired fresh freshDevice below adds inits
  | remove kdev mem _ result => exact kept.removes mem result
  | openDevice name => exact ⟨members, kept.opens name⟩
  | closeDevice kdev mem has => exact ⟨members, kept.closes mem has⟩
  | deliver delivers result =>
      have same := (kept.delivers delivers).2
      rw [result] at same
      obtain ⟨-, rfl⟩ := Prod.mk.inj (Option.some.inj same)
      exact ⟨members, kept.settled, registered_pics kept.handlers _ _ _, kept.enabled, kept.linked,
        kept.bounded, kept.wired, kept.exclusive⟩
  | raise irq own result =>
      unfold Interrupts.archInterruptHandler at result
      dsimp only at result
      split at result
      · obtain ⟨-, rfl⟩ := Prod.mk.inj (Option.some.inj result)
        have notHardware : ¬ (IRQ_OFFSET ≤ irq ∧ irq < HW_INTERRUPTS) := by
          rintro ⟨low, high⟩
          rcases own with below | rfl
          · exact absurd low (BitVec.not_le.mpr below)
          · exact absurd high (by decide)
        have exits : i8259AtExit irq run.table.interrupts.pics = run.table.interrupts.pics :=
          if_neg notHardware
        refine ⟨members, ?_, registered_pics kept.handlers _ _ _, ?_, kept.linked, kept.bounded,
          kept.wired, kept.exclusive⟩
        · dsimp only
          rw [exits]
          exact kept.settled
        · dsimp only
          rw [exits]
          exact kept.enabled
      · cases result

end Steps

section Results

/-- `arch_init_interrupts` has run, and the list of devices is empty. -/
structure Starts (run : DeviceRun) : Prop where
  initialized : ∃ before : Interrupts, run.table.interrupts = before.archInitInterrupts ∧
    ∀ irq, before.ihandlers.first irq = 0 ∧ before.ihandlers.last irq = 0
  devices : ∃ lists, run.table.devices = Lists.listInit () lists
  registered : run.registered = fun _ => []
  added : run.added = []

theorem listInits_empty (entries : List Nat) {lists : Lists Nat}
    (empty : ∀ irq, lists.first irq = 0 ∧ lists.last irq = 0) (irq : Nat) :
    (entries.foldl (fun lists i => lists.listInit i) lists).first irq = 0 ∧
      (entries.foldl (fun lists i => lists.listInit i) lists).last irq = 0 := by
  induction entries generalizing lists with
  | nil => exact empty irq
  | cons entry entries induction =>
      apply induction
      intro other
      unfold Lists.listInit
      dsimp only
      by_cases same : other = entry
      · subst same
        exact ⟨Function.update_self .., Function.update_self ..⟩
      · rw [Function.update_of_ne same, Function.update_of_ne same]
        exact empty other

theorem Starts.kept (starts : Starts first) : Kept first fun _ => [] := by
  obtain ⟨before, isInit, empty⟩ := starts.initialized
  obtain ⟨lists, isList⟩ := starts.devices
  obtain ⟨settled, masked⟩ := i8259Init_settled before.pics
  have none : ∀ kdev, kdev ∉ first.added := by
    intro kdev mem
    rw [starts.added] at mem
    cases mem
  constructor
  case settled =>
    rw [isInit]
    exact settled
  case handlers =>
    rw [isInit, starts.registered]
    refine ⟨⟨fun irq => ?_, by simp, by simp, by simp⟩, fun _ => rfl, by simp⟩
    obtain ⟨isFirst, isLast⟩ := listInits_empty (List.range INTERRUPTS) empty irq
    simp [LinkedRing.Ring, Lists.Link, Lists.follow, Lists.precede, Interrupts.archInitInterrupts,
      isFirst, isLast]
  case enabled =>
    intro line direct unmasked
    rw [isInit] at unmasked
    exact absurd (unmasked.symm.trans (masked line direct)) Bool.false_ne_true
  case linked =>
    rw [isList, starts.added]
    exact Lists.Linked.init_single
  all_goals exact fun kdev mem => absurd mem (none kdev)

theorem Kept.runs (kept : Kept first members) (run : Relation.ReflTransGen Step first last) :
    ∃ members', Kept last members' := by
  induction run with
  | refl => exact ⟨members, kept⟩
  | tail _ step ih =>
      obtain ⟨middle, kept'⟩ := ih
      exact kept'.step step

/-- The start, with a device for the second line. -/
def sampleFirst : DeviceRun where
  table :=
    { interrupts := Interrupts.archInitInterrupts
        { pics := ⟨⟨[], 0, 0, 0⟩, ⟨[], 0, 0, 0⟩⟩
          ihandlers := ⟨fun _ => 0, fun _ => 0, fun _ => 0, fun _ => 0, fun _ => 0⟩
          ihndlr := fun _ => ⟨0, 0⟩
          prevMode := 0
          newMode := 0 }
      devices := Lists.listInit () ⟨fun _ => 0, fun _ => 0, fun _ => 0, fun _ => 0, fun _ => 0⟩
      kdev := fun _ => ⟨⟨[], 0, 0, 0, 0, 0⟩, false, false⟩ }
  registered := fun _ => []
  added := []
  opened := fun _ => 0

def sampleDevice : Device := ⟨[105], lineIrq 1, 0x200, 0, DEV_TYPE_NOTSHARED, 0⟩

theorem sampleFirst_starts : Starts sampleFirst :=
  ⟨⟨_, rfl, fun _ => ⟨rfl, rfl⟩⟩, ⟨_, rfl⟩, rfl, rfl⟩

/-- The device is installed, and its line enabled. -/
theorem sample_installs : ∃ last, Relation.ReflTransGen Step sampleFirst last ∧
    last.added = [0x100] ∧ (last.table.kdev 0x100).NotShared ∧
    Masked last.table.interrupts.pics 1 = false := by
  have fresh : sampleFirst.FreshHandler 0x50 := by
    refine ⟨by decide, fun members handlers irq mem => ?_⟩
    have none := handlers.entries irq
    rw [List.map_eq_nil_iff.mp none] at mem
    cases mem
  obtain ⟨table, adds⟩ : ∃ table, sampleFirst.table.kDeviceAdd 0x100 sampleDevice = some table :=
    ⟨_, rfl⟩
  obtain rfl := Option.some.inj adds
  have installs : Step sampleFirst _ :=
    .install 0x100 sampleDevice 0 0 0 0 0x50 (.inr ⟨1, rfl⟩) fresh (by simp [sampleFirst])
      (by decide) adds rfl
  exact ⟨_, .single installs, rfl, by decide, by decide⟩

/-- In every run an interrupt that the controller delivers finds handlers, which are called in the
order in which they were registered, and when it ends every line that is enabled can be delivered
again. -/
theorem interrupts_served (starts : Starts first) (run : Relation.ReflTransGen Step first last) :
    (∀ vector pics, Delivers last.table.interrupts.pics vector pics →
      last.registered vector.toNat ≠ [] ∧
      ({ last.table.interrupts with pics := pics } : Interrupts).archInterruptHandler
        (vector.setWidth 32) = some (last.registered vector.toNat,
          { last.table.interrupts with prevMode := KERNEL_MODE, newMode := USER_MODE })) ∧
    ∀ line : Fin 16, line ≠ 2 → Masked last.table.interrupts.pics line = false →
      (8 ≤ line.val → Masked last.table.interrupts.pics 2 = false) →
        ∃ vector pics, Delivers last.table.interrupts.pics vector pics ∧
          vector.setWidth 32 = lineIrq line := by
  obtain ⟨members, kept⟩ := starts.kept.runs run
  exact ⟨fun vector pics delivers => kept.delivers delivers,
    fun line direct unmasked through => line_delivers kept.settled direct unmasked through⟩

theorem interrupts_served_sample : ∃ last, Relation.ReflTransGen Step sampleFirst last ∧
    ∃ vector pics, Delivers last.table.interrupts.pics vector pics ∧
      last.registered vector.toNat ≠ [] := by
  obtain ⟨last, run, -, -, unmasked⟩ := sample_installs
  obtain ⟨served, enabled⟩ := interrupts_served sampleFirst_starts run
  obtain ⟨vector, pics, delivers, -⟩ := enabled 1 (by decide) unmasked
    fun large => absurd large (by decide)
  exact ⟨last, run, vector, pics, delivers, (served vector pics delivers).1⟩

end Results

end DeviceRun

end Oseer

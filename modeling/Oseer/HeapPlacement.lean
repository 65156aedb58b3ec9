import Oseer.Library.WordMemory

/-!
# The place of the kernel heap

The first part of `k_memory_init`: the heap of the kernel begins behind the kernel and the modules
that the boot loader has put into memory, and goes to the end of what is taken to be the memory.
All of it is computed with unsigned 32-bit numbers.
-/

namespace Oseer

open WordMemory

/-- `ALIGN_TO`. -/
def ALIGN_TO : Nat := 4096

/-- `MULTIBOOT_INFO_MODS`. -/
def MULTIBOOT_INFO_MODS : Nat := 8

/-- `MULTIBOOT_BOOTLOADER_MAGIC`. -/
def MULTIBOOT_BOOTLOADER_MAGIC : Nat := 0x2BADB002

/-- `multiboot_module_t`, apart from the command line: the module goes from `modStart` to
`modEnd - 1`. -/
structure MultibootModule where
  modStart : Nat
  modEnd : Nat
deriving DecidableEq, Repr

/-- `multiboot_info_t`, as far as it is read: `memUpper` is in kilobytes, and `mods` are the
`mods_count` modules at `mods_addr`. -/
structure MultibootInfo where
  flags : Nat
  memUpper : Nat
  mods : List MultibootModule
deriving DecidableEq, Repr

/-- `k_heap`: the `mseg_t` as it is computed, which may reach out of the address space. -/
structure KHeap where
  start : Nat
  size : Nat
deriving DecidableEq, Repr

namespace MultibootInfo

/-- The modules that are there. -/
def modules (mbi : MultibootInfo) : List MultibootModule :=
  if mbi.flags &&& MULTIBOOT_INFO_MODS ≠ 0 then mbi.mods else []

/-- The first run on the modules. -/
def lastByte (kernelEnd : Nat) (mbi : MultibootInfo) : Nat :=
  mbi.modules.foldl
    (fun max mod => if max < mod.modEnd then add32 mod.modEnd 1 else max) kernelEnd

/-- The computation of `k_heap` in `k_memory_init`; it halts for another boot loader. -/
def kHeap (magic kernelEnd : Nat) (mbi : MultibootInfo) : Option KHeap :=
  if magic ≠ MULTIBOOT_BOOTLOADER_MAGIC then none
  else
    let max := mbi.lastByte kernelEnd
    let max := if max % ALIGN_TO ≠ 0 then add32 max (ALIGN_TO - max % ALIGN_TO) else max
    some ⟨max, sub32 (sub32 mbi.memUpper 1024 * 1024 % 2 ^ 32) max⟩

/-- What a boot loader hands over: numbers of 32 bits, and modules that lie behind the kernel and
in the memory. -/
structure Handed (kernelEnd : Nat) (mbi : MultibootInfo) : Prop where
  kernel_pos : 0 < kernelEnd
  kernel_lt : kernelEnd < 2 ^ 32
  memUpper_lt : mbi.memUpper < 2 ^ 32
  behind : ∀ mod ∈ mbi.modules, kernelEnd ≤ mod.modStart ∧ mod.modStart ≤ mod.modEnd
  modEnd_lt : ∀ mod ∈ mbi.modules, mod.modEnd < 2 ^ 32
  inMemory : ∀ mod ∈ mbi.modules, mod.modEnd ≤ 2 ^ 20 + mbi.memUpper * 1024

/-- The heap is a region of the memory, behind the kernel and the modules. -/
structure Placed (kernelEnd : Nat) (mbi : MultibootInfo) (heap : KHeap) : Prop where
  noWrap : heap.start + heap.size < 2 ^ 32
  aligned : ALIGN_TO ∣ heap.start
  kernel : kernelEnd ≤ heap.start
  modules : ∀ mod ∈ mbi.modules, mod.modEnd ≤ heap.start
  memory : heap.start + heap.size ≤ 2 ^ 20 + mbi.memUpper * 1024

/-- The first byte behind the kernel and the modules; for a module that reaches beyond those
before it one byte more is left. -/
def occupied (kernelEnd : Nat) (mods : List MultibootModule) : Nat :=
  mods.foldl (fun top mod => if top < mod.modEnd then mod.modEnd + 1 else top) kernelEnd

/-- The next multiple of `ALIGN_TO`. -/
def alignUp (address : Nat) : Nat := (address + (ALIGN_TO - 1)) / ALIGN_TO * ALIGN_TO

/-- There is room between the modules and what is taken to be the end of the memory. -/
def Room (kernelEnd : Nat) (mbi : MultibootInfo) : Prop :=
  1024 ≤ mbi.memUpper ∧
    alignUp (occupied kernelEnd mbi.modules) ≤ (mbi.memUpper - 1024) * 1024 % 2 ^ 32

instance (kernelEnd : Nat) (mbi : MultibootInfo) : Decidable (mbi.Room kernelEnd) :=
  inferInstanceAs (Decidable (_ ∧ _))

variable {kernelEnd bound magic : Nat} {mbi : MultibootInfo} {mods : List MultibootModule}
  {heap : KHeap}

theorem le_occupied (kernelEnd : Nat) (mods : List MultibootModule) :
    kernelEnd ≤ occupied kernelEnd mods ∧ ∀ mod ∈ mods, mod.modEnd ≤ occupied kernelEnd mods := by
  unfold occupied
  induction mods generalizing kernelEnd with
  | nil => simp
  | cons first mods ih =>
      rw [List.foldl_cons, List.forall_mem_cons]
      split_ifs with beyond
      · obtain ⟨least, rest⟩ := ih (first.modEnd + 1)
        exact ⟨by omega, by omega, rest⟩
      · obtain ⟨least, rest⟩ := ih kernelEnd
        exact ⟨least, by omega, rest⟩

/-- What is occupied ends at most one byte behind the last module. -/
theorem occupied_le (kernel : kernelEnd ≤ bound) (below : ∀ mod ∈ mods, mod.modEnd ≤ bound) :
    occupied kernelEnd mods ≤ bound + 1 := by
  have general : ∀ top ≤ bound + 1, ∀ mods : List MultibootModule,
      (∀ mod ∈ mods, mod.modEnd ≤ bound) → occupied top mods ≤ bound + 1 := by
    intro top least mods
    unfold occupied
    induction mods generalizing top with
    | nil => simpa using least
    | cons first mods ih =>
        intro all
        obtain ⟨here, rest⟩ := List.forall_mem_cons.mp all
        rw [List.foldl_cons]
        split_ifs
        · exact ih _ (by omega) rest
        · exact ih _ least rest
  exact general kernelEnd (by omega) mods below

theorem lastByte_eq (below : ∀ mod ∈ mbi.modules, mod.modEnd + 1 < 2 ^ 32) :
    mbi.lastByte kernelEnd = occupied kernelEnd mbi.modules := by
  unfold lastByte occupied
  generalize mbi.modules = mods at below
  induction mods generalizing kernelEnd with
  | nil => rfl
  | cons first mods ih =>
      obtain ⟨here, rest⟩ := List.forall_mem_cons.mp below
      rw [List.foldl_cons, List.foldl_cons, add32_of_lt here]
      exact ih rest

theorem alignUp_aligned (address : Nat) : ALIGN_TO ∣ alignUp address :=
  Nat.dvd_mul_left ALIGN_TO _

theorem le_alignUp (address : Nat) : address ≤ alignUp address := by
  unfold alignUp ALIGN_TO
  omega

theorem alignUp_le_of_dvd {address multiple : Nat} (aligned : ALIGN_TO ∣ multiple)
    (le : address ≤ multiple) : alignUp address ≤ multiple := by
  obtain ⟨count, rfl⟩ := aligned
  unfold alignUp ALIGN_TO at *
  omega

theorem aligned_eq {address : Nat} (fits : alignUp address < 2 ^ 32) :
    (if address % ALIGN_TO ≠ 0 then add32 address (ALIGN_TO - address % ALIGN_TO) else address) =
      alignUp address := by
  unfold alignUp ALIGN_TO at *
  split_ifs with rest
  · unfold add32
    omega
  · omega

theorem memoryEnd_eq (fits : mbi.memUpper < 2 ^ 32) (enough : 1024 ≤ mbi.memUpper) :
    sub32 mbi.memUpper 1024 * 1024 % 2 ^ 32 = (mbi.memUpper - 1024) * 1024 % 2 ^ 32 := by
  rw [sub32_of_le fits enough]

theorem memoryEnd_wraps (few : mbi.memUpper < 1024) :
    2 ^ 20 + mbi.memUpper * 1024 < sub32 mbi.memUpper 1024 * 1024 % 2 ^ 32 := by
  unfold sub32
  omega

theorem kHeap_eq (loader : magic = MULTIBOOT_BOOTLOADER_MAGIC)
    (below : ∀ mod ∈ mbi.modules, mod.modEnd + 1 < 2 ^ 32)
    (fits : alignUp (occupied kernelEnd mbi.modules) < 2 ^ 32) :
    mbi.kHeap magic kernelEnd = some ⟨alignUp (occupied kernelEnd mbi.modules),
      sub32 (sub32 mbi.memUpper 1024 * 1024 % 2 ^ 32)
        (alignUp (occupied kernelEnd mbi.modules))⟩ := by
  unfold kHeap
  rw [if_neg (not_not_intro loader)]
  dsimp only
  rw [lastByte_eq below, aligned_eq fits]

/-- Where the heap starts behind the kernel and the modules, neither the run over the modules nor
the alignment has wrapped. -/
theorem Placed.no_wrap (placed : mbi.Placed kernelEnd heap) (handed : mbi.Handed kernelEnd)
    (result : mbi.kHeap magic kernelEnd = some heap) :
    (∀ mod ∈ mbi.modules, mod.modEnd + 1 < 2 ^ 32) ∧
      alignUp (occupied kernelEnd mbi.modules) < 2 ^ 32 := by
  have positive := handed.kernel_pos
  have kernel := placed.kernel
  have noWrap := placed.noWrap
  have startBound : heap.start + ALIGN_TO ≤ 2 ^ 32 := by
    obtain ⟨count, isStart⟩ := placed.aligned
    unfold ALIGN_TO at *
    omega
  have below : ∀ mod ∈ mbi.modules, mod.modEnd + 1 < 2 ^ 32 := by
    intro mod mem
    have behind := placed.modules mod mem
    unfold ALIGN_TO at startBound
    omega
  refine ⟨below, ?_⟩
  have most : occupied kernelEnd mbi.modules ≤ heap.start + 1 :=
    occupied_le kernel placed.modules
  by_contra wraps
  -- only the address behind the last page can be aligned beyond the address space
  have isLast : occupied kernelEnd mbi.modules = 2 ^ 32 - ALIGN_TO + 1 := by
    unfold alignUp ALIGN_TO at *
    omega
  unfold kHeap at result
  split_ifs at result with loader
  dsimp only at result
  rw [lastByte_eq below, isLast] at result
  have isZero : heap.start = 0 := by
    rw [← Option.some.inj result]
    rfl
  omega

/-- The heap is placed in the memory behind the kernel and the modules if and only if there is
room. -/
theorem heap_placed_iff (handed : mbi.Handed kernelEnd) :
    ∃ heap, mbi.kHeap MULTIBOOT_BOOTLOADER_MAGIC kernelEnd = some heap ∧
      (mbi.Placed kernelEnd heap ↔ mbi.Room kernelEnd) := by
  obtain ⟨heap, result⟩ : ∃ heap, mbi.kHeap MULTIBOOT_BOOTLOADER_MAGIC kernelEnd = some heap :=
    ⟨_, if_neg (not_not_intro rfl)⟩
  refine ⟨heap, result, ?_, ?_⟩
  · intro placed
    obtain ⟨below, fits⟩ := placed.no_wrap handed result
    rw [kHeap_eq rfl below fits] at result
    obtain rfl := Option.some.inj result
    have noWrap := placed.noWrap
    have memory := placed.memory
    dsimp only at noWrap memory
    by_cases few : mbi.memUpper < 1024
    · have far := memoryEnd_wraps few
      unfold sub32 at noWrap memory far
      omega
    · have enough := Nat.le_of_not_lt few
      rw [memoryEnd_eq handed.memUpper_lt enough] at noWrap memory
      refine ⟨enough, ?_⟩
      unfold sub32 at noWrap
      omega
  · rintro ⟨enough, room⟩
    have fits : alignUp (occupied kernelEnd mbi.modules) < 2 ^ 32 := by omega
    have le := le_alignUp (occupied kernelEnd mbi.modules)
    obtain ⟨kernel, modules⟩ := le_occupied kernelEnd mbi.modules
    have below : ∀ mod ∈ mbi.modules, mod.modEnd + 1 < 2 ^ 32 := by
      intro mod mem
      have behind := modules mod mem
      obtain ⟨count, isMultiple⟩ := alignUp_aligned (occupied kernelEnd mbi.modules)
      unfold ALIGN_TO at isMultiple
      omega
    rw [kHeap_eq rfl below fits] at result
    obtain rfl := Option.some.inj result
    have size := memoryEnd_eq handed.memUpper_lt enough
    have isSize : sub32 (sub32 mbi.memUpper 1024 * 1024 % 2 ^ 32)
        (alignUp (occupied kernelEnd mbi.modules)) =
      (mbi.memUpper - 1024) * 1024 % 2 ^ 32 - alignUp (occupied kernelEnd mbi.modules) := by
      rw [size, sub32_of_le (by omega) room]
    refine ⟨?_, alignUp_aligned _, kernel.trans le, fun mod mem => (modules mod mem).trans le, ?_⟩
    · dsimp only
      omega
    · dsimp only
      omega

/-- Eight megabytes, and a module behind the kernel. -/
theorem heap_placed_module : ∃ heap,
    (⟨MULTIBOOT_INFO_MODS, 7168, [⟨0x120000, 0x123456⟩]⟩ : MultibootInfo).kHeap
        MULTIBOOT_BOOTLOADER_MAGIC 0x118000 = some heap ∧
      (Placed 0x118000 ⟨MULTIBOOT_INFO_MODS, 7168, [⟨0x120000, 0x123456⟩]⟩ heap ↔
        Room 0x118000 ⟨MULTIBOOT_INFO_MODS, 7168, [⟨0x120000, 0x123456⟩]⟩) := by
  apply heap_placed_iff
  constructor <;> decide

/-- With 512 kilobytes above the first megabyte the end of the memory wraps. -/
theorem heap_placed_fail : ∃ heap,
    (⟨0, 512, []⟩ : MultibootInfo).kHeap MULTIBOOT_BOOTLOADER_MAGIC 0x118000 = some heap ∧
      Handed 0x118000 ⟨0, 512, []⟩ ∧ ¬ Placed 0x118000 ⟨0, 512, []⟩ heap := by
  refine ⟨⟨0x118000, 0xffe68000⟩, by decide, ?_, ?_⟩
  · constructor <;> decide
  · intro placed
    exact absurd placed.memory (by decide)

end MultibootInfo

end Oseer

import Mathlib.Data.BitVec
import Mathlib.Data.Fin.VecNotation
import Mathlib.Logic.Function.Basic
import Mathlib.Tactic.IntervalCases

/-!
# Segment descriptors

The segment descriptors of `arch/i386/arch/descriptors.c`.  A process runs in the segments that
`arch_upd_segm_descr` describes; the processor puts base and limit together from the fields of the
descriptor, and scales the limit by the granularity.
-/

namespace Oseer

/-- `GDT_t`. -/
structure GdtEntry where
  segmLimit0 : BitVec 16
  baseAddr0 : BitVec 16
  baseAddr1 : BitVec 8
  type : BitVec 4
  S : BitVec 1
  DPL : BitVec 2
  P : BitVec 1
  segmLimit1 : BitVec 4
  AVL : BitVec 1
  L : BitVec 1
  DB : BitVec 1
  G : BitVec 1
  baseAddr2 : BitVec 8
deriving DecidableEq, Repr

/-- `SEGM_T_CODE`. -/
def SEGM_T_CODE : Int := 3
/-- `SEGM_T_DATA`. -/
def SEGM_T_DATA : Int := 4

def PRIV_USER : Int := 3

/-- The rows of `gdt`. -/
abbrev Gdt := Fin 6 → GdtEntry

/-- `GDT_0`. -/
def GDT_0 : GdtEntry := ⟨0, 0, 0, 0, 0, 0, 0, 0, 0, 0, 0, 0, 0⟩
/-- `GDT_K_CODE`. -/
def GDT_K_CODE : GdtEntry := ⟨0xffff, 0, 0, 0x0a, 1, 0, 1, 0x0f, 0, 0, 1, 1, 0⟩
/-- `GDT_K_DATA`. -/
def GDT_K_DATA : GdtEntry := ⟨0xffff, 0, 0, 0x02, 1, 0, 1, 0x0f, 0, 0, 1, 1, 0⟩
/-- `GDT_T_CODE`. -/
def GDT_T_CODE : GdtEntry := ⟨0xffff, 0, 0, 0x0a, 1, 3, 1, 0x0f, 0, 0, 1, 1, 0⟩
/-- `GDT_TSS`, with `sizeof (tss_t)`. -/
def GDT_TSS : GdtEntry := ⟨104, 0, 0, 0x09, 0, 0, 1, 0, 0, 0, 0, 0, 0⟩

/-- `gdt` before it is updated. -/
def gdtInit : Gdt := ![GDT_0, GDT_K_CODE, GDT_K_DATA, GDT_T_CODE, GDT_K_DATA, GDT_TSS]

namespace GdtEntry

/-- The processor's view of the base. -/
def base (entry : GdtEntry) : BitVec 32 :=
  entry.baseAddr2 ++ (entry.baseAddr1 ++ entry.baseAddr0 : BitVec 24)

/-- The 20 bits of the limit. -/
def rawLimit (entry : GdtEntry) : BitVec 20 := entry.segmLimit1 ++ entry.segmLimit0

/-- The greatest offset in the segment: with the granularity of 4 KB the limit counts pages, and
the lowest 12 bits of an offset are not compared. -/
def limit (entry : GdtEntry) : Nat :=
  if entry.G = 1 then entry.rawLimit.toNat * 4096 + 4095 else entry.rawLimit.toNat

/-- The processor lets an access at the offset pass. -/
def Accessible (entry : GdtEntry) (offset : BitVec 32) : Prop := offset.toNat ≤ entry.limit

instance (entry : GdtEntry) (offset : BitVec 32) : Decidable (entry.Accessible offset) :=
  inferInstanceAs (Decidable (_ ≤ _))

/-- The stores of the starting address. -/
def setBase (addr : BitVec 32) (entry : GdtEntry) : GdtEntry :=
  { entry with
    baseAddr0 := (addr &&& 0x0000ffff).setWidth 16
    baseAddr1 := ((addr &&& 0x00ff0000) >>> 16).setWidth 8
    baseAddr2 := ((addr &&& 0xff000000) >>> 24).setWidth 8 }

/-- The stores of the limit. -/
def setLimit (gsize : BitVec 32) (entry : GdtEntry) : GdtEntry :=
  { entry with
    segmLimit0 := (gsize &&& 0x0000ffff).setWidth 16
    segmLimit1 := ((gsize &&& 0x000f0000) >>> 16).setWidth 4 }

end GdtEntry

/-- `gsize`, and the granularity that is stored with it. -/
def granulated (size : BitVec 32) : BitVec 32 × BitVec 1 :=
  if size < 1 <<< 20 then (size - 1, 0)
  else
    let gsize := size >>> 12
    let gsize := if size &&& 0x0fff ≠ 0 then gsize + 1 else gsize
    (gsize - 1, 1)

/-- The stores of `arch_upd_segm_descr` in a row. -/
def GdtEntry.upd (startAddr size : BitVec 32) (privLevel : Int) (entry : GdtEntry) : GdtEntry :=
  { (entry.setBase startAddr).setLimit (granulated size).1 with
    G := (granulated size).2
    DPL := BitVec.ofInt 2 privLevel }

/-- `arch_upd_segm_descr`; nothing is returned if the assertion about `id` fails. -/
def archUpdSegmDescr (id : Int) (startAddr size : BitVec 32) (privLevel : Int) (gdt : Gdt) :
    Option Gdt :=
  if inRange : 0 < id ∧ id ≤ 5 then
    let row : Fin 6 := ⟨id.toNat, by omega⟩
    some (Function.update gdt row ((gdt row).upd startAddr size privLevel))
  else none

/-- `arch_update_user_segments`. -/
def archUpdateUserSegments (user userSize : BitVec 32) (gdt : Gdt) : Option Gdt :=
  (archUpdSegmDescr SEGM_T_CODE user userSize PRIV_USER gdt).bind
    (archUpdSegmDescr SEGM_T_DATA user userSize PRIV_USER)

variable {entry : GdtEntry} {addr gsize size : BitVec 32}

/-- The fields of the base hold all of its bits. -/
@[simp]
theorem GdtEntry.setBase_base : (entry.setBase addr).base = addr := by
  unfold base setBase
  ext i bound
  simp only [BitVec.getElem_append, BitVec.getElem_setWidth, BitVec.getLsbD_and,
    BitVec.getLsbD_ushiftRight]
  interval_cases i <;> simp [BitVec.getLsbD_eq_getElem]

/-- The fields of the limit hold the lowest 20 bits. -/
@[simp]
theorem GdtEntry.setLimit_rawLimit :
    (entry.setLimit gsize).rawLimit = gsize.setWidth 20 := by
  unfold rawLimit setLimit
  ext i bound
  simp only [BitVec.getElem_append, BitVec.getElem_setWidth, BitVec.getLsbD_and,
    BitVec.getLsbD_ushiftRight]
  interval_cases i <;> simp [BitVec.getLsbD_eq_getElem]

theorem land_pageOffset (size : BitVec 32) : (size &&& 0x0fff).toNat = size.toNat % 4096 := by
  rw [BitVec.toNat_and]
  exact Nat.and_two_pow_sub_one_eq_mod size.toNat 12

theorem granulated_bytes (positive : size ≠ 0) (small : size.toNat < 2 ^ 20) :
    (granulated size).1.toNat + 1 = size.toNat ∧ (granulated size).2 = 0 := by
  have isSmall : size < 1 <<< 20 := small
  have nonzero : size.toNat ≠ 0 := fun zero => positive (BitVec.eq_of_toNat_eq zero)
  unfold granulated
  rw [if_pos isSmall]
  constructor
  · bv_omega
  · rfl

/-- A large size is counted in pages, and the last one may be used in part. -/
theorem granulated_pages (large : 2 ^ 20 ≤ size.toNat) :
    (granulated size).1.toNat + 1 = (size.toNat + 4095) / 4096 ∧ (granulated size).2 = 1 := by
  have notSmall : ¬ size < 1 <<< 20 := Nat.not_lt.mpr large
  have bound := size.isLt
  have pages : (size >>> 12).toNat = size.toNat / 4096 := by
    rw [BitVec.toNat_ushiftRight, Nat.shiftRight_eq_div_pow]
  have rest := land_pageOffset size
  unfold granulated
  rw [if_neg notSmall]
  refine ⟨?_, rfl⟩
  dsimp only
  split_ifs with partly
  · have something : (size &&& 0x0fff).toNat ≠ 0 := fun zero =>
      partly (BitVec.eq_of_toNat_eq zero)
    bv_omega
  · have nothing : (size &&& 0x0fff).toNat = 0 := congrArg BitVec.toNat (not_not.mp partly)
    bv_omega

theorem granulated_lt (positive : size ≠ 0) : (granulated size).1.toNat < 2 ^ 20 := by
  have bound := size.isLt
  by_cases small : size.toNat < 2 ^ 20
  · have bytes := (granulated_bytes positive small).1
    omega
  · have pages := (granulated_pages (Nat.le_of_not_lt small)).1
    omega

/-- The number of bytes of the segment: a size of one megabyte or more is rounded up to pages. -/
def segmentSize (size : BitVec 32) : Nat :=
  if size.toNat < 2 ^ 20 then size.toNat else (size.toNat + 4095) / 4096 * 4096

/-- The processor scales the limit back to the size. -/
theorem accessible_iff (positive : size ≠ 0) (offset : BitVec 32)
    (rawLimit : entry.rawLimit = (granulated size).1.setWidth 20)
    (granularity : entry.G = (granulated size).2) :
    entry.Accessible offset ↔ offset.toNat < segmentSize size := by
  have fits := granulated_lt positive
  have raw : entry.rawLimit.toNat = (granulated size).1.toNat := by
    rw [rawLimit, BitVec.toNat_setWidth, Nat.mod_eq_of_lt fits]
  unfold GdtEntry.Accessible GdtEntry.limit segmentSize
  rw [raw, granularity]
  by_cases small : size.toNat < 2 ^ 20
  · obtain ⟨bytes, isZero⟩ := granulated_bytes positive small
    rw [isZero, if_pos small, if_neg (by decide)]
    omega
  · obtain ⟨pages, isOne⟩ := granulated_pages (Nat.le_of_not_lt small)
    rw [isOne, if_neg small, if_pos rfl]
    omega

/-- The segment that an entry describes, and the fields that it had before. -/
structure GdtEntry.Describes (old : GdtEntry) (startAddr size : BitVec 32) (privLevel : Int)
    (entry : GdtEntry) : Prop where
  base : entry.base = startAddr
  accessible : ∀ offset, entry.Accessible offset ↔ offset.toNat < segmentSize size
  DPL : entry.DPL = BitVec.ofInt 2 privLevel
  type : entry.type = old.type
  S : entry.S = old.S
  P : entry.P = old.P
  AVL : entry.AVL = old.AVL
  L : entry.L = old.L
  DB : entry.DB = old.DB

theorem GdtEntry.upd_describes (startAddr : BitVec 32) (positive : size ≠ 0) (privLevel : Int) :
    entry.Describes startAddr size privLevel (entry.upd startAddr size privLevel) := by
  have reassembled := @GdtEntry.setBase_base entry startAddr
  have scaled := @GdtEntry.setLimit_rawLimit (entry.setBase startAddr) (granulated size).1
  refine ⟨reassembled, fun offset => ?_, rfl, rfl, rfl, rfl, rfl, rfl, rfl⟩
  exact accessible_iff positive offset scaled rfl

/-- `arch_upd_segm_descr` describes the given bytes in one row, and leaves the other rows. -/
theorem segment_described {id : Int} (inRange : 0 < id ∧ id ≤ 5) (startAddr : BitVec 32)
    (positive : size ≠ 0) (privLevel : Int) (gdt : Gdt) :
    ∃ gdt' row, archUpdSegmDescr id startAddr size privLevel gdt = some gdt' ∧
      (row : Fin 6).val = id.toNat ∧
      (gdt row).Describes startAddr size privLevel (gdt' row) ∧
      (granulated size).1.toNat < 2 ^ 20 ∧ ∀ other, other ≠ row → gdt' other = gdt other := by
  unfold archUpdSegmDescr
  rw [dif_pos inRange]
  refine ⟨_, ⟨id.toNat, by omega⟩, rfl, rfl, ?_, granulated_lt positive, ?_⟩
  · rw [Function.update_self]
    exact GdtEntry.upd_describes startAddr positive privLevel
  · intro other different
    exact Function.update_of_ne different ..

/-- A segment of one page more than one megabyte, of which the last one is used in part. -/
theorem segment_described_page : ∃ gdt' row,
    archUpdSegmDescr SEGM_T_DATA 0x200000 0x100801 PRIV_USER gdtInit = some gdt' ∧
      (row : Fin 6).val = 4 ∧
      (gdtInit row).Describes 0x200000 0x100801 PRIV_USER (gdt' row) ∧
      (granulated 0x100801).1.toNat < 2 ^ 20 ∧
      ∀ other, other ≠ row → gdt' other = gdtInit other :=
  segment_described (by decide) 0x200000 (by decide) PRIV_USER gdtInit

/-- The code and the data of a process are in the segments for user programs; the rows of the
kernel are left. -/
theorem archUpdateUserSegments_describes (user : BitVec 32) (positive : size ≠ 0) (gdt : Gdt) :
    ∃ gdt', archUpdateUserSegments user size gdt = some gdt' ∧
      (gdt 3).Describes user size PRIV_USER (gdt' 3) ∧
      (gdt 4).Describes user size PRIV_USER (gdt' 4) ∧
      ∀ row, row ≠ 3 → row ≠ 4 → gdt' row = gdt row := by
  refine ⟨_, rfl, ?_, ?_, ?_⟩
  · exact GdtEntry.upd_describes user positive PRIV_USER
  · exact GdtEntry.upd_describes user positive PRIV_USER
  · intro row notCode notData
    exact (Function.update_of_ne notData ..).trans (Function.update_of_ne notCode ..)

end Oseer

import Oseer.Grid
import Oseer.Library.SizeClasses

/-!
# Indexes of the grid

`get_indexes` finds the row and the column of a size: those of its size class for an
insertion, and those of the first list with chunks, from the class of the rounded size on, for
a search.
-/

namespace Oseer.Grid

open WordMemory Bitmap SizeClasses

/-- The parts of a pool as `gma_init` lays them out: the bitmaps of the rows, the table of the
lists, and the chunks from `low` up to the border chunk at `high`.  The descriptor is outside
of them. -/
structure Pool where
  mpool : Nat
  flMin : Nat
  flMax : Nat
  minChunk : Nat
  rows : Nat
  table : Nat
  low : Nat
  high : Nat
  minChunk_row : minChunk.log2 = flMin
  minChunk_ge : minChunkSize ≤ minChunk
  flMin_le : flMin ≤ flMax
  flMax_lt : flMax < 32
  table_aligned : 4 ∣ table
  low_aligned : 4 ∣ low
  rows_below : rows + sizeT * (flMax + 1 - flMin) ≤ table
  table_below : table + sizeT * (slDim * (flMax + 1 - flMin)) ≤ low
  low_le : low ≤ high
  high_le : high + 8 ≤ 2 ^ 32
  area_lt : high - low < 2 ^ (flMax + 1)
  descriptor_le : mpool + gmaT ≤ 2 ^ 32
  descriptor_apart : mpool + gmaT ≤ rows ∨ high + 8 ≤ mpool

/-- The row and the column of a list in the grid. -/
abbrev Place := Nat × Nat

namespace Pool

/-- The number of rows. -/
def levels (pool : Pool) : Nat := pool.flMax + 1 - pool.flMin

/-- The list for chunks of this size. -/
def place (pool : Pool) (size : Nat) : Place :=
  ((SizeClasses.place logSLDim size).1 - pool.flMin, (SizeClasses.place logSLDim size).2)

/-- The least size of a chunk: the columns of a row divide its sizes evenly. -/
def least (pool : Pool) : Nat := max pool.minChunk (2 ^ logSLDim)

/-- The sizes that have a list. -/
def Sized (pool : Pool) (size : Nat) : Prop :=
  2 ^ logSLDim ≤ size ∧ pool.flMin ≤ size.log2 ∧ size.log2 ≤ pool.flMax

/-- The list has a place in the table. -/
def InGrid (pool : Pool) (place : Place) : Prop := place.1 < pool.levels ∧ place.2 < slDim

/-- The members of the descriptor that `gma_init` sets once. -/
structure Described (pool : Pool) (memory : Memory) : Prop where
  flMin : memory pool.mpool = pool.flMin
  flMax : memory (pool.mpool + flMaxField) = pool.flMax
  minChunk : memory (pool.mpool + minChunkField) = pool.minChunk
  rows : memory (pool.mpool + slBitmapField) = pool.rows
  table : memory (pool.mpool + chunkField) = pool.table

variable {pool : Pool} {memory memory' : Memory} {size other fl sl : Nat}

section Rows

theorem levels_pos : 0 < pool.levels := by
  have := pool.flMin_le
  unfold levels
  omega

theorem flMin_ge : 4 ≤ pool.flMin := by
  have isRow := log2_mono (by decide) pool.minChunk_ge
  rw [pool.minChunk_row] at isRow
  exact isRow

theorem levels_lt : pool.levels < 29 := by
  have := pool.flMax_lt
  have := @flMin_ge pool
  unfold levels
  omega

theorem low_pos : 0 < pool.low := by
  have positive := @levels_pos pool
  have below := pool.table_below
  unfold levels at positive
  unfold sizeT slDim at below
  omega

theorem sized (least : pool.least ≤ size) (fits : size < 2 ^ (pool.flMax + 1)) :
    pool.Sized size := by
  obtain ⟨atLeast, wide⟩ := Nat.max_le.mp least
  have positive : 0 < size := (Nat.two_pow_pos _).trans_le wide
  refine ⟨wide, ?_, ?_⟩
  · rw [← pool.minChunk_row]
    exact log2_mono ((by decide : 0 < minChunkSize).trans_le pool.minChunk_ge) atLeast
  · exact Nat.lt_succ_iff.mp ((Nat.log2_lt positive.ne').mpr fits)

theorem Sized.pos (sized : pool.Sized size) : 0 < size :=
  (Nat.two_pow_pos _).trans_le sized.1

theorem Sized.wide (sized : pool.Sized size) : logSLDim ≤ size.log2 :=
  (Nat.le_log2 sized.pos.ne').mpr sized.1

theorem Sized.inGrid (sized : pool.Sized size) : pool.InGrid (pool.place size) := by
  constructor
  · have := sized.2
    unfold place SizeClasses.place levels
    dsimp only
    omega
  · exact column_lt sized.pos sized.wide

/-- The places of the grid are searched in the order of the classes. -/
theorem Sized.upto (sized : pool.Sized size) (sized' : pool.Sized other)
    (upto : Upto (pool.place size) (pool.place other)) :
    Upto (SizeClasses.place logSLDim size) (SizeClasses.place logSLDim other) := by
  obtain ⟨-, atLeast, -⟩ := sized
  obtain ⟨-, atLeast', -⟩ := sized'
  rcases upto with row | ⟨row, column⟩
  · left
    unfold place SizeClasses.place at row
    dsimp only at row
    unfold SizeClasses.place
    dsimp only
    omega
  · refine .inr ⟨?_, column⟩
    unfold place SizeClasses.place at row
    dsimp only at row
    unfold SizeClasses.place
    dsimp only
    omega

theorem Sized.upto_of_le (sized : pool.Sized size) (le : size ≤ other) :
    Upto (pool.place size) (pool.place other) := by
  have positive := sized.pos
  obtain ⟨-, atLeast, -⟩ := sized
  rcases @place_mono logSLDim _ _ positive le with row | ⟨row, column⟩
  · left
    unfold SizeClasses.place at row
    dsimp only at row
    unfold place SizeClasses.place
    dsimp only
    omega
  · refine .inr ⟨?_, column⟩
    unfold place
    rw [row]

end Rows

section Insertion

theorem column_eq (positive : 0 < size) (wide : logSLDim ≤ size.log2) (fits : size.log2 < 32) :
    sub32 (shr32 size (sub32 (msbIndex size) logSLDim)) (shl32 1 logSLDim) =
      (SizeClasses.place logSLDim size).2 := by
  have columns := column_spec positive wide
  have shift : sub32 (msbIndex size) logSLDim = size.log2 - logSLDim :=
    sub32_of_le (fits.trans (by decide)) wide
  have shifted : shr32 size (size.log2 - logSLDim) = size / 2 ^ (size.log2 - logSLDim) := by
    unfold shr32
    rw [Nat.mod_eq_of_lt (by omega), Nat.shiftRight_eq_div_pow]
  rw [shift, shifted, shl32_one (by decide)]
  exact sub32_of_le (columns.2.trans (by decide)) columns.1

theorem row_eq (atLeast : pool.flMin ≤ size.log2) (fits : size.log2 < 32) :
    sub32 (msbIndex size) pool.flMin = size.log2 - pool.flMin :=
  sub32_of_le (fits.trans (by decide)) atLeast

theorem Described.getIndexes (described : pool.Described memory) (sized : pool.Sized size) :
    getIndexes pool.mpool size true memory =
      ⟨false, (pool.place size).1, (pool.place size).2⟩ := by
  have fits : size.log2 < 32 := sized.2.2.trans_lt pool.flMax_lt
  have inRange : ¬ pool.flMax < msbIndex size := not_lt.mpr sized.2.2
  unfold Grid.getIndexes
  dsimp only
  rw [if_pos rfl, described.flMax, if_neg inRange, if_pos rfl, described.flMin,
    column_eq sized.pos sized.wide fits, row_eq sized.2.1 fits]
  rfl

theorem Described.slBitmapAt (described : pool.Described memory) (inGrid : fl < pool.levels) :
    slBitmapAt pool.mpool fl memory = pool.rows + sizeT * fl := by
  have below := pool.rows_below
  have below' := pool.table_below
  have := pool.low_le
  have := pool.high_le
  unfold Grid.slBitmapAt
  rw [described.rows]
  apply add32_of_lt
  unfold levels at inGrid
  unfold sizeT slDim at *
  omega

theorem Described.listAt (described : pool.Described memory) (inGrid : pool.InGrid (fl, sl)) :
    listAt pool.mpool fl sl memory = pool.table + sizeT * (slDim * fl + sl) := by
  have below := pool.table_below
  have := pool.low_le
  have := pool.high_le
  obtain ⟨row, column⟩ := inGrid
  unfold Grid.listAt
  rw [described.table]
  apply add32_of_lt
  unfold levels at row
  unfold sizeT slDim at *
  dsimp only at row column
  omega

end Insertion

section Search

/-- The size that a search is for, without overflow. -/
def sought (size : Nat) : Nat :=
  if exactLimitSize ≤ size then rounded logSLDim size else size

theorem le_sought : size ≤ sought size := by
  unfold sought
  split
  · exact Nat.le_add_right ..
  · exact le_rfl

theorem searchSize_eq (fits : sought size < 2 ^ 32) : searchSize size = sought size := by
  unfold searchSize sought at *
  split at fits
  · rename_i large
    have small : size.log2 < 32 :=
      (Nat.log2_lt (by unfold exactLimitSize at large; omega)).mpr
        ((Nat.le_add_right ..).trans_lt fits)
    have wide : logSLDim ≤ size.log2 := by
      apply (Nat.le_log2 (by unfold exactLimitSize at large; omega)).mpr
      unfold exactLimitSize at large
      unfold logSLDim
      omega
    have shift : sub32 (msbIndex size) logSLDim = size.log2 - logSLDim :=
      sub32_of_le (small.trans (by decide)) wide
    have step : 0 < 2 ^ (size.log2 - logSLDim) := Nat.two_pow_pos _
    have stepFits : 2 ^ (size.log2 - logSLDim) < 2 ^ 32 :=
      Nat.pow_lt_pow_right (by decide) (by omega)
    rw [if_pos large, if_pos large, shift, shl32_one (by omega), sub32_of_le stepFits step]
    exact add32_of_lt fits
  · rename_i small
    rw [if_neg small, if_neg small]

/-- What is in the lists from the place of the sought size on is large enough. -/
theorem Sized.le_of_upto (sized : pool.Sized size) (sized' : pool.Sized other)
    (aligned : 4 ∣ size) (reached : pool.Sized (sought size))
    (upto : Upto (pool.place (sought size)) (pool.place other)) : size ≤ other := by
  have classes := reached.upto sized' upto
  unfold sought at classes
  split at classes
  · exact le_of_rounded_upto sized.pos sized'.pos sized.wide classes
  · rename_i exact
    apply SizeClasses.le_of_upto sized.pos sized'.pos sized.wide _ classes
    have row : size.log2 - logSLDim ≤ 2 := by
      have less : size.log2 < 8 := by
        apply (Nat.log2_lt sized.pos.ne').mpr
        unfold exactLimitSize at exact
        omega
      unfold logSLDim
      omega
    exact (Nat.pow_dvd_pow 2 row).trans aligned

/-- The bitmaps tell which lists have chunks. -/
structure Bits (pool : Pool) (memory : Memory) (filled : Place → Prop) : Prop where
  row_lt : ∀ fl < pool.levels, memory (pool.rows + sizeT * fl) < 2 ^ 32
  row : ∀ fl < pool.levels, ∀ sl < slDim,
    (memory (pool.rows + sizeT * fl)).testBit sl = true ↔ filled (fl, sl)
  level_lt : memory (pool.mpool + flBitmapField) < 2 ^ 32
  level : ∀ fl, (memory (pool.mpool + flBitmapField)).testBit fl = true ↔
    fl < pool.levels ∧ memory (pool.rows + sizeT * fl) ≠ 0

/-- The search does not go back, whatever the bitmaps are. -/
theorem searchIndexes_upto {fl' sl' : Nat} (column : sl < slDim) (row : fl + 1 < 32)
    (row_lt : memory (Grid.slBitmapAt pool.mpool fl memory) < 2 ^ 32)
    (level_lt : memory (pool.mpool + flBitmapField) < 2 ^ 32)
    (found : searchIndexes pool.mpool fl sl memory = ⟨false, fl', sl'⟩) :
    Upto (fl, sl) (fl', sl') := by
  unfold searchIndexes at found
  dsimp only at found
  rw [add32_of_lt (row.trans (by decide))] at found
  split at found
  · rename_i nonzero
    obtain ⟨-, rfl, rfl⟩ := Indexes.mk.inj found
    obtain ⟨isMember, -⟩ := testBit_lsbIndex (remove_lt row_lt _) nonzero
    rw [testBit_from row_lt column, Bool.and_eq_true, decide_eq_true_eq] at isMember
    exact .inr ⟨rfl, isMember.1⟩
  · split at found
    · cases found
    · rename_i nonzero
      obtain ⟨-, rfl, rfl⟩ := Indexes.mk.inj found
      obtain ⟨isMember, -⟩ := testBit_lsbIndex (remove_lt level_lt _) nonzero
      rw [testBit_from level_lt row, Bool.and_eq_true, decide_eq_true_eq] at isMember
      exact .inl isMember.1

variable {filled : Place → Prop}

theorem Bits.row_ne_zero (bits : pool.Bits memory filled) (inGrid : fl < pool.levels) :
    memory (pool.rows + sizeT * fl) ≠ 0 ↔ ∃ sl < slDim, filled (fl, sl) := by
  rw [Ne, eq_zero_iff (bits.row_lt fl inGrid)]
  push Not
  constructor
  · rintro ⟨sl, column, set⟩
    exact ⟨sl, column, (bits.row fl inGrid sl column).mp (by simpa using set)⟩
  · rintro ⟨sl, column, isFilled⟩
    exact ⟨sl, column, by simp [(bits.row fl inGrid sl column).mpr isFilled]⟩

/-- The search finds a list with chunks from the given place on, if there is one. -/
theorem Described.searchIndexes (described : pool.Described memory)
    (bits : pool.Bits memory filled) (inGrid : pool.InGrid (fl, sl)) :
    (∃ place, pool.InGrid place ∧ filled place ∧ Upto (fl, sl) place ∧
      searchIndexes pool.mpool fl sl memory = ⟨false, place.1, place.2⟩) ∨
    (searchIndexes pool.mpool fl sl memory).failed = true ∧
      ∀ place, pool.InGrid place → filled place → ¬ Upto (fl, sl) place := by
  obtain ⟨row, column⟩ := inGrid
  dsimp only at row column
  have rowLt := bits.row_lt fl row
  have levelLt := bits.level_lt
  have next : fl + 1 < 32 := by
    have := @levels_lt pool
    omega
  have memberRow : ∀ i, (memory (pool.rows + sizeT * fl) &&& shl32 0xffffffff sl).testBit i =
      (decide (sl ≤ i) && (memory (pool.rows + sizeT * fl)).testBit i) :=
    fun i => testBit_from rowLt column
  have memberLevel : ∀ i, (memory (pool.mpool + flBitmapField) &&&
      shl32 0xffffffff (fl + 1)).testBit i =
        (decide (fl + 1 ≤ i) && (memory (pool.mpool + flBitmapField)).testBit i) :=
    fun i => testBit_from levelLt next
  unfold Grid.searchIndexes
  dsimp only
  rw [described.slBitmapAt row, add32_of_lt (next.trans (by decide))]
  split
  · rename_i nonzero
    obtain ⟨isMember, small⟩ := testBit_lsbIndex (remove_lt rowLt _) nonzero
    rw [memberRow, Bool.and_eq_true, decide_eq_true_eq] at isMember
    exact .inl ⟨(fl, _), ⟨row, small⟩, (bits.row fl row _ small).mp isMember.2,
      .inr ⟨rfl, isMember.1⟩, rfl⟩
  · rename_i noColumn
    rw [not_not, eq_zero_iff (remove_lt rowLt _)] at noColumn
    split
    · rename_i noRow
      rw [eq_zero_iff (remove_lt levelLt _)] at noRow
      refine .inr ⟨rfl, fun place inGrid isFilled upto => ?_⟩
      obtain ⟨row', column'⟩ := inGrid
      rcases upto with later | ⟨same, later⟩
      · have none := noRow place.1 (by have := @levels_lt pool; omega)
        rw [memberLevel, (bits.level place.1).mpr ⟨row', (bits.row_ne_zero row').mpr
          ⟨place.2, column', isFilled⟩⟩] at none
        simp at none
        dsimp only at later
        omega
      · have none := noColumn place.2 column'
        dsimp only at same later
        rw [memberRow, same, (bits.row place.1 row' place.2 column').mpr isFilled] at none
        simp at none
        omega
    · rename_i nonzero
      obtain ⟨isMember, small⟩ := testBit_lsbIndex (remove_lt levelLt _) nonzero
      rw [memberLevel, Bool.and_eq_true, decide_eq_true_eq, bits.level] at isMember
      obtain ⟨later, row', rowNonzero⟩ := isMember
      rw [described.slBitmapAt row']
      obtain ⟨isMember', small'⟩ := testBit_lsbIndex (bits.row_lt _ row') rowNonzero
      exact .inl ⟨(_, _), ⟨row', small'⟩, (bits.row _ row' _ small').mp isMember', .inl later, rfl⟩

/-- `get_indexes` for a search: a list with chunks from the place of the sought size on, or none
with chunks of this size. -/
theorem Described.getIndexes_search (described : pool.Described memory)
    (bits : pool.Bits memory filled) (least : pool.least ≤ size)
    (fits : sought size < 2 ^ 32) :
    (∃ place, pool.InGrid place ∧ filled place ∧ pool.Sized (sought size) ∧
      Upto (pool.place (sought size)) place ∧
      Grid.getIndexes pool.mpool size false memory = ⟨false, place.1, place.2⟩) ∨
    (Grid.getIndexes pool.mpool size false memory).failed = true ∧
      ∀ other, pool.Sized other → filled (pool.place other) → other < sought size := by
  unfold Grid.getIndexes
  dsimp only
  rw [if_neg Bool.false_ne_true, searchSize_eq fits, described.flMax, described.flMin]
  by_cases large : pool.flMax < msbIndex (sought size)
  · rw [if_pos large]
    refine .inr ⟨rfl, fun other sized _ => ?_⟩
    by_contra notLess
    have rowLe : (sought size).log2 ≤ other.log2 := by
      rcases Nat.eq_zero_or_pos (sought size) with isZero | positive
      · rw [isZero]
        exact Nat.zero_le _
      · exact log2_mono positive (not_lt.mp notLess)
    exact absurd (rowLe.trans sized.2.2) (not_le.mpr large)
  · have below : sought size < 2 ^ (pool.flMax + 1) :=
      Nat.lt_log2_self.trans_le (Nat.pow_le_pow_right (by decide)
        (Nat.succ_le_succ (not_lt.mp large)))
    have sized : pool.Sized (sought size) := pool.sized (least.trans le_sought) below
    have small : (sought size).log2 < 32 := sized.2.2.trans_lt pool.flMax_lt
    rw [if_neg large, if_neg Bool.false_ne_true, column_eq sized.pos sized.wide small,
      row_eq sized.2.1 small]
    rcases described.searchIndexes bits sized.inGrid with
      ⟨place, inGrid, isFilled, upto, found⟩ | ⟨fails, none⟩
    · exact .inl ⟨place, inGrid, isFilled, sized, upto, found⟩
    · refine .inr ⟨fails, fun other sized' isFilled => ?_⟩
      by_contra notLess
      exact none _ sized'.inGrid isFilled (sized.upto_of_le (not_lt.mp notLess))

end Search

end Pool

end Oseer.Grid

import Oseer.GridAlloc
import Oseer.GridLayout

/-!
# The pool that `gma_init` makes

The loops of `gma_init` clear the bitmaps of the rows and the lists, but not the bitmap of the
levels.  What was there before stays, so that the index of the new pool is in order only if
nothing was there.
-/

namespace Oseer.Grid

open WordMemory Bitmap Tiling LinkedRing

section Loops

variable {memory : Memory}

/-- A loop that clears the words at growing distances from a base, which it reads each time. -/
theorem loop_clears {loop : Nat → Memory → Memory} {pointer base count : Nat}
    {distance : Nat → Nat} (begins : loop 0 memory = memory)
    (next : ∀ n, loop (n + 1) memory =
      (loop n memory).write (add32 (loop n memory pointer) (distance n)) 0)
    (isBase : memory pointer = base) (fits : ∀ n < count, base + distance n < 2 ^ 32)
    (apart : ∀ n < count, pointer ≠ base + distance n) :
    (∀ n < count, loop count memory (base + distance n) = 0) ∧
      ∀ address, (∀ n < count, address ≠ base + distance n) →
        loop count memory address = memory address := by
  induction count with
  | zero =>
      refine ⟨fun n below => absurd below (Nat.not_lt_zero n), fun address _ => ?_⟩
      rw [begins]
  | succ count ih =>
      obtain ⟨cleared, kept⟩ := ih (fun n below => fits n (Nat.lt_succ_of_lt below))
        fun n below => apart n (Nat.lt_succ_of_lt below)
      have keptBase : loop count memory pointer = base :=
        (kept pointer fun n below => apart n (Nat.lt_succ_of_lt below)).trans isBase
      have last := next count
      rw [keptBase, add32_of_lt (fits count (Nat.lt_succ_self count))] at last
      constructor
      · intro n below
        rw [last, write_apply]
        split
        · rfl
        · rename_i different
          apply cleared n
          have notLast : n ≠ count := by
            rintro rfl
            exact different rfl
          omega
      · intro address outside
        rw [last, write_other (outside count (Nat.lt_succ_self count))]
        exact kept address fun n below => outside n (Nat.lt_succ_of_lt below)

variable {mpool base count fl levels address : Nat}

theorem clearBitmaps_clears (isBase : memory (mpool + slBitmapField) = base)
    (fits : base + sizeT * count ≤ 2 ^ 32)
    (apart : mpool + gmaT ≤ base ∨ base + sizeT * count ≤ mpool) :
    (∀ n < count, clearBitmaps mpool count memory (base + sizeT * n) = 0) ∧
      ∀ address, (address < base ∨ base + sizeT * count ≤ address) →
        clearBitmaps mpool count memory address = memory address := by
  have cleared := @loop_clears memory (clearBitmaps mpool) (mpool + slBitmapField) base count
    (fun n => sizeT * n) rfl (fun _ => rfl) isBase
    (by intro n below; unfold sizeT at *; omega)
    (by intro n below; unfold sizeT gmaT slBitmapField at *; omega)
  refine ⟨cleared.1, fun address outside => cleared.2 address fun n below => ?_⟩
  unfold sizeT at *
  omega

/-- The inner loop stays in its row. -/
theorem clearRow_clears (isBase : memory (mpool + chunkField) = base) (row : fl < levels)
    (fits : base + sizeT * slDim * levels ≤ 2 ^ 32)
    (apart : mpool + gmaT ≤ base ∨ base + sizeT * slDim * levels ≤ mpool) :
    (∀ sl < slDim, clearRow mpool fl slDim memory (base + sizeT * (slDim * fl + sl)) = 0) ∧
      ∀ address, (∀ sl < slDim, address ≠ base + sizeT * (slDim * fl + sl)) →
        clearRow mpool fl slDim memory address = memory address := by
  apply @loop_clears memory (clearRow mpool fl) (mpool + chunkField) base slDim
    (fun sl => sizeT * (slDim * fl + sl)) rfl (fun _ => rfl) isBase
  · intro sl below
    unfold sizeT slDim at *
    omega
  · intro sl below
    unfold sizeT slDim gmaT chunkField at *
    omega

theorem clearLists_clears (isBase : memory (mpool + chunkField) = base)
    (fits : base + sizeT * slDim * levels ≤ 2 ^ 32)
    (apart : mpool + gmaT ≤ base ∨ base + sizeT * slDim * levels ≤ mpool)
    (few : count ≤ levels) :
    (∀ fl < count, ∀ sl < slDim,
      clearLists mpool count memory (base + sizeT * (slDim * fl + sl)) = 0) ∧
      ∀ address, (address < base ∨ base + sizeT * slDim * levels ≤ address) →
        clearLists mpool count memory address = memory address := by
  induction count with
  | zero => exact ⟨fun fl below => absurd below (Nat.not_lt_zero fl), fun address _ => rfl⟩
  | succ count ih =>
      obtain ⟨cleared, kept⟩ := ih (by omega)
      have isBase' : clearLists mpool count memory (mpool + chunkField) = base := by
        rw [kept _ (by unfold gmaT chunkField at *; omega)]
        exact isBase
      obtain ⟨cleared', kept'⟩ := clearRow_clears isBase' (Nat.lt_of_succ_le few) fits apart
      constructor
      · intro fl below sl column
        change clearRow mpool count slDim (clearLists mpool count memory) _ = 0
        by_cases isLast : fl = count
        · subst isLast
          exact cleared' sl column
        · rw [kept' _ (by intro sl' column'; unfold sizeT slDim at *; omega)]
          exact cleared fl (by omega) sl column
      · intro address outside
        change clearRow mpool count slDim (clearLists mpool count memory) _ = _
        rw [kept' _ (by intro sl column; unfold sizeT slDim at *; omega)]
        exact kept address outside

end Loops

section First

variable {memory : Memory} {chunk area count : Nat}

theorem setBorderChunk_eq (fits : chunk + sizeField < 2 ^ 32) :
    setBorderChunk chunk memory =
      (memory.write (chunk + sizeField) borderChunk).write (chunk + sizeField) borderChunk := by
  have after : getChunkAfter chunk (memory.write (chunk + sizeField) borderChunk) =
      chunk + sizeField := by
    unfold getChunkAfter getChunkSize
    rw [write_same]
    exact add32_of_lt fits
  unfold setBorderChunk cloneChunkSize
  rw [after, write_same]

theorem and_three (word : Nat) : ∃ current before, word &&& 3 = flags current before := by
  have small : word &&& 3 < 4 := Nat.lt_of_le_of_lt Nat.and_le_right (by decide)
  generalize word &&& 3 = low at small
  match low, small with
  | 0, _ => exact ⟨false, false, rfl⟩
  | 1, _ => exact ⟨false, true, rfl⟩
  | 2, _ => exact ⟨true, false, rfl⟩
  | 3, _ => exact ⟨true, true, rfl⟩

/-- `make_first_chunk` makes a chunk in use between two borders. -/
theorem makeFirstChunk_spec (positive : 0 < area) (aligned : 4 ∣ area) (aligned' : 4 ∣ count)
    (large : minChunkSize < count) (fits : area + count + 8 ≤ 2 ^ 32) :
    ∃ memory', makeFirstChunk area (count + 8) memory = some (area + 2 * sizeT, memory') ∧
      memory' (area + sizeField) = tagged count true true ∧
      memory' (area + count + sizeField) = tagged borderChunkSize true true ∧
      ∀ address, (address < area ∨ area + count + 8 ≤ address) →
        memory' address = memory address := by
  have asserted : area ≠ 0 ∧ borderChunkSize * 2 + minChunkSize < count + 8 ∧ 4 ∣ area := by
    unfold borderChunkSize minChunkSize at *
    exact ⟨by omega, by omega, aligned⟩
  have border : sub32 area sizeT + sizeField = area := by
    unfold sizeT sizeField
    rw [sub32_of_le (by omega) (by omega)]
    omega
  have isChunk : sub32 (add32 area borderChunkSize) sizeT = area := by
    unfold sizeT borderChunkSize
    rw [add32_of_lt (by omega), sub32_of_le (by omega) (by omega)]
    omega
  have isSize : sub32 (count + 8) (2 * borderChunkSize) = count :=
    sub32_of_le (by omega) (by unfold borderChunkSize; omega)
  have isBorder : sub32 (sub32 (add32 area (count + 8)) borderChunkSize) sizeT =
      area + count := by
    unfold add32 sub32 borderChunkSize sizeT
    omega
  have isBlock : add32 area (2 * sizeT) = area + 2 * sizeT :=
    add32_of_lt (by unfold sizeT; omega)
  generalize startIs : (memory.write area borderChunk).write area borderChunk = start
  have startStored : setBorderChunk (sub32 area sizeT) memory = start := by
    rw [setBorderChunk_eq (by omega), border, startIs]
  -- the chunk gets its size and both flags, whatever its word was
  obtain ⟨current, before, lowBits⟩ := and_three (start (area + sizeField))
  generalize ownIs : ((start.write (area + sizeField) (tagged count current before)).write
    (area + sizeField) (tagged count true before)).write (area + sizeField)
      (tagged count true true) = own
  have ownStored : setChunkBinuse area (setChunkInuse area (setChunkSize area count start)) =
      own := by
    unfold setChunkBinuse setChunkInuse setChunkSize binuse cinuse
    rw [lowBits, or_flags aligned', write_same, tagged_or_two aligned', write_same,
      tagged_or_one aligned', ownIs]
  generalize endIs : ((own.write (area + count + sizeField) borderChunk).write
    (area + count + sizeField) borderChunk).write (area + count + sizeField)
      (tagged borderChunkSize true true) = finish
  have endStored : setChunkBinuse (area + count) (setBorderChunk (area + count) own) =
      finish := by
    rw [setBorderChunk_eq (by unfold sizeField; omega)]
    unfold setChunkBinuse
    rw [write_same, ← endIs]
    rfl
  refine ⟨finish, ?_, ?_, ?_, ?_⟩
  · unfold makeFirstChunk
    dsimp only
    rw [if_pos asserted, startStored, isChunk, isSize, ownStored, isBorder, endStored, isBlock]
  · have apart : area + sizeField ≠ area + count + sizeField := by omega
    rw [← endIs, write_other apart, write_other apart, write_other apart, ← ownIs, write_same]
  · rw [← endIs, write_same]
  · intro address outside
    have notStart : address ≠ area := by omega
    have notOwn : address ≠ area + sizeField := by
      unfold sizeField
      omega
    have notEnd : address ≠ area + count + sizeField := by
      unfold sizeField
      omega
    rw [← endIs, write_other notEnd, write_other notEnd, write_other notEnd, ← ownIs,
      write_other notOwn, write_other notOwn, write_other notOwn, ← startIs,
      write_other notStart, write_other notStart]

end First

/-- The segment is a part of the memory with room for a pool, and does not hold the static
descriptor if that is the one to use. -/
structure Placed (static segment size minChunk : Nat) (newMpool : Bool) : Prop where
  nonzero : segment ≠ 0
  fits : segment + size ≤ 2 ^ 32
  roomy : Roomy segment size minChunk newMpool
  static_le : newMpool = false → static + gmaT ≤ 2 ^ 32
  static_apart : newMpool = false → static + gmaT ≤ segment ∨ segment + size ≤ static

variable {static segment size minChunk : Nat} {newMpool : Bool} {memory : Memory}
  {parts : Layout}

section Placement

theorem minChunkSize_le_used : minChunkSize ≤ usedMinChunkSize minChunk := by
  unfold usedMinChunkSize
  dsimp only
  generalize (if minChunk = 0 then defMinChunkSize else minChunk) = size
  split
  · assumption
  · exact le_rfl

theorem of_offset {start address distance : Nat} (fits : address < 2 ^ 32)
    (isOffset : sub32 address start = distance) (inside : start + distance < 2 ^ 32) :
    address = start + distance := by
  unfold sub32 at isOffset
  omega

theorem Placed.segment_lt (placed : Placed static segment size minChunk newMpool) :
    segment < 2 ^ 32 := by
  obtain ⟨-, fits, roomy, -⟩ := placed
  have wide : 32 ≤ max (usedMinChunkSize minChunk) (2 ^ logSLDim) := Nat.le_max_right ..
  unfold Roomy at roomy
  omega

/-- Nothing wraps in the layout of a segment with room. -/
theorem Placed.parts_eq (placed : Placed static segment size minChunk newMpool)
    (isLayout : layout static segment size minChunk newMpool = parts) :
    (usedMinChunkSize minChunk).log2 ≤ size.log2 ∧ size.log2 < 32 ∧
      parts.levels = size.log2 + 1 - (usedMinChunkSize minChunk).log2 ∧
      parts.rows = segment + (4 - segment % 4) % 4 + (if newMpool then gmaT else 0) ∧
      parts.table = parts.rows + sizeT * parts.levels ∧
      parts.area = parts.table + sizeT * slDim * parts.levels ∧
      max (usedMinChunkSize minChunk) (2 ^ logSLDim) ≤ parts.firstSize ∧
      parts.area + parts.firstSize + 8 + (segment + size) % 4 = segment + size ∧
      sub32 parts.finish parts.area = parts.firstSize + 8 := by
  obtain ⟨nonzero, fits, roomy, -, -⟩ := placed
  unfold Roomy at roomy
  generalize startIs : (4 - segment % 4) % 4 + (if newMpool then gmaT else 0) = start at roomy
  have startSmall : start < 64 := by
    rw [← startIs]
    unfold gmaT
    split <;> omega
  have most : max (usedMinChunkSize minChunk) (2 ^ logSLDim) ≤ size := by omega
  obtain ⟨minFits, wide⟩ := Nat.max_le.mp most
  have used := @minChunkSize_le_used minChunk
  have positive : 0 < usedMinChunkSize minChunk := Nat.lt_of_lt_of_le (by decide) used
  have sizeFits : size < 2 ^ 32 := by omega
  have segmentFits : segment < 2 ^ 32 := by
    unfold logSLDim at wide
    omega
  have small : size.log2 < 32 := (Nat.log2_lt (by omega)).mpr sizeFits
  have rowsLe : (usedMinChunkSize minChunk).log2 ≤ size.log2 :=
    SizeClasses.log2_mono positive minFits
  obtain ⟨levelsIs, few, rowsAt, tableAt, areaAt⟩ :=
    layout_offsets isLayout segmentFits sizeFits rowsLe startIs
  obtain ⟨rowsIs, tableIs, areaIs, -⟩ := layout_eq isLayout segmentFits
  obtain ⟨-, -, finishAt⟩ := finish_offset segmentFits sizeFits
  rw [if_pos (by omega)] at finishAt
  have finishIs : parts.finish = alignDown (add32 segment size) := isLayout ▸ rfl
  rw [← finishIs] at finishAt
  rw [← levelsIs] at roomy
  unfold sizeT slDim borderChunkSize at *
  have near : sub32 parts.area segment < 2 ^ 16 := by omega
  obtain ⟨-, differs, firstIs⟩ := first_offsets isLayout segmentFits near
  have far : sub32 parts.area segment + 40 ≤ sub32 parts.finish segment := by
    have : 32 ≤ max (usedMinChunkSize minChunk) (2 ^ logSLDim) := Nat.le_max_right ..
    omega
  have apart : sub32 (sub32 parts.finish segment) (sub32 parts.area segment) =
      sub32 parts.finish segment - sub32 parts.area segment :=
    sub32_of_le (by omega) (by omega)
  rw [apart] at differs firstIs
  rw [sub32_of_le (by omega) (by omega)] at firstIs
  have rowsFar := of_offset (rowsIs ▸ Nat.mod_lt _ (by decide)) rowsAt (by omega)
  have tableFar := of_offset (tableIs ▸ Nat.mod_lt _ (by decide)) tableAt (by omega)
  have areaFar := of_offset (areaIs ▸ Nat.mod_lt _ (by decide)) areaAt (by omega)
  refine ⟨rowsLe, small, levelsIs, ?_, ?_, ?_, ?_, ?_, ?_⟩
  · omega
  · omega
  · omega
  · omega
  · omega
  · omega

/-- The descriptor is at the start of the segment, or outside of it. -/
theorem Placed.descriptor (placed : Placed static segment size minChunk newMpool)
    (isLayout : layout static segment size minChunk newMpool = parts) :
    parts.mpool + gmaT ≤ 2 ^ 32 ∧
      (parts.mpool + gmaT ≤ parts.rows ∨ segment + size ≤ parts.mpool) ∧
      poolOf static parts.mpool = parts.mpool := by
  obtain ⟨-, -, levelsIs, rowsIs, tableIs, areaIs, -, ends, -⟩ := placed.parts_eq isLayout
  have mpoolIs : parts.mpool = if newMpool then alignUp segment else static := isLayout ▸ rfl
  obtain ⟨nonzero, fits, -, staticFits, staticApart⟩ := placed
  unfold poolOf
  cases newMpool with
  | true =>
      rw [if_pos rfl] at rowsIs mpoolIs
      unfold gmaT at rowsIs ⊢
      have start : alignUp segment = segment + (4 - segment % 4) % 4 :=
        of_offset (alignUp_spec (by omega)).2.1 (alignUp_spec (by omega)).2.2 (by omega)
      rw [mpoolIs, start]
      exact ⟨by omega, .inl (by omega), if_neg (by omega)⟩
  | false =>
      rw [if_neg Bool.false_ne_true] at rowsIs mpoolIs
      have apart := staticApart rfl
      rw [mpoolIs]
      refine ⟨staticFits rfl, by omega, ?_⟩
      split <;> rfl

/-- The pool that `gma_init` makes. -/
def Placed.pool (placed : Placed static segment size minChunk newMpool) : Pool where
  mpool := (layout static segment size minChunk newMpool).mpool
  flMin := (usedMinChunkSize minChunk).log2
  flMax := size.log2
  minChunk := usedMinChunkSize minChunk
  rows := (layout static segment size minChunk newMpool).rows
  table := (layout static segment size minChunk newMpool).table
  low := (layout static segment size minChunk newMpool).area
  high := (layout static segment size minChunk newMpool).area +
    (layout static segment size minChunk newMpool).firstSize
  minChunk_row := rfl
  minChunk_ge := minChunkSize_le_used
  flMin_le := (placed.parts_eq rfl).1
  flMax_lt := (placed.parts_eq rfl).2.1
  table_aligned := (layout_eq rfl placed.segment_lt).2.2.2.2.1
  low_aligned := (layout_eq rfl placed.segment_lt).2.2.2.2.2
  rows_below := by
    obtain ⟨-, -, levelsIs, -, tableIs, -⟩ := placed.parts_eq rfl
    rw [tableIs, levelsIs]
  table_below := by
    obtain ⟨-, -, levelsIs, -, -, areaIs, -⟩ := placed.parts_eq rfl
    rw [areaIs, levelsIs, Nat.mul_assoc]
  low_le := Nat.le_add_right ..
  high_le := by
    obtain ⟨-, -, -, -, -, -, -, ends, -⟩ := placed.parts_eq rfl
    have := placed.fits
    omega
  area_lt := by
    obtain ⟨-, -, -, rowsIs, tableIs, areaIs, -, ends, -⟩ := placed.parts_eq rfl
    have below : size < 2 ^ (size.log2 + 1) := Nat.lt_log2_self
    omega
  descriptor_le := (placed.descriptor rfl).1
  descriptor_apart := by
    obtain ⟨-, -, -, -, -, -, -, ends, -⟩ := placed.parts_eq rfl
    rcases (placed.descriptor rfl).2.1 with inside | outside
    · exact .inl inside
    · right
      omega

end Placement

namespace Pool

/-- The whole area as one free chunk. -/
def whole (pool : Pool) : Block := ⟨pool.low, pool.high - pool.low, false⟩

/-- The bitmaps tell which lists have chunks, and one list has the one free chunk. -/
structure Ready (pool : Pool) (memory : Memory) : Prop where
  bits : pool.Bits memory fun place => memory (pool.listFormat place).head ≠ 0
  single : ∃ place, pool.InGrid place ∧ memory (pool.listFormat place).head = pool.low ∧
    memory (pool.low + nextField) = 0 ∧ ∀ other, pool.InGrid other → other ≠ place →
      memory (pool.listFormat other).head = 0

/-- A pool with one chunk in use, and nothing in its lists and rows.  Nothing is said about the
bitmap of the levels. -/
structure Fresh (pool : Pool) (memory : Memory) : Prop where
  described : pool.Described memory
  rows_zero : ∀ fl < pool.levels, memory (pool.rows + sizeT * fl) = 0
  roots_zero : ∀ place, pool.InGrid place → memory (pool.listFormat place).head = 0
  own : memory (pool.low + sizeField) = tagged (pool.high - pool.low) true true
  ends : memory (pool.high + sizeField) = tagged borderChunkSize true true

end Pool

section Prepare

/-- The metadata of a new pool. -/
theorem Placed.metadata (placed : Placed static segment size minChunk newMpool)
    (isLayout : layout static segment size minChunk newMpool = parts) :
    placed.pool.Described (parts.metadata size minChunk memory) ∧
      (∀ fl < placed.pool.levels,
        parts.metadata size minChunk memory (parts.rows + sizeT * fl) = 0) ∧
      (∀ place, placed.pool.InGrid place →
        parts.metadata size minChunk memory (placed.pool.listFormat place).head = 0) ∧
      parts.metadata size minChunk memory (parts.mpool + flBitmapField) =
        memory (parts.mpool + flBitmapField) := by
  obtain ⟨-, -, levelsIs, rowsIs, tableIs, areaIs, -, finish, -⟩ := placed.parts_eq isLayout
  obtain ⟨-, apart, -⟩ := placed.descriptor isLayout
  have fits := placed.fits
  have isLevels : placed.pool.levels = parts.levels := levelsIs.symm
  have isTable : placed.pool.table = parts.table := isLayout ▸ rfl
  -- the words of the descriptor are written before the loops
  generalize writtenIs : ((((memory.write (parts.mpool + minChunkField)
    (usedMinChunkSize minChunk)).write parts.mpool (msbIndex (usedMinChunkSize minChunk))).write
      (parts.mpool + flMaxField) (msbIndex size)).write (parts.mpool + slBitmapField)
        parts.rows) = written
  have isRows : written (parts.mpool + slBitmapField) = parts.rows := by
    rw [← writtenIs, write_same]
  have rowsFit : parts.rows + sizeT * parts.levels ≤ 2 ^ 32 := by omega
  obtain ⟨rowsZero, rowsKept⟩ := clearBitmaps_clears isRows rowsFit (by omega)
  generalize clearedIs : clearBitmaps parts.mpool parts.levels written = cleared at *
  generalize tabledIs : cleared.write (parts.mpool + chunkField) parts.table = tabled
  have isTabled : tabled (parts.mpool + chunkField) = parts.table := by
    rw [← tabledIs, write_same]
  have tableFits : parts.table + sizeT * slDim * parts.levels ≤ 2 ^ 32 := by omega
  obtain ⟨listsZero, listsKept⟩ := clearLists_clears isTabled tableFits (by omega) le_rfl
  generalize finalIs : clearLists parts.mpool parts.levels tabled = final at *
  have stored : parts.metadata size minChunk memory = final := by
    unfold Layout.metadata
    dsimp only
    rw [writtenIs, clearedIs, tabledIs, finalIs]
  have inDescriptor : ∀ address, parts.mpool ≤ address → address < parts.mpool + gmaT →
      address ≠ parts.mpool + chunkField → final address = written address := by
    intro address atLeast below notTable
    rw [listsKept address (by omega), ← tabledIs, write_other notTable]
    exact rowsKept address (by omega)
  have fields : ∀ address, written address =
      if address = parts.mpool + slBitmapField then parts.rows
      else if address = parts.mpool + flMaxField then msbIndex size
      else if address = parts.mpool then msbIndex (usedMinChunkSize minChunk)
      else if address = parts.mpool + minChunkField then usedMinChunkSize minChunk
      else memory address := by
    intro address
    rw [← writtenIs, write_apply, write_apply, write_apply, write_apply]
  have isMpool : placed.pool.mpool = parts.mpool := isLayout ▸ rfl
  rw [stored]
  unfold gmaT slBitmapField flMaxField minChunkField chunkField at *
  refine ⟨⟨?_, ?_, ?_, ?_, ?_⟩, ?_, ?_, ?_⟩
  · rw [isMpool, inDescriptor _ le_rfl (by omega) (by omega), fields, if_neg (by omega),
      if_neg (by omega), if_pos rfl]
    rfl
  · unfold flMaxField
    rw [isMpool, inDescriptor _ (by omega) (by omega) (by omega), fields, if_neg (by omega),
      if_pos rfl]
    rfl
  · unfold minChunkField
    rw [isMpool, inDescriptor _ (by omega) (by omega) (by omega), fields, if_neg (by omega),
      if_neg (by omega), if_neg (by omega), if_pos rfl]
    rfl
  · unfold slBitmapField
    rw [isMpool, inDescriptor _ (by omega) (by omega) (by omega), fields, if_pos rfl]
    exact isLayout ▸ rfl
  · unfold chunkField
    rw [isMpool, listsKept _ (by omega), isTabled, isTable]
  · intro fl row
    rw [isLevels] at row
    unfold sizeT at *
    rw [listsKept _ (by omega), ← tabledIs, write_other (by omega)]
    exact rowsZero fl row
  · intro place inGrid
    obtain ⟨row, column⟩ := inGrid
    rw [Pool.listFormat_head, isTable]
    exact listsZero place.1 (isLevels ▸ row) place.2 column
  · unfold flBitmapField
    rw [inDescriptor _ (by omega) (by omega) (by omega), fields, if_neg (by omega),
      if_neg (by omega), if_neg (by omega), if_neg (by omega)]

/-- The check of `gma_init` passes. -/
theorem Placed.asserted (placed : Placed static segment size minChunk newMpool) :
    segment ≠ 0 ∧ minPoolSize ≤ sub32 (alignDown (add32 segment size)) (alignUp segment) := by
  obtain ⟨rowsLe, -⟩ := placed.parts_eq rfl
  have segmentFits := placed.segment_lt
  obtain ⟨nonzero, fits, roomy, -⟩ := placed
  obtain ⟨-, startFits, startAt⟩ := alignUp_spec segmentFits
  have sizeFits : size < 2 ^ 32 := by omega
  obtain ⟨-, finishFits, finishAt⟩ := finish_offset segmentFits sizeFits
  have wide : 32 ≤ max (usedMinChunkSize minChunk) (2 ^ logSLDim) := Nat.le_max_right ..
  unfold Roomy sizeT slDim borderChunkSize at roomy
  rw [if_pos (by omega)] at finishAt
  rw [offset_sub segmentFits startFits finishFits, startAt,
    sub32_of_le (by omega) (by omega)]
  refine ⟨nonzero, ?_⟩
  unfold minPoolSize gmaT sizeT slDim minChunkSize
  omega

/-- The size of the first chunk. -/
theorem Placed.first_spec (placed : Placed static segment size minChunk newMpool) :
    0 < placed.pool.low ∧ placed.pool.low < placed.pool.high ∧
      4 ∣ placed.pool.high - placed.pool.low ∧
      placed.pool.least ≤ placed.pool.high - placed.pool.low := by
  obtain ⟨-, -, -, rowsIs, tableIs, areaIs, large, ends, -⟩ := placed.parts_eq rfl
  have segmentFits := placed.segment_lt
  have nonzero := placed.nonzero
  have aligned : 4 ∣ (layout static segment size minChunk newMpool).area :=
    (layout_eq rfl segmentFits).2.2.2.2.2
  have wide : 32 ≤ max (usedMinChunkSize minChunk) (2 ^ logSLDim) := Nat.le_max_right ..
  have isFirst : placed.pool.high - placed.pool.low =
      (layout static segment size minChunk newMpool).firstSize :=
    Nat.add_sub_cancel_left ..
  have isHigh : placed.pool.high = placed.pool.low +
      (layout static segment size minChunk newMpool).firstSize := rfl
  have isLow : placed.pool.low = (layout static segment size minChunk newMpool).area := rfl
  rw [isFirst]
  refine ⟨by omega, by omega, by omega, large⟩

/-- `gma_init` up to the call of `gma_free`. -/
theorem Placed.prepare (placed : Placed static segment size minChunk newMpool) :
    ∃ memory', gmaPrepare static segment size minChunk newMpool memory =
        some (placed.pool.low + 2 * sizeT, memory') ∧
      placed.pool.Fresh memory' ∧
      memory' (placed.pool.mpool + flBitmapField) =
        memory (placed.pool.mpool + flBitmapField) := by
  obtain ⟨described, rowsZero, rootsZero, level⟩ := @Placed.metadata _ _ _ _ _ memory _ placed rfl
  obtain ⟨-, -, -, -, -, -, -, ends, isSize⟩ := placed.parts_eq rfl
  obtain ⟨positive, increasing, sizeAligned, large⟩ := placed.first_spec
  have wide := @Pool.least_ge placed.pool
  have high := placed.pool.high_le
  have isSize' : sub32 (layout static segment size minChunk newMpool).finish
      placed.pool.low = placed.pool.high - placed.pool.low + 8 :=
    isSize.trans (congrArg (· + 8) (Nat.add_sub_cancel_left ..).symm)
  have isEnd : placed.pool.low + (placed.pool.high - placed.pool.low) = placed.pool.high :=
    Nat.add_sub_cancel' placed.pool.low_le
  obtain ⟨memory', made, own, border, same⟩ := @makeFirstChunk_spec
    ((layout static segment size minChunk newMpool).metadata size minChunk memory)
    placed.pool.low (placed.pool.high - placed.pool.low) positive placed.pool.low_aligned
    sizeAligned (by unfold minChunkSize; omega) (by omega)
  rw [isEnd] at border same
  have apart := placed.pool.descriptor_apart
  have rowsBelow := placed.pool.rows_below
  have tableBelow := placed.pool.table_below
  refine ⟨memory', ?_, ⟨?_, ?_, ?_, own, border⟩, ?_⟩
  · unfold gmaPrepare
    dsimp only
    refine (if_pos placed.asserted).trans ?_
    rw [← made, ← isSize']
    rfl
  · apply described.congr
    intro address atLeast below _
    exact same address (by omega)
  · intro fl row
    have below : placed.pool.rows + sizeT * fl < placed.pool.low := by
      unfold Pool.levels at row
      unfold sizeT at *
      omega
    rw [same _ (.inl below)]
    exact rowsZero fl row
  · intro place inGrid
    have root := Pool.root_bounds inGrid
    rw [same _ (by omega)]
    exact rootsZero place inGrid
  · rw [same _ (by unfold gmaT flBitmapField at *; omega)]
    exact level

end Prepare

namespace Pool

variable {pool : Pool} {mpool : Nat}

section Fresh

theorem empty_holds {format : ListFormat} (isZero : memory format.head = 0) :
    format.Holds memory [] := by
  constructor
  · exact List.isChain_pair.mpr ⟨isZero, fun nonzero => absurd rfl nonzero⟩
  · exact List.nodup_singleton 0

/-- With nothing left in the bitmap of the levels, the pool is well formed. -/
theorem Fresh.wellFormed (fresh : pool.Fresh memory)
    (empty : memory (pool.mpool + flBitmapField) = 0) (aligned : 4 ∣ pool.high - pool.low)
    (large : pool.least ≤ pool.high - pool.low) :
    pool.WellFormed memory [⟨pool.low, pool.high - pool.low, true⟩] fun _ => [] := by
  have wide := @least_ge pool
  have isEnd : pool.low + (pool.high - pool.low) = pool.high := Nat.add_sub_cancel' pool.low_le
  refine ⟨⟨?_, ?_, fun _ mem => mem, ?_, ⟨fresh.described, ?_, ?_⟩, ?_⟩, ?_, ?_⟩
  · exact ⟨rfl, (by decide : 0 < 32).trans_le (wide.trans large), isEnd⟩
  · intro block mem
    obtain rfl := List.mem_singleton.mp mem
    exact ⟨aligned, large⟩
  · intro block mem free
    obtain rfl := List.mem_singleton.mp mem
    cases free
  · intro place inGrid
    exact empty_holds (fresh.roots_zero place inGrid)
  · constructor
    · intro fl row
      rw [fresh.rows_zero fl row]
      decide
    · intro fl row sl column
      rw [fresh.rows_zero fl row, Nat.zero_testBit]
      simp
    · rw [empty]
      decide
    · intro fl
      rw [empty, Nat.zero_testBit]
      constructor
      · intro absurd
        cases absurd
      · rintro ⟨row, nonzero⟩
        exact absurd (fresh.rows_zero fl row) nonzero
  · intro place node
    constructor
    · intro mem
      exact absurd mem List.not_mem_nil
    · rintro ⟨block, mem, free, -⟩
      obtain rfl := List.mem_singleton.mp mem
      cases free
  · exact ⟨fresh.own, fresh.ends, trivial⟩
  · exact List.isChain_singleton _

/-- `gma_free` of the first chunk has no neighbours to join. -/
theorem Fresh.gmaFree {static : Nat} (fresh : pool.Fresh memory)
    (aligned : 4 ∣ pool.high - pool.low) (large : pool.least ≤ pool.high - pool.low)
    (descriptor : poolOf static mpool = pool.mpool) :
    gmaFree static mpool (pool.low + 2 * sizeT) memory =
      some (insertChunkInFreeList pool.mpool pool.low (memory.write (pool.low + sizeField)
        (tagged (pool.high - pool.low) false true))) := by
  have wide := @least_ge pool
  have positive := @low_pos pool
  have high := pool.high_le
  have isEnd : pool.low + (pool.high - pool.low) = pool.high := Nat.add_sub_cancel' pool.low_le
  generalize chunkIs : (⟨pool.low, pool.high - pool.low, true⟩ : Block) = chunk
  have addrIs : chunk.addr = pool.low := chunkIs ▸ rfl
  have sizeIs : chunk.size = pool.high - pool.low := chunkIs ▸ rfl
  have limitIs : chunk.limit = pool.high := chunkIs ▸ isEnd
  have borderAt : pool.border.addr = pool.high := rfl
  have own := fresh.own
  have ends : memory (pool.border.addr + sizeField) = tagged pool.border.size true true :=
    fresh.ends
  rw [← sizeIs, ← addrIs] at own ⊢
  rw [← sizeIs] at aligned large
  have isChunk : sub32 (chunk.addr + 2 * sizeT) (2 * sizeT) = chunk.addr := by
    rw [sub32_of_le (by unfold sizeT; omega) (by omega)]
    omega
  have asserted : chunk.addr + 2 * sizeT ≠ 0 ∧ getChunkInuse chunk.addr memory ≠ 0 ∧
      ¬ isBorderChunk chunk.addr memory ∧ 4 ∣ chunk.addr := by
    refine ⟨by omega, ?_, ?_, addrIs ▸ pool.low_aligned⟩
    · rw [Ne, getChunkInuse_tagged own aligned]
      decide
    · unfold isBorderChunk borderChunkSize
      rw [getChunkSize_tagged own aligned (by omega)]
      omega
  have isCleared : clearChunkInuse chunk.addr memory =
      memory.write (chunk.addr + sizeField) (tagged chunk.size false true) := by
    unfold clearChunkInuse cinuse
    rw [own, tagged_clear_two aligned (by omega)]
  generalize clearedIs : memory.write (chunk.addr + sizeField) (tagged chunk.size false true) =
    cleared at *
  have own' : cleared (chunk.addr + sizeField) = tagged chunk.size false true := by
    rw [← clearedIs, write_same]
  have ends' : cleared (pool.border.addr + sizeField) = tagged pool.border.size true true := by
    rw [← clearedIs, write_other (by omega)]
    exact ends
  have noBefore : getChunkBefore chunk.addr cleared = 0 := by
    apply if_pos
    rw [Ne, getChunkBinuse_tagged own' aligned]
    decide
  have after : getChunkAfter chunk.addr cleared = pool.border.addr := by
    rw [getChunkAfter_tagged own' aligned (by omega), limitIs, borderAt]
  have inUse : getChunkInuse pool.border.addr cleared ≠ 0 := by
    rw [Ne, getChunkInuse_tagged ends' (by decide : 4 ∣ 4)]
    decide
  have keptBefore : joinBefore pool.mpool chunk.addr cleared = (chunk.addr, cleared) := by
    unfold Grid.joinBefore
    dsimp only
    rw [noBefore, if_neg (by simp)]
  have keptAfter : joinAfter pool.mpool chunk.addr cleared = cleared := by
    unfold Grid.joinAfter
    dsimp only
    rw [after, if_neg fun joins => inUse joins.2]
  unfold Grid.gmaFree
  dsimp only
  rw [isChunk, if_pos asserted, descriptor, isCleared, keptBefore, if_pos asserted.2.2.2,
    keptAfter]

theorem mem_single {place other : Place} {node : Nat}
    (mem : node ∈ Function.update (fun _ => []) place [pool.low] other) :
    other = place ∧ node = pool.low := by
  rw [Function.update_apply] at mem
  split at mem
  · rename_i same
    exact ⟨same, List.mem_singleton.mp mem⟩
  · exact absurd mem List.not_mem_nil

/-- The first chunk alone is in the lists. -/
theorem spread_single {place : Place} (inGrid : pool.InGrid place)
    (room : pool.low + 16 ≤ pool.high) :
    pool.Spread (Function.update (fun _ => []) place [pool.low]) := by
  constructor
  · intro other node mem
    obtain ⟨rfl, -⟩ := mem_single mem
    exact inGrid
  · intro other node mem
    obtain ⟨-, rfl⟩ := mem_single mem
    exact pool.low_aligned
  · intro other node mem
    obtain ⟨-, rfl⟩ := mem_single mem
    exact ⟨le_rfl, room⟩
  · intro other node mem other' node' mem'
    obtain ⟨rfl, rfl⟩ := mem_single mem
    obtain ⟨rfl, rfl⟩ := mem_single mem'
    exact .inl ⟨rfl, rfl⟩

/-- The words of a fresh pool after its chunk was put into its list. -/
theorem Fresh.insert_words (fresh : pool.Fresh memory) (aligned : 4 ∣ pool.high - pool.low)
    (large : pool.least ≤ pool.high - pool.low) {place : Place}
    (isPlace : pool.place (pool.high - pool.low) = place) {memory' : Memory}
    (inserted : insertChunkInFreeList pool.mpool pool.low (memory.write (pool.low + sizeField)
      (tagged (pool.high - pool.low) false true)) = memory') :
    pool.InGrid place ∧
      (∀ other, pool.InGrid other → memory' (pool.listFormat other).head =
        if other = place then pool.low else 0) ∧
      memory' (pool.low + nextField) = 0 ∧
      (∀ fl < pool.levels, memory' (pool.rows + sizeT * fl) =
        if fl = place.1 then shl32 1 place.2 else 0) ∧
      memory' (pool.mpool + flBitmapField) =
        memory (pool.mpool + flBitmapField) ||| shl32 1 place.1 := by
  have wide := @least_ge pool
  have positive := @low_pos pool
  have high := pool.high_le
  have area := pool.area_lt
  have tableBelow := pool.table_below
  have rowsBelow := pool.rows_below
  have apart := pool.descriptor_apart
  have isEnd : pool.low + (pool.high - pool.low) = pool.high := Nat.add_sub_cancel' pool.low_le
  have sized : pool.Sized (pool.high - pool.low) := pool.sized large area
  have inGrid : pool.InGrid place := isPlace ▸ sized.inGrid
  generalize sizeIs : pool.high - pool.low = size at *
  generalize listsIs : Function.update (fun _ : Place => ([] : List Nat)) place [pool.low] = lists
  have listsAt : ∀ other, lists other = if other = place then [pool.low] else [] := by
    intro other
    rw [← listsIs, Function.update_apply]
  have only := @mem_single pool place
  rw [listsIs] at only
  have spread : pool.Spread lists := listsIs ▸ spread_single inGrid (by omega)
  generalize clearedIs : memory.write (pool.low + sizeField) (tagged size false true) = cleared at *
  have kept : ∀ address, address ≠ pool.low + sizeField → cleared address = memory address := by
    intro address different
    rw [← clearedIs, write_other different]
  have described : pool.Described cleared := by
    apply fresh.described.congr
    intro address atLeast below _
    exact kept address (by unfold sizeField; omega)
  have links : pool.Links cleared fun _ => [] := by
    intro other inGrid
    have root := root_bounds inGrid
    apply empty_holds
    rw [kept _ (by unfold sizeField; omega)]
    exact fresh.roots_zero other inGrid
  have own : cleared (pool.low + sizeField) = tagged size false true := by
    rw [← clearedIs, write_same]
  have ends : cleared (pool.low + size + sizeField) = tagged borderChunkSize true true := by
    rw [isEnd, kept _ (by omega)]
    exact fresh.ends
  have notLink : ∀ address, address = pool.low + sizeField ∨ address = pool.low + size ∨
      address = pool.low + size + sizeField → ¬ pool.LinkWord lists address := by
    intro address isWord isLink
    unfold sizeField at isWord
    rcases isLink with ⟨other, inGrid, rfl⟩ | ⟨other, node, mem, isField⟩
    · have root := root_bounds inGrid
      omega
    · obtain ⟨-, rfl⟩ := only mem
      unfold prevField nextField at isField
      omega
  obtain ⟨marked, stores, described', links', -, -, -, same⟩ :=
    described.insertChunkInFreeList links sized aligned (by omega) (isPlace ▸ listsIs ▸ spread)
      List.not_mem_nil isEnd.le own ends (by decide) (by decide)
      (isPlace ▸ listsIs ▸ notLink)
  rw [isPlace, listsIs] at links' same
  rw [isPlace, described'.set_stores inGrid.1] at stores
  have keptBit : ∀ address, pool.BitWord address → marked address = memory address := by
    intro address isBit
    have outside : address < pool.low ∨ pool.high + 8 ≤ address := by
      by_contra inside
      exact area_not_bit (by omega) (by omega) isBit
    unfold sizeField at same kept
    rw [same address (bitWord_not_link spread isBit) (by omega) (by omega) (by omega)]
    exact kept address (by omega)
  have keptLink : ∀ address, pool.LinkWord lists address → memory' address = marked address := by
    intro address isLink
    have notLevel : address ≠ pool.mpool + flBitmapField :=
      fun same => bitWord_not_link spread (.inl same) isLink
    have notRow : address ≠ pool.rows + sizeT * place.1 :=
      fun same => bitWord_not_link spread (.inr ⟨_, inGrid.1, same⟩) isLink
    rw [← inserted, stores, write_other notLevel, write_other notRow]
  have listed : lists place = [] ++ pool.low :: [] := by rw [listsAt, if_pos rfl]; rfl
  refine ⟨inGrid, ?_, ?_, ?_, ?_⟩
  · intro other inGrid'
    rw [keptLink _ (.inl ⟨other, inGrid', rfl⟩), (links' other inGrid').head, listsAt]
    split <;> rfl
  · have isNode : pool.low ∈ lists place := by simp [listed]
    rw [keptLink _ (.inr ⟨place, pool.low, isNode, .inr rfl⟩)]
    have holds := links' place inGrid
    rw [listed] at holds
    exact holds.next
  · intro fl row
    rw [← inserted, stores, write_other (row_ne_level row), write_apply,
      keptBit _ (.inr ⟨_, inGrid.1, rfl⟩), fresh.rows_zero _ inGrid.1, Nat.zero_or]
    by_cases same : fl = place.1
    · rw [if_pos same, if_pos (by rw [same])]
    · rw [if_neg same, if_neg (by unfold sizeT; omega), keptBit _ (.inr ⟨fl, row, rfl⟩)]
      exact fresh.rows_zero fl row
  · rw [← inserted, stores, write_same, keptBit _ (.inl rfl)]

/-- The index of the new pool is in order iff the bitmap of the levels had no other level. -/
theorem Fresh.ready_iff (fresh : pool.Fresh memory) (aligned : 4 ∣ pool.high - pool.low)
    (large : pool.least ≤ pool.high - pool.low) {memory' : Memory}
    (inserted : insertChunkInFreeList pool.mpool pool.low (memory.write (pool.low + sizeField)
      (tagged (pool.high - pool.low) false true)) = memory')
    (word : memory (pool.mpool + flBitmapField) < 2 ^ 32) :
    pool.Ready memory' ↔ ∀ fl, (memory (pool.mpool + flBitmapField)).testBit fl = true →
      fl = (pool.place (pool.high - pool.low)).1 := by
  have positive := @low_pos pool
  obtain ⟨inGrid, roots, next, rows, level⟩ := fresh.insert_words aligned large rfl inserted
  generalize pool.place (pool.high - pool.low) = place at *
  obtain ⟨row, column⟩ := inGrid
  have small : place.1 < 32 := by
    have := @levels_lt pool
    omega
  have rowNonzero : shl32 1 place.2 ≠ 0 := by
    rw [shl32_one column]
    exact (Nat.two_pow_pos _).ne'
  constructor
  · intro ready fl set
    have bit : (memory' (pool.mpool + flBitmapField)).testBit fl = true := by
      rw [level, Nat.testBit_or, set, Bool.true_or]
    obtain ⟨inRange, nonzero⟩ := (ready.bits.level fl).mp bit
    rw [rows fl inRange] at nonzero
    by_contra different
    exact nonzero (if_neg different)
  · intro only
    refine ⟨⟨?_, ?_, ?_, ?_⟩, place, ⟨row, column⟩, ?_, next, ?_⟩
    · intro fl inRange
      rw [rows fl inRange]
      split
      · rw [shl32_one column]
        exact Nat.pow_lt_pow_right (by decide) column
      · decide
    · intro fl inRange sl column'
      rw [rows fl inRange, roots (fl, sl) ⟨inRange, column'⟩]
      by_cases same : fl = place.1
      · rw [if_pos same, shl32_one column, Nat.testBit_two_pow, decide_eq_true_eq]
        constructor
        · intro isColumn
          rw [if_pos (Prod.ext same isColumn.symm)]
          exact positive.ne'
        · intro isRoot
          by_contra different
          exact isRoot (if_neg fun isPlace => different (congrArg Prod.snd isPlace).symm)
      · rw [if_neg same, Nat.zero_testBit, if_neg fun isPlace => same (congrArg Prod.fst isPlace)]
        simp
    · rw [level]
      exact add_lt word small
    · intro fl
      rw [level, testBit_add small, Bool.or_eq_true, decide_eq_true_eq]
      constructor
      · intro isSet
        have same : fl = place.1 := isSet.elim id (only fl)
        exact ⟨same ▸ row, by rw [rows fl (same ▸ row), if_pos same]; exact rowNonzero⟩
      · rintro ⟨inRange, nonzero⟩
        left
        by_contra different
        exact nonzero ((rows fl inRange).trans (if_neg different))
    · rw [roots place ⟨row, column⟩, if_pos rfl]
    · intro other inGrid different
      rw [roots other inGrid, if_neg different]

end Fresh

end Pool

section Start

theorem gmaInit_of_prepare {mpool block : Nat} {fresh memory' : Memory}
    (prepared : gmaPrepare static segment size minChunk newMpool memory = some (block, fresh))
    (isMpool : (layout static segment size minChunk newMpool).mpool = mpool)
    (freed : gmaFree static mpool block fresh = some memory') :
    gmaInit static segment size minChunk newMpool memory = some (mpool, memory') := by
  rw [gmaInit_eq, prepared, isMpool]
  simp only [Option.bind_eq_bind, Option.bind_some, freed]
  rfl

/-- `gma_init` puts the chunk that it made into its list. -/
theorem Placed.gmaInit_steps (placed : Placed static segment size minChunk newMpool) :
    ∃ fresh memory', gmaInit static segment size minChunk newMpool memory =
        some (placed.pool.mpool, memory') ∧
      gmaFree static placed.pool.mpool (placed.pool.low + 2 * sizeT) fresh = some memory' ∧
      placed.pool.Fresh fresh ∧
      fresh (placed.pool.mpool + flBitmapField) =
        memory (placed.pool.mpool + flBitmapField) ∧
      insertChunkInFreeList placed.pool.mpool placed.pool.low
        (fresh.write (placed.pool.low + sizeField)
          (tagged (placed.pool.high - placed.pool.low) false true)) = memory' := by
  obtain ⟨-, -, aligned, large⟩ := placed.first_spec
  obtain ⟨fresh, prepared, isFresh, level⟩ := @Placed.prepare _ _ _ _ _ memory placed
  have descriptor : poolOf static placed.pool.mpool = placed.pool.mpool :=
    (placed.descriptor rfl).2.2
  have freed := isFresh.gmaFree aligned large descriptor
  exact ⟨fresh, _, gmaInit_of_prepare prepared rfl freed, freed, isFresh, level, rfl⟩

/-- A pool that starts with nothing in the bitmap of the levels is well formed. -/
theorem Placed.gmaInit_wellFormed (placed : Placed static segment size minChunk newMpool)
    (empty : memory (placed.pool.mpool + flBitmapField) = 0) :
    ∃ memory' lists, gmaInit static segment size minChunk newMpool memory =
        some (placed.pool.mpool, memory') ∧
      placed.pool.WellFormed memory' [placed.pool.whole] lists := by
  obtain ⟨-, -, aligned, large⟩ := placed.first_spec
  obtain ⟨fresh, memory', started, freed, isFresh, level, -⟩ :=
    @Placed.gmaInit_steps _ _ _ _ _ memory placed
  have wellFormed := isFresh.wellFormed (level.trans empty) aligned large
  obtain ⟨memory'', lists, freed', wellFormed'⟩ :=
    @Pool.WellFormed.gmaFree _ _ _ [] [] ⟨placed.pool.low, _, true⟩ static placed.pool.mpool
      wellFormed rfl (placed.descriptor rfl).2.2
  obtain rfl : memory' = memory'' := Option.some.inj (freed.symm.trans freed')
  exact ⟨memory', lists, started, wellFormed'⟩

end Start

section Bitmaps

/-- `gma_init` does not clear the bitmap of the levels.  After it the bitmaps agree with the lists
iff no bit was set there but that of the first chunk. -/
theorem gmaInit_ready_iff (placed : Placed static segment size minChunk newMpool)
    (word : memory (placed.pool.mpool + flBitmapField) < 2 ^ 32) :
    ∃ memory', gmaInit static segment size minChunk newMpool memory =
        some (placed.pool.mpool, memory') ∧
      (placed.pool.Ready memory' ↔
        ∀ fl, (memory (placed.pool.mpool + flBitmapField)).testBit fl = true →
          fl = (placed.pool.place (placed.pool.high - placed.pool.low)).1) := by
  obtain ⟨-, -, aligned, large⟩ := placed.first_spec
  obtain ⟨fresh, memory', started, -, isFresh, level, inserted⟩ :=
    @Placed.gmaInit_steps _ _ _ _ _ memory placed
  have ready := isFresh.ready_iff aligned large inserted (level ▸ word)
  rw [level] at ready
  exact ⟨memory', started, ready⟩

theorem page_placed : Placed 1024 4096 2048 defMinChunkSize false :=
  ⟨by decide, by decide, by decide, fun _ => by decide, fun _ => by decide⟩

/-- A memory of zeros. -/
def zeros : Memory := fun _ => 0

theorem gmaInit_ready_page : ∃ memory', gmaInit 1024 4096 2048 defMinChunkSize false zeros =
      some (page_placed.pool.mpool, memory') ∧
    (page_placed.pool.Ready memory' ↔
      ∀ fl, (zeros (page_placed.pool.mpool + flBitmapField)).testBit fl = true →
        fl = (page_placed.pool.place (page_placed.pool.high - page_placed.pool.low)).1) :=
  @gmaInit_ready_iff _ _ _ _ _ zeros page_placed (by decide)

/-- The static descriptor of an earlier pool that had a chunk of 32 bytes in its lists. -/
theorem gmaInit_ready_fail : ¬ ∀ (static segment size minChunk : Nat) (newMpool : Bool)
    (memory memory' : Memory) (mpool : Nat)
    (placed : Placed static segment size minChunk newMpool),
    memory (placed.pool.mpool + flBitmapField) < 2 ^ 32 →
    gmaInit static segment size minChunk newMpool memory = some (mpool, memory') →
    placed.pool.Ready memory' := by
  intro claim
  let memory : Memory := fun address => if address = 1036 then 1 else 0
  obtain ⟨-, -, aligned, large⟩ := page_placed.first_spec
  obtain ⟨fresh, memory', started, -, isFresh, level, inserted⟩ :=
    @Placed.gmaInit_steps _ _ _ _ _ memory page_placed
  have isOne : memory (page_placed.pool.mpool + flBitmapField) = 1 := if_pos rfl
  have ready := isFresh.ready_iff aligned large inserted (by rw [level, isOne]; decide)
  have only := ready.mp (claim _ _ _ _ _ memory memory' _ page_placed (by rw [isOne]; decide)
    started) 0 (by rw [level, isOne]; decide)
  exact absurd only (by decide)

end Bitmaps

end Oseer.Grid

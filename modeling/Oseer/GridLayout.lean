import Mathlib.Data.List.Chain
import Oseer.Grid

/-!
# The layout of a new pool

`gma_init` puts the descriptor, the bitmaps of the rows, the table of the lists and the first
chunk with its two borders one after the other into the segment.  Its check asks for room for
one row of the grid, whatever the number of rows is, and the check of the first chunk is made on
a difference that wraps when there is no room at all.
-/

namespace Oseer.Grid

open WordMemory Bitmap

/-- The values that `gma_init` settles on: the descriptor, the number of rows, their bitmaps,
the table of the lists, what is left for the chunks, and its end. -/
structure Layout where
  mpool : Nat
  levels : Nat
  rows : Nat
  table : Nat
  area : Nat
  finish : Nat

/-- The calculations of `gma_init`. -/
def layout (static segment size minChunk : Nat) (newMpool : Bool) : Layout :=
  let addr := alignUp segment
  let mpool := if newMpool then addr else static
  let rows := if newMpool then alignUp (add32 addr gmaT) else addr
  let levels := add32 (sub32 (msbIndex size) (msbIndex (usedMinChunkSize minChunk))) 1
  let table := alignUp (add32 rows (sizeT * levels))
  let area := alignUp (add32 table (sizeT * slDim * levels))
  ⟨mpool, levels, rows, table, area, alignDown (add32 segment size)⟩

namespace Layout

/-- The stores of `gma_init` before the first chunk is made. -/
def metadata (layout : Layout) (size minChunk : Nat) (memory : Memory) : Memory :=
  let memory := memory.write (layout.mpool + minChunkField) (usedMinChunkSize minChunk)
  let memory := memory.write layout.mpool (msbIndex (usedMinChunkSize minChunk))
  let memory := memory.write (layout.mpool + flMaxField) (msbIndex size)
  let memory := memory.write (layout.mpool + slBitmapField) layout.rows
  let memory := clearBitmaps layout.mpool layout.levels memory
  let memory := memory.write (layout.mpool + chunkField) layout.table
  clearLists layout.mpool layout.levels memory

/-- The size of the first chunk. -/
def firstSize (layout : Layout) : Nat :=
  sub32 (sub32 layout.finish layout.area) (2 * borderChunkSize)

/-- What is placed in the segment, with the number of bytes: the descriptor, the bitmaps, the
table, the first border, the first chunk and the last border. -/
def regions (layout : Layout) (newMpool : Bool) : List (Nat × Nat) :=
  (if newMpool then [(layout.mpool, gmaT)] else []) ++
    [(layout.rows, sizeT * layout.levels), (layout.table, sizeT * slDim * layout.levels),
      (layout.area, borderChunkSize), (add32 layout.area borderChunkSize, layout.firstSize),
      (sub32 layout.finish borderChunkSize, borderChunkSize)]

/-- Everything lies in the segment, nothing overlaps, and the first chunk is not too small.
Places are told by their distance from the start of the segment. -/
structure Inside (layout : Layout) (segment size minChunk : Nat) (newMpool : Bool) : Prop where
  within : ∀ region ∈ layout.regions newMpool, sub32 region.1 segment + region.2 ≤ size
  apart : (layout.regions newMpool).Pairwise fun region other =>
    sub32 region.1 segment + region.2 ≤ sub32 other.1 segment ∨
      sub32 other.1 segment + other.2 ≤ sub32 region.1 segment
  first : usedMinChunkSize minChunk ≤ layout.firstSize

end Layout

/-- `gma_init` up to the call of `gma_free`, with the assertions of `make_first_chunk`. -/
def gmaPrepare (static segment size minChunk : Nat) (newMpool : Bool) (memory : Memory) :
    Option (Nat × Memory) :=
  let layout := layout static segment size minChunk newMpool
  if segment ≠ 0 ∧ minPoolSize ≤ sub32 layout.finish (alignUp segment) then
    makeFirstChunk layout.area (sub32 layout.finish layout.area)
      (layout.metadata size minChunk memory)
  else none

/-- The segment has room for the metadata and a first chunk of the least size, with what is lost
by aligning its start and its end. -/
def Roomy (segment size minChunk : Nat) (newMpool : Bool) : Prop :=
  (4 - segment % 4) % 4 + (if newMpool then gmaT else 0) +
    (sizeT + sizeT * slDim) * (size.log2 + 1 - (usedMinChunkSize minChunk).log2) +
    2 * borderChunkSize + max (usedMinChunkSize minChunk) (2 ^ logSLDim) +
    (segment + size) % 4 ≤ size

instance {segment size minChunk : Nat} {newMpool : Bool} :
    Decidable (Roomy segment size minChunk newMpool) :=
  inferInstanceAs (Decidable (_ ≤ _))

variable {static segment size minChunk : Nat} {newMpool : Bool} {memory : Memory}
  {parts : Layout}

section Code

/-- `gma_init` frees the chunk that it made. -/
theorem gmaInit_eq : gmaInit static segment size minChunk newMpool memory = (do
    let first ← gmaPrepare static segment size minChunk newMpool memory
    let memory ← gmaFree static (layout static segment size minChunk newMpool).mpool
      first.1 first.2
    return ((layout static segment size minChunk newMpool).mpool, memory)) := by
  unfold gmaInit gmaPrepare layout Layout.metadata
  dsimp only
  split
  · have different : ∀ address, address ≠ address + flMaxField := by
      intro address
      unfold flMaxField
      omega
    simp only [write_same, write_other (different _)]
  · rfl

/-- The assertions of `gma_init` and of `make_first_chunk`. -/
theorem gmaPrepare_isSome :
    (gmaPrepare static segment size minChunk newMpool memory).isSome ↔
      (segment ≠ 0 ∧ minPoolSize ≤ sub32 (alignDown (add32 segment size)) (alignUp segment)) ∧
        (layout static segment size minChunk newMpool).area ≠ 0 ∧
        borderChunkSize * 2 + minChunkSize <
          sub32 (layout static segment size minChunk newMpool).finish
            (layout static segment size minChunk newMpool).area ∧
        4 ∣ (layout static segment size minChunk newMpool).area := by
  unfold gmaPrepare makeFirstChunk
  dsimp only
  split
  · rename_i asserted
    split
    · rename_i asserted'
      exact ⟨fun _ => ⟨asserted, asserted'⟩, fun _ => rfl⟩
    · rename_i fails
      exact ⟨fun absurd => (Bool.false_ne_true absurd).elim, fun asserts => (fails asserts.2).elim⟩
  · rename_i fails
    exact ⟨fun absurd => (Bool.false_ne_true absurd).elim, fun asserts => (fails asserts.1).elim⟩

end Code

section Offsets

theorem alignDown_spec {word : Nat} (fits : word < 2 ^ 32) :
    4 ∣ alignDown word ∧ alignDown word + word % 4 = word := by
  rw [alignDown_eq fits]
  omega

theorem alignUp_spec (fits : segment < 2 ^ 32) :
    4 ∣ alignUp segment ∧ alignUp segment < 2 ^ 32 ∧
      sub32 (alignUp segment) segment = (4 - segment % 4) % 4 := by
  have wraps : add32 segment 3 < 2 ^ 32 := Nat.mod_lt _ (by decide)
  rw [alignUp, alignDown_eq wraps]
  unfold add32 sub32 at *
  omega

theorem alignUp_of_dvd {word : Nat} (aligned : 4 ∣ word) (fits : word < 2 ^ 32) :
    alignUp word = word := by
  rw [alignUp_eq (by omega)]
  omega

theorem alignUp_add32 {word count : Nat} (aligned : 4 ∣ word) (aligned' : 4 ∣ count) :
    alignUp (add32 word count) = add32 word count := by
  have fits : add32 word count < 2 ^ 32 := Nat.mod_lt _ (by decide)
  apply alignUp_of_dvd _ fits
  unfold add32
  omega

theorem add32_dvd {word count : Nat} (aligned : 4 ∣ word) (aligned' : 4 ∣ count) :
    4 ∣ add32 word count := by
  unfold add32
  omega

/-- The parts of the layout follow each other without gaps. -/
theorem layout_eq (isLayout : layout static segment size minChunk newMpool = parts)
    (fits : segment < 2 ^ 32) :
    parts.rows = add32 (alignUp segment) (if newMpool then gmaT else 0) ∧
      parts.table = add32 parts.rows (sizeT * parts.levels) ∧
      parts.area = add32 parts.table (sizeT * slDim * parts.levels) ∧
      4 ∣ parts.rows ∧ 4 ∣ parts.table ∧ 4 ∣ parts.area := by
  subst isLayout
  obtain ⟨aligned, start, -⟩ := alignUp_spec fits
  have rowsIs : (layout static segment size minChunk newMpool).rows =
      add32 (alignUp segment) (if newMpool then gmaT else 0) := by
    change (if newMpool then alignUp (add32 (alignUp segment) gmaT) else alignUp segment) = _
    cases newMpool with
    | true =>
        rw [if_pos rfl, if_pos rfl]
        exact alignUp_add32 aligned (by decide)
    | false =>
        rw [if_neg Bool.false_ne_true, if_neg Bool.false_ne_true]
        exact (add32_of_lt (b := 0) start).symm
  have rowsAligned : 4 ∣ (layout static segment size minChunk newMpool).rows := by
    rw [rowsIs]
    apply add32_dvd aligned
    cases newMpool <;> decide
  have tableIs : (layout static segment size minChunk newMpool).table = _ :=
    alignUp_add32 rowsAligned (Nat.dvd_mul_right ..)
  have tableAligned : 4 ∣ (layout static segment size minChunk newMpool).table := by
    rw [tableIs]
    exact add32_dvd rowsAligned (Nat.dvd_mul_right ..)
  have areaIs : (layout static segment size minChunk newMpool).area = _ :=
    alignUp_add32 tableAligned (Dvd.dvd.mul_right (Nat.dvd_mul_right ..) _)
  refine ⟨rowsIs, tableIs, areaIs, rowsAligned, tableAligned, ?_⟩
  rw [areaIs]
  exact add32_dvd tableAligned (Dvd.dvd.mul_right (Nat.dvd_mul_right ..) _)

theorem offset_add {start address count : Nat} (fits : start < 2 ^ 32)
    (below : sub32 address start + count < 2 ^ 32) :
    sub32 (add32 address count) start = sub32 address start + count := by
  unfold sub32 add32 at *
  omega

/-- The distances from the start of the segment, when the rows are not too many. -/
theorem layout_offsets (isLayout : layout static segment size minChunk newMpool = parts)
    (fits : segment < 2 ^ 32) (sizeFits : size < 2 ^ 32)
    (rows : (usedMinChunkSize minChunk).log2 ≤ size.log2) {start : Nat}
    (starts : (4 - segment % 4) % 4 + (if newMpool then gmaT else 0) = start) :
    parts.levels = size.log2 + 1 - (usedMinChunkSize minChunk).log2 ∧ parts.levels ≤ 32 ∧
      sub32 parts.rows segment = start ∧
      sub32 parts.table segment = start + sizeT * parts.levels ∧
      sub32 parts.area segment =
        start + sizeT * parts.levels + sizeT * slDim * parts.levels := by
  have small : size.log2 < 32 := by
    rcases Nat.eq_zero_or_pos size with rfl | positive
    · decide
    · exact (Nat.log2_lt positive.ne').mpr sizeFits
  have levelsIs : parts.levels = size.log2 + 1 - (usedMinChunkSize minChunk).log2 := by
    subst isLayout
    change add32 (sub32 (msbIndex size) (msbIndex (usedMinChunkSize minChunk))) 1 = _
    unfold msbIndex
    rw [sub32_of_le (by omega) rows, add32_of_lt (by omega)]
    omega
  have few : parts.levels ≤ 32 := by omega
  obtain ⟨rowsIs, tableIs, areaIs, -⟩ := layout_eq isLayout fits
  obtain ⟨-, -, atStart⟩ := alignUp_spec fits
  have startSmall : start < 64 := by
    rw [← starts]
    unfold gmaT
    split <;> omega
  have isStart : sub32 (alignUp segment) segment + (if newMpool then gmaT else 0) = start := by
    rw [atStart, starts]
  have rowsAt : sub32 parts.rows segment = start := by
    rw [rowsIs, offset_add fits (by omega), isStart]
  have tableAt : sub32 parts.table segment = start + sizeT * parts.levels := by
    rw [tableIs, offset_add fits (by rw [rowsAt]; unfold sizeT; omega), rowsAt]
  refine ⟨levelsIs, few, rowsAt, tableAt, ?_⟩
  rw [areaIs, offset_add fits (by rw [tableAt]; unfold sizeT slDim; omega), tableAt]

theorem finish_offset (fits : segment < 2 ^ 32) (sizeFits : size < 2 ^ 32) :
    4 ∣ alignDown (add32 segment size) ∧ alignDown (add32 segment size) < 2 ^ 32 ∧
      sub32 (alignDown (add32 segment size)) segment + (segment + size) % 4 =
        if (segment + size) % 4 ≤ size then size else size + 2 ^ 32 := by
  have wraps : add32 segment size < 2 ^ 32 := Nat.mod_lt _ (by decide)
  rw [alignDown_eq wraps]
  unfold add32 sub32 at *
  split <;> omega

end Offsets

section Inside

theorem offset_sub {start first last : Nat} (fits : start < 2 ^ 32) (fits' : first < 2 ^ 32)
    (fits'' : last < 2 ^ 32) :
    sub32 last first = sub32 (sub32 last start) (sub32 first start) := by
  unfold sub32
  omega

/-- The rows that there should be. -/
theorem levels_spec (isLayout : layout static segment size defMinChunkSize newMpool = parts)
    (sizeFits : size < 2 ^ 32) (few : size < 32) : parts.levels = 0 ∧ 16 ≤ size ∨
      size < sizeT * parts.levels := by
  subst isLayout
  change add32 (sub32 size.log2 5) 1 = 0 ∧ _ ∨ size < sizeT * add32 (sub32 size.log2 5) 1
  have small : size.log2 < 5 := by
    rcases Nat.eq_zero_or_pos size with rfl | positive
    · decide
    · exact (Nat.log2_lt positive.ne').mpr few
  unfold sizeT add32 sub32
  by_cases row : size.log2 = 4
  · left
    have nonzero : size ≠ 0 := by
      rintro rfl
      exact absurd row (by decide)
    exact ⟨by omega, (Nat.le_log2 nonzero).mp row.ge⟩
  · right
    omega

theorem log2_ge (large : 32 ≤ size) : 5 ≤ size.log2 :=
  (Nat.le_log2 (by omega)).mpr large

/-- A first chunk that ends in the segment has its room there: a difference that wrapped would
be too large. -/
theorem room_of_first {area finish lost : Nat} (near : area < 2 ^ 16) (ends : finish + lost = size)
    (few : lost < 4) (sizeFits : size < 2 ^ 32) (chunked : 24 < sub32 finish area)
    (chunkInside : area + 4 + sub32 (sub32 finish area) 8 ≤ size)
    (large : 32 ≤ sub32 (sub32 finish area) 8) : area + 40 ≤ finish := by
  by_cases order : area ≤ finish
  · rw [sub32_of_le (a := finish) (by omega) order] at chunked large
    rw [sub32_of_le (by omega) (by omega)] at large
    omega
  · have wrapped : sub32 finish area = finish + 2 ^ 32 - area := by
      unfold sub32
      omega
    rw [wrapped, sub32_of_le (by omega) (by omega)] at chunkInside
    omega

/-- Where the first chunk and the last border are, and how large the chunk is. -/
theorem first_offsets (isLayout : layout static segment size minChunk newMpool = parts)
    (fits : segment < 2 ^ 32) (near : sub32 parts.area segment < 2 ^ 16) :
    sub32 (add32 parts.area borderChunkSize) segment = sub32 parts.area segment + 4 ∧
      sub32 parts.finish parts.area =
        sub32 (sub32 parts.finish segment) (sub32 parts.area segment) ∧
      parts.firstSize =
        sub32 (sub32 (sub32 parts.finish segment) (sub32 parts.area segment)) 8 := by
  obtain ⟨-, -, areaIs, -⟩ := layout_eq isLayout fits
  have areaFits : parts.area < 2 ^ 32 := areaIs ▸ Nat.mod_lt _ (by decide)
  have finishFits : parts.finish < 2 ^ 32 := by
    subst isLayout
    have wraps : add32 segment size < 2 ^ 32 := Nat.mod_lt _ (by decide)
    change alignDown (add32 segment size) < 2 ^ 32
    rw [alignDown_eq wraps]
    omega
  have differs := offset_sub fits areaFits finishFits
  refine ⟨?_, differs, ?_⟩
  · apply offset_add fits
    unfold borderChunkSize
    omega
  · rw [← differs]
    rfl

theorem last_offset {start finish : Nat} (fits : start < 2 ^ 32) (fits' : finish < 2 ^ 32)
    (far : 4 ≤ sub32 finish start) :
    sub32 (sub32 finish borderChunkSize) start = sub32 finish start - 4 := by
  unfold borderChunkSize sub32 at *
  omega

/-- A part of the layout ends before another one starts. -/
def Precedes (segment : Nat) (region other : Nat × Nat) : Prop :=
  sub32 region.1 segment + region.2 ≤ sub32 other.1 segment

instance : IsTrans (Nat × Nat) (Precedes segment) where
  trans _ _ _ first second := (first.trans (Nat.le_add_right ..)).trans second

/-- Parts that follow each other up to the end of the segment are inside of it. -/
theorem Layout.inside_of_ordered
    (mpoolEnds : newMpool = true → sub32 parts.mpool segment + gmaT ≤ sub32 parts.rows segment)
    (rowsEnd : sub32 parts.rows segment + sizeT * parts.levels ≤ sub32 parts.table segment)
    (tableEnds : sub32 parts.table segment + sizeT * slDim * parts.levels ≤
      sub32 parts.area segment)
    (borderEnds : sub32 parts.area segment + borderChunkSize ≤
      sub32 (add32 parts.area borderChunkSize) segment)
    (firstEnds : sub32 (add32 parts.area borderChunkSize) segment + parts.firstSize ≤
      sub32 (sub32 parts.finish borderChunkSize) segment)
    (lastEnds : sub32 (sub32 parts.finish borderChunkSize) segment + borderChunkSize ≤ size)
    (first : usedMinChunkSize minChunk ≤ parts.firstSize) :
    parts.Inside segment size minChunk newMpool := by
  refine ⟨?_, ?_, first⟩
  · intro region mem
    unfold Layout.regions at mem
    rcases List.mem_append.mp mem with isMpool | isRest
    · split at isMpool
      · rename_i isNew
        obtain rfl := List.mem_singleton.mp isMpool
        have := mpoolEnds isNew
        dsimp only
        omega
      · exact absurd isMpool List.not_mem_nil
    · simp only [List.mem_cons, List.not_mem_nil, or_false] at isRest
      rcases isRest with rfl | rfl | rfl | rfl | rfl
      all_goals
        dsimp only
        omega
  · apply List.Pairwise.imp (R := Precedes segment) Or.inl
    apply List.IsChain.pairwise
    have ordered : List.IsChain (Precedes segment) [(parts.rows, sizeT * parts.levels),
        (parts.table, sizeT * slDim * parts.levels), (parts.area, borderChunkSize),
        (add32 parts.area borderChunkSize, parts.firstSize),
        (sub32 parts.finish borderChunkSize, borderChunkSize)] := by
      simp only [List.isChain_cons_cons, List.isChain_singleton, and_true]
      exact ⟨rowsEnd, tableEnds, borderEnds, firstEnds⟩
    unfold Layout.regions
    split
    · rename_i isNew
      exact .cons_cons (mpoolEnds isNew) ordered
    · exact ordered

/-- With the default least size, everything has its place exactly when there is room. -/
theorem inside_iff_roomy (fits : segment < 2 ^ 32) (sizeFits : size < 2 ^ 32)
    (asserted : (gmaPrepare static segment size defMinChunkSize newMpool memory).isSome) :
    (layout static segment size defMinChunkSize newMpool).Inside segment size defMinChunkSize
      newMpool ↔ Roomy segment size defMinChunkSize newMpool := by
  obtain ⟨⟨-, pooled⟩, -, chunked, -⟩ := gmaPrepare_isSome.mp asserted
  obtain ⟨finishAligned, finishFits, finishAt⟩ := finish_offset fits sizeFits
  obtain ⟨-, startFits, startAt⟩ := alignUp_spec fits
  rw [offset_sub fits startFits finishFits, startAt] at pooled
  have finishIs : (layout static segment size defMinChunkSize newMpool).finish =
      alignDown (add32 segment size) := rfl
  have mpoolIs : newMpool = true → sub32 (layout static segment size defMinChunkSize
      newMpool).mpool segment = (4 - segment % 4) % 4 := by
    rintro rfl
    exact startAt
  rw [← finishIs] at finishAt pooled
  generalize isLayout : layout static segment size defMinChunkSize newMpool = parts at *
  generalize startIs : (4 - segment % 4) % 4 + (if newMpool then gmaT else 0) = start
  have roomy : Roomy segment size defMinChunkSize newMpool ↔
      start + 132 * (size.log2 + 1 - 5) + 40 + (segment + size) % 4 ≤ size := by
    unfold Roomy
    rw [startIs]
    exact Iff.rfl
  rw [roomy]
  by_cases few : size < 32
  · -- the rows lie outside, or the pool is too small
    refine ⟨fun inside => ?_, fun room => by omega⟩
    have rowsInside := inside.within (parts.rows, sizeT * parts.levels) (by simp [Layout.regions])
    dsimp only at rowsInside
    rcases levels_spec isLayout sizeFits few with ⟨-, large⟩ | many
    · unfold minPoolSize gmaT sizeT slDim minChunkSize sub32 at pooled
      unfold sub32 at finishAt
      split at finishAt <;> omega
    · omega
  · have startSmall : start < 64 := by
      rw [← startIs]
      unfold gmaT
      split <;> omega
    obtain ⟨levelsIs, levelsFew, rowsAt, tableAt, areaAt⟩ := layout_offsets
      isLayout fits sizeFits (log2_ge (not_lt.mp few)) startIs
    have near : sub32 parts.area segment < 2 ^ 16 := by
      rw [areaAt]
      unfold sizeT slDim
      omega
    obtain ⟨firstAt, differs, firstIs⟩ := first_offsets isLayout fits near
    rw [if_pos (by omega)] at finishAt
    have rowsIs : (usedMinChunkSize defMinChunkSize).log2 = 5 := by decide
    rw [rowsIs] at levelsIs
    rw [differs] at chunked
    constructor
    · intro inside
      have chunkInside := inside.within (add32 parts.area borderChunkSize, parts.firstSize)
        (by simp [Layout.regions])
      have firstLarge : 32 ≤ parts.firstSize := inside.first
      dsimp only at chunkInside
      rw [firstAt, firstIs] at chunkInside
      rw [firstIs] at firstLarge
      have room := room_of_first near finishAt (Nat.mod_lt _ (by decide)) sizeFits chunked chunkInside firstLarge
      unfold sizeT slDim at areaAt
      omega
    · intro room
      have areaFar : sub32 parts.area segment = start + 132 * (size.log2 + 1 - 5) := by
        rw [areaAt, levelsIs]
        unfold sizeT slDim
        omega
      have enough : sub32 parts.area segment + 40 ≤ sub32 parts.finish segment := by omega
      have apart : sub32 (sub32 parts.finish segment) (sub32 parts.area segment) =
          sub32 parts.finish segment - sub32 parts.area segment :=
        sub32_of_le (by omega) (by omega)
      have sizes : parts.firstSize =
          sub32 parts.finish segment - sub32 parts.area segment - 8 := by
        rw [firstIs, apart, sub32_of_le (by omega) (by omega)]
      have lastAt : sub32 (sub32 parts.finish borderChunkSize) segment =
          sub32 parts.finish segment - 4 :=
        last_offset fits (finishIs ▸ finishFits) (by omega)
      have least : usedMinChunkSize defMinChunkSize = 32 := by decide
      have mpoolAt : newMpool = true → sub32 parts.mpool segment + gmaT = start := by
        rintro rfl
        rw [mpoolIs rfl, ← startIs, if_pos rfl]
      unfold sizeT slDim at areaAt
      unfold sizeT at tableAt
      apply Layout.inside_of_ordered
      · intro isNew
        rw [mpoolAt isNew, rowsAt]
      · unfold sizeT
        omega
      · unfold sizeT slDim
        omega
      · rw [firstAt]
        unfold borderChunkSize
        omega
      · rw [firstAt, lastAt]
        omega
      · rw [lastAt]
        unfold borderChunkSize
        omega
      · rw [least]
        omega

theorem inside_iff_roomy_page :
    (layout 1024 4096 2048 defMinChunkSize true).Inside 4096 2048 defMinChunkSize true ↔
      Roomy 4096 2048 defMinChunkSize true :=
  @inside_iff_roomy 1024 4096 2048 true (fun _ => 0) (by decide) (by decide)
    (gmaPrepare_isSome.mpr (by decide))

/-- A segment of 512 bytes passes all checks, and its first chunk ends far behind it. -/
theorem inside_fail : ¬ ∀ static segment size newMpool memory, segment < 2 ^ 32 →
    size < 2 ^ 32 → (gmaPrepare static segment size defMinChunkSize newMpool memory).isSome →
    (layout static segment size defMinChunkSize newMpool).Inside segment size defMinChunkSize
      newMpool := by
  intro claim
  have inside := claim 1024 4096 512 false (fun _ => 0) (by decide) (by decide)
    (gmaPrepare_isSome.mpr (by decide))
  have chunkInside := inside.within (4760, 2 ^ 32 - 156) (by decide)
  exact absurd chunkInside (by decide)

end Inside

end Oseer.Grid

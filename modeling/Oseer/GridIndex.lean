import Oseer.GridLists
import Oseer.Library.TaggedWord

/-!
# The index of the free chunks

The lists of the grid with their bitmaps: what the routines do that put a chunk into its list
and take one out.
-/

namespace Oseer.Grid

open WordMemory LinkedRing Bitmap SizeClasses

namespace Pool

/-- The descriptor, the bitmaps and the lists belong together. -/
structure Indexed (pool : Pool) (memory : Memory) (lists : ChunkLists) : Prop where
  described : pool.Described memory
  links : pool.Links memory lists
  bits : pool.Bits memory fun place => lists place ≠ []

/-- The words of the bitmaps. -/
def BitWord (pool : Pool) (address : Nat) : Prop :=
  address = pool.mpool + flBitmapField ∨ ∃ fl < pool.levels, address = pool.rows + sizeT * fl

variable {pool : Pool} {memory memory' : Memory} {lists : ChunkLists} {place : Place}
  {filled filled' : Place → Prop} {chunk address fl sl : Nat} {before after : List Nat}

section Words

theorem bitWord_bounds (isBit : pool.BitWord address) :
    address = pool.mpool + flBitmapField ∨ pool.rows ≤ address ∧ address + 4 ≤ pool.table := by
  rcases isBit with isLevel | ⟨fl, row, rfl⟩
  · exact .inl isLevel
  · right
    have below := pool.rows_below
    unfold levels at row
    unfold sizeT at *
    omega

theorem linkWord_bounds (spread : pool.Spread lists) (isLink : pool.LinkWord lists address) :
    pool.table ≤ address ∧ address < pool.high := by
  have low := pool.low_le
  have below := pool.table_below
  rcases isLink with ⟨place, inGrid, rfl⟩ | ⟨place, node, mem, isWord⟩
  · have root := root_bounds inGrid
    omega
  · have area := spread.inArea place node mem
    unfold prevField nextField at isWord
    omega

theorem bitWord_not_link (spread : pool.Spread lists) (isBit : pool.BitWord address) :
    ¬ pool.LinkWord lists address := by
  intro isLink
  have bounds := linkWord_bounds spread isLink
  have apart := pool.descriptor_apart
  have below := pool.rows_below
  rcases bitWord_bounds isBit with rfl | inRows
  · unfold gmaT at apart
    unfold flBitmapField at bounds
    omega
  · omega

/-- A change of the bitmaps keeps the descriptor. -/
theorem Described.congr (described : pool.Described memory)
    (same : ∀ address, pool.mpool ≤ address → address < pool.mpool + gmaT →
      address ≠ pool.mpool + flBitmapField → memory' address = memory address) :
    pool.Described memory' := by
  obtain ⟨flMin, flMax, minChunk, rows, table⟩ := described
  constructor
  · rw [same _ le_rfl (by unfold gmaT; omega) (by unfold flBitmapField; omega), flMin]
  · rw [same _ (by omega) (by unfold gmaT flMaxField; omega)
      (by unfold flMaxField flBitmapField; omega), flMax]
  · rw [same _ (by omega) (by unfold gmaT minChunkField; omega)
      (by unfold minChunkField flBitmapField; omega), minChunk]
  · rw [same _ (by omega) (by unfold gmaT slBitmapField; omega)
      (by unfold slBitmapField flBitmapField; omega), rows]
  · rw [same _ (by omega) (by unfold gmaT chunkField; omega)
      (by unfold chunkField flBitmapField; omega), table]

theorem Bits.congr (bits : pool.Bits memory filled)
    (same : ∀ address, pool.BitWord address → memory' address = memory address)
    (fills : ∀ place, pool.InGrid place → (filled' place ↔ filled place)) :
    pool.Bits memory' filled' := by
  have level := same _ (.inl rfl)
  have row : ∀ fl < pool.levels, memory' (pool.rows + sizeT * fl) =
      memory (pool.rows + sizeT * fl) := fun fl inGrid => same _ (.inr ⟨fl, inGrid, rfl⟩)
  constructor
  · intro fl inGrid
    rw [row fl inGrid]
    exact bits.row_lt fl inGrid
  · intro fl inGrid sl column
    rw [row fl inGrid, bits.row fl inGrid sl column]
    exact (fills (fl, sl) ⟨inGrid, column⟩).symm
  · rw [level]
    exact bits.level_lt
  · intro fl
    rw [level, bits.level fl]
    constructor
    · rintro ⟨inGrid, nonzero⟩
      exact ⟨inGrid, (row fl inGrid).symm ▸ nonzero⟩
    · rintro ⟨inGrid, nonzero⟩
      exact ⟨inGrid, row fl inGrid ▸ nonzero⟩

theorem Links.congr (links : pool.Links memory lists)
    (same : ∀ address, pool.LinkWord lists address → memory' address = memory address) :
    pool.Links memory' lists := by
  intro place inGrid
  apply (links place inGrid).congr
  · exact same _ (.inl ⟨place, inGrid, rfl⟩)
  · intro node mem
    exact same _ (.inr ⟨place, node, mem, .inr rfl⟩)
  · intro node mem
    exact same _ (.inr ⟨place, node, mem, .inl rfl⟩)

end Words

section Bitmaps

theorem row_ne_level (inGrid : fl < pool.levels) :
    pool.rows + sizeT * fl ≠ pool.mpool + flBitmapField := by
  have apart := pool.descriptor_apart
  have below := pool.rows_below
  have below' := pool.table_below
  have := pool.low_le
  unfold levels at inGrid
  unfold gmaT at apart
  unfold flBitmapField sizeT at *
  omega

theorem Described.set_stores (described : pool.Described memory)
    (row : fl < pool.levels) :
    setListHaveChunks pool.mpool fl sl memory =
      (memory.write (pool.rows + sizeT * fl)
        (memory (pool.rows + sizeT * fl) ||| shl32 1 sl)).write (pool.mpool + flBitmapField)
        (memory (pool.mpool + flBitmapField) ||| shl32 1 fl) := by
  unfold Grid.setListHaveChunks
  dsimp only
  rw [described.slBitmapAt row, write_other (row_ne_level row).symm]

/-- What `set_list_have_chunks` does. -/
theorem Described.set_bits (described : pool.Described memory)
    (bits : pool.Bits memory filled) (inGrid : pool.InGrid (fl, sl)) :
    pool.Bits (setListHaveChunks pool.mpool fl sl memory)
        (fun place => place = (fl, sl) ∨ filled place) ∧
      ∀ address, ¬ pool.BitWord address →
        setListHaveChunks pool.mpool fl sl memory address = memory address := by
  obtain ⟨row, column⟩ := inGrid
  dsimp only at row column
  have small : fl < 32 := by
    have := @levels_lt pool
    omega
  have stores := @Described.set_stores _ _ _ sl described row
  have rowIs : ∀ other < pool.levels, setListHaveChunks pool.mpool fl sl memory
      (pool.rows + sizeT * other) = if other = fl then
        memory (pool.rows + sizeT * fl) ||| shl32 1 sl else memory (pool.rows + sizeT * other) := by
    intro other inGrid
    rw [stores, write_other (row_ne_level inGrid)]
    by_cases same : other = fl
    · rw [same, write_same, if_pos rfl]
    · rw [if_neg same, write_other (by unfold sizeT; omega)]
  have levelIs : setListHaveChunks pool.mpool fl sl memory (pool.mpool + flBitmapField) =
      memory (pool.mpool + flBitmapField) ||| shl32 1 fl := by
    rw [stores, write_same]
  refine ⟨⟨?_, ?_, ?_, ?_⟩, ?_⟩
  · intro other inGrid
    rw [rowIs other inGrid]
    split
    · exact add_lt (bits.row_lt fl row) column
    · exact bits.row_lt other inGrid
  · intro other inGrid sl' column'
    rw [rowIs other inGrid]
    split
    · rename_i same
      rw [testBit_add column, same, Bool.or_eq_true, decide_eq_true_eq, bits.row fl row sl' column',
        Prod.mk.injEq]
      simp
    · rename_i different
      rw [bits.row other inGrid sl' column', Prod.mk.injEq]
      simp [different]
  · rw [levelIs]
    exact add_lt bits.level_lt small
  · intro other
    rw [levelIs, testBit_add small, Bool.or_eq_true, decide_eq_true_eq, bits.level other]
    by_cases same : other = fl
    · subst same
      rw [rowIs other row, if_pos rfl]
      simp only [true_or, true_iff]
      refine ⟨row, fun isZero => ?_⟩
      have member := @testBit_add (memory (pool.rows + sizeT * other)) sl sl column
      rw [isZero, Nat.zero_testBit] at member
      simp at member
    · constructor
      · rintro (isRow | ⟨inGrid, nonzero⟩)
        · exact absurd isRow same
        · refine ⟨inGrid, ?_⟩
          rwa [rowIs other inGrid, if_neg same]
      · rintro ⟨inGrid, nonzero⟩
        rw [rowIs other inGrid, if_neg same] at nonzero
        exact .inr ⟨inGrid, nonzero⟩
  · intro address notBit
    rw [stores, write_other fun isLevel => notBit (.inl isLevel),
      write_other fun isRow => notBit (.inr ⟨fl, row, isRow⟩)]

/-- What `clear_list_have_chunks` does. -/
theorem Described.clear_bits (described : pool.Described memory)
    (bits : pool.Bits memory filled) (inGrid : pool.InGrid (fl, sl)) :
    pool.Bits (clearListHaveChunks pool.mpool fl sl memory)
        (fun place => place ≠ (fl, sl) ∧ filled place) ∧
      ∀ address, ¬ pool.BitWord address →
        clearListHaveChunks pool.mpool fl sl memory address = memory address := by
  obtain ⟨row, column⟩ := inGrid
  dsimp only at row column
  have small : fl < 32 := by
    have := @levels_lt pool
    omega
  have different := row_ne_level row
  generalize restIs : memory (pool.rows + sizeT * fl) &&& not32 (shl32 1 sl) = rest
  have stores : clearListHaveChunks pool.mpool fl sl memory =
      if rest = 0 then (memory.write (pool.rows + sizeT * fl) rest).write
        (pool.mpool + flBitmapField)
        (memory (pool.mpool + flBitmapField) &&& not32 (shl32 1 fl))
      else memory.write (pool.rows + sizeT * fl) rest := by
    unfold Grid.clearListHaveChunks
    dsimp only
    rw [described.slBitmapAt row, restIs, write_same, write_other different.symm]
  have rowIs : ∀ other < pool.levels, clearListHaveChunks pool.mpool fl sl memory
      (pool.rows + sizeT * other) = if other = fl then rest
        else memory (pool.rows + sizeT * other) := by
    intro other inGrid
    have stored : memory.write (pool.rows + sizeT * fl) rest (pool.rows + sizeT * other) =
        if other = fl then rest else memory (pool.rows + sizeT * other) := by
      by_cases same : other = fl
      · rw [same, write_same, if_pos rfl]
      · rw [if_neg same, write_other (by unfold sizeT; omega)]
    rw [stores, ← stored]
    split
    · exact write_other (row_ne_level inGrid)
    · rfl
  have levelIs : clearListHaveChunks pool.mpool fl sl memory (pool.mpool + flBitmapField) =
      if rest = 0 then memory (pool.mpool + flBitmapField) &&& not32 (shl32 1 fl)
      else memory (pool.mpool + flBitmapField) := by
    rw [stores]
    split
    · exact write_same
    · exact write_other different.symm
  refine ⟨⟨?_, ?_, ?_, ?_⟩, ?_⟩
  · intro other inGrid
    rw [rowIs other inGrid]
    split
    · rw [← restIs]
      exact remove_lt (bits.row_lt fl row) _
    · exact bits.row_lt other inGrid
  · intro other inGrid sl' column'
    rw [rowIs other inGrid]
    split
    · rename_i same
      rw [← restIs, testBit_remove (bits.row_lt fl row) column, same, Bool.and_eq_true,
        decide_eq_true_eq, bits.row fl row sl' column', Ne, Ne, Prod.mk.injEq]
      simp
    · rename_i different
      rw [bits.row other inGrid sl' column', Ne, Prod.mk.injEq]
      simp [different]
  · rw [levelIs]
    split
    · exact remove_lt bits.level_lt _
    · exact bits.level_lt
  · intro other
    rw [levelIs]
    by_cases same : other = fl
    · subst same
      rw [rowIs other row, if_pos rfl]
      by_cases isZero : rest = 0
      · rw [if_pos isZero, testBit_remove bits.level_lt small]
        simp [isZero]
      · rw [if_neg isZero, bits.level other]
        simp only [row, true_and, ne_eq, isZero, not_false_eq_true, iff_true]
        rintro wasZero
        rw [wasZero, Nat.zero_and] at restIs
        exact isZero restIs.symm
    · have unchanged : (if rest = 0 then
          memory (pool.mpool + flBitmapField) &&& not32 (shl32 1 fl)
          else memory (pool.mpool + flBitmapField)).testBit other =
            (memory (pool.mpool + flBitmapField)).testBit other := by
        split
        · rw [testBit_remove bits.level_lt small]
          simp [same]
        · rfl
      rw [unchanged, bits.level other]
      constructor
      · rintro ⟨inGrid, nonzero⟩
        refine ⟨inGrid, ?_⟩
        rwa [rowIs other inGrid, if_neg same]
      · rintro ⟨inGrid, nonzero⟩
        rw [rowIs other inGrid, if_neg same] at nonzero
        exact ⟨inGrid, nonzero⟩
  · intro address notBit
    have stored : memory.write (pool.rows + sizeT * fl) rest address = memory address :=
      write_other fun isRow => notBit (.inr ⟨fl, row, isRow⟩)
    rw [stores]
    split
    · rw [write_other fun isLevel => notBit (.inl isLevel), stored]
    · exact stored

end Bitmaps

section Removal

/-- The descriptor is no part of the lists or of the bitmaps, but for one word. -/
theorem descriptor_fixed (spread : pool.Spread lists) (atLeast : pool.mpool ≤ address)
    (below : address < pool.mpool + gmaT) (notLevel : address ≠ pool.mpool + flBitmapField) :
    ¬ pool.LinkWord lists address ∧ ¬ pool.BitWord address := by
  have apart := pool.descriptor_apart
  have rows := pool.rows_below
  have table := pool.table_below
  have area := pool.low_le
  constructor
  · intro isLink
    have bounds := linkWord_bounds spread isLink
    omega
  · intro isBit
    rcases bitWord_bounds isBit with isLevel | inRows
    · exact notLevel isLevel
    · omega

theorem area_not_bit (atLeast : pool.low ≤ address) (below : address < pool.high + 8) :
    ¬ pool.BitWord address := by
  intro isBit
  have apart := pool.descriptor_apart
  have rows := pool.rows_below
  have table := pool.table_below
  unfold gmaT at apart
  rcases bitWord_bounds isBit with isLevel | inRows
  · unfold flBitmapField at isLevel
    omega
  · omega

/-- A chunk leaves its list, whose bit is cleared if it was the last one. -/
theorem Indexed.unlink (indexed : pool.Indexed memory lists) (spread : pool.Spread lists)
    (inGrid : pool.InGrid place) (shape : lists place = before ++ chunk :: after) :
    let unlinked := (pool.listFormat place).unlinkStores (lastOf 0 before) (headOf 0 after) memory
    let memory' := if before ++ after = [] then
      clearListHaveChunks pool.mpool place.1 place.2 unlinked else unlinked
    pool.Indexed memory' (Function.update lists place (before ++ after)) ∧
      ∀ address, ¬ pool.LinkWord lists address → ¬ pool.BitWord address →
        memory' address = memory address := by
  intro unlinked memory'
  obtain ⟨links, same⟩ := indexed.links.unlink spread inGrid shape
  have wasFilled : lists place ≠ [] := by simp [shape]
  have described : pool.Described unlinked := indexed.described.congr
    fun address atLeast below notLevel => same address
      (descriptor_fixed spread atLeast below notLevel).1
  have bits : pool.Bits unlinked fun place => lists place ≠ [] := indexed.bits.congr
    (fun address isBit => same address (bitWord_not_link spread isBit)) fun _ _ => Iff.rfl
  have spread' : pool.Spread (Function.update lists place (before ++ after)) := by
    have fewer : ∀ place', ∀ node ∈ Function.update lists place (before ++ after) place',
        node ∈ lists place' := by
      intro place' node mem
      by_cases isPlace : place' = place
      · subst isPlace
        rw [Function.update_self] at mem
        rw [shape]
        simp only [List.mem_append, List.mem_cons] at mem ⊢
        tauto
      · rwa [Function.update_of_ne isPlace] at mem
    exact ⟨fun place' node mem => spread.inGrid place' node (fewer place' node mem),
      fun place' node mem => spread.aligned place' node (fewer place' node mem),
      fun place' node mem => spread.inArea place' node (fewer place' node mem),
      fun place' node mem place'' node' mem' => spread.apart place' node (fewer place' node mem)
        place'' node' (fewer place'' node' mem')⟩
  by_cases isLast : before ++ after = []
  · have cleared : memory' = clearListHaveChunks pool.mpool place.1 place.2 unlinked :=
      if_pos isLast
    obtain ⟨bits', same'⟩ := described.clear_bits bits inGrid
    rw [cleared]
    refine ⟨⟨?_, ?_, ?_⟩, ?_⟩
    · apply described.congr
      intro address atLeast below notLevel
      exact same' address (descriptor_fixed spread atLeast below notLevel).2
    · apply links.congr
      intro address isLink
      exact same' address fun isBit => bitWord_not_link spread' isBit isLink
    · apply bits'.congr (fun _ _ => rfl)
      intro place' _
      by_cases isPlace : place' = place
      · simp [isPlace, isLast]
      · simp [isPlace]
    · intro address notLink notBit
      exact (same' address notBit).trans (same address notLink)
  · have kept : memory' = unlinked := if_neg isLast
    rw [kept]
    refine ⟨⟨described, links, ?_⟩, fun address notLink _ => same address notLink⟩
    apply bits.congr (fun _ _ => rfl)
    intro place' _
    by_cases isPlace : place' = place
    · subst isPlace
      rw [Function.update_self]
      exact ⟨fun _ => wasFilled, fun _ => isLast⟩
    · rw [Function.update_of_ne isPlace]

/-- `remove_chunk_from_list` keeps the descriptor and the size of the chunk. -/
theorem Indexed.removeChunkFromList {size : Nat} (indexed : pool.Indexed memory lists)
    (spread : pool.Spread lists) (inGrid : pool.InGrid place)
    (shape : lists place = before ++ chunk :: after) (sizeIs : getChunkSize chunk memory = size)
    (notLink : ¬ pool.LinkWord lists (chunk + sizeField)) :
    pool.Described (removeChunkFromList chunk memory).2 ∧
      getChunkSize chunk (removeChunkFromList chunk memory).2 = size := by
  obtain ⟨links, same⟩ := indexed.links.unlink spread inGrid shape
  rw [spread.removeChunkFromList_eq inGrid (indexed.links _ inGrid) shape]
  constructor
  · exact indexed.described.congr fun address atLeast below notLevel => same address
      (descriptor_fixed spread atLeast below notLevel).1
  · unfold getChunkSize
    dsimp only
    rw [same _ notLink]
    exact sizeIs

/-- `remove_chunk_from_free_list`. -/
theorem Indexed.removeChunkFromFreeList {size : Nat} (indexed : pool.Indexed memory lists)
    (spread : pool.Spread lists) (sized : pool.Sized size)
    (shape : lists (pool.place size) = before ++ chunk :: after)
    (sizeIs : getChunkSize chunk memory = size)
    (notLink : ¬ pool.LinkWord lists (chunk + sizeField)) :
    pool.Indexed (removeChunkFromFreeList pool.mpool chunk memory)
        (Function.update lists (pool.place size) (before ++ after)) ∧
      ∀ address, ¬ pool.LinkWord lists address → ¬ pool.BitWord address →
        removeChunkFromFreeList pool.mpool chunk memory address = memory address := by
  have inGrid := sized.inGrid
  have stores : Grid.removeChunkFromFreeList pool.mpool chunk memory =
      if before ++ after = [] then
        clearListHaveChunks pool.mpool (pool.place size).1 (pool.place size).2
          ((pool.listFormat (pool.place size)).unlinkStores (lastOf 0 before) (headOf 0 after)
            memory)
      else (pool.listFormat (pool.place size)).unlinkStores (lastOf 0 before) (headOf 0 after)
        memory := by
    obtain ⟨described, sizeKept⟩ := indexed.removeChunkFromList spread inGrid shape sizeIs notLink
    rw [spread.removeChunkFromList_eq inGrid (indexed.links _ inGrid) shape] at described sizeKept
    unfold Grid.removeChunkFromFreeList
    rw [spread.removeChunkFromList_eq inGrid (indexed.links _ inGrid) shape]
    dsimp only at described sizeKept ⊢
    rw [sizeKept, described.getIndexes sized]
    by_cases isLast : before ++ after = []
    · rw [if_pos isLast, if_pos isLast, if_pos one_ne_zero]
    · rw [if_neg isLast, if_neg isLast, if_neg (not_not.mpr rfl)]
  rw [stores]
  exact indexed.unlink spread inGrid shape

/-- `remove_first_chunk_from_free_list`. -/
theorem Indexed.removeFirstChunkFromFreeList (indexed : pool.Indexed memory lists)
    (spread : pool.Spread lists) (inGrid : pool.InGrid place)
    (shape : lists place = chunk :: after) :
    (removeFirstChunkFromFreeList pool.mpool place.1 place.2 memory).1 = chunk ∧
    pool.Indexed (removeFirstChunkFromFreeList pool.mpool place.1 place.2 memory).2
        (Function.update lists place after) ∧
      ∀ address, ¬ pool.LinkWord lists address → ¬ pool.BitWord address →
        (removeFirstChunkFromFreeList pool.mpool place.1 place.2 memory).2 address =
          memory address := by
  have first : memory (listAt pool.mpool place.1 place.2 memory) = chunk := by
    rw [indexed.described.listAt inGrid]
    have head := (indexed.links place inGrid).head
    rw [shape] at head
    exact head
  have shape' : lists place = [] ++ chunk :: after := shape
  have stores : (Grid.removeFirstChunkFromFreeList pool.mpool place.1 place.2 memory).2 =
      if [] ++ after = [] then
        clearListHaveChunks pool.mpool place.1 place.2
          ((pool.listFormat place).unlinkStores (lastOf 0 []) (headOf 0 after) memory)
      else (pool.listFormat place).unlinkStores (lastOf 0 []) (headOf 0 after) memory := by
    unfold Grid.removeFirstChunkFromFreeList
    dsimp only
    rw [first, spread.removeChunkFromList_eq inGrid (indexed.links _ inGrid) shape']
    by_cases isLast : [] ++ after = []
    · rw [if_pos isLast, if_pos isLast, if_pos one_ne_zero]
    · rw [if_neg isLast, if_neg isLast, if_neg (not_not.mpr rfl)]
  refine ⟨first, ?_⟩
  rw [stores]
  exact indexed.unlink spread inGrid shape'

end Removal

section Insertion

variable {size nextSize : Nat} {current before' nextUsed nextBefore : Bool}

/-- `insert_chunk_in_free_list` but for the bitmaps: the chunk is marked as free in its own words
and in the flag of the chunk after it, and it is the first of its list. -/
theorem Described.insertChunkInFreeList (described : pool.Described memory)
    (held : pool.Links memory lists) (sized : pool.Sized size) (aligned : 4 ∣ size)
    (wide : 16 ≤ size)
    (spread : pool.Spread (Function.update lists (pool.place size)
      (chunk :: lists (pool.place size))))
    (fresh : chunk ∉ lists (pool.place size)) (inArea : chunk + size ≤ pool.high)
    (own : memory (chunk + sizeField) = tagged size current before')
    (next : memory (chunk + size + sizeField) = tagged nextSize nextUsed nextBefore)
    (nextAligned : 4 ∣ nextSize) (nextFits : nextSize < 2 ^ 32)
    (notLink : ∀ address, address = chunk + sizeField ∨ address = chunk + size ∨
      address = chunk + size + sizeField → ¬ pool.LinkWord (Function.update lists
        (pool.place size) (chunk :: lists (pool.place size))) address) :
    ∃ marked, insertChunkInFreeList pool.mpool chunk memory =
        setListHaveChunks pool.mpool (pool.place size).1 (pool.place size).2 marked ∧
      pool.Described marked ∧
      pool.Links marked (Function.update lists (pool.place size)
        (chunk :: lists (pool.place size))) ∧
      marked (chunk + sizeField) = tagged size false before' ∧
      marked (chunk + size) = tagged size false before' ∧
      marked (chunk + size + sizeField) = tagged nextSize nextUsed false ∧
      ∀ address, ¬ pool.LinkWord (Function.update lists (pool.place size)
          (chunk :: lists (pool.place size))) address →
        address ≠ chunk + sizeField → address ≠ chunk + size →
        address ≠ chunk + size + sizeField → marked address = memory address := by
  have inGrid := sized.inGrid
  generalize placeIs : pool.place size = place at *
  have chunkArea := spread.inArea place chunk (by rw [Function.update_self]; simp)
  have highLe := pool.high_le
  have fits : size < 2 ^ 32 := by omega
  have root := root_bounds inGrid
  obtain ⟨links, same⟩ := held.push inGrid spread fresh
  generalize linkedIs : (pool.listFormat place).pushStores chunk (headOf 0 (lists place)) memory =
    linked at links same
  have ownWord := notLink (chunk + sizeField) (.inl rfl)
  have tailWord := notLink (chunk + size) (.inr (.inl rfl))
  have nextWord := notLink (chunk + size + sizeField) (.inr (.inr rfl))
  -- the stores behind the links
  let cleared := linked.write (chunk + sizeField) (tagged size false before')
  let cloned := cleared.write (chunk + size) (tagged size false before')
  let marked := cloned.write (chunk + size + sizeField) (tagged nextSize nextUsed false)
  have stores : insertChunkInList (pool.listFormat place).head chunk memory = marked := by
    have isLinked : linkChunk (pool.listFormat place).head chunk memory = linked := by
      rw [← linkedIs]
      apply Spread.linkChunk_eq (held place inGrid)
      unfold nextField
      omega
    have isCleared : clearChunkInuse chunk linked = cleared := by
      unfold clearChunkInuse
      rw [same _ ownWord, own]
      exact congrArg _ (tagged_clear_two aligned fits)
    have after : ∀ memory : Memory, memory (chunk + sizeField) = tagged size false before' →
        getChunkAfter chunk memory = chunk + size := by
      intro memory isOwn
      unfold getChunkAfter getChunkSize
      rw [isOwn, alignDown_tagged aligned fits]
      exact add32_of_lt (by omega)
    have ownCleared : cleared (chunk + sizeField) = tagged size false before' := write_same
    have ownCloned : cloned (chunk + sizeField) = tagged size false before' :=
      (write_other (by unfold sizeField; omega)).trans ownCleared
    have isCloned : cloneChunkSize chunk cleared = cloned := by
      unfold cloneChunkSize
      rw [after cleared ownCleared, ownCleared]
    have nextCloned : cloned (chunk + size + sizeField) =
        tagged nextSize nextUsed nextBefore := by
      change (cleared.write _ _) _ = _
      rw [write_other (by unfold sizeField; omega)]
      change (linked.write _ _) _ = _
      rw [write_other (by unfold sizeField; omega), same _ nextWord, next]
    unfold insertChunkInList
    dsimp only
    rw [isLinked, isCleared, isCloned, after cloned ownCloned]
    unfold clearChunkBinuse
    rw [nextCloned]
    exact congrArg _ (tagged_clear_one nextAligned nextFits)
  have sameMarked : ∀ address, ¬ pool.LinkWord (Function.update lists place
      (chunk :: lists place)) address → address ≠ chunk + sizeField → address ≠ chunk + size →
      address ≠ chunk + size + sizeField → marked address = memory address := by
    intro address notLink notOwn notTail notNext
    change ((((linked.write _ _).write _ _).write _ _) address) = _
    rw [write_other notNext, write_other notTail, write_other notOwn, same address notLink]
  refine ⟨marked, ?_, ?_, ?_, ?_, ?_, write_same, sameMarked⟩
  · have sizeIs : getChunkSize chunk memory = size := by
      unfold getChunkSize
      rw [own, alignDown_tagged aligned fits]
    unfold Grid.insertChunkInFreeList
    dsimp only
    rw [sizeIs, described.getIndexes sized, placeIs]
    dsimp only
    rw [described.listAt inGrid, ← stores]
    rfl
  · apply described.congr
    intro address atLeast below notLevel
    have apart := pool.descriptor_apart
    have rows := pool.rows_below
    have table := pool.table_below
    apply sameMarked address (descriptor_fixed spread atLeast below notLevel).1
    · unfold sizeField
      omega
    · omega
    · unfold sizeField
      omega
  · apply links.congr
    intro address isLink
    change ((((linked.write _ _).write _ _).write _ _) address) = _
    rw [write_other, write_other, write_other]
    · rintro rfl
      exact ownWord isLink
    · rintro rfl
      exact tailWord isLink
    · rintro rfl
      exact nextWord isLink
  · change (((linked.write _ _).write _ _).write _ _) _ = _
    rw [write_other (by unfold sizeField; omega), write_other (by unfold sizeField; omega),
      write_same]
  · change (((linked.write _ _).write _ _).write _ _) _ = _
    rw [write_other (by unfold sizeField; omega), write_same]

/-- `insert_chunk_in_free_list`. -/
theorem Indexed.insertChunkInFreeList (indexed : pool.Indexed memory lists)
    (sized : pool.Sized size) (aligned : 4 ∣ size) (wide : 16 ≤ size)
    (spread : pool.Spread (Function.update lists (pool.place size)
      (chunk :: lists (pool.place size))))
    (fresh : chunk ∉ lists (pool.place size)) (inArea : chunk + size ≤ pool.high)
    (own : memory (chunk + sizeField) = tagged size current before')
    (next : memory (chunk + size + sizeField) = tagged nextSize nextUsed nextBefore)
    (nextAligned : 4 ∣ nextSize) (nextFits : nextSize < 2 ^ 32)
    (notLink : ∀ address, address = chunk + sizeField ∨ address = chunk + size ∨
      address = chunk + size + sizeField → ¬ pool.LinkWord (Function.update lists
        (pool.place size) (chunk :: lists (pool.place size))) address) :
    let memory' := insertChunkInFreeList pool.mpool chunk memory
    pool.Indexed memory' (Function.update lists (pool.place size)
        (chunk :: lists (pool.place size))) ∧
      memory' (chunk + sizeField) = tagged size false before' ∧
      memory' (chunk + size) = tagged size false before' ∧
      memory' (chunk + size + sizeField) = tagged nextSize nextUsed false ∧
      ∀ address, ¬ pool.LinkWord (Function.update lists (pool.place size)
          (chunk :: lists (pool.place size))) address → ¬ pool.BitWord address →
        address ≠ chunk + sizeField → address ≠ chunk + size →
        address ≠ chunk + size + sizeField → memory' address = memory address := by
  intro memory'
  obtain ⟨marked, isInserted, described, links, ownIs, tailIs, nextIs, sameMarked⟩ :=
    indexed.described.insertChunkInFreeList indexed.links sized aligned wide spread fresh inArea
      own next nextAligned nextFits notLink
  have inGrid := sized.inGrid
  generalize pool.place size = place at *
  have chunkArea := spread.inArea place chunk (by rw [Function.update_self]; simp)
  have bitsMarked : pool.Bits marked fun place => lists place ≠ [] := by
    apply indexed.bits.congr _ fun _ _ => Iff.rfl
    intro address isBit
    have notArea : ¬ (pool.low ≤ address ∧ address < pool.high + 8) :=
      fun bounds => area_not_bit bounds.1 bounds.2 isBit
    apply sameMarked address (bitWord_not_link spread isBit)
    · unfold sizeField
      omega
    · omega
    · unfold sizeField
      omega
  obtain ⟨bits, sameBits⟩ := described.set_bits bitsMarked inGrid
  have inAreaBits : ∀ address, pool.low ≤ address → address < pool.high + 8 →
      memory' address = marked address := by
    intro address atLeast below
    change Grid.insertChunkInFreeList pool.mpool chunk memory address = _
    rw [isInserted]
    exact sameBits address (area_not_bit atLeast below)
  change Grid.insertChunkInFreeList pool.mpool chunk memory = _ at isInserted
  refine ⟨⟨?_, ?_, ?_⟩, ?_, ?_, ?_, ?_⟩
  · change pool.Described (Grid.insertChunkInFreeList pool.mpool chunk memory)
    rw [isInserted]
    apply described.congr
    intro address atLeast below notLevel
    exact sameBits address (descriptor_fixed spread atLeast below notLevel).2
  · change pool.Links (Grid.insertChunkInFreeList pool.mpool chunk memory) _
    rw [isInserted]
    apply links.congr
    intro address isLink
    exact sameBits address fun isBit => bitWord_not_link spread isBit isLink
  · change pool.Bits (Grid.insertChunkInFreeList pool.mpool chunk memory) _
    rw [isInserted]
    apply bits.congr (fun _ _ => rfl)
    intro place' _
    by_cases isPlace : place' = place
    · simp [isPlace]
    · simp [isPlace]
  · rw [inAreaBits _ (by omega) (by unfold sizeField; omega)]
    exact ownIs
  · rw [inAreaBits _ (by omega) (by omega)]
    exact tailIs
  · rw [inAreaBits _ (by omega) (by unfold sizeField; omega)]
    exact nextIs
  · intro address notLink notBit notOwn notTail notNext
    change Grid.insertChunkInFreeList pool.mpool chunk memory address = _
    rw [isInserted, sameBits address notBit]
    exact sameMarked address notLink notOwn notTail notNext

end Insertion

end Pool

end Oseer.Grid

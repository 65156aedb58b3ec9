import Oseer.FirstFitRun
import Oseer.GridStart
import Oseer.Library.Releases

/-!
# The order of frees

Both allocators join a block that is freed with its free neighbours at once, so a set of blocks
may be freed in any order.
-/

namespace Oseer

open WordMemory Tiling

/-- `ffs_free` gives blocks back. -/
theorem FirstFit.gives {mpool low high : Nat} : Gives (low + sizeT) high FirstFit.sizeT
    (fun memory blocks => ∃ free, FirstFit.WellFormed mpool low high memory blocks free)
    (fun pointer memory => some (FirstFit.ffsFree mpool pointer memory)) where
  tiles := by
    rintro memory blocks ⟨free, wellFormed⟩
    exact wellFormed.tiles
  separated := by
    rintro memory blocks ⟨free, wellFormed⟩
    exact wellFormed.separated
  gives := by
    rintro memory before block after ⟨free, wellFormed⟩ used
    obtain ⟨free', wellFormed', -⟩ := wellFormed.ffsFree used
    exact ⟨_, rfl, free', wellFormed'⟩

/-- `gma_free` gives blocks back. -/
theorem Grid.gives {pool : Grid.Pool} {static mpool : Nat}
    (descriptor : Grid.poolOf static mpool = pool.mpool) :
    Gives pool.low pool.high (2 * Grid.sizeT)
      (fun memory blocks => ∃ lists, pool.WellFormed memory blocks lists)
      (Grid.gmaFree static mpool) where
  tiles := by
    rintro memory blocks ⟨lists, wellFormed⟩
    exact wellFormed.body.tiles
  separated := by
    rintro memory blocks ⟨lists, wellFormed⟩
    exact wellFormed.separated
  gives := by
    rintro memory before block after ⟨lists, wellFormed⟩ used
    obtain ⟨memory', lists', freed, wellFormed'⟩ := wellFormed.gmaFree used descriptor
    exact ⟨memory', freed, lists', wellFormed'⟩

end Oseer

import Oseer.Library.Tiling

/-!
# Giving blocks back in any order

A layout without free neighbours is told by its area and its blocks in use.  So where each block
that is given back is joined with its free neighbours, the order in which blocks are given back
does not show in the layout.
-/

namespace Tiling

variable {low high offset : Nat} {block other : Block} {blocks others rest tail : List Block}

section Unique

/-- A free block reaches no further than another free block with the same start, if all blocks
in use behind that one are shared. -/
theorem Tiles.limit_le (tiles : Tiles low (block :: rest) high)
    (tiles' : Tiles low (other :: tail) high) (separated : Separated (block :: rest))
    (unused : block.used = false) (unused' : other.used = false)
    (shared : ∀ next ∈ rest, next.used = true → next ∈ other :: tail) :
    other.limit ≤ block.limit := by
  cases rest with
  | nil =>
      have whole : block.limit = high := tiles.2.2
      rw [whole]
      exact (tiles'.mem_bounds List.mem_cons_self).2.2
  | cons next rest =>
      have used : next.used = true :=
        ((separated_cons.mp separated).2 next rfl).resolve_left (by simp [unused])
      have start : next.addr = block.limit := tiles.2.2.1
      have different : next ≠ other := by
        rintro rfl
        rw [unused'] at used
        cases used
      have mem := shared next List.mem_cons_self used
      have behind : next ∈ tail := (List.mem_cons.mp mem).resolve_left different
      rw [← start]
      exact (tiles'.2.2.mem_bounds behind).1

theorem Tiles.not_mem_tail (tiles : Tiles low (block :: rest) high) : block ∉ rest := by
  intro mem
  have bounds := tiles.2.2.mem_bounds mem
  unfold Block.limit at bounds
  omega

/-- Two layouts of an area without free neighbours are the same if their blocks in use are. -/
theorem Tiles.eq_of_used (tiles : Tiles low blocks high) (tiles' : Tiles low others high)
    (separated : Separated blocks) (separated' : Separated others)
    (shared : ∀ block : Block, block.used = true → (block ∈ blocks ↔ block ∈ others)) :
    blocks = others := by
  induction blocks generalizing low others with
  | nil =>
      cases others with
      | nil => rfl
      | cons other tail =>
          have bounds := tiles'.mem_bounds List.mem_cons_self
          have empty : low = high := tiles
          unfold Block.limit at bounds
          omega
  | cons block rest ih =>
      cases others with
      | nil =>
          have bounds := tiles.mem_bounds List.mem_cons_self
          have empty : low = high := tiles'
          unfold Block.limit at bounds
          omega
      | cons other tail =>
          have start : other.addr = block.addr := tiles'.1.trans tiles.1.symm
          have heads : block = other := by
            cases used : block.used with
            | true =>
                have mem := (shared block used).mp List.mem_cons_self
                exact tiles'.eq_of_addr List.mem_cons_self mem start.symm
            | false =>
                cases used' : other.used with
                | true =>
                    have mem := (shared other used').mpr List.mem_cons_self
                    exact (tiles.eq_of_addr List.mem_cons_self mem start).symm
                | false =>
                    have before := tiles.limit_le tiles' separated used used'
                      fun next mem inUse => (shared next inUse).mp (List.mem_cons_of_mem _ mem)
                    have after := tiles'.limit_le tiles separated' used' used
                      fun next mem inUse => (shared next inUse).mpr (List.mem_cons_of_mem _ mem)
                    unfold Block.limit at before after
                    cases block
                    cases other
                    dsimp only at start before after used used'
                    rw [Block.mk.injEq]
                    exact ⟨start.symm, by omega, used.trans used'.symm⟩
          subst heads
          have notRest := tiles.not_mem_tail
          have notTail := tiles'.not_mem_tail
          have same : rest = tail := by
            apply ih tiles.2.2 tiles'.2.2 (separated_cons.mp separated).1
              (separated_cons.mp separated').1
            intro next used
            have either := shared next used
            simp only [List.mem_cons] at either
            by_cases isHead : next = block
            · rw [isHead]
              exact iff_of_false notRest notTail
            · tauto
          rw [same]

/-- An area with no block in use is one free block. -/
theorem Tiles.eq_whole (tiles : Tiles low blocks high) (separated : Separated blocks)
    (nonempty : low < high) (unused : ∀ block ∈ blocks, block.used = false) :
    blocks = [⟨low, high - low, false⟩] := by
  have whole : Tiles low [⟨low, high - low, false⟩] high :=
    ⟨rfl, Nat.sub_pos_of_lt nonempty, Nat.add_sub_cancel' nonempty.le⟩
  apply tiles.eq_of_used whole separated (by simp [Separated])
  intro block used
  constructor
  · intro mem
    rw [unused block mem] at used
    cases used
  · intro mem
    obtain rfl := List.mem_singleton.mp mem
    cases used

end Unique

section Orders

variable {σ : Type*}

/-- Gives back the blocks at the pointers, one after the other. -/
def giveAll (give : Nat → σ → Option σ) : List Nat → σ → Option σ
  | [], state => some state
  | pointer :: order, state => (give pointer state).bind (giveAll give order)

/-- A routine gives blocks of an area back: the state goes on with the layout in which the block
is released.  A block is known by the pointer at the given offset. -/
structure Gives (low high offset : Nat) (Layout : σ → List Block → Prop)
    (give : Nat → σ → Option σ) : Prop where
  tiles : ∀ {state blocks}, Layout state blocks → Tiles low blocks high
  separated : ∀ {state blocks}, Layout state blocks → Separated blocks
  gives : ∀ {state before block after}, Layout state (before ++ block :: after) →
    block.used = true → ∃ state', give (block.addr + offset) state = some state' ∧
      Layout state' (release before block after)

variable {Layout : σ → List Block → Prop} {give : Nat → σ → Option σ} {state : σ}
  {order first second : List Nat}

/-- Blocks that are all in use can be given back, and the others stay in use. -/
theorem Gives.giveAll (gives : Gives low high offset Layout give)
    (layout : Layout state blocks) (nodup : order.Nodup)
    (live : ∀ pointer ∈ order, ∃ block ∈ blocks, block.used = true ∧
      pointer = block.addr + offset) :
    ∃ state' blocks', giveAll give order state = some state' ∧ Layout state' blocks' ∧
      ∀ block : Block, block.used = true →
        (block ∈ blocks' ↔ block ∈ blocks ∧ block.addr + offset ∉ order) := by
  induction order generalizing state blocks with
  | nil => exact ⟨state, blocks, rfl, layout, fun block _ => by simp⟩
  | cons pointer order ih =>
      obtain ⟨notIn, nodupRest⟩ := List.nodup_cons.mp nodup
      obtain ⟨block, mem, used, rfl⟩ := live pointer List.mem_cons_self
      obtain ⟨before, after, rfl⟩ := List.append_of_mem mem
      have tiles := gives.tiles layout
      obtain ⟨between, given, layout'⟩ := gives.gives layout used
      have others : ∀ other : Block, other.used = true →
          (other ∈ release before block after ↔ other ∈ before ++ block :: after ∧
            other.addr + offset ≠ block.addr + offset) := by
        intro other usedOther
        rw [mem_release_used usedOther]
        constructor
        · intro isOther
          have apart := tiles.apart isOther
          have mem : other ∈ before ++ block :: after := by
            simp only [List.mem_append, List.mem_cons] at isOther ⊢
            tauto
          have bounds := tiles.mem_bounds mem
          unfold Block.limit at apart
          exact ⟨mem, by have := (tiles_split.mp tiles).2.1; omega⟩
        · rintro ⟨mem, apart⟩
          have different : other ≠ block := by
            rintro rfl
            exact apart rfl
          simp only [List.mem_append, List.mem_cons] at mem ⊢
          tauto
      have live' : ∀ pointer ∈ order, ∃ other ∈ release before block after,
          other.used = true ∧ pointer = other.addr + offset := by
        intro pointer inOrder
        obtain ⟨other, mem, usedOther, rfl⟩ := live pointer (List.mem_cons_of_mem _ inOrder)
        refine ⟨other, (others other usedOther).mpr ⟨mem, ?_⟩, usedOther, rfl⟩
        intro same
        rw [same] at inOrder
        exact notIn inOrder
      obtain ⟨state', blocks', all, layout'', left⟩ := ih layout' nodupRest live'
      refine ⟨state', blocks', ?_, layout'', fun other usedOther => ?_⟩
      · unfold Tiling.giveAll
        rw [given]
        exact all
      · rw [left other usedOther, others other usedOther, List.mem_cons]
        tauto

/-- Blocks may be given back in any order: the same layout is left, with exactly the other blocks
in use, and without any of them the area is one free block. -/
def OrderIndependent (low high offset : Nat) (Layout : σ → List Block → Prop)
    (give : Nat → σ → Option σ) : Prop :=
  ∀ (state : σ) (blocks : List Block) (first second : List Nat), Layout state blocks →
    first.Nodup → first.Perm second →
    (∀ pointer ∈ first, ∃ block ∈ blocks, block.used = true ∧ pointer = block.addr + offset) →
    ∃ state' state'' blocks', giveAll give first state = some state' ∧
      giveAll give second state = some state'' ∧ Layout state' blocks' ∧
      Layout state'' blocks' ∧
      (∀ block : Block, block.used = true →
        (block ∈ blocks' ↔ block ∈ blocks ∧ block.addr + offset ∉ first)) ∧
      (blocks ≠ [] → (∀ block ∈ blocks, block.used = true → block.addr + offset ∈ first) →
        blocks' = [⟨low, high - low, false⟩])

theorem Gives.orderIndependent (gives : Gives low high offset Layout give) :
    OrderIndependent low high offset Layout give := by
  intro state blocks first second layout nodup perm live
  obtain ⟨state', blocks', all, layout', left⟩ := gives.giveAll layout nodup live
  obtain ⟨state'', others, all', layout'', left'⟩ :=
    gives.giveAll layout (perm.nodup nodup) fun pointer mem => live pointer (perm.mem_iff.mpr mem)
  have same : blocks' = others := by
    apply (gives.tiles layout').eq_of_used (gives.tiles layout'') (gives.separated layout')
      (gives.separated layout'')
    intro block used
    rw [left block used, left' block used, perm.mem_iff]
  refine ⟨state', state'', blocks', all, all', layout', same ▸ layout'', left, ?_⟩
  intro nonempty given
  apply (gives.tiles layout').eq_whole (gives.separated layout')
  · obtain ⟨block, mem⟩ := List.exists_mem_of_ne_nil blocks nonempty
    have bounds := (gives.tiles layout).mem_bounds mem
    unfold Block.limit at bounds
    omega
  · intro block mem
    by_contra used
    have used : block.used = true := by simpa using used
    obtain ⟨old, kept⟩ := (left block used).mp mem
    exact kept (given block old used)

end Orders

end Tiling

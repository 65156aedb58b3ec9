import Mathlib.Data.List.Chain
import Mathlib.Data.List.Nodup

/-!
# Areas tiled by blocks

A heap cuts a contiguous area into blocks, each in use or free.  This file
has the arithmetic of such a layout: where the blocks before and after a
given one lie, and how a block is split in two or joined with its neighbour.
-/

namespace Tiling

/-- A block of the area and its status. -/
structure Block where
  addr : Nat
  size : Nat
  used : Bool
deriving DecidableEq, Repr

/-- The first address after the block. -/
def Block.limit (block : Block) : Nat := block.addr + block.size

/-- The blocks lie one after the other from `low` to `high` without gaps. -/
def Tiles : Nat → List Block → Nat → Prop
  | low, [], high => low = high
  | low, block :: rest, high =>
      block.addr = low ∧ 0 < block.size ∧ Tiles block.limit rest high

variable {low high : Nat} {block other first second : Block}
  {blocks before after : List Block}

@[simp]
theorem tiles_nil : Tiles low [] high ↔ low = high := Iff.rfl

@[simp]
theorem tiles_cons : Tiles low (block :: after) high ↔
    block.addr = low ∧ 0 < block.size ∧ Tiles block.limit after high := Iff.rfl

theorem tiles_append :
    Tiles low (before ++ after) high ↔
      ∃ middle, Tiles low before middle ∧ Tiles middle after high := by
  induction before generalizing low with
  | nil => simp
  | cons block before ih => simp [ih, and_assoc]

theorem tiles_split :
    Tiles low (before ++ block :: after) high ↔
      Tiles low before block.addr ∧ 0 < block.size ∧
        Tiles block.limit after high := by
  rw [tiles_append]
  constructor
  · rintro ⟨middle, tilesBefore, rfl, positive, tilesAfter⟩
    exact ⟨tilesBefore, positive, tilesAfter⟩
  · rintro ⟨tilesBefore, positive, tilesAfter⟩
    exact ⟨_, tilesBefore, rfl, positive, tilesAfter⟩

theorem Tiles.le (tiles : Tiles low blocks high) : low ≤ high := by
  induction blocks generalizing low with
  | nil => exact tiles.le
  | cons block rest ih =>
      obtain ⟨rfl, _, tilesRest⟩ := tiles
      exact (Nat.le_add_right _ _).trans (ih tilesRest)

theorem Tiles.mem_bounds (tiles : Tiles low blocks high)
    (member : block ∈ blocks) :
    low ≤ block.addr ∧ 0 < block.size ∧ block.limit ≤ high := by
  obtain ⟨before, after, rfl⟩ := List.append_of_mem member
  obtain ⟨tilesBefore, positive, tilesAfter⟩ := tiles_split.mp tiles
  exact ⟨tilesBefore.le, positive, tilesAfter.le⟩

/-- Blocks before a given one end where it starts, and blocks after it start
where it ends. -/
theorem Tiles.apart (tiles : Tiles low (before ++ block :: after) high)
    (member : other ∈ before ++ after) :
    other.limit ≤ block.addr ∨ block.limit ≤ other.addr := by
  obtain ⟨tilesBefore, _, tilesAfter⟩ := tiles_split.mp tiles
  rcases List.mem_append.mp member with inBefore | inAfter
  · exact .inl (tilesBefore.mem_bounds inBefore).2.2
  · exact .inr (tilesAfter.mem_bounds inAfter).1

theorem Tiles.eq_or_apart (tiles : Tiles low blocks high)
    (mem : block ∈ blocks) (memOther : other ∈ blocks) :
    other = block ∨ other.limit ≤ block.addr ∨ block.limit ≤ other.addr := by
  obtain ⟨before, after, rfl⟩ := List.append_of_mem mem
  rcases List.mem_append.mp memOther with inBefore | rest
  · exact .inr (tiles.apart (List.mem_append_left _ inBefore))
  · rcases List.mem_cons.mp rest with same | inAfter
    · exact .inl same
    · exact .inr (tiles.apart (List.mem_append_right _ inAfter))

theorem Tiles.eq_of_addr (tiles : Tiles low blocks high)
    (mem : block ∈ blocks) (memOther : other ∈ blocks)
    (sameAddr : other.addr = block.addr) : other = block := by
  have bounds := tiles.mem_bounds mem
  have boundsOther := tiles.mem_bounds memOther
  rcases tiles.eq_or_apart mem memOther with same | left | right
  · exact same
  · simp only [Block.limit] at left; omega
  · simp only [Block.limit] at right; omega

theorem Tiles.eq_of_limit (tiles : Tiles low blocks high)
    (mem : block ∈ blocks) (memOther : other ∈ blocks)
    (sameLimit : other.limit = block.limit) : other = block := by
  have bounds := tiles.mem_bounds mem
  have boundsOther := tiles.mem_bounds memOther
  rcases tiles.eq_or_apart mem memOther with same | left | right
  · exact same
  · simp only [Block.limit] at left sameLimit; omega
  · simp only [Block.limit] at right sameLimit; omega

theorem Tiles.cut (tiles : Tiles low (before ++ block :: after) high)
    (start : first.addr = block.addr) (meet : second.addr = first.limit)
    (finish : second.limit = block.limit) (firstPos : 0 < first.size)
    (secondPos : 0 < second.size) :
    Tiles low (before ++ first :: second :: after) high := by
  obtain ⟨tilesBefore, _, tilesAfter⟩ := tiles_split.mp tiles
  refine tiles_split.mpr ⟨start ▸ tilesBefore, firstPos, meet, secondPos, ?_⟩
  exact finish ▸ tilesAfter

theorem Tiles.join (tiles : Tiles low (before ++ first :: second :: after) high)
    (start : block.addr = first.addr)
    (size : block.size = first.size + second.size) :
    Tiles low (before ++ block :: after) high := by
  obtain ⟨tilesBefore, firstPos, meet, secondPos, tilesAfter⟩ := tiles_split.mp tiles
  refine tiles_split.mpr ⟨start ▸ tilesBefore, by omega, ?_⟩
  have finish : block.limit = second.limit := by
    simp only [Block.limit] at meet ⊢
    omega
  exact finish ▸ tilesAfter

theorem Tiles.restatus (tiles : Tiles low (before ++ block :: after) high)
    (start : other.addr = block.addr) (size : other.size = block.size) :
    Tiles low (before ++ other :: after) high := by
  obtain ⟨tilesBefore, positive, tilesAfter⟩ := tiles_split.mp tiles
  refine tiles_split.mpr ⟨start ▸ tilesBefore, size ▸ positive, ?_⟩
  have finish : other.limit = block.limit := by simp only [Block.limit, start, size]
  exact finish ▸ tilesAfter

/-- No two neighbouring blocks are both free. -/
def Separated (blocks : List Block) : Prop :=
  blocks.IsChain fun a b => a.used = true ∨ b.used = true

theorem separated_split :
    Separated (before ++ block :: after) ↔
      Separated before ∧ Separated after ∧
        (∀ left ∈ before.getLast?, left.used = true ∨ block.used = true) ∧
        (∀ right ∈ after.head?, block.used = true ∨ right.used = true) := by
  simp only [Separated, List.isChain_append, List.isChain_cons, List.head?_cons,
    Option.mem_some_iff, forall_eq']
  tauto

theorem separated_cons :
    Separated (block :: after) ↔ Separated after ∧
      ∀ right ∈ after.head?, block.used = true ∨ right.used = true := by
  simp only [Separated, List.isChain_cons]
  tauto

/-- Join a free block with the last of the blocks before it, if that is free. -/
def joinBefore (before : List Block) (block : Block) : List Block × Block :=
  match before.getLast? with
  | some left =>
      if left.used then (before, block)
      else (before.dropLast, ⟨left.addr, left.size + block.size, false⟩)
  | none => (before, block)

/-- Join a free block with the first of the blocks after it, if that is free. -/
def joinAfter (block : Block) (after : List Block) : Block × List Block :=
  match after with
  | [] => (block, [])
  | right :: rest =>
      if right.used then (block, after)
      else (⟨block.addr, block.size + right.size, false⟩, rest)

/-- The layout after a block was given back and joined with its free
neighbours. -/
def release (before : List Block) (block : Block) (after : List Block) : List Block :=
  let joined := joinBefore before ⟨block.addr, block.size, false⟩
  let result := joinAfter joined.2 after
  joined.1 ++ result.1 :: result.2

@[simp]
theorem joinBefore_nil : joinBefore [] block = ([], block) := rfl

theorem joinBefore_used (used : other.used = true) :
    joinBefore (before ++ [other]) block = (before ++ [other], block) := by
  simp [joinBefore, used]

theorem joinBefore_free (unused : other.used = false) :
    joinBefore (before ++ [other]) block =
      (before, ⟨other.addr, other.size + block.size, false⟩) := by
  simp [joinBefore, unused]

@[simp]
theorem joinAfter_nil : joinAfter block [] = (block, []) := rfl

theorem joinAfter_used (used : other.used = true) :
    joinAfter block (other :: after) = (block, other :: after) := by
  simp [joinAfter, used]

theorem joinAfter_free (unused : other.used = false) :
    joinAfter block (other :: after) =
      (⟨block.addr, block.size + other.size, false⟩, after) := by
  simp [joinAfter, unused]

theorem mem_joinBefore_used (unused : block.used = false) (used : other.used = true) :
    (other ∈ (joinBefore before block).1 ↔ other ∈ before) ∧
      (joinBefore before block).2.used = false := by
  cases before using List.reverseRecOn with
  | nil => simp [unused]
  | append_singleton before last _ =>
      cases status : last.used with
      | true => simp [joinBefore_used status, unused]
      | false =>
          have : other ≠ last := by rintro rfl; simp [used] at status
          simp [joinBefore_free status, this]

theorem mem_joinAfter_used (unused : block.used = false) (used : other.used = true) :
    (other ∈ (joinAfter block after).2 ↔ other ∈ after) ∧
      (joinAfter block after).1.used = false := by
  cases after with
  | nil => simp [unused]
  | cons first rest =>
      cases status : first.used with
      | true => simp [joinAfter_used status, unused]
      | false =>
          have : other ≠ first := by rintro rfl; simp [used] at status
          simp [joinAfter_free status, this]

/-- Giving a block back leaves exactly the other blocks in use. -/
theorem mem_release_used (used : other.used = true) :
    other ∈ release before block after ↔ other ∈ before ++ after := by
  have left : (other ∈ (joinBefore before ⟨block.addr, block.size, false⟩).1 ↔
        other ∈ before) ∧
      (joinBefore before ⟨block.addr, block.size, false⟩).2.used = false :=
    mem_joinBefore_used rfl used
  have right : (other ∈ (joinAfter (joinBefore before
          ⟨block.addr, block.size, false⟩).2 after).2 ↔ other ∈ after) ∧
      (joinAfter (joinBefore before ⟨block.addr, block.size, false⟩).2 after).1.used =
        false :=
    mem_joinAfter_used left.2 used
  have notJoined : other ≠
      (joinAfter (joinBefore before ⟨block.addr, block.size, false⟩).2 after).1 := by
    intro same
    rw [← same, used] at right
    simp at right
  simp [release, left.1, right.1, notJoined]

/-- After joining to the left, the block before is in use. -/
theorem separated_joinBefore (separated : Separated before) :
    Separated (joinBefore before block).1 ∧
      ∀ left ∈ (joinBefore before block).1.getLast?, left.used = true := by
  cases before using List.reverseRecOn with
  | nil => simp [separated]
  | append_singleton before last _ =>
      cases status : last.used with
      | true => simp [joinBefore_used status, separated, status]
      | false =>
          have split := separated_split.mp separated
          simp only [joinBefore_free status]
          exact ⟨split.1, fun left mem =>
            (split.2.2.1 left mem).resolve_right (by simp [status])⟩

/-- After joining to the right, the block after is in use. -/
theorem separated_joinAfter (separated : Separated after) :
    Separated (joinAfter block after).2 ∧
      ∀ right ∈ (joinAfter block after).2.head?, right.used = true := by
  cases after with
  | nil => simp [separated]
  | cons first rest =>
      cases status : first.used with
      | true => simp [joinAfter_used status, separated, status]
      | false =>
          have split := separated_cons.mp separated
          simp only [joinAfter_free status]
          exact ⟨split.1, fun right mem =>
            (split.2 right mem).resolve_left (by simp [status])⟩

theorem separated_release (separatedBefore : Separated before)
    (separatedAfter : Separated after) :
    Separated (release before block after) := by
  rw [release]
  obtain ⟨chainBefore, lastUsed⟩ := separated_joinBefore separatedBefore
  obtain ⟨chainAfter, firstUsed⟩ := separated_joinAfter separatedAfter
  exact separated_split.mpr ⟨chainBefore, chainAfter,
    fun left mem => .inl (lastUsed left mem), fun right mem => .inr (firstUsed right mem)⟩

/-- The layout after a free block was given out: its end is split off and stays free if it
has at least the least size. -/
def allot (least : Nat) (before : List Block) (block : Block) (size : Nat)
    (after : List Block) : List Block :=
  if size + least ≤ block.size then
    before ++ ⟨block.addr, size, true⟩ :: ⟨block.addr + size, block.size - size, false⟩ :: after
  else before ++ ⟨block.addr, block.size, true⟩ :: after

/-- Giving a block out adds one to the blocks in use. -/
theorem mem_allot_used {least size : Nat} (used : other.used = true) :
    other ∈ allot least before block size after ↔
      other = ⟨block.addr, if size + least ≤ block.size then size else block.size, true⟩ ∨
        other ∈ before ++ after := by
  unfold allot
  split
  · have notRest : other ≠ ⟨block.addr + size, block.size - size, false⟩ := by
      rintro rfl
      simp at used
    simp only [List.mem_append, List.mem_cons]
    tauto
  · simp only [List.mem_append, List.mem_cons]
    tauto

theorem separated_allot {least size : Nat} (separated : Separated (before ++ block :: after))
    (unused : block.used = false) : Separated (allot least before block size after) := by
  obtain ⟨separatedBefore, separatedAfter, -, rightUsed⟩ := separated_split.mp separated
  rw [unused] at rightUsed
  have separatedRest : Separated (⟨block.addr + size, block.size - size, false⟩ :: after) :=
    separated_cons.mpr ⟨separatedAfter, rightUsed⟩
  unfold allot
  split
  · apply separated_split.mpr
    exact ⟨separatedBefore, separatedRest, fun _ _ => .inr rfl, fun _ _ => .inl rfl⟩
  · apply separated_split.mpr
    exact ⟨separatedBefore, separatedAfter, fun _ _ => .inr rfl, fun _ _ => .inl rfl⟩

end Tiling

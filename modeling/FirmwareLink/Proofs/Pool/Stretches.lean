import Mathlib.Data.List.Sort
import FirmwareLink.Proofs.Pool.Representation

namespace FirmwareLink.Pool

structure Extent where
  address : Nat
  size : Nat
deriving DecidableEq, Repr

structure Uncovered (arena : Arena) (taken : List Extent) (low high : Nat) : Prop where
  start : arena.start ≤ low
  more : low < high
  stop : high ≤ arena.sentinel
  clear : ∀ block ∈ taken, block.address + block.size ≤ low ∨ high ≤ block.address

structure Stretch (arena : Arena) (taken : List Extent) (low high : Nat) : Prop extends
    Uncovered arena taken low high where
  maximal : ∀ lower higher, Uncovered arena taken lower higher → lower ≤ low → high ≤ higher →
    lower = low ∧ higher = high

def taken (cells : List Cell) : List Extent :=
  (cells.filter fun cell => cell.state = .allocated).map fun cell => ⟨cell.address, cell.size⟩

structure Fills (cells blocks : List Cell) (arena : Arena) : Prop where
  split : ∃ before sentinel after, cells = before ++ (blocks ++ sentinel :: after) ∧
    sentinel.state = .sentinel ∧ sentinel.address = arena.sentinel
  plain : ∀ block ∈ blocks, block.state ≠ .sentinel
  contiguous : Contiguous arena.start blocks arena.sentinel

variable {cells blocks : List Cell} {cell : Cell} {arena : Arena} {low high : Nat}

theorem mem_taken {block : Extent} :
    block ∈ taken cells ↔ ⟨block.address, block.size, .allocated⟩ ∈ cells := by
  simp only [taken, List.mem_map, List.mem_filter, decide_eq_true_eq]
  constructor
  · rintro ⟨cell, ⟨member, allocated⟩, rfl⟩
    rwa [← allocated]
  · intro member
    exact ⟨_, ⟨member, rfl⟩, rfl⟩

theorem Cell.mem_taken (member : cell ∈ cells) (allocated : cell.state = .allocated) :
    ⟨cell.address, cell.size⟩ ∈ taken cells := by
  apply Pool.mem_taken.mpr
  rwa [← allocated]

theorem Stretch.congr {one other : List Extent} (stretch : Stretch arena one low high)
    (same : ∀ block, block ∈ one ↔ block ∈ other) : Stretch arena other low high where
  toUncovered := { stretch.toUncovered with
    clear := fun block member => stretch.clear block ((same block).mpr member) }
  maximal := fun lower higher uncovered => stretch.maximal lower higher { uncovered with
    clear := fun block member => uncovered.clear block ((same block).mp member) }

namespace Contiguous

variable {start stop : Nat}

theorem find (contiguous : Contiguous start blocks stop) {address : Nat} (reached : start ≤ address)
    (inside : address < stop) : ∃ before cell after, blocks = before ++ cell :: after ∧
      cell.address ≤ address ∧ address < cell.stop := by
  induction blocks generalizing start with
  | nil =>
    obtain rfl : start = stop := contiguous
    omega
  | cons block rest ih =>
    obtain ⟨rfl, later⟩ := contiguous
    by_cases here : address < block.stop
    · exact ⟨[], block, rest, rfl, reached, here⟩
    · obtain ⟨before, cell, after, rfl, found⟩ := ih later (Nat.le_of_not_lt here)
      exact ⟨block :: before, cell, after, rfl, found⟩

theorem split {before after : List Cell}
    (contiguous : Contiguous start (before ++ cell :: after) stop) :
    Contiguous start before cell.address ∧ Contiguous cell.stop after stop := by
  induction before generalizing start with
  | nil =>
    obtain ⟨begins, later⟩ := contiguous
    exact ⟨begins.symm, later⟩
  | cons block rest ih =>
    obtain ⟨begins, later⟩ := contiguous
    exact ⟨⟨begins, (ih later).1⟩, (ih later).2⟩

end Contiguous

namespace Fills

theorem subset (fills : Fills cells blocks arena) (member : cell ∈ blocks) : cell ∈ cells := by
  obtain ⟨before, sentinel, after, rfl, _, _⟩ := fills.split
  exact List.mem_append_right _ (List.mem_append_left _ member)

theorem free_ends (fills : Fills cells blocks arena) (tiled : Tiled cells)
    (member : cell ∈ blocks) (free : cell.state = .free) :
    (cell.address = arena.start ∨
      ∃ low ∈ cells, low.state = .allocated ∧ low.address + low.size = cell.address) ∧
    (cell.stop = arena.sentinel ∨
      ∃ high ∈ cells, high.state = .allocated ∧ high.address = cell.stop) := by
  obtain ⟨below, above, rfl⟩ := List.append_of_mem member
  obtain ⟨begins, ends⟩ := fills.contiguous.split
  have block : cell.state ≠ .sentinel := by simp [free]
  obtain ⟨before, sentinel, after, rfl, _, _⟩ := fills.split
  constructor
  · rcases List.eq_nil_or_concat below with rfl | ⟨early, low, rfl⟩
    · exact Or.inl begins.symm
    · have lowMember : low ∈ (early.concat low ++ cell :: above) := by simp
      have lowBlock := fills.plain low lowMember
      have whole : before ++ (early.concat low ++ cell :: above ++ sentinel :: after) =
          (before ++ early) ++ low :: cell :: (above ++ sentinel :: after) := by simp
      rw [whole] at tiled
      have notFree : low.state ≠ .free := fun lowFree => tiled.right.not_both_free lowFree free
      have touch := tiled.right.next_touches lowBlock
      rw [Cell.stop_of_block lowBlock] at touch
      exact Or.inr ⟨low, fills.subset lowMember, Cell.allocated_of_block lowBlock notFree, touch.symm⟩
  · cases above with
    | nil => exact Or.inl ends
    | cons high late =>
      have highMember : high ∈ (below ++ cell :: high :: late) := by simp
      have whole : before ++ (below ++ cell :: high :: late ++ sentinel :: after) =
          (before ++ below) ++ cell :: high :: (late ++ sentinel :: after) := by simp
      rw [whole] at tiled
      have notFree := tiled.right.not_both_free free
      have allocated := Cell.allocated_of_block (fills.plain high highMember) notFree
      exact Or.inr ⟨high, fills.subset highMember, allocated, tiled.right.next_touches block⟩

theorem le_of_mem (fills : Fills cells blocks arena) (tiled : Tiled cells) (member : cell ∈ blocks) :
    arena.start ≤ cell.address ∧ cell.stop ≤ arena.sentinel := by
  have contiguous := fills.contiguous
  have valid : ∀ block ∈ blocks, block.Valid := fun block inside =>
    tiled.valid block (fills.subset inside)
  obtain ⟨below, above, rfl⟩ := List.append_of_mem member
  obtain ⟨begins, ends⟩ := contiguous.split
  exact ⟨begins.le fun block inside => valid block (by simp [inside]),
    ends.le fun block inside => valid block (by simp [inside])⟩

theorem uncovered (fills : Fills cells blocks arena) (tiled : Tiled cells) (member : cell ∈ blocks)
    (free : cell.state = .free) : Uncovered arena (taken cells) cell.address cell.stop := by
  have inCells := fills.subset member
  have bounds := fills.le_of_mem tiled member
  have room := (tiled.valid cell inCells).header_le_stop
  simp only [headerSize] at room
  refine ⟨bounds.1, by omega, bounds.2, ?_⟩
  intro block among
  have live := mem_taken.mp among
  have differ : (⟨block.address, block.size, .allocated⟩ : Cell) ≠ cell := by
    rintro rfl
    cases free
  have apart := tiled.ordered.apart live inCells differ
  exact apart

theorem stretch (fills : Fills cells blocks arena) (tiled : Tiled cells) (member : cell ∈ blocks)
    (free : cell.state = .free) : Stretch arena (taken cells) cell.address cell.stop where
  toUncovered := fills.uncovered tiled member free
  maximal := by
    intro lower higher uncovered wider longer
    have here := fills.uncovered tiled member free
    have more := here.more
    obtain ⟨begins, ends⟩ := fills.free_ends tiled member free
    constructor
    · rcases begins with first | ⟨low, inCells, allocated, touch⟩
      · have start := uncovered.start
        omega
      · have clear := uncovered.clear _ (Cell.mem_taken inCells allocated)
        have room := (tiled.valid low inCells).block (by simp [allocated])
        simp only [headerSize] at clear room
        omega
    · rcases ends with last | ⟨high, inCells, allocated, touch⟩
      · have stop := uncovered.stop
        omega
      · have clear := uncovered.clear _ (Cell.mem_taken inCells allocated)
        have room := (tiled.valid high inCells).block (by simp [allocated])
        simp only [headerSize] at clear room
        omega

theorem free_of_stretch (fills : Fills cells blocks arena) (tiled : Tiled cells)
    (stretch : Stretch arena (taken cells) low high) :
    ∃ cell ∈ blocks, cell.state = .free ∧ cell.address = low ∧ cell.stop = high := by
  have more := stretch.more
  have stop := stretch.stop
  obtain ⟨below, cell, above, rfl, reached, inside⟩ :=
    fills.contiguous.find stretch.start (by omega : low < arena.sentinel)
  have member : cell ∈ below ++ cell :: above := by simp
  have inCells := fills.subset member
  have block := fills.plain cell member
  have cellStop := Cell.stop_of_block block
  have free : cell.state = .free := by
    apply Cell.free_of_block block
    intro allocated
    have clear := stretch.clear _ (Cell.mem_taken inCells allocated)
    simp only at clear
    omega
  have longer : high ≤ cell.stop := by
    rcases (fills.free_ends tiled member free).2 with last | ⟨next, nextIn, allocated, touch⟩
    · omega
    · have clear := stretch.clear _ (Cell.mem_taken nextIn allocated)
      simp only at clear
      omega
  have same := stretch.maximal _ _ (fills.uncovered tiled member free) reached longer
  exact ⟨cell, member, free, same⟩

end Fills

namespace Tiled

theorem fills_of_arena (tiled : Tiled cells) (member : arena ∈ spans none cells) :
    ∃ blocks, Fills cells blocks arena := by
  obtain ⟨before, blocks, sentinel, after, split, plain, ending, address, contiguous⟩ :=
    tiled.arena_tiled member
  exact ⟨blocks, ⟨before, sentinel, after, split, ending, address⟩, plain, contiguous⟩

theorem fills_of_block (tiled : Tiled cells) (member : cell ∈ cells)
    (block : cell.state ≠ .sentinel) :
    ∃ arena ∈ spans none cells, ∃ blocks, Fills cells blocks arena ∧ cell ∈ blocks := by
  obtain ⟨arena, inSpans, start, _, stop⟩ := tiled.mem_arena member
  obtain ⟨blocks, fills⟩ := tiled.fills_of_arena inSpans
  have room := (tiled.valid cell member).header_le_stop
  have within := stop block
  simp only [headerSize] at room
  -- The block of the arena that holds the first byte of the cell is the cell.
  obtain ⟨below, other, above, rfl, low, high⟩ :=
    fills.contiguous.find start (by omega : cell.address < arena.sentinel)
  have inside : other ∈ below ++ other :: above := by simp
  refine ⟨arena, inSpans, _, fills, ?_⟩
  by_cases same : cell = other
  · rwa [same]
  · rcases tiled.ordered.apart member (fills.subset inside) same with before | after
    · omega
    · omega

theorem free_iff (tiled : Tiled cells) {size : Nat} : ⟨low, size, .free⟩ ∈ cells ↔
    ∃ arena ∈ spans none cells, Stretch arena (taken cells) low (low + size) := by
  constructor
  · intro member
    obtain ⟨arena, inSpans, blocks, fills, inside⟩ := tiled.fills_of_block member (by simp)
    exact ⟨arena, inSpans, fills.stretch tiled inside rfl⟩
  · rintro ⟨arena, inSpans, stretch⟩
    obtain ⟨blocks, fills⟩ := tiled.fills_of_arena inSpans
    obtain ⟨cell, member, free, rfl, stop⟩ := fills.free_of_stretch tiled stretch
    rw [Cell.stop_of_block (by simp [free])] at stop
    obtain rfl := Nat.add_left_cancel stop
    rw [← free]
    exact fills.subset member

theorem sentinel_iff (tiled : Tiled cells) {size : Nat} : ⟨low, size, .sentinel⟩ ∈ cells ↔
    size = 0 ∧ ∃ arena ∈ spans none cells, arena.sentinel = low := by
  have listed : (∃ arena ∈ spans none cells, arena.sentinel = low) ↔
      ∃ cell ∈ cells, cell.state = .sentinel ∧ cell.address = low := by
    have same : low ∈ (spans none cells).map Arena.sentinel ↔
        low ∈ (cells.filter fun cell => cell.state = .sentinel).map Cell.address := by
      rw [spans_sentinels]
    simpa [and_assoc] using same
  rw [listed]
  constructor
  · intro member
    exact ⟨(tiled.valid _ member).sentinel rfl, _, member, rfl, rfl⟩
  · rintro ⟨rfl, ⟨address, size, state⟩, member, rfl, rfl⟩
    obtain rfl : size = 0 := (tiled.valid _ member).sentinel rfl
    exact member

/-- Cells that tile the same arenas around the same live blocks are the same. -/
theorem eq_of_taken {other : List Cell} (tiled : Tiled cells) (otherTiled : Tiled other)
    (arenas : ∀ arena, arena ∈ spans none cells ↔ arena ∈ spans none other)
    (blocks : ∀ block, block ∈ taken cells ↔ block ∈ taken other) : cells = other := by
  have members : ∀ cell, cell ∈ cells ↔ cell ∈ other := by
    rintro ⟨address, size, state⟩
    cases state with
    | allocated => exact mem_taken.symm.trans ((blocks ⟨address, size⟩).trans mem_taken)
    | sentinel =>
      rw [tiled.sentinel_iff, otherTiled.sentinel_iff]
      simp only [arenas]
    | free =>
      rw [tiled.free_iff, otherTiled.free_iff]
      constructor
      · rintro ⟨arena, inSpans, stretch⟩
        exact ⟨arena, (arenas arena).mp inSpans, stretch.congr blocks⟩
      · rintro ⟨arena, inSpans, stretch⟩
        exact ⟨arena, (arenas arena).mpr inSpans, stretch.congr fun block => (blocks block).symm⟩
  have antisymmetric : Std.Antisymm fun cell later : Cell => cell.address < later.address :=
    ⟨fun _ _ below above => by omega⟩
  have irreflexive : Std.Irrefl fun cell later : Cell => cell.address < later.address :=
    ⟨fun _ => Nat.lt_irrefl _⟩
  exact tiled.ordered.increasing.eq_of_mem_iff otherTiled.ordered.increasing members

end Tiled

end FirmwareLink.Pool

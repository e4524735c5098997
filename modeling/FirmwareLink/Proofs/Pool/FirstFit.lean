import FirmwareLink.Proofs.Pool.Representation
import FirmwareLink.Proofs.Pool.Undoing

namespace FirmwareLink.Pool

variable {layout : Layout} {before after cells : List Cell} {cell : Cell} {bytes : Nat}

theorem alignUp_le_iff {address bound : Nat} (aligned : alignment ∣ bound) :
    alignUp address ≤ bound ↔ address ≤ bound := by
  simp only [alignUp, alignment] at aligned ⊢
  omega

theorem alignUp_header (bytes : Nat) : alignUp (bytes + headerSize) = alignUp bytes + headerSize := by
  simp only [alignUp, headerSize, alignment]
  omega

theorem le_alignUp (bytes : Nat) : bytes ≤ alignUp bytes := by
  simp only [alignUp, alignment]
  omega

/-! ### The first cell that serves -/

def Cell.Serves (bytes : Nat) (cell : Cell) : Prop :=
  cell.state = .free ∧ bytes + headerSize ≤ cell.size

namespace Cell

theorem Valid.fits_iff (valid : cell.Valid) :
    cell.fits (alignUp (bytes + headerSize)) = true ↔ cell.Serves bytes := by
  simp only [fits, Bool.and_eq_true, decide_eq_true_eq, Serves, alignUp_le_iff valid.sizeAligned]

/-- No cell is so large that a request for it would overflow. -/
theorem Serves.no_overflow (serves : cell.Serves bytes) (valid : cell.Valid) :
    bytes + (headerSize + (alignment - 1)) < UInt64.size := by
  obtain ⟨free, enough⟩ := serves
  have positive := valid.positive
  have aligned := valid.aligned
  have bounded := valid.bounded
  rw [stop_of_block (by simp [free])] at bounded
  simp only [headerSize, alignment] at enough aligned ⊢
  omega

theorem Serves.size_le_freeBytes (serves : cell.Serves bytes) (member : cell ∈ cells) :
    cell.size ≤ freeBytes cells := by
  obtain ⟨before, after, rfl⟩ := List.append_of_mem member
  rw [freeBytes_append, freeBytes_cons, if_pos serves.1]
  omega

end Cell

namespace Layout

/-- What a request finds: no cell that serves it, or the first one of those that do. -/
inductive Sought (layout : Layout) (bytes : Nat) : Outcome (Option Nat) → Prop where
  | refused (notes : List Note)
      (unmet : bytes = 0 ∨ ∀ cell ∈ layout.cells, ¬cell.Serves bytes) :
      Sought layout bytes ⟨none, layout, notes⟩
  | served (before : List Cell) (cell : Cell) (after : List Cell) (some_bytes : bytes ≠ 0)
      (split : layout.cells = before ++ cell :: after) (serves : cell.Serves bytes)
      (first : ∀ low ∈ before, ¬low.Serves bytes) :
      Sought layout bytes ⟨some cell.payload, { layout with
        cells := before ++ (cell.carve (alignUp (bytes + headerSize)) ++ after)
        allocations := layout.allocations + 1 }, []⟩

theorem WellFormed.sought (wellFormed : layout.WellFormed) (bytes : Nat) :
    layout.Sought bytes (layout.allocate bytes) := by
  have fits_iff : ∀ cell ∈ layout.cells,
      (cell.fits (alignUp (bytes + headerSize)) = true ↔ cell.Serves bytes) :=
    fun cell member => (wellFormed.tiled.valid cell member).fits_iff
  dsimp only [Layout.allocate]
  split
  · rename_i asked
    apply Sought.refused
    rcases asked with none | empty | large
    · exact Or.inl none
    · right
      simp [empty]
    · right
      intro cell member serves
      have small := serves.no_overflow (wellFormed.tiled.valid cell member)
      omega
  · rename_i asked
    have some_bytes : bytes ≠ 0 := fun zero => asked (Or.inl zero)
    split
    · rename_i short
      apply Sought.refused
      right
      intro cell member serves
      have fits := (fits_iff cell member).mpr serves
      have within := serves.size_le_freeBytes member
      simp only [Cell.fits, Bool.and_eq_true, decide_eq_true_eq] at fits
      omega
    · split
      · rename_i none
        apply Sought.refused
        right
        intro cell member serves
        have misses := List.dropWhile_eq_nil_iff.mp none cell member
        rw [(fits_iff cell member).mpr serves] at misses
        cases misses
      · rename_i cell rest found
        obtain ⟨split, fits⟩ := firstFit_split found
        have member : cell ∈ layout.cells := by
          rw [split]
          exact List.mem_append_right _ List.mem_cons_self
        apply Sought.served _ cell rest some_bytes split ((fits_iff cell member).mp fits)
        intro low inBefore serves
        have lowMember : low ∈ layout.cells := by
          rw [split]
          exact List.mem_append_left _ inBefore
        have misses := List.mem_takeWhile_imp inBefore
        rw [(fits_iff low lowMember).mpr serves] at misses
        cases misses

end Layout

/-! ### The free blocks of a pool -/

def freeBlocks (pool : Pool) : List Nat :=
  (pool.arenas.flatMap pool.blocks).filter pool.isFree

def payloadAt (pool : Pool) (address : Nat) : Nat := pool.sizeAt address - headerSize

def vacancies (cells : List Cell) : List Nat :=
  (cells.filter fun cell => cell.state = .free).map Cell.address

@[simp]
theorem vacancies_append (cells more : List Cell) :
    vacancies (cells ++ more) = vacancies cells ++ vacancies more := by
  simp [vacancies]

theorem vacancies_cons (cell : Cell) (rest : List Cell) : vacancies (cell :: rest) =
    if cell.state = .free then cell.address :: vacancies rest else vacancies rest := by
  by_cases free : cell.state = .free <;> simp [vacancies, free]

theorem mem_vacancies {address : Nat} :
    address ∈ vacancies cells ↔ ∃ cell ∈ cells, cell.state = .free ∧ cell.address = address := by
  simp [vacancies, and_assoc]

theorem Ordered.vacancies_nodup (ordered : Ordered cells) : (vacancies cells).Nodup := by
  have sorted := ordered.increasing.filter fun cell => cell.state = .free
  exact List.pairwise_map.mpr (sorted.imp Nat.ne_of_lt)

theorem vacancies_carve (cell : Cell) (size : Nat) : vacancies (cell.carve size) =
    if 2 * headerSize < cell.size - size then [cell.address + size] else [] := by
  unfold Cell.carve
  split <;> rfl

theorem erase_vacancies (ordered : Ordered (before ++ cell :: after)) (free : cell.state = .free) :
    (vacancies (before ++ cell :: after)).erase cell.address =
      vacancies before ++ vacancies after := by
  have below : cell.address ∉ vacancies before := by
    intro member
    obtain ⟨low, inBefore, _, same⟩ := mem_vacancies.mp member
    have order := ordered.header_le inBefore List.mem_cons_self
    simp only [headerSize] at order
    omega
  rw [vacancies_append, vacancies_cons, if_pos free, List.erase_append_right _ below,
    List.erase_cons_head]

namespace Regular

variable {usage : Usage} (regular : Regular usage layout)

include regular

theorem freeBlocks_perm : usage.pool.freeBlocks.Perm (vacancies layout.cells) :=
  regular.free_blocks_perm

theorem mem_freeBlocks {address : Nat} : address ∈ usage.pool.freeBlocks ↔
    ∃ cell ∈ layout.cells, cell.state = .free ∧ cell.address = address := by
  rw [regular.freeBlocks_perm.mem_iff, mem_vacancies]

theorem payloadAt_eq (member : cell ∈ layout.cells) :
    usage.pool.payloadAt cell.address = cell.size - headerSize := by
  rw [payloadAt, regular.sizeAt_eq member]

theorem serves_iff (member : cell ∈ layout.cells) (free : cell.state = .free) :
    cell.Serves bytes ↔ bytes ≤ usage.pool.payloadAt cell.address := by
  have room := (regular.wellFormed.tiled.valid cell member).block (by simp [free])
  rw [regular.payloadAt_eq member, Cell.Serves, and_iff_right free]
  omega

end Regular

/-! ### Figures -/

theorem max?_of_perm {numbers others : List Nat} (perm : numbers.Perm others) :
    numbers.max? = others.max? := by
  ext largest
  rw [List.max?_eq_some_iff, List.max?_eq_some_iff]
  simp only [perm.mem_iff]

theorem min?_of_perm {numbers others : List Nat} (perm : numbers.Perm others) :
    numbers.min? = others.min? := by
  ext smallest
  rw [List.min?_eq_some_iff, List.min?_eq_some_iff]
  simp only [perm.mem_iff]

structure Surveyed (pool : Pool) (stats : PoolStats) : Prop where
  told : pool.stats = .ok stats
  distinct : pool.freeBlocks.Nodup
  count : stats.freeBlocks = pool.freeBlocks.length
  largest : stats.largestFree = (pool.freeBlocks.map pool.payloadAt).max?.getD 0
  smallest : stats.smallestFree = (pool.freeBlocks.map pool.payloadAt).min?.getD 0
  total : stats.freeBytes = (pool.freeBlocks.map pool.sizeAt).sum

theorem Regular.surveyed {usage : Usage} (regular : Regular usage layout) :
    usage.pool.Surveyed layout.stats := by
  have payloads : (usage.pool.freeBlocks.map usage.pool.payloadAt).Perm layout.freePayloads := by
    have same : (vacancies layout.cells).map usage.pool.payloadAt = layout.freePayloads := by
      rw [vacancies, List.map_map]
      apply List.map_congr_left
      intro cell member
      exact regular.payloadAt_eq (List.mem_filter.mp member).1
    rw [← same]
    exact regular.freeBlocks_perm.map _
  constructor
  · exact regular.realizes.stats_eq regular.wellFormed
  · exact regular.freeBlocks_perm.nodup_iff.mpr regular.ordered.vacancies_nodup
  · have length := payloads.length_eq
    rw [List.length_map] at length
    rw [length]
    rfl
  · rw [max?_of_perm payloads]
    exact List.foldl_max.trans (Nat.zero_max _)
  · rw [min?_of_perm payloads]
    rfl
  · exact regular.realizes.freeSize.symm.trans regular.freeSize_eq

theorem Surveyed.le_largest {pool : Pool} {stats : PoolStats} (surveyed : pool.Surveyed stats)
    (some_bytes : bytes ≠ 0) : bytes ≤ stats.largestFree ↔
      ∃ block ∈ pool.freeBlocks, bytes ≤ pool.payloadAt block := by
  rw [surveyed.largest]
  constructor
  · intro within
    cases largest : (pool.freeBlocks.map pool.payloadAt).max? with
    | none =>
      rw [largest, Option.getD_none] at within
      omega
    | some amount =>
      obtain ⟨block, member, rfl⟩ := List.mem_map.mp (List.max?_mem largest)
      rw [largest] at within
      exact ⟨block, member, within⟩
  · rintro ⟨block, member, within⟩
    exact Nat.le_trans within (List.le_max?_getD_of_mem (List.mem_map_of_mem member))

/-! ### Serving a request -/

structure Serving (pool : Pool) (bytes block : Nat) (after : Pool) : Prop where
  free : block ∈ pool.freeBlocks
  enough : bytes ≤ pool.payloadAt block
  lowest : ∀ other ∈ pool.freeBlocks, bytes ≤ pool.payloadAt other → block ≤ other
  split : alignUp bytes + 2 * headerSize < pool.payloadAt block →
    after.capacity? (block + headerSize) = some (alignUp bytes) ∧
      after.freeBlocks.Perm
        ((block + headerSize + alignUp bytes) :: pool.freeBlocks.erase block) ∧
      after.sizeAt (block + headerSize + alignUp bytes) = pool.payloadAt block - alignUp bytes
  whole : pool.payloadAt block ≤ alignUp bytes + 2 * headerSize →
    after.capacity? (block + headerSize) = some (pool.payloadAt block) ∧
      after.freeBlocks.Perm (pool.freeBlocks.erase block)
  others : ∀ other ∈ pool.freeBlocks, other ≠ block → after.sizeAt other = pool.sizeAt other

theorem Serving.capacity {pool final : Pool} {block : Nat} (serving : pool.Serving bytes block final) :
    ∃ capacity, final.capacity? (block + headerSize) = some capacity ∧ bytes ≤ capacity ∧
      capacity ≤ alignUp bytes + 2 * headerSize := by
  by_cases large : alignUp bytes + 2 * headerSize < pool.payloadAt block
  · exact ⟨_, (serving.split large).1, le_alignUp bytes, Nat.le_add_right _ _⟩
  · have small := Nat.le_of_not_lt large
    exact ⟨_, (serving.whole small).1, serving.enough, small⟩

section Carved

variable {size : Nat} {other : Cell}

theorem granted_mem_carved : ⟨cell.address, cell.carvedSize size, .allocated⟩ ∈
    before ++ (cell.carve size ++ after) := by
  obtain ⟨rest, carved, _⟩ := carve_eq cell size
  rw [carved]
  exact List.mem_append_right _ (List.mem_append_left _ List.mem_cons_self)

theorem rest_mem_carved (large : 2 * headerSize < cell.size - size) :
    ⟨cell.address + size, cell.size - size, .free⟩ ∈ before ++ (cell.carve size ++ after) := by
  rw [Cell.carve, if_pos large]
  simp

theorem mem_carved (member : other ∈ before ++ cell :: after) (differ : other ≠ cell) :
    other ∈ before ++ (cell.carve size ++ after) := by
  rcases List.mem_append.mp member with low | member
  · exact List.mem_append_left _ low
  · rcases List.mem_cons.mp member with same | high
    · exact absurd same differ
    · exact List.mem_append_right _ (List.mem_append_right _ high)

theorem Ordered.first_le (ordered : Ordered (before ++ cell :: after))
    (first : ∀ low ∈ before, ¬low.Serves bytes) (member : other ∈ before ++ cell :: after)
    (serves : other.Serves bytes) : cell.address ≤ other.address := by
  rcases List.mem_append.mp member with low | member
  · exact absurd serves (first other low)
  · rcases List.mem_cons.mp member with rfl | high
    · exact Nat.le_refl _
    · have above := (List.pairwise_cons.mp ordered.right.increasing).1 other high
      exact Nat.le_of_lt above

end Carved

namespace Regular

variable {usage served : Usage} {count : Nat}

theorem serving (regular : Regular usage layout) (split : layout.cells = before ++ cell :: after)
    (serves : cell.Serves bytes) (first : ∀ low ∈ before, ¬low.Serves bytes)
    (carved : Regular served { layout with
      cells := before ++ (cell.carve (alignUp (bytes + headerSize)) ++ after)
      allocations := count }) :
    usage.pool.Serving bytes cell.address served.pool := by
  have free := serves.1
  have ordered := regular.ordered
  have member : cell ∈ layout.cells := by
    rw [split]
    exact List.mem_append_right _ List.mem_cons_self
  have payload := regular.payloadAt_eq member
  have capacity := carved.capacity granted_mem_carved rfl
  have oldBlocks := regular.freeBlocks_perm.erase cell.address
  have newBlocks := carved.freeBlocks_perm
  rw [split] at ordered
  rw [split, erase_vacancies ordered free] at oldBlocks
  rw [vacancies_append, vacancies_append, vacancies_carve, alignUp_header] at newBlocks
  rw [alignUp_header] at capacity
  refine ⟨regular.mem_freeBlocks.mpr ⟨cell, member, free, rfl⟩,
    (regular.serves_iff member free).mp serves, ?_, ?_, ?_, ?_⟩
  · intro block vacant within
    obtain ⟨other, otherMember, otherFree, rfl⟩ := regular.mem_freeBlocks.mp vacant
    have otherServes := (regular.serves_iff otherMember otherFree).mpr within
    rw [split] at otherMember
    exact ordered.first_le first otherMember otherServes
  · intro large
    rw [payload] at large ⊢
    have spare : 2 * headerSize < cell.size - (alignUp bytes + headerSize) := by omega
    have place : cell.address + (alignUp bytes + headerSize) =
        cell.address + headerSize + alignUp bytes := by omega
    have size := carved.sizeAt_eq (rest_mem_carved ((alignUp_header bytes).symm ▸ spare))
    rw [alignUp_header, place] at size
    dsimp only at size
    rw [if_pos spare, place] at newBlocks
    rw [Cell.carvedSize, if_pos spare, Nat.add_sub_cancel] at capacity
    refine ⟨capacity, ?_, by omega⟩
    apply newBlocks.trans
    apply List.perm_middle.trans
    exact oldBlocks.symm.cons _
  · intro small
    rw [payload] at small ⊢
    have spare : ¬2 * headerSize < cell.size - (alignUp bytes + headerSize) := by omega
    rw [if_neg spare, List.nil_append] at newBlocks
    rw [Cell.carvedSize, if_neg spare] at capacity
    exact ⟨capacity, newBlocks.trans oldBlocks.symm⟩
  · intro block vacant differ
    obtain ⟨other, otherMember, _, rfl⟩ := regular.mem_freeBlocks.mp vacant
    rw [regular.sizeAt_eq otherMember]
    apply carved.sizeAt_eq
    rw [split] at otherMember
    apply mem_carved otherMember
    rintro rfl
    exact differ rfl

end Regular

structure FirstFit (pool : Pool) (stats : PoolStats) (bytes : Nat) : Prop where
  granted : (pool.allocate bytes).value.isSome ↔ 0 < bytes ∧ bytes ≤ stats.largestFree
  serving : ∀ address, (pool.allocate bytes).value = some address →
    ∃ block, address = block + headerSize ∧
      pool.Serving bytes block (pool.allocate bytes).pool
  refused : (pool.allocate bytes).value = none → (pool.allocate bytes).pool = pool

namespace Regular

variable {usage : Usage}

theorem le_largest (regular : Regular usage layout) (some_bytes : bytes ≠ 0) :
    bytes ≤ layout.stats.largestFree ↔ ∃ cell ∈ layout.cells, cell.Serves bytes := by
  rw [regular.surveyed.le_largest some_bytes]
  constructor
  · rintro ⟨block, vacant, within⟩
    obtain ⟨cell, member, free, rfl⟩ := regular.mem_freeBlocks.mp vacant
    exact ⟨cell, member, (regular.serves_iff member free).mpr within⟩
  · rintro ⟨cell, member, serves⟩
    exact ⟨cell.address, regular.mem_freeBlocks.mpr ⟨cell, member, serves.1, rfl⟩,
      (regular.serves_iff member serves.1).mp serves⟩

theorem allocate_refused (regular : Regular usage layout)
    (refused : (usage.pool.allocate bytes).value = none) :
    (usage.pool.allocate bytes).pool = usage.pool := by
  rcases regular.allocate bytes with ⟨notes, failed, _⟩ | ⟨cell, pool, later, granted, _⟩
  · rw [failed]
  · rw [granted] at refused
    cases refused

theorem firstFit (regular : Regular usage layout) (bytes : Nat) :
    usage.pool.FirstFit layout.stats bytes := by
  have found := regular.wellFormed.sought bytes
  obtain ⟨next, agrees⟩ := regular.call_allocate bytes
  have value := agrees.value
  have left : (usage.call (.allocate bytes)).pool = (usage.pool.allocate bytes).pool :=
    Usage.call_pool usage (.allocate bytes)
  -- What the search on the layout has found is what the pool answers.
  generalize layout.allocate bytes = outcome at found next value
  cases found with
  | refused notes unmet =>
    refine ⟨?_, ?_, regular.allocate_refused⟩
    · rw [value]
      constructor
      · intro some_block
        cases some_block
      · rintro ⟨some_bytes, within⟩
        have large_enough := (regular.le_largest (Nat.ne_zero_of_lt some_bytes)).mp within
        obtain ⟨cell, member, serves⟩ := large_enough
        exact absurd serves (unmet.resolve_left (by omega) cell member)
    · intro address some_block
      cases value.symm.trans some_block
  | served before cell after some_bytes split serves first =>
    refine ⟨?_, ?_, regular.allocate_refused⟩
    · have member : cell ∈ layout.cells := by
        rw [split]
        exact List.mem_append_right _ List.mem_cons_self
      rw [value, regular.le_largest some_bytes]
      exact ⟨fun _ => ⟨Nat.pos_of_ne_zero some_bytes, cell, member, serves⟩, fun _ => rfl⟩
    · intro address some_block
      obtain rfl := Option.some.inj (value.symm.trans some_block)
      refine ⟨cell.address, rfl, ?_⟩
      rw [← left]
      exact regular.serving split serves first next

end Regular

/-- After any run a request is served by first fit, whatever its size, with a capacity that is
    bounded on both sides, and the figures are those of the free blocks. -/
theorem run_firstFit (memory : Memory) (events : List Event)
    (proper : (Usage.start memory).Along Usage.Proper events)
    (guarded : (Usage.start memory).Along Usage.Guarded events) (bytes : Nat) :
    let pool := ((Usage.start memory).run events).pool
    (∃ stats, pool.Surveyed stats ∧ pool.FirstFit stats bytes) ∧
      ∀ address, (pool.allocate bytes).value = some address →
        ∃ capacity, (pool.allocate bytes).pool.capacity? address = some capacity ∧
          bytes ≤ capacity ∧ capacity ≤ alignUp bytes + 2 * headerSize := by
  have regular := (Regular.start memory).run proper guarded
  have fits := regular.firstFit bytes
  refine ⟨⟨_, regular.surveyed, fits⟩, fun address granted => ?_⟩
  obtain ⟨block, rfl, serving⟩ := fits.serving address granted
  exact serving.capacity

/-- The lower of two free blocks is just large enough to be split. -/
def fragmentedRun : List Event :=
  [.call (.addArena 4096 8192), .call (.allocate 100), .call (.allocate 40), .call (.free 4120)]

theorem fragmentedRun_layout : Layout.empty.run fragmentedRun =
    ⟨[⟨4096, 128, .free⟩, ⟨4224, 64, .allocated⟩, ⟨4288, 3880, .free⟩, ⟨8168, 0, .sentinel⟩],
      [⟨4096, 8168⟩], 2, 1⟩ :=
  rfl

theorem fragmentedRun_firstFit :
    let pool := ((Usage.start .zeroed).run fragmentedRun).pool
    (∃ stats, pool.Surveyed stats ∧ pool.FirstFit stats 48) ∧
      (pool.allocate 48).value = some 4120 := by
  have region : (Usage.start .zeroed).Proper (.call (.addArena 4096 8192)) :=
    ⟨by decide, by decide, fun _ _ _ _ => Memory.byte_zeroed _⟩
  have proper : (Usage.start .zeroed).Along Usage.Proper fragmentedRun :=
    ⟨region, trivial, trivial, trivial, trivial⟩
  have guarded : (Usage.start .zeroed).Along Usage.Guarded fragmentedRun :=
    Usage.Along.guarded (Usage.start_unforged .zeroed) ⟨trivial, trivial, trivial, trivial, trivial⟩
  have value := (((Regular.start .zeroed).run proper guarded).call_allocate 48).2.value
  rw [fragmentedRun_layout] at value
  exact ⟨(run_firstFit .zeroed fragmentedRun proper guarded 48).1, value.trans (by decide)⟩

end FirmwareLink.Pool

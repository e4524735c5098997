import FirmwareLink.Proofs.Pool.Handover
import FirmwareLink.Proofs.Pool.Similar
import FirmwareLink.Proofs.Pool.Stretches

namespace FirmwareLink.Pool

attribute [ext] Layout

def giveBack (addresses : List Nat) : List Event :=
  addresses.map fun address => .call (.free address)

variable {cells blocks : List Cell} {arena : Arena}

theorem mem_payloads_of_taken {block : Extent} (member : block ∈ taken cells) :
    block.address + headerSize ∈ payloads cells :=
  mem_payloads.mpr ⟨_, mem_taken.mp member, rfl, rfl⟩

theorem Fills.whole (fills : Fills cells blocks arena) (tiled : Tiled cells)
    (unused : payloads cells = []) (room : arena.start < arena.sentinel) :
    blocks = [⟨arena.start, arena.sentinel - arena.start, .free⟩] := by
  have notAllocated : ∀ cell ∈ cells, cell.state ≠ .allocated := by
    intro cell member allocated
    have held := mem_payloads.mpr ⟨cell, member, allocated, rfl⟩
    rw [unused] at held
    cases held
  cases blocks with
  | nil => exact absurd fills.contiguous (Nat.ne_of_lt room)
  | cons first rest =>
    have inside : first ∈ first :: rest := List.mem_cons_self
    obtain ⟨address, later⟩ := fills.contiguous
    have free : first.state = .free :=
      Cell.free_of_block (fills.plain first inside) (notAllocated first (fills.subset inside))
    have stop : first.stop = arena.sentinel := by
      apply (fills.free_ends tiled inside free).2.resolve_right
      rintro ⟨high, member, allocated, _⟩
      exact notAllocated high member allocated
    have alone : rest = [] := by
      cases rest with
      | nil => rfl
      | cons next others =>
        have member : next ∈ first :: next :: others := by simp
        have low := (tiled.valid next (fills.subset member)).header_le_stop
        have high := (fills.le_of_mem tiled member).2
        have begins := later.1
        simp only [headerSize] at low
        omega
    rw [Cell.stop_of_block (fills.plain first inside), address] at stop
    have size : first.size = arena.sentinel - arena.start := by omega
    rw [alone, ← size, ← address, ← free]

namespace Layout

variable {layout next other : Layout} {address one two bytes : Nat}

theorem free_counters (layout : Layout) (address : Nat) :
    (layout.free address).layout.arenas = layout.arenas ∧
      (layout.free address).layout.allocations = layout.allocations ∧
      (layout.free address).layout.frees =
        layout.frees + if address ∈ payloads layout.cells then 1 else 0 := by
  unfold Layout.free
  split
  · rename_i absent
    rw [if_neg (held?_eq_none_iff.mp absent)]
    exact ⟨rfl, rfl, rfl⟩
  · rename_i cell held
    obtain ⟨member, allocated, payload⟩ := held?_eq_some held
    rw [if_pos (mem_payloads.mpr ⟨cell, member, allocated, payload⟩)]
    exact ⟨rfl, rfl, rfl⟩

theorem giveBack_arenas (layout : Layout) (addresses : List Nat) :
    (layout.run (giveBack addresses)).arenas = layout.arenas := by
  induction addresses generalizing layout with
  | nil => rfl
  | cons address rest ih => exact (ih _).trans (layout.free_counters address).1

theorem allocate_counters (granted : (layout.allocate bytes).value = some address) :
    (layout.allocate bytes).layout.allocations = layout.allocations + 1 ∧
      (layout.allocate bytes).layout.frees = layout.frees := by
  dsimp only [Layout.allocate] at granted ⊢
  split at granted
  · cases granted
  · rename_i asked
    rw [if_neg asked]
    split at granted
    · cases granted
    · rename_i room
      rw [if_neg room]
      split at granted
      · cases granted
      · rename_i cell rest found
        exact ⟨rfl, rfl⟩

namespace WellFormed

theorem mem_arenas (wellFormed : layout.WellFormed) :
    arena ∈ layout.arenas ↔ arena ∈ spans none layout.cells := wellFormed.table.mem_iff

/-- Arenas and blocks in use settle all the rest. -/
theorem cells_eq (wellFormed : layout.WellFormed) (otherFormed : other.WellFormed)
    (arenas : ∀ arena, arena ∈ other.arenas ↔ arena ∈ layout.arenas)
    (blocks : ∀ block, block ∈ taken other.cells ↔ block ∈ taken layout.cells) :
    other.cells = layout.cells := by
  apply otherFormed.tiled.eq_of_taken wellFormed.tiled _ blocks
  intro arena
  rw [← otherFormed.mem_arenas, ← wellFormed.mem_arenas, arenas]

theorem mem_payloads_free (wellFormed : layout.WellFormed) :
    one ∈ payloads (layout.free two).layout.cells ↔ one ∈ payloads layout.cells ∧ one ≠ two := by
  rcases free_frees wellFormed two with ⟨absent, ignored⟩ | ⟨next, freed, frees⟩
  · rw [ignored]
    constructor
    · intro held
      exact ⟨held, fun same => absent (same ▸ held)⟩
    · exact And.left
  · have distinct := frees.payloads.nodup_iff.mp wellFormed.tiled.ordered.payloads_nodup
    rw [freed, frees.payloads.mem_iff, List.mem_cons]
    constructor
    · intro kept
      exact ⟨Or.inr kept, fun same => (List.nodup_cons.mp distinct).1 (same ▸ kept)⟩
    · rintro ⟨held, differ⟩
      exact held.resolve_left differ

theorem mem_taken_free (wellFormed : layout.WellFormed) {block : Extent} :
    block ∈ taken (layout.free address).layout.cells ↔
      block ∈ taken layout.cells ∧ block.address + headerSize ≠ address := by
  constructor
  · intro kept
    obtain ⟨held, differ⟩ := wellFormed.mem_payloads_free.mp (mem_payloads_of_taken kept)
    refine ⟨?_, differ⟩
    rw [mem_taken] at kept ⊢
    rcases free_frees wellFormed address with ⟨_, ignored⟩ | ⟨next, freed, frees⟩
    · rwa [ignored] at kept
    · rw [freed] at kept
      exact frees.known _ kept rfl
  · rintro ⟨held, differ⟩
    rcases free_frees wellFormed address with ⟨_, ignored⟩ | ⟨next, freed, frees⟩
    · rwa [ignored]
    · rw [freed, mem_taken]
      exact frees.kept _ (mem_taken.mp held) rfl differ

theorem free_comm (wellFormed : layout.WellFormed) (one two : Nat) :
    ((layout.free one).layout.free two).layout = ((layout.free two).layout.free one).layout := by
  have firstOne := wellFormed.free one
  have firstTwo := wellFormed.free two
  obtain ⟨arenasOne, allocationsOne, freesOne⟩ := layout.free_counters one
  obtain ⟨arenasTwo, allocationsTwo, freesTwo⟩ := layout.free_counters two
  obtain ⟨arenasOneTwo, allocationsOneTwo, freesOneTwo⟩ := (layout.free one).layout.free_counters two
  obtain ⟨arenasTwoOne, allocationsTwoOne, freesTwoOne⟩ := (layout.free two).layout.free_counters one
  have arenas : ((layout.free one).layout.free two).layout.arenas =
      ((layout.free two).layout.free one).layout.arenas := by
    rw [arenasOneTwo, arenasOne, arenasTwoOne, arenasTwo]
  apply Layout.ext
  · apply (firstTwo.free one).cells_eq (firstOne.free two)
    · intro arena
      rw [arenas]
    · intro block
      rw [firstOne.mem_taken_free, firstTwo.mem_taken_free, wellFormed.mem_taken_free,
        wellFormed.mem_taken_free, and_right_comm]
  · exact arenas
  · rw [allocationsOneTwo, allocationsOne, allocationsTwoOne, allocationsTwo]
  · -- The second of two frees of one address is not counted.
    rw [freesOneTwo, freesOne, freesTwoOne, freesTwo]
    simp only [wellFormed.mem_payloads_free]
    by_cases same : one = two
    · rw [same]
    · simp only [same, Ne.symm same, ne_eq, not_false_eq_true, and_true]
      omega

theorem giveBack (wellFormed : layout.WellFormed) (addresses : List Nat) :
    (layout.run (giveBack addresses)).WellFormed := by
  induction addresses generalizing layout with
  | nil => exact wellFormed
  | cons address rest ih => exact ih (wellFormed.free address)

theorem giveBack_perm (wellFormed : layout.WellFormed) {addresses others : List Nat}
    (shuffled : addresses.Perm others) :
    layout.run (Pool.giveBack addresses) = layout.run (Pool.giveBack others) := by
  induction shuffled generalizing layout with
  | nil => rfl
  | cons address _ ih => exact ih (wellFormed.free address)
  | swap one two rest =>
    exact congrArg (fun layout : Layout => layout.run (Pool.giveBack rest))
      (wellFormed.free_comm two one)
  | trans _ _ first second => exact (first wellFormed).trans (second wellFormed)

theorem payloads_giveBack (wellFormed : layout.WellFormed) {addresses : List Nat}
    (all : ∀ address ∈ payloads layout.cells, address ∈ addresses) :
    payloads (layout.run (Pool.giveBack addresses)).cells = [] := by
  induction addresses generalizing layout with
  | nil => exact List.eq_nil_iff_forall_not_mem.mpr fun address held => nomatch all address held
  | cons address rest ih =>
    apply ih (wellFormed.free address)
    intro other held
    obtain ⟨before, differ⟩ := wellFormed.mem_payloads_free.mp held
    exact (List.mem_cons.mp (all other before)).resolve_left differ

/-- An allocation that is given back leaves no trace but in the counters. -/
theorem free_granted (wellFormed : layout.WellFormed) (nextFormed : next.WellFormed) {cell : Cell}
    (grants : layout.Grants next cell) (allocations : next.allocations = layout.allocations + 1)
    (frees : next.frees = layout.frees) :
    (next.free cell.payload).layout = layout.credit 1 := by
  obtain ⟨arenas, kept, freed⟩ := next.free_counters cell.payload
  have held : cell.payload ∈ payloads next.cells :=
    mem_payloads.mpr ⟨cell, grants.member, grants.allocated, rfl⟩
  rw [if_pos held] at freed
  apply Layout.ext
  · apply wellFormed.cells_eq (nextFormed.free _)
    · intro arena
      rw [arenas, grants.arenas]
    · intro block
      rw [nextFormed.mem_taken_free, mem_taken, mem_taken]
      constructor
      · rintro ⟨member, differ⟩
        rcases grants.known _ member rfl with same | old
        · exact absurd (congrArg Cell.payload same) differ
        · exact old
      · intro old
        exact ⟨grants.kept _ old rfl, (grants.differ nextFormed.tiled.ordered old rfl).symm⟩
  · exact arenas.trans grants.arenas
  · exact kept.trans allocations
  · exact freed.trans (congrArg (· + 1) frees)

end WellFormed

section Arenas

def Roomy (layout : Layout) : Prop := ∀ arena ∈ layout.arenas, arena.start < arena.sentinel

theorem Roomy.addArena (roomy : layout.Roomy) (start stop : Nat) :
    (layout.addArena start stop).layout.Roomy := by
  dsimp only [Layout.addArena]
  split
  · exact roomy
  · split
    · exact roomy
    · rename_i room
      split
      · exact roomy
      · split
        · exact roomy
        · intro arena member
          rcases List.mem_append.mp member with old | new
          · exact roomy arena old
          · obtain rfl := List.mem_singleton.mp new
            simp only [headerSize] at room ⊢
            omega

theorem allocate_arenas (layout : Layout) (bytes : Nat) :
    (layout.allocate bytes).layout.arenas = layout.arenas := by
  rcases layout.allocate_grants bytes with ⟨notes, refused⟩ | ⟨cell, next, granted, _, grants⟩
  · rw [refused]
  · rw [granted, grants.arenas]

theorem reallocate_arenas (layout : Layout) (address? : Option Nat) (bytes : Nat) :
    (layout.reallocate address? bytes).layout.arenas = layout.arenas := by
  have allocated := layout.allocate_arenas bytes
  dsimp only [Layout.reallocate]
  split
  · exact allocated
  · split
    · rfl
    · split
      · rfl
      · split
        · exact allocated
        · exact (free_counters _ _).1.trans allocated

theorem Roomy.perform (roomy : layout.Roomy) (operation : Operation) :
    (layout.perform operation).layout.Roomy := by
  have same : ∀ next : Layout, next.arenas = layout.arenas → next.Roomy := by
    intro next arenas arena member
    rw [arenas] at member
    exact roomy arena member
  cases operation with
  | addArena start stop => exact roomy.addArena start stop
  | allocate bytes => exact same _ (layout.allocate_arenas bytes)
  | allocateZeroed count size =>
    apply same
    change (layout.allocateZeroed count size).layout.arenas = layout.arenas
    unfold Layout.allocateZeroed
    split
    · rfl
    · exact layout.allocate_arenas _
  | reallocate address? bytes => exact same _ (layout.reallocate_arenas address? bytes)
  | free address => exact same _ (layout.free_counters address).1
  | capacity address => exact roomy
  | contains address => exact roomy
  | stats => exact roomy

theorem Roomy.run (roomy : layout.Roomy) (events : List Event) : (layout.run events).Roomy := by
  induction events generalizing layout with
  | nil => exact roomy
  | cons event rest ih =>
    cases event with
    | call operation => exact ih (roomy.perform operation)
    | write block offset bytes => exact ih roomy

end Arenas

end Layout

theorem Usage.call_pool (usage : Usage) (operation : Operation) :
    (usage.call operation).pool = (usage.pool.perform operation).pool := by
  unfold Usage.call
  dsimp only
  split
  · rfl
  · rfl
  · rfl
  · split
    · rfl
    · rfl
  · rfl
  · rfl

end FirmwareLink.Pool

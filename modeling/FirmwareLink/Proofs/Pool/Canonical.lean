import FirmwareLink.Proofs.Pool.Borrowing

namespace FirmwareLink.Pool

attribute [ext] FirmwareLink.Pool

def freeList (pool : Pool) : List (Nat × Block) :=
  pool.nodes.map fun node => (node, pool.block node)

namespace Usage

def extents (usage : Usage) : List Extent :=
  usage.live.map fun address => ⟨address - headerSize, usage.pool.sizeAt (address - headerSize)⟩

structure SameHoldings (one two : Usage) : Prop where
  arenas : ∀ arena, arena ∈ one.pool.arenas ↔ arena ∈ two.pool.arenas
  blocks : ∀ block, block ∈ one.extents ↔ block ∈ two.extents

structure Interchangeable (one two : Usage) : Prop where
  freeList : one.pool.freeList = two.pool.freeList
  stats : ∃ ones twos, one.pool.stats = .ok ones ∧ two.pool.stats = .ok twos ∧
    ones.uncounted = twos.uncounted
  later : ∀ ones twos, one.Along Proper ones → one.Along Honest ones →
    two.Along Proper twos → two.Along Honest twos → calls ones = calls twos →
      (one.answers ones).map (Prod.map Answer.uncounted id) =
        (two.answers twos).map (Prod.map Answer.uncounted id)

structure SameState (one two : Usage) : Prop where
  fields : { one.pool with memory := two.pool.memory } = two.pool
  live : one.live.Perm two.live
  blocks : ∀ arena ∈ one.pool.arenas, one.pool.blocks arena = two.pool.blocks arena
  headers : ∀ arena ∈ one.pool.arenas, ∀ header ∈ arena.sentinel :: one.pool.blocks arena,
    one.pool.block header = two.pool.block header

structure Canonical (usage : Usage) : Prop where
  stretches : ∀ low size, low ∈ usage.pool.nodes ∧ usage.pool.isFree low = true ∧
      usage.pool.sizeAt low = size ↔
    ∃ arena ∈ usage.pool.arenas, Stretch arena usage.extents low (low + size)
  anyOrder : ∀ addresses others : List Nat, addresses.Perm others →
    (usage.run (giveBack addresses)).SameState (usage.run (giveBack others))
  restored : ∀ bytes address, (usage.pool.allocate bytes).value = some address →
    (((usage.pool.allocate bytes).pool.free address).pool).freeList = usage.pool.freeList ∧
      ∃ stats, usage.pool.stats = .ok stats ∧
        (((usage.pool.allocate bytes).pool.free address).pool).stats = .ok (stats.credit 1 1)
  emptied : ∀ addresses, (∀ address ∈ usage.live, address ∈ addresses) →
    (usage.run (giveBack addresses)).pool.arenas = usage.pool.arenas ∧
      ∀ arena ∈ usage.pool.arenas,
        (usage.run (giveBack addresses)).pool.blocks arena = [arena.start] ∧
          (usage.run (giveBack addresses)).pool.isFree arena.start = true ∧
            arena.start + (usage.run (giveBack addresses)).pool.sizeAt arena.start = arena.sentinel

theorem giveBack_along (usage : Usage) (addresses : List Nat) :
    usage.Along Proper (giveBack addresses) ∧ usage.Along Honest (giveBack addresses) := by
  induction addresses generalizing usage with
  | nil => exact ⟨trivial, trivial⟩
  | cons address rest ih =>
    obtain ⟨proper, honest⟩ := ih (usage.step (.call (.free address)))
    exact ⟨⟨trivial, proper⟩, ⟨trivial, honest⟩⟩

end Usage

theorem Shown.block_eq {memory other : Memory} {cells : List Cell} {cell : Cell} {link : Nat}
    (shown : Shown memory cells link) (otherShown : Shown other cells link)
    (member : cell ∈ cells) : memory.block cell.address = other.block cell.address := by
  induction cells with
  | nil => cases member
  | cons first rest ih =>
    rcases List.mem_cons.mp member with rfl | later
    · rw [shown.1, otherShown.1]
    · exact ih shown.2 otherShown.2 later

theorem Layout.Similar.uncounted (layout : Layout) : Similar layout.allocations layout.frees
    { layout with allocations := 0, frees := 0 } layout :=
  ⟨rfl, List.Perm.refl _, (Nat.zero_add _).symm, (Nat.zero_add _).symm⟩

namespace Regular

variable {usage other : Usage} {layout next : Layout} {arena : Arena} {blocks : List Cell}

section Headers

variable (regular : Regular usage layout)

include regular

theorem mem_extents {block : Extent} : block ∈ usage.extents ↔ block ∈ taken layout.cells := by
  rw [Usage.extents, List.mem_map]
  constructor
  · rintro ⟨address, held, rfl⟩
    obtain ⟨cell, member, allocated, rfl⟩ := regular.cell_of_live held
    have back : cell.payload - headerSize = cell.address := Nat.add_sub_cancel _ _
    rw [back, regular.sizeAt_eq member]
    exact Cell.mem_taken member allocated
  · intro member
    have back : block.address + headerSize - headerSize = block.address := Nat.add_sub_cancel _ _
    have size := regular.sizeAt_eq (mem_taken.mp member)
    refine ⟨block.address + headerSize, regular.live.mem_iff.mpr (mem_payloads_of_taken member), ?_⟩
    rw [back, size]

theorem blocks_of_fills (fills : Fills layout.cells blocks arena) :
    usage.pool.blocks arena = blocks.map Cell.address :=
  blocksTo_eq fills.contiguous fills.plain
    (fun block member => regular.wellFormed.tiled.valid block (fills.subset member))
    fun _ member => regular.sizeAt_eq (fills.subset member)

theorem mem_nodes_free {low size : Nat} : low ∈ usage.pool.nodes ∧ usage.pool.isFree low = true ∧
    usage.pool.sizeAt low = size ↔ ⟨low, size, .free⟩ ∈ layout.cells := by
  rw [regular.realizes.nodes_eq regular.wellFormed, mem_links]
  constructor
  · rintro ⟨⟨cell, member, _, rfl⟩, free, rfl⟩
    rw [isFree, regular.has_eq member, decide_eq_true_eq] at free
    rw [regular.sizeAt_eq member, ← free]
    exact member
  · intro member
    have tag := regular.has_eq member .free
    have held := regular.sizeAt_eq member
    exact ⟨⟨_, member, rfl, rfl⟩, tag, held⟩

theorem stretches (low size : Nat) : low ∈ usage.pool.nodes ∧ usage.pool.isFree low = true ∧
      usage.pool.sizeAt low = size ↔
    ∃ arena ∈ usage.pool.arenas, Stretch arena usage.extents low (low + size) := by
  rw [regular.mem_nodes_free, regular.wellFormed.tiled.free_iff]
  constructor
  · rintro ⟨arena, inSpans, stretch⟩
    exact ⟨arena, regular.mem_arenas.mpr inSpans,
      stretch.congr fun _ => regular.mem_extents.symm⟩
  · rintro ⟨arena, registered, stretch⟩
    exact ⟨arena, regular.mem_arenas.mp registered,
      stretch.congr fun _ => regular.mem_extents⟩

theorem giveBack (unforged : ∀ place, ¬usage.forged place) (addresses : List Nat) :
    Regular (usage.run (giveBack addresses)) (layout.run (giveBack addresses)) := by
  obtain ⟨proper, honest⟩ := usage.giveBack_along addresses
  exact regular.run proper (Usage.Along.guarded unforged honest)

theorem emptied (unforged : ∀ place, ¬usage.forged place) (roomy : layout.Roomy)
    {addresses : List Nat} (all : ∀ address ∈ usage.live, address ∈ addresses) :
    (usage.run (Pool.giveBack addresses)).pool.arenas = usage.pool.arenas ∧
      ∀ arena ∈ usage.pool.arenas,
        (usage.run (Pool.giveBack addresses)).pool.blocks arena = [arena.start] ∧
          (usage.run (Pool.giveBack addresses)).pool.isFree arena.start = true ∧
            arena.start + (usage.run (Pool.giveBack addresses)).pool.sizeAt arena.start =
              arena.sentinel := by
  have freed := regular.giveBack unforged addresses
  have arenas : (usage.run (Pool.giveBack addresses)).pool.arenas = usage.pool.arenas := by
    rw [freed.realizes.arenas, layout.giveBack_arenas, regular.realizes.arenas]
  have unused := regular.wellFormed.payloads_giveBack fun address held =>
    all address (regular.live.mem_iff.mpr held)
  refine ⟨arenas, fun arena registered => ?_⟩
  have room := roomy arena (regular.realizes.arenas ▸ registered)
  rw [← arenas] at registered
  obtain ⟨blocks, fills⟩ := freed.wellFormed.tiled.fills_of_arena (freed.mem_arenas.mp registered)
  obtain rfl := fills.whole freed.wellFormed.tiled unused room
  have member := fills.subset List.mem_cons_self
  have tag := freed.has_eq member .free
  have size := freed.sizeAt_eq member
  refine ⟨freed.blocks_of_fills fills, tag, ?_⟩
  rw [size]
  exact Nat.add_sub_of_le (Nat.le_of_lt room)

theorem freeList_eq (same : Regular other next) (cells : next.cells = layout.cells) :
    other.pool.freeList = usage.pool.freeList := by
  have shown := same.realizes.shown
  rw [cells] at shown
  rw [freeList, freeList, same.realizes.nodes_eq same.wellFormed,
    regular.realizes.nodes_eq regular.wellFormed, cells]
  apply List.map_congr_left
  intro node member
  obtain ⟨cell, inCells, _, rfl⟩ := mem_links.mp member
  have header := shown.block_eq regular.realizes.shown inCells
  exact congrArg (Prod.mk cell.address) header

theorem sameState (same : Regular other layout) : usage.SameState other where
  fields := Pool.ext rfl (regular.realizes.head.trans same.realizes.head.symm)
    (regular.realizes.arenas.trans same.realizes.arenas.symm)
    (regular.realizes.poolSize.trans same.realizes.poolSize.symm)
    (regular.realizes.freeSize.trans same.realizes.freeSize.symm)
    (regular.realizes.allocations.trans same.realizes.allocations.symm)
    (regular.realizes.frees.trans same.realizes.frees.symm)
  live := regular.live.trans same.live.symm
  blocks := fun arena registered => by
    obtain ⟨blocks, fills⟩ :=
      regular.wellFormed.tiled.fills_of_arena (regular.mem_arenas.mp registered)
    rw [regular.blocks_of_fills fills, same.blocks_of_fills fills]
  headers := fun arena registered header listed => by
    rcases List.mem_cons.mp listed with rfl | inside
    · obtain ⟨cell, member, _, address⟩ := regular.mem_sentinels.mp ⟨arena, registered, rfl⟩
      rw [← address]
      exact regular.realizes.shown.block_eq same.realizes.shown member
    · obtain ⟨cell, member, _, rfl⟩ := regular.mem_blocks.mp ⟨arena, registered, inside⟩
      exact regular.realizes.shown.block_eq same.realizes.shown member

theorem restored {bytes address : Nat}
    (granted : (usage.pool.allocate bytes).value = some address) :
    (((usage.pool.allocate bytes).pool.free address).pool).freeList = usage.pool.freeList ∧
      ∃ stats, usage.pool.stats = .ok stats ∧
        (((usage.pool.allocate bytes).pool.free address).pool).stats = .ok (stats.credit 1 1) := by
  have returns := regular.returns_allocate granted
  have freed := regular.run returns.proper returns.guarded
  have similar := layout.similar_credit 1
  rw [returns.credits] at freed
  rw [← Usage.run_borrow]
  refine ⟨regular.freeList_eq freed similar.cells, layout.stats,
    regular.realizes.stats_eq regular.wellFormed, ?_⟩
  rw [freed.realizes.stats_eq freed.wellFormed, similar.stats]

theorem canonical (unforged : ∀ place, ¬usage.forged place) (roomy : layout.Roomy) :
    usage.Canonical where
  stretches := regular.stretches
  anyOrder := fun addresses others shuffled => by
    have first := regular.giveBack unforged addresses
    rw [regular.wellFormed.giveBack_perm shuffled] at first
    exact first.sameState (regular.giveBack unforged others)
  restored := fun _ _ granted => regular.restored granted
  emptied := fun _ all => regular.emptied unforged roomy all

theorem interchangeable (same : Regular other next) (unforged : ∀ place, ¬usage.forged place)
    (otherUnforged : ∀ place, ¬other.forged place) (holdings : usage.SameHoldings other) :
    usage.Interchangeable other := by
  have cells : next.cells = layout.cells := by
    apply regular.wellFormed.cells_eq same.wellFormed
    · intro arena
      rw [← regular.realizes.arenas, ← same.realizes.arenas, holdings.arenas]
    · intro block
      rw [← regular.mem_extents, ← same.mem_extents, holdings.blocks]
  have arenas : next.arenas.Perm layout.arenas := by
    have table := same.wellFormed.table
    rw [cells] at table
    exact table.trans regular.wellFormed.table.symm
  -- Both are what a layout that has counted nothing is, with counts of their own.
  have one := Layout.Similar.uncounted layout
  have two : Layout.Similar next.allocations next.frees
      { layout with allocations := 0, frees := 0 } next :=
    ⟨cells, arenas, (Nat.zero_add _).symm, (Nat.zero_add _).symm⟩
  refine ⟨(regular.freeList_eq same cells).symm, ⟨_, _,
    regular.realizes.stats_eq regular.wellFormed, same.realizes.stats_eq same.wellFormed, ?_⟩, ?_⟩
  · rw [one.stats, two.stats, PoolStats.uncounted_credit, PoolStats.uncounted_credit]
  · intro ones twos oneProper oneHonest twoProper twoHonest operations
    have forget : ∀ allocations frees : Nat, Prod.map Answer.uncounted (id (α := List Note)) ∘
        Prod.map (Answer.credit allocations frees) id = Prod.map Answer.uncounted id := by
      intro allocations frees
      funext answer
      exact Prod.ext (answer.1.uncounted_credit allocations frees) rfl
    rw [regular.answers_eq unforged oneProper oneHonest,
      same.answers_eq otherUnforged twoProper twoHonest, operations, one.answers, two.answers,
      List.map_map, List.map_map, forget, forget]

end Headers

end Regular

/-- Two runs that end with the same arenas and the same blocks in use, whatever their orders: what
    is free is the maximal stretches that are left over, and no later operation tells the two
    apart. -/
theorem run_canonical (memory other : Memory) (events others : List Event)
    (proper : (Usage.start memory).Along Usage.Proper events)
    (honest : (Usage.start memory).Along Usage.Honest events)
    (otherProper : (Usage.start other).Along Usage.Proper others)
    (otherHonest : (Usage.start other).Along Usage.Honest others) :
    ((Usage.start memory).run events).Canonical ∧ ((Usage.start other).run others).Canonical ∧
      (((Usage.start memory).run events).SameHoldings ((Usage.start other).run others) →
        ((Usage.start memory).run events).Interchangeable ((Usage.start other).run others)) := by
  have roomy : Layout.empty.Roomy := fun arena member => nomatch member
  have unforged := Usage.run_unforged (Usage.start_unforged memory) honest
  have otherUnforged := Usage.run_unforged (Usage.start_unforged other) otherHonest
  have regular := (Regular.start memory).run proper
    (Usage.Along.guarded (Usage.start_unforged memory) honest)
  have same := (Regular.start other).run otherProper
    (Usage.Along.guarded (Usage.start_unforged other) otherHonest)
  exact ⟨regular.canonical unforged (roomy.run events), same.canonical otherUnforged (roomy.run others),
    regular.interchangeable same unforged otherUnforged⟩

/-- Two arenas that touch, the lower one first. One block is given back. -/
def risingRun : List Event :=
  [.call (.addArena 4096 8192), .call (.addArena 8192 12288), .call (.allocate 100),
    .call (.allocate 40), .call (.free 4120)]

def fallingRun : List Event :=
  [.call (.addArena 8192 12288), .call (.addArena 4096 8192), .call (.allocate 100),
    .call (.allocate 40), .call (.allocateZeroed 2 5), .call (.free 4120), .call (.free 4312)]

theorem risingRun_layout : Layout.empty.run risingRun =
    ⟨[⟨4096, 128, .free⟩, ⟨4224, 64, .allocated⟩, ⟨4288, 3880, .free⟩, ⟨8168, 0, .sentinel⟩,
      ⟨8192, 4072, .free⟩, ⟨12264, 0, .sentinel⟩], [⟨4096, 8168⟩, ⟨8192, 12264⟩], 2, 1⟩ :=
  rfl

theorem fallingRun_layout : Layout.empty.run fallingRun =
    { Layout.empty.run risingRun with
      arenas := [⟨8192, 12264⟩, ⟨4096, 8168⟩], allocations := 3, frees := 2 } :=
  rfl

theorem Usage.zeroed_beside {start stop place : Nat} (positive : 0 < start)
    (bounded : stop < UInt64.size)
    (off : OffHeaders (Layout.empty.addArena start stop).layout.cells place) :
    ((Usage.start .zeroed).step (.call (.addArena start stop))).pool.memory.byte place = 0 := by
  have added := addArena_matches (realizes_empty .zeroed) Layout.empty_wellFormed positive bounded
  exact (added.bytes place (List.forall_mem_nil _) off).trans (Memory.byte_zeroed place)

theorem risingRun_canonical :
    ((Usage.start .zeroed).run risingRun).SameHoldings ((Usage.start .zeroed).run fallingRun) ∧
      ((Usage.start .zeroed).run risingRun).Interchangeable
        ((Usage.start .zeroed).run fallingRun) := by
  have lower : (Usage.start .zeroed).Proper (.call (.addArena 4096 8192)) :=
    ⟨by decide, by decide, fun _ _ _ _ => Memory.byte_zeroed _⟩
  have upper : (Usage.start .zeroed).Proper (.call (.addArena 8192 12288)) :=
    ⟨by decide, by decide, fun _ _ _ _ => Memory.byte_zeroed _⟩
  have upperNext : ((Usage.start .zeroed).step (.call (.addArena 4096 8192))).Proper
      (.call (.addArena 8192 12288)) := by
    refine ⟨by decide, by decide, fun place low _ _ => ?_⟩
    apply Usage.zeroed_beside (by decide) (by decide)
    change OffHeaders [⟨4096, 4072, .free⟩, ⟨8168, 0, .sentinel⟩] place
    simp only [OffHeaders, List.forall_mem_cons, headerSize]
    exact ⟨by omega, by omega, List.forall_mem_nil _⟩
  have lowerNext : ((Usage.start .zeroed).step (.call (.addArena 8192 12288))).Proper
      (.call (.addArena 4096 8192)) := by
    refine ⟨by decide, by decide, fun place _ high _ => ?_⟩
    apply Usage.zeroed_beside (by decide) (by decide)
    change OffHeaders [⟨8192, 4072, .free⟩, ⟨12264, 0, .sentinel⟩] place
    simp only [OffHeaders, List.forall_mem_cons, headerSize]
    exact ⟨by omega, by omega, List.forall_mem_nil _⟩
  have rising : (Usage.start .zeroed).Along Usage.Proper risingRun :=
    ⟨lower, upperNext, trivial, trivial, trivial, trivial⟩
  have falling : (Usage.start .zeroed).Along Usage.Proper fallingRun :=
    ⟨upper, lowerNext, trivial, trivial, trivial, trivial, trivial, trivial⟩
  have risingHonest : (Usage.start .zeroed).Along Usage.Honest risingRun :=
    ⟨trivial, trivial, trivial, trivial, trivial, trivial⟩
  have fallingHonest : (Usage.start .zeroed).Along Usage.Honest fallingRun :=
    ⟨trivial, trivial, trivial, trivial, trivial, trivial, trivial, trivial⟩
  have unforged := Usage.start_unforged .zeroed
  have one := (Regular.start .zeroed).run rising (Usage.Along.guarded unforged risingHonest)
  have two := (Regular.start .zeroed).run falling (Usage.Along.guarded unforged fallingHonest)
  rw [fallingRun_layout] at two
  have same : ((Usage.start .zeroed).run risingRun).SameHoldings
      ((Usage.start .zeroed).run fallingRun) := by
    constructor
    · intro arena
      rw [one.realizes.arenas, two.realizes.arenas, risingRun_layout]
      simp [or_comm]
    · intro block
      rw [one.mem_extents, two.mem_extents]
  exact ⟨same, (run_canonical .zeroed .zeroed risingRun fallingRun rising risingHonest falling
    fallingHonest).2.2 same⟩

end FirmwareLink.Pool

import FirmwareLink.Proofs.Pool.Run

namespace FirmwareLink

open Pool

def Memory.blocksTo (memory : Memory) (stop address : Nat) : List Nat :=
  let size := (memory.block address).size
  if address < stop ∧ 0 < size then address :: blocksTo memory stop (address + size) else []
termination_by stop - address

def Memory.Linked (memory : Memory) : Nat → List Nat → Prop
  | address, [] => address = 0
  | address, node :: rest => address = node ∧ node ≠ 0 ∧ Linked memory (memory.block node).next rest

theorem Memory.Linked.ne_zero {memory : Memory} {address node : Nat} {nodes : List Nat}
    (linked : memory.Linked address nodes) (member : node ∈ nodes) : node ≠ 0 := by
  induction nodes generalizing address with
  | nil => cases member
  | cons first rest ih =>
    obtain ⟨_, more, later⟩ := linked
    rcases List.mem_cons.mp member with rfl | further
    · exact more
    · exact ih later further

namespace Pool

def blocks (pool : Pool) (arena : Arena) : List Nat :=
  pool.memory.blocksTo arena.sentinel arena.start

def isFree (pool : Pool) (address : Nat) : Bool := (pool.block address).has .free

def sizeAt (pool : Pool) (address : Nat) : Nat := (pool.block address).size

structure Represented (pool : Pool) (live : List Nat) : Prop where
  filled : ∀ arena ∈ pool.arenas,
    arena.start + ((pool.blocks arena).map pool.sizeAt).sum = arena.sentinel
  block : ∀ arena ∈ pool.arenas, ∀ block ∈ pool.blocks arena,
    alignment ∣ pool.sizeAt block ∧ headerSize + alignment ≤ pool.sizeAt block ∧
      (pool.isFree block = true ∨ (pool.block block).has .allocated = true ∧
        (pool.block block).next = 0 ∧ block + headerSize ∈ live)
  sentinel : ∀ arena ∈ pool.arenas,
    (pool.block arena.sentinel).has .sentinel = true ∧ pool.sizeAt arena.sentinel = 0
  distinct : live.Nodup
  owned : ∀ address ∈ live, ∃ arena ∈ pool.arenas, ∃ block ∈ pool.blocks arena,
    block + headerSize = address ∧ (pool.block block).has .allocated = true
  list : ∃ nodes, pool.memory.Linked pool.head nodes ∧ nodes.Pairwise (· < ·) ∧
    ∀ node, node ∈ nodes ↔ ∃ arena ∈ pool.arenas,
      node = arena.sentinel ∨ node ∈ pool.blocks arena ∧ pool.isFree node = true
  merged : ∀ arena ∈ pool.arenas, ∀ block ∈ pool.blocks arena, ∀ other ∈ pool.blocks arena,
    pool.isFree block = true → pool.isFree other = true → block + pool.sizeAt block ≠ other
  freeSize : pool.freeSize =
    (((pool.arenas.flatMap pool.blocks).filter pool.isFree).map pool.sizeAt).sum
  poolSize : pool.poolSize = (pool.arenas.map Arena.span).sum
  bytes : pool.freeSize + (live.map fun address => pool.sizeAt (address - headerSize)).sum +
    pool.arenas.length * headerSize = pool.poolSize

section Blocks

variable {pool : Pool} {memory : Memory} {cells blocks : List Cell}

theorem Contiguous.le {start stop : Nat} (contiguous : Contiguous start blocks stop)
    (valid : ∀ block ∈ blocks, block.Valid) : start ≤ stop := by
  induction blocks generalizing start with
  | nil => exact Nat.le_of_eq contiguous
  | cons block rest ih =>
    obtain ⟨rfl, later⟩ := contiguous
    have step := ih later fun other member => valid other (List.mem_cons_of_mem _ member)
    have room := (valid block List.mem_cons_self).header_le_stop
    omega

theorem blocksTo_eq {start stop : Nat} (contiguous : Contiguous start blocks stop)
    (plain : ∀ block ∈ blocks, block.state ≠ .sentinel) (valid : ∀ block ∈ blocks, block.Valid)
    (sizes : ∀ block ∈ blocks, (memory.block block.address).size = block.size) :
    memory.blocksTo stop start = blocks.map Cell.address := by
  induction blocks generalizing start with
  | nil =>
    obtain rfl : start = stop := contiguous
    rw [Memory.blocksTo, if_neg (by simp)]
    rfl
  | cons block rest ih =>
    obtain ⟨rfl, later⟩ := contiguous
    have notSentinel := plain block List.mem_cons_self
    have room := (valid block List.mem_cons_self).block notSentinel
    have stop := Cell.stop_of_block notSentinel
    have validRest : ∀ other ∈ rest, other.Valid :=
      fun other member => valid other (List.mem_cons_of_mem _ member)
    have end_le := later.le validRest
    have rest_eq := ih later (fun other member => plain other (List.mem_cons_of_mem _ member))
      validRest fun other member => sizes other (List.mem_cons_of_mem _ member)
    simp only [headerSize] at room
    rw [Memory.blocksTo, sizes block List.mem_cons_self, if_pos (by omega), ← stop, rest_eq]
    rfl

theorem spans_sentinels (start? : Option Nat) :
    (spans start? cells).map Arena.sentinel =
      (cells.filter fun cell => cell.state = .sentinel).map Cell.address := by
  induction cells generalizing start? with
  | nil => rfl
  | cons cell rest ih =>
    by_cases ending : cell.state = .sentinel
    · simp [spans, ending, ih]
    · simp [spans, ending, ih]

theorem blocks_eq (tiled : Tiled cells)
    (sizes : ∀ cell ∈ cells, (pool.memory.block cell.address).size = cell.size) :
    (spans none cells).flatMap pool.blocks =
      (cells.filter fun cell => cell.state ≠ .sentinel).map Cell.address := by
  have closed := tiled.closed
  induction cells, closed using Closed.arenas_induction with
  | nil => rfl
  | arena blocks sentinel rest plain ending _ ih =>
    have contiguous := contiguous_of_chain plain tiled.chained
    have found := blocksTo_eq contiguous plain
      (fun block member => tiled.valid block (List.mem_append_left _ member))
      (fun block member => sizes block (List.mem_append_left _ member))
    have all : blocks.filter (fun cell => cell.state ≠ .sentinel) = blocks :=
      List.filter_eq_self.mpr fun block member => decide_eq_true (plain block member)
    have later := ih tiled.right.tail fun cell member => sizes cell
      (List.mem_append_right _ (List.mem_cons_of_mem _ member))
    rw [spans_arena plain ending, List.flatMap_cons, later, Pool.blocks, found, List.filter_append,
      all, List.map_append]
    simp [ending]

theorem linked_of_shown (shown : Shown memory cells 0) (ordered : Ordered cells) :
    memory.Linked ((links cells).head?.getD 0) (links cells) := by
  induction cells with
  | nil => rfl
  | cons cell rest ih =>
    have later := ih shown.2 ordered.tail
    cases listed : cell.listed with
    | false =>
      rw [links_cons, listed]
      exact later
    | true =>
      have positive := (ordered.valid cell List.mem_cons_self).positive
      have header := shown.1
      rw [listed] at header
      rw [links_cons, listed]
      refine ⟨rfl, by omega, ?_⟩
      rw [header]
      exact later

theorem links_sorted (ordered : Ordered cells) : (links cells).Pairwise (· < ·) :=
  List.pairwise_map.mpr (ordered.increasing.filter _)

theorem Contiguous.sum {start stop : Nat} (contiguous : Contiguous start blocks stop)
    (plain : ∀ block ∈ blocks, block.state ≠ .sentinel) :
    start + (blocks.map Cell.size).sum = stop := by
  induction blocks generalizing start with
  | nil => exact contiguous
  | cons block rest ih =>
    obtain ⟨rfl, later⟩ := contiguous
    have total := ih later fun other member => plain other (List.mem_cons_of_mem _ member)
    rw [Cell.stop_of_block (plain block List.mem_cons_self)] at total
    rw [List.map_cons, List.sum_cons]
    omega

end Blocks

namespace Regular

variable {usage : Usage} {layout : Layout} {arena : Arena} {cell : Cell} {address : Nat}

section Headers

variable (regular : Regular usage layout)

include regular

theorem sizeAt_eq (member : cell ∈ layout.cells) : usage.pool.sizeAt cell.address = cell.size :=
  regular.realizes.shown.size_eq member

theorem has_eq (member : cell ∈ layout.cells) (state : BlockState) :
    (usage.pool.block cell.address).has state = decide (cell.state = state) :=
  regular.realizes.shown.has_eq member state

theorem mem_arenas : arena ∈ usage.pool.arenas ↔ arena ∈ spans none layout.cells := by
  rw [regular.realizes.arenas]
  exact regular.wellFormed.table.mem_iff

theorem blocks_perm : (usage.pool.arenas.flatMap usage.pool.blocks).Perm
    ((layout.cells.filter fun cell => cell.state ≠ .sentinel).map Cell.address) := by
  rw [← blocks_eq regular.wellFormed.tiled fun cell member => regular.sizeAt_eq member,
    regular.realizes.arenas]
  exact regular.wellFormed.table.flatMap_right _

theorem mem_blocks : (∃ arena ∈ usage.pool.arenas, address ∈ usage.pool.blocks arena) ↔
    ∃ cell ∈ layout.cells, cell.state ≠ .sentinel ∧ cell.address = address := by
  rw [← List.mem_flatMap, regular.blocks_perm.mem_iff]
  simp [and_assoc]

theorem mem_sentinels : (∃ arena ∈ usage.pool.arenas, arena.sentinel = address) ↔
    ∃ cell ∈ layout.cells, cell.state = .sentinel ∧ cell.address = address := by
  have same : address ∈ (spans none layout.cells).map Arena.sentinel ↔ address ∈
      (layout.cells.filter fun cell => cell.state = .sentinel).map Cell.address := by
    rw [spans_sentinels]
  simpa [regular.mem_arenas, and_assoc] using same

theorem filled (member : arena ∈ usage.pool.arenas) :
    arena.start + ((usage.pool.blocks arena).map usage.pool.sizeAt).sum = arena.sentinel := by
  obtain ⟨before, blocks, sentinel, after, split, plain, _, _, contiguous⟩ :=
    regular.wellFormed.tiled.arena_tiled (regular.mem_arenas.mp member)
  have inside : ∀ block ∈ blocks, block ∈ layout.cells := by
    intro block inBlocks
    rw [split]
    exact List.mem_append_right _ (List.mem_append_left _ inBlocks)
  have found := blocksTo_eq contiguous plain
    (fun block inBlocks => regular.wellFormed.tiled.valid block (inside block inBlocks))
    (fun block inBlocks => regular.sizeAt_eq (inside block inBlocks))
  have sizes : (blocks.map Cell.address).map usage.pool.sizeAt = blocks.map Cell.size := by
    rw [List.map_map]
    exact List.map_congr_left fun block inBlocks => regular.sizeAt_eq (inside block inBlocks)
  rw [Pool.blocks, found, sizes]
  exact contiguous.sum plain

theorem merged {block other : Nat}
    (first : ∃ arena ∈ usage.pool.arenas, block ∈ usage.pool.blocks arena)
    (second : ∃ arena ∈ usage.pool.arenas, other ∈ usage.pool.blocks arena)
    (free : usage.pool.isFree block = true) (otherFree : usage.pool.isFree other = true) :
    block + usage.pool.sizeAt block ≠ other := by
  obtain ⟨cell, member, notSentinel, rfl⟩ := regular.mem_blocks.mp first
  obtain ⟨next, nextMember, _, rfl⟩ := regular.mem_blocks.mp second
  rw [isFree, regular.has_eq member, decide_eq_true_eq] at free
  rw [isFree, regular.has_eq nextMember, decide_eq_true_eq] at otherFree
  rw [regular.sizeAt_eq member, ← Cell.stop_of_block notSentinel]
  intro touch
  obtain ⟨before, after, split⟩ := List.append_of_mem member
  have tiled := regular.wellFormed.tiled
  rw [split] at tiled
  obtain ⟨follower, rest, rfl⟩ := tiled.right.closed.next notSentinel
  have begins := tiled.right.next_touches notSentinel
  have followerMember : follower ∈ layout.cells := by simp [split]
  obtain rfl := regular.ordered.eq_of_address followerMember nextMember (begins.trans touch)
  exact tiled.right.not_both_free free otherFree

theorem free_blocks_perm :
    ((usage.pool.arenas.flatMap usage.pool.blocks).filter usage.pool.isFree).Perm
      ((layout.cells.filter fun cell => cell.state = .free).map Cell.address) := by
  have free : (layout.cells.filter fun cell => cell.state ≠ .sentinel).filter
      (usage.pool.isFree ∘ Cell.address) = layout.cells.filter fun cell => cell.state = .free := by
    rw [List.filter_filter]
    apply List.filter_congr
    intro cell member
    have tag := regular.has_eq member .free
    rw [Function.comp_apply, isFree, tag]
    cases cell.state <;> rfl
  have kept := regular.blocks_perm.filter usage.pool.isFree
  rwa [List.filter_map, free] at kept

theorem freeSize_eq : usage.pool.freeSize =
    (((usage.pool.arenas.flatMap usage.pool.blocks).filter usage.pool.isFree).map
      usage.pool.sizeAt).sum := by
  rw [(regular.free_blocks_perm.map _).sum_nat, List.map_map, regular.realizes.freeSize, freeBytes]
  refine congrArg List.sum (List.map_congr_left fun cell member => ?_).symm
  exact regular.sizeAt_eq (List.mem_of_mem_filter member)

theorem live_bytes : (usage.live.map fun address =>
    usage.pool.sizeAt (address - headerSize)).sum = allocatedBytes layout.cells := by
  rw [(regular.live.map _).sum_nat, payloads, List.map_map, allocatedBytes]
  refine congrArg List.sum (List.map_congr_left fun cell member => ?_)
  have back : cell.payload - headerSize = cell.address := Nat.add_sub_cancel _ _
  rw [Function.comp_apply, back]
  exact regular.sizeAt_eq (List.mem_of_mem_filter member)

theorem bytes_eq : usage.pool.freeSize +
    (usage.live.map fun address => usage.pool.sizeAt (address - headerSize)).sum +
      usage.pool.arenas.length * headerSize = usage.pool.poolSize := by
  have table := regular.wellFormed.table
  rw [regular.live_bytes, regular.realizes.freeSize, regular.realizes.poolSize,
    regular.realizes.arenas, (table.map _).sum_nat, regular.wellFormed.tiled.bytes, table.length_eq]

theorem list : ∃ nodes, usage.pool.memory.Linked usage.pool.head nodes ∧
    nodes.Pairwise (· < ·) ∧ ∀ node, node ∈ nodes ↔ ∃ arena ∈ usage.pool.arenas,
      node = arena.sentinel ∨ node ∈ usage.pool.blocks arena ∧ usage.pool.isFree node = true := by
  refine ⟨links layout.cells, ?_, links_sorted regular.ordered, fun node => ?_⟩
  · rw [regular.realizes.head]
    exact linked_of_shown regular.realizes.shown regular.ordered
  · rw [mem_links]
    constructor
    · rintro ⟨cell, member, listed, rfl⟩
      by_cases ending : cell.state = .sentinel
      · obtain ⟨arena, registered, same⟩ := regular.mem_sentinels.mpr ⟨cell, member, ending, rfl⟩
        exact ⟨arena, registered, Or.inl same.symm⟩
      · obtain ⟨arena, registered, inside⟩ := regular.mem_blocks.mpr ⟨cell, member, ending, rfl⟩
        refine ⟨arena, registered, Or.inr ⟨inside, (regular.has_eq member _).trans ?_⟩⟩
        cases state : cell.state <;> simp_all [Cell.listed]
    · rintro ⟨arena, registered, rfl | ⟨inside, free⟩⟩
      · obtain ⟨cell, member, ending, same⟩ :=
          regular.mem_sentinels.mp ⟨arena, registered, rfl⟩
        exact ⟨cell, member, by simp [Cell.listed, ending], same⟩
      · obtain ⟨cell, member, _, rfl⟩ := regular.mem_blocks.mp ⟨arena, registered, inside⟩
        rw [isFree, regular.has_eq member, decide_eq_true_eq] at free
        exact ⟨cell, member, by simp [Cell.listed, free], rfl⟩

theorem represented : usage.pool.Represented usage.live where
  filled := fun arena member => regular.filled member
  block := fun arena registered block inside => by
    obtain ⟨cell, member, notSentinel, rfl⟩ := regular.mem_blocks.mp ⟨arena, registered, inside⟩
    have valid := regular.wellFormed.tiled.valid cell member
    rw [regular.sizeAt_eq member, isFree, regular.has_eq member, regular.has_eq member]
    refine ⟨valid.sizeAligned, valid.block notSentinel, ?_⟩
    cases state : cell.state with
    | free => exact Or.inl rfl
    | sentinel => exact absurd state notSentinel
    | allocated =>
      have held := mem_payloads.mpr ⟨cell, member, state, rfl⟩
      exact Or.inr ⟨rfl, regular.realizes.shown.next_eq_zero member state,
        regular.live.mem_iff.mpr held⟩
  sentinel := fun arena registered => by
    obtain ⟨cell, member, ending, same⟩ := regular.mem_sentinels.mp ⟨arena, registered, rfl⟩
    have size := (regular.wellFormed.tiled.valid cell member).sentinel ending
    rw [← same, regular.has_eq member, regular.sizeAt_eq member]
    exact ⟨decide_eq_true ending, size⟩
  distinct := regular.live.nodup_iff.mpr regular.ordered.payloads_nodup
  owned := fun address held => by
    obtain ⟨cell, member, allocated, rfl⟩ := regular.cell_of_live held
    obtain ⟨arena, registered, inside⟩ :=
      regular.mem_blocks.mpr ⟨cell, member, by simp [allocated], rfl⟩
    exact ⟨arena, registered, cell.address, inside, rfl,
      (regular.has_eq member .allocated).trans (decide_eq_true allocated)⟩
  list := regular.list
  merged := fun arena registered block inside other otherInside =>
    regular.merged ⟨arena, registered, inside⟩ ⟨arena, registered, otherInside⟩
  freeSize := regular.freeSize_eq
  poolSize := by rw [regular.realizes.poolSize, regular.realizes.arenas]
  bytes := regular.bytes_eq

end Headers

end Regular

/-- Whatever the operations of a run and whatever their clients write to their own memory, the
    headers of the pool represent what the clients hold. -/
theorem run_represented (memory : Memory) (events : List Event)
    (proper : (Usage.start memory).Along Usage.Proper events)
    (guarded : (Usage.start memory).Along Usage.Guarded events) :
    ((Usage.start memory).run events).pool.Represented ((Usage.start memory).run events).live :=
  ((Regular.start memory).run proper guarded).represented

/-- A region is taken, a block of it allocated, written to, given back twice, and asked for
    again. -/
def sampleRun : List Event :=
  [.call (.addArena 4096 8192), .call (.allocate 100), .write 4120 2 [0x43, 0x4c],
    .call (.free 4120), .call (.free 4120), .call (.allocateZeroed 5 8)]

theorem sampleRun_layout : Layout.empty.run (sampleRun.take 2) =
    ⟨[⟨4096, 128, .allocated⟩, ⟨4224, 3944, .free⟩, ⟨8168, 0, .sentinel⟩], [⟨4096, 8168⟩], 1, 0⟩ :=
  rfl

theorem sampleRun_represented :
    ((Usage.start .zeroed).run sampleRun).pool.Represented
      ((Usage.start .zeroed).run sampleRun).live := by
  have region : (Usage.start .zeroed).Proper (.call (.addArena 4096 8192)) :=
    ⟨by decide, by decide, fun _ _ _ _ => Memory.byte_zeroed _⟩
  have granted : Regular ((Usage.start .zeroed).run (sampleRun.take 2))
      (Layout.empty.run (sampleRun.take 2)) :=
    (Regular.start .zeroed).run ⟨region, trivial, trivial⟩ ⟨trivial, trivial, trivial⟩
  rw [sampleRun_layout] at granted
  have held : 4120 ∈ ((Usage.start .zeroed).run (sampleRun.take 2)).live :=
    granted.live.mem_iff.mpr (by decide)
  have room : ((Usage.start .zeroed).run (sampleRun.take 2)).pool.capacity? 4120 = some 104 :=
    granted.capacity List.mem_cons_self rfl
  refine run_represented .zeroed sampleRun
    ⟨region, trivial, ⟨held, ?_⟩, trivial, trivial, trivial, trivial⟩
    ⟨trivial, trivial, trivial, fun _ _ => held, fun _ forged => ?_, trivial, trivial⟩
  · exact room.symm ▸ (by decide : 2 + 2 ≤ 104)
  · have unforged := Usage.call_unforged (Usage.call_unforged (Usage.start_unforged .zeroed)
      (.addArena 4096 8192)) (.allocate 100)
    have behind := forged.resolve_left (unforged _)
    exact absurd behind.high (by decide)

end Pool

end FirmwareLink

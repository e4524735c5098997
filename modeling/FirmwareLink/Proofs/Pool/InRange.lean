import FirmwareLink.Proofs.Pool.Checked

namespace FirmwareLink.Pool

variable {pool : Pool} {layout : Layout} {cells before after : List Cell} {cell : Cell}
  {start stop limit : Nat}

section Bounds

/-- Arenas lie side by side, so together they are no larger than what lies below the end of the
    last one. -/
theorem Tiled.spans_lt {low : Nat} (tiled : Tiled cells)
    (above : ∀ cell ∈ cells, low ≤ cell.address) (bounded : low < UInt64.size) :
    low + ((spans none cells).map Arena.span).sum < UInt64.size := by
  have closed := tiled.closed
  -- Each arena leaves the next ones what is above its own end.
  induction cells, closed using Closed.arenas_induction generalizing low with
  | nil => exact bounded
  | arena blocks sentinel rest plain ending _ ih =>
    have stop := (tiled.valid sentinel (by simp)).bounded
    rw [Cell.stop, if_pos ending] at stop
    have further : ∀ cell ∈ rest, sentinel.address + headerSize ≤ cell.address := by
      intro cell member
      have after := tiled.ordered.right.stop_le_of_cons member
      rwa [Cell.stop, if_pos ending] at after
    have later := ih tiled.right.tail further stop
    have last := above sentinel (by simp)
    have first : low ≤ ((blocks.head?).getD sentinel).address := by
      cases blocks with
      | nil => exact last
      | cons block others => exact above block (by simp)
    rw [spans_arena plain ending, List.map_cons, List.sum_cons, Arena.span]
    dsimp only
    omega

namespace Realizes

variable (realizes : pool.Realizes layout) (wellFormed : layout.WellFormed)

include realizes wellFormed

theorem poolSize_lt : pool.poolSize < UInt64.size := by
  have total : 0 + _ < UInt64.size :=
    wellFormed.tiled.spans_lt (fun _ _ => Nat.zero_le _) (by decide)
  rw [realizes.poolSize, (wellFormed.table.map _).sum_nat]
  omega

theorem freeSize_le : pool.freeSize ≤ pool.poolSize := by
  have bytes := wellFormed.tiled.bytes
  rw [realizes.freeSize, realizes.poolSize, (wellFormed.table.map _).sum_nat]
  omega

end Realizes

end Bounds

section Threaded

theorem links_length (start? : Option Nat) :
    (links cells).length = (vacancies cells).length + (spans start? cells).length := by
  induction cells generalizing start? with
  | nil => rfl
  | cons cell rest ih =>
    rw [links_cons, vacancies_cons, spans]
    cases state : cell.state with
    | free => simp [Cell.listed, state, ih (some (start?.getD cell.address))]; omega
    | allocated => simp [Cell.listed, state, ih (some (start?.getD cell.address))]
    | sentinel => simp [Cell.listed, state, ih none]; omega

theorem threaded_of_shown (head : pool.head = (links cells).head?.getD 0)
    (shown : Shown pool.memory cells 0) (ordered : Ordered cells)
    (inside : ∀ cell ∈ cells, pool.arenas.any (·.hasNodeAt cell.address) = true)
    (few : (links cells).length ≤ limit) : pool.Threaded limit := by
  have nodes := Pool.nodes_eq head shown ordered
  refine ⟨?_, ?_, ?_, ?_⟩
  · rw [nodes, head]
    exact linked_of_shown shown ordered
  · rw [nodes]
    exact (links_sorted ordered).imp Nat.ne_of_lt
  · rw [nodes]
    intro node member
    obtain ⟨cell, inCells, _, rfl⟩ := mem_links.mp member
    exact inside cell inCells
  · rwa [nodes]

section Free

variable {link node : Nat} (shown : Shown pool.memory cells link) (ordered : Ordered cells)
  (member : node ∈ links cells) (free : (pool.block node).has .free = true)

include shown ordered member free

theorem Shown.free_cell : ∃ cell ∈ cells, cell.state = .free ∧ (pool.block node).size = cell.size ∧
    headerSize ≤ cell.size ∧ node + cell.size < UInt64.size := by
  obtain ⟨cell, inCells, _, rfl⟩ := mem_links.mp member
  have valid := ordered.valid cell inCells
  have tag : (pool.block cell.address).has .free = decide (cell.state = .free) :=
    shown.has_eq inCells .free
  rw [tag, decide_eq_true_eq] at free
  have block : cell.state ≠ .sentinel := by simp [free]
  have bounded := valid.bounded
  rw [Cell.stop_of_block block] at bounded
  exact ⟨cell, inCells, free, shown.size_eq inCells, valid.header_le_size block, bounded⟩

theorem Shown.free_lt : node + (pool.block node).size < UInt64.size := by
  obtain ⟨cell, _, _, size, _, bounded⟩ := shown.free_cell ordered member free
  rwa [size]

theorem Shown.counted (total : freeBytes cells ≤ pool.freeSize) : pool.Counted node := by
  obtain ⟨cell, inCells, vacant, size, room, bounded⟩ := shown.free_cell ordered member free
  have serves : cell.Serves (cell.size - headerSize) := ⟨vacant, by omega⟩
  constructor
  · rwa [size]
  · rw [size]
    exact Nat.le_trans (serves.size_le_freeBytes inCells) total
  · rwa [size]

end Free

/-- Whatever a block is joined with, what comes of it ends within 64 bits: it is a cell of the
    layout that freeing makes. -/
theorem Loose.restore?_eq (loose : Loose pool before cell after)
    (tiled : Tiled (before ++ cell :: after)) (block : cell.state ≠ .sentinel)
    (threaded : pool.Threaded limit) :
    pool.restore? limit cell.address = some (pool.restore cell.address) := by
  have ordered := tiled.ordered
  obtain ⟨shownBefore, _⟩ := Shown.append.mp loose.shown
  obtain ⟨address, hangs⟩ := loose.hangs tiled block
  obtain ⟨merged, free, _⟩ := mergeBelow_ordered tiled block
  have own := (ordered.block_lt block).1
  have grown := (merged.block_lt (by simp [free])).1
  have below : pool.joinBelow? (links before).getLast? cell.address = _ := joinBelow?_eq
    (fun low last tagged => shownBefore.free_lt ordered.left (List.mem_of_getLast? last) tagged)
    (loose.size.symm ▸ own)
  have next : (links after).head?.getD 0 ≠ 0 → (links after).head?.getD 0 ∈ links after := by
    intro more
    cases first : (links after).head? with
    | none => simp [first] at more
    | some node => exact List.mem_of_mem_head? first
  rw [threaded.restore?_eq, loose.neighbours_eq ordered, below, Option.bind_some,
    loose.restore_eq tiled, address]
  apply joinAbove?_eq (hangs.size.symm ▸ grown)
  exact fun more tagged => hangs.after.free_lt ordered.right.tail (next more) tagged

theorem Realizes.hasNode (realizes : pool.Realizes layout) (wellFormed : layout.WellFormed)
    (member : cell ∈ layout.cells) : pool.arenas.any (·.hasNodeAt cell.address) = true := by
  obtain ⟨arena, inSpans, low, high, _⟩ := wellFormed.tiled.mem_arena member
  rw [realizes.arenas, List.any_eq_true]
  refine ⟨arena, wellFormed.table.mem_iff.mpr inSpans, ?_⟩
  simp only [Arena.hasNodeAt, Bool.and_eq_true, decide_eq_true_eq]
  exact ⟨low, high⟩

end Threaded

namespace Regular

variable {usage : Usage} {address : Nat} (regular : Regular usage layout)

include regular

theorem walkLimit_eq : usage.pool.walkLimit = (links layout.cells).length := by
  rw [walkLimit, links_length none, regular.freeBlocks_perm.length_eq, regular.realizes.arenas,
    regular.wellFormed.table.length_eq]

theorem threaded : usage.pool.Threaded usage.pool.walkLimit :=
  threaded_of_shown regular.realizes.head regular.realizes.shown regular.ordered
    (fun _ member => regular.realizes.hasNode regular.wellFormed member)
    (Nat.le_of_eq regular.walkLimit_eq.symm)

theorem sentinel_lt {arena : Arena} (registered : arena ∈ usage.pool.arenas) :
    arena.sentinel + headerSize < UInt64.size := by
  obtain ⟨cell, member, ending, address⟩ := regular.mem_sentinels.mp ⟨arena, registered, rfl⟩
  have bounded := (regular.wellFormed.tiled.valid cell member).bounded
  rwa [Cell.stop, if_pos ending, address] at bounded

theorem addArena?_eq (positive : 0 < start) (bounded : stop < UInt64.size)
    (low : start + alignment < UInt64.size) :
    (usage.pool.addArena? start stop).map (·.map .ok) = some (usage.pool.addArena start stop) := by
  have wellFormed := regular.wellFormed.addArena positive bounded
  have realizes := (addArena_matches regular.realizes regular.wellFormed positive bounded).realizes
  have poolSize := realizes.poolSize_lt wellFormed
  have freeSize := Nat.lt_of_le_of_lt (realizes.freeSize_le wellFormed) poolSize
  exact Pool.addArena?_eq regular.threaded (fun _ => regular.sentinel_lt) low poolSize freeSize

theorem counted : ∀ node ∈ usage.pool.nodes, (usage.pool.block node).has .free = true →
    usage.pool.Counted node := by
  intro node member free
  rw [regular.realizes.nodes_eq regular.wellFormed] at member
  exact regular.realizes.shown.counted regular.ordered member free
    (Nat.le_of_eq regular.realizes.freeSize.symm)

theorem allocate?_eq (bytes : Nat) :
    usage.pool.allocate? bytes = some (usage.pool.allocate bytes) :=
  Pool.allocate?_eq regular.threaded regular.counted

section Restore

variable (split : layout.cells = before ++ cell :: after) (allocated : cell.state = .allocated)

include split allocated

theorem unmark_threaded : (usage.pool.unmark cell.address).Threaded usage.pool.walkLimit := by
  have ordered := regular.ordered
  have limit := regular.walkLimit_eq
  have unlisted : cell.listed = false := by simp [Cell.listed, allocated]
  rw [split] at ordered limit
  have loose := unmark_loose regular.realizes split ordered allocated
  -- The block is marked free but not in the list yet, so the walk is no longer than before.
  refine threaded_of_shown loose.head loose.shown ordered.without ?_ ?_
  · intro other member
    have inCells : other ∈ layout.cells := by
      rw [split]
      exact (List.Sublist.append_left (List.sublist_cons_self cell after) before).subset member
    rw [unmark_arenas]
    exact regular.realizes.hasNode regular.wellFormed inCells
  · rw [limit, links_append, links_append, links_cons, unlisted]
    rfl

theorem restore?_eq : (usage.pool.unmark cell.address).restore? usage.pool.walkLimit cell.address =
    some ((usage.pool.unmark cell.address).restore cell.address) := by
  have tiled := regular.wellFormed.tiled
  rw [split] at tiled
  have loose := unmark_loose regular.realizes split tiled.ordered allocated
  exact loose.restore?_eq tiled (by simp [allocated]) (regular.unmark_threaded split allocated)

end Restore

section Guarded

variable (guarded : (usage.pool.liveHeader? address).isSome → usage.forged (address - 8) →
  address ∈ usage.live)

include guarded

theorem free?_eq : usage.pool.free? address = some (usage.pool.free address) := by
  have header := regular.header guarded
  have wellFormed := regular.wellFormed.free address
  have realizes := (free_matches regular.realizes regular.wellFormed header).realizes
  have freeSize := Nat.lt_of_le_of_lt (realizes.freeSize_le wellFormed)
    (realizes.poolSize_lt wellFormed)
  rw [free?, Pool.free]
  cases held : layout.held? address with
  | none =>
    rw [header, held]
    rfl
  | some cell =>
    obtain ⟨member, allocated, _⟩ := Layout.held?_eq_some held
    obtain ⟨before, after, split⟩ := List.append_of_mem member
    have restored := regular.restore?_eq split allocated
    rw [held] at header
    rw [free_eq header, restore_frame] at freeSize
    have counted := sum?_eq (show usage.pool.freeSize + (usage.pool.block cell.address).size <
      UInt64.size from freeSize)
    rw [header]
    simp only [Option.map_some, counted, Option.bind_eq_bind, Option.bind_some]
    rw [unmark] at restored
    rw [restored]
    rfl

theorem capacity_cases : usage.pool.capacity address = .ok none ∨
    ∃ cell ∈ layout.cells, cell.state = .allocated ∧ cell.payload = address ∧
      usage.pool.capacity address = .ok (some (cell.size - headerSize)) := by
  rw [regular.realizes.capacity_eq regular.wellFormed (regular.header guarded), Layout.capacity?]
  cases held : layout.held? address with
  | none => exact Or.inl rfl
  | some cell =>
    obtain ⟨member, allocated, payload⟩ := Layout.held?_eq_some held
    exact Or.inr ⟨cell, member, allocated, payload, rfl⟩

end Guarded

theorem reallocate?_eq (address? : Option Nat) (bytes : Nat)
    (guarded : usage.Guarded (.call (.reallocate address? bytes))) :
    (usage.pool.reallocate? address? bytes).map (·.map .ok) =
      some (usage.pool.reallocate address? bytes) := by
  cases address? with
  | none =>
    rw [reallocate?, Pool.reallocate, regular.allocate?_eq]
    rfl
  | some address =>
    rw [reallocate?, Pool.reallocate]
    dsimp only
    rcases regular.capacity_cases guarded with
      absent | ⟨old, member, allocated, rfl, present⟩
    · rw [absent]
      rfl
    · have measured : (usage.pool.capacity old.payload).toOption = some (some _) :=
        congrArg Except.toOption present
      rw [measured, present]
      by_cases enough : bytes ≤ old.size - headerSize
      · simp [enough]
      · rcases regular.allocate bytes with
          ⟨notes, refused, _⟩ | ⟨cell, pool, next, granted, _, room, grants, gained, _⟩
        · simp [enough, regular.allocate?_eq, refused]
        · have stored := regular.store member allocated grants (by omega) gained
          have owned : old.payload ∈ usage.live :=
            regular.live.mem_iff.mpr (mem_payloads.mpr ⟨old, member, allocated, rfl⟩)
          let written := pool.write cell.payload
            (pool.memory.read old.payload (old.size - headerSize))
          have freed : written.free? old.payload = some (written.free old.payload) :=
            stored.free?_eq fun _ _ => List.mem_cons_of_mem _ owned
          simp only [written, Pool.write] at freed
          simp [enough, regular.allocate?_eq, granted, freed]

end Regular

/-- A region starts where its start can be aligned, and no pointer that passes for an allocation
    because of a forged tag is given back or measured. -/
def Usage.Trusts (usage : Usage) : Operation → Prop
  | .addArena start _ => start + alignment < UInt64.size
  | .capacity address =>
    (usage.pool.liveHeader? address).isSome → usage.forged (address - 8) → address ∈ usage.live
  | operation => usage.Guarded (.call operation)

/-- Walks end, at no more nodes than there are free blocks and arenas, and every operation does on
    64-bit words what it does on numbers. -/
structure Usage.InRange (usage : Usage) : Prop where
  threaded : usage.pool.Threaded usage.pool.walkLimit
  headers : ∀ node ∈ usage.pool.nodes,
    node ∈ usage.pool.freeBlocks ∨ ∃ arena ∈ usage.pool.arenas, arena.sentinel = node
  performs : ∀ operation, usage.Proper (.call operation) → usage.Trusts operation →
    usage.pool.perform? operation = some (usage.pool.perform operation)

namespace Regular

variable {usage : Usage} (regular : Regular usage layout)

include regular

theorem headers {node : Nat} (member : node ∈ usage.pool.nodes) :
    node ∈ usage.pool.freeBlocks ∨ ∃ arena ∈ usage.pool.arenas, arena.sentinel = node := by
  rw [regular.realizes.nodes_eq regular.wellFormed] at member
  obtain ⟨cell, inCells, listed, rfl⟩ := mem_links.mp member
  rw [regular.mem_freeBlocks, regular.mem_sentinels]
  cases state : cell.state with
  | free => exact Or.inl ⟨cell, inCells, state, rfl⟩
  | sentinel => exact Or.inr ⟨cell, inCells, state, rfl⟩
  | allocated => simp [Cell.listed, state] at listed

theorem perform?_eq (operation : Operation) (proper : usage.Proper (.call operation))
    (trusts : usage.Trusts operation) :
    usage.pool.perform? operation = some (usage.pool.perform operation) := by
  cases operation with
  | addArena start stop => exact answered (regular.addArena?_eq proper.1 proper.2.1 trusts) _
  | allocate bytes => rw [perform?, regular.allocate?_eq]; rfl
  | allocateZeroed count size =>
    rw [perform?, allocateZeroed?_eq (regular.allocate?_eq _)]
    rfl
  | reallocate address? bytes => exact answered (regular.reallocate?_eq address? bytes trusts) _
  | free address => rw [perform?, regular.free?_eq trusts]; rfl
  | capacity address =>
    rw [perform?, perform]
    rcases regular.capacity_cases trusts with absent | ⟨_, _, _, _, present⟩
    · rw [absent]
      rfl
    · rw [present]
      rfl
  | contains address =>
    have covered := anyM_eq fun arena registered =>
      Arena.covers?_eq (regular.sentinel_lt registered) address
    rw [perform?, covered]
    rfl
  | stats =>
    obtain ⟨stats, checked, told⟩ :=
      Option.map_eq_some_iff.mp (stats?_eq regular.threaded regular.counted)
    rw [perform?, perform, checked, ← told]
    rfl

end Regular

/-- Whatever was asked of a pool before, no walk and no computation of the next operation fails. -/
theorem run_inRange (memory : Memory) (events : List Event)
    (proper : (Usage.start memory).Along Usage.Proper events)
    (guarded : (Usage.start memory).Along Usage.Guarded events) :
    ((Usage.start memory).run events).InRange := by
  have regular := (Regular.start memory).run proper guarded
  exact ⟨regular.threaded, fun _ => regular.headers, regular.perform?_eq⟩

def forgedHeader : Bytes := List.replicate 16 0 ++ Bytes.littleEndian 8 BlockState.allocated.tag

/-- A client puts such a header into its block. -/
def forgedRun : List Event :=
  [.call (.addArena 4096 5120), .call (.allocate 64), .write 4120 0 forgedHeader]

theorem forgedRun_eq : (Usage.start .zeroed).run forgedRun =
    ((Usage.start .zeroed).run (forgedRun.take 2)).write 4120 forgedHeader := rfl

theorem forgedRun_layout : Layout.empty.run (forgedRun.take 2) =
    ⟨[⟨4096, 88, .allocated⟩, ⟨4184, 912, .free⟩, ⟨5096, 0, .sentinel⟩], [⟨4096, 5096⟩], 1, 0⟩ :=
  rfl

theorem forgedRun_region : (Usage.start .zeroed).Proper (.call (.addArena 4096 5120)) :=
  ⟨by decide, by decide, fun _ _ _ _ => Memory.byte_zeroed _⟩

theorem forgedRun_regular : Regular ((Usage.start .zeroed).run (forgedRun.take 2))
    ⟨[⟨4096, 88, .allocated⟩, ⟨4184, 912, .free⟩, ⟨5096, 0, .sentinel⟩], [⟨4096, 5096⟩], 1, 0⟩ := by
  rw [← forgedRun_layout]
  exact (Regular.start .zeroed).run ⟨forgedRun_region, trivial, trivial⟩
    ⟨trivial, trivial, trivial⟩

theorem forgedRun_held : 4120 ∈ ((Usage.start .zeroed).run (forgedRun.take 2)).live :=
  forgedRun_regular.live.mem_iff.mpr (by decide)

theorem forgedRun_proper : (Usage.start .zeroed).Along Usage.Proper forgedRun := by
  have room : ((Usage.start .zeroed).run (forgedRun.take 2)).pool.capacity? 4120 = some 64 :=
    forgedRun_regular.capacity List.mem_cons_self rfl
  refine ⟨forgedRun_region, trivial, ⟨forgedRun_held, ?_⟩, trivial⟩
  exact room.symm ▸ (by decide : 0 + 24 ≤ 64)

theorem forgedRun_inRange : ((Usage.start .zeroed).run forgedRun).InRange ∧
    ((Usage.start .zeroed).run forgedRun).pool.perform? (.free 4120) =
      some (((Usage.start .zeroed).run forgedRun).pool.perform (.free 4120)) := by
  have inRange := run_inRange .zeroed forgedRun forgedRun_proper
    ⟨trivial, trivial, trivial, trivial⟩
  have held : 4120 ∈ ((Usage.start .zeroed).run forgedRun).live := by
    rw [forgedRun_eq, Usage.live_write]
    exact forgedRun_held
  exact ⟨inRange, inRange.performs (.free 4120) trivial fun _ _ => held⟩

theorem arenas_write (pool : Pool) (address : Nat) (bytes : Bytes) :
    (pool.write address bytes).arenas = pool.arenas := rfl

theorem forged_capacity {address : Nat} (aligned : alignment ∣ address)
    (inside : pool.arenas.any (·.hasHeaderAt address) = true) :
    (pool.write address forgedHeader).capacity (address + headerSize) = .error .overflow := by
  have next : (pool.memory.write address forgedHeader).word address = 0 :=
    (Memory.word_write _ address 0 _ (by decide)).trans (by decide)
  have size : (pool.memory.write address forgedHeader).word (address + 8) = 0 :=
    (Memory.word_write _ address 8 _ (by decide)).trans (by decide)
  have tag : (pool.memory.write address forgedHeader).word (address + 16) =
      BlockState.allocated.tag :=
    (Memory.word_write _ address 16 _ (by decide)).trans (by decide)
  have header : (pool.write address forgedHeader).block address =
      ⟨0, 0, BlockState.allocated.tag⟩ := by
    simp only [block, Memory.block, write, next, size, tag]
  have live : (pool.write address forgedHeader).liveHeader? (address + headerSize) =
      some address := by
    have pointer : (address + headerSize) % alignment = 0 :=
      Nat.mod_eq_zero_of_dvd (Nat.dvd_add aligned (by decide))
    rw [liveHeader?, Nat.add_sub_cancel, header, arenas_write]
    exact if_pos ⟨pointer, Nat.le_add_left _ _, inside, rfl, rfl⟩
  rw [capacity_of_header live, header]
  rfl

/-- Nothing forged is given back, but a pointer behind the forged header is measured, and that it
    is no allocation is not told. -/
theorem forgedRun_capacity :
    (Usage.start .zeroed).Along Usage.Proper forgedRun ∧
      (Usage.start .zeroed).Along Usage.Guarded forgedRun ∧
      ((Usage.start .zeroed).run forgedRun).Guarded (.call (.capacity 4144)) ∧
      4144 ∉ ((Usage.start .zeroed).run forgedRun).live ∧
      ((Usage.start .zeroed).run forgedRun).pool.capacity 4144 = .error .overflow ∧
      ((Usage.start .zeroed).run forgedRun).pool.perform? (.capacity 4144) = none := by
  have fault : ((Usage.start .zeroed).run forgedRun).pool.capacity 4144 = .error .overflow := by
    rw [forgedRun_eq]
    apply forged_capacity (by decide : alignment ∣ 4120)
    rw [forgedRun_regular.realizes.arenas]
    decide
  refine ⟨forgedRun_proper, ⟨trivial, trivial, trivial, trivial⟩, trivial, ?_, fault, ?_⟩
  · rw [forgedRun_eq, Usage.live_write, forgedRun_regular.live.mem_iff]
    decide
  · rw [perform?, fault]
    rfl

end FirmwareLink.Pool

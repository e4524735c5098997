import FirmwareLink.Proofs.Pool.FirstFit
import FirmwareLink.Proofs.Pool.Foreign
import FirmwareLink.Proofs.Pool.Restoration

namespace FirmwareLink

open Pool

namespace Pool

structure Moves (pool : Pool) (live : List Nat) (previous capacity bytes moved : Nat)
    (after : Pool) : Prop where
  lowest : ∃ block ∈ pool.freeBlocks, moved = block + headerSize ∧
    bytes ≤ pool.payloadAt block ∧
      ∀ other ∈ pool.freeBlocks, bytes ≤ pool.payloadAt other → block ≤ other
  grown : ∃ granted, after.capacity? moved = some granted ∧ bytes ≤ granted ∧
    ∀ other ∈ live, ∀ room, pool.capacity? other = some room →
      moved + granted ≤ other ∨ other + room ≤ moved
  content : ∀ index < capacity,
    after.memory.byte (moved + index) = pool.memory.byte (previous + index)
  others : ∀ other ∈ live, other ≠ previous → ∀ room, pool.capacity? other = some room →
    after.capacity? other = some room ∧
      ∀ index < room, after.memory.byte (other + index) = pool.memory.byte (other + index)
  live : ∀ address, (∃ room, after.capacity address = .ok (some room)) ↔
    address = moved ∨ address ∈ live ∧ address ≠ previous
  released : after.capacity previous = .ok none
  allocations : after.allocations = pool.allocations + 1
  frees : after.frees = pool.frees + 1

structure Resizes (pool : Pool) (live : List Nat) (bytes : Nat) : Prop where
  absent : pool.reallocate none bytes = (pool.allocate bytes).map .ok
  foreign : ∀ address ∉ live, pool.reallocate (some address) bytes = ⟨.ok none, pool, []⟩
  sized : ∀ address ∈ live, (pool.capacity? address).isSome
  stays : ∀ address ∈ live, ∀ capacity, pool.capacity? address = some capacity →
    bytes ≤ capacity → pool.reallocate (some address) bytes = ⟨.ok (some address), pool, []⟩
  moves : ∀ address ∈ live, ∀ capacity, pool.capacity? address = some capacity →
    capacity < bytes → (∃ block ∈ pool.freeBlocks, bytes ≤ pool.payloadAt block) →
      ∃ moved, (pool.reallocate (some address) bytes).value = .ok (some moved) ∧
        pool.Moves live address capacity bytes moved (pool.reallocate (some address) bytes).pool
  refuses : ∀ address ∈ live, ∀ capacity, pool.capacity? address = some capacity →
    capacity < bytes → (∀ block ∈ pool.freeBlocks, pool.payloadAt block < bytes) →
      (pool.reallocate (some address) bytes).value = .ok none ∧
        (pool.reallocate (some address) bytes).pool = pool

section Reallocate

variable {pool : Pool} {address capacity bytes moved : Nat}

theorem reallocate_of_le (present : pool.capacity? address = some capacity)
    (enough : bytes ≤ capacity) :
    pool.reallocate (some address) bytes = ⟨.ok (some address), pool, []⟩ := by
  simp only [reallocate, capacity?_eq_some.mp present, if_pos enough]

theorem reallocate_of_refused (present : pool.capacity? address = some capacity)
    (short : capacity < bytes) (refused : (pool.allocate bytes).value = none) :
    pool.reallocate (some address) bytes = (pool.allocate bytes).map .ok := by
  simp only [reallocate, capacity?_eq_some.mp present, if_neg (Nat.not_le_of_lt short), refused]

theorem reallocate_of_granted (present : pool.capacity? address = some capacity)
    (short : capacity < bytes) (granted : (pool.allocate bytes).value = some moved) :
    (pool.reallocate (some address) bytes).value = .ok (some moved) := by
  simp only [reallocate, capacity?_eq_some.mp present, if_neg (Nat.not_le_of_lt short), granted]

theorem Usage.content_reallocate (usage : Usage) {granted place : Nat}
    (present : usage.pool.capacity? address = some capacity)
    (value : (usage.pool.reallocate (some address) bytes).value = .ok (some moved))
    (differ : moved ≠ address)
    (room : (usage.pool.reallocate (some address) bytes).pool.capacity? moved = some granted) :
    (usage.call (.reallocate (some address) bytes)).content place =
      if moved ≤ place ∧ place < moved + capacity then
        some (usage.pool.memory.byte (address + (place - moved)))
      else if moved ≤ place ∧ place < moved + granted then none
      else usage.content place := by
  simp only [Usage.call, perform, Outcome.map, Answer.ofResult, value, if_neg differ, present,
    Option.getD_some]
  exact Usage.content_move room

theorem Usage.live_reallocate (usage : Usage)
    (value : (usage.pool.reallocate (some address) bytes).value = .ok (some moved))
    (differ : moved ≠ address) :
    (usage.call (.reallocate (some address) bytes)).live = moved :: usage.live.erase address := by
  simp only [Usage.call, perform, Outcome.map, Answer.ofResult, value, if_neg differ]
  rfl

end Reallocate

structure Layout.Regrants (layout next : Layout) (old cell : Cell) : Prop where
  member : cell ∈ next.cells
  allocated : cell.state = .allocated
  differ : cell.payload ≠ old.payload
  grows : old.size ≤ cell.size
  kept : ∀ other ∈ layout.cells, other.state = .allocated → other.payload ≠ old.payload →
    other ∈ next.cells
  apart : ∀ other ∈ layout.cells, other.state = .allocated →
    cell.payload + (cell.size - headerSize) ≤ other.payload ∨
      other.payload + (other.size - headerSize) ≤ cell.payload
  allocations : next.allocations = layout.allocations + 1
  frees : next.frees = layout.frees + 1

theorem Ordered.payloads_apart {cells : List Cell} (ordered : Ordered cells) {one other : Cell}
    (oneMember : one ∈ cells) (otherMember : other ∈ cells) (oneAllocated : one.state = .allocated)
    (otherAllocated : other.state = .allocated) (differ : one ≠ other) :
    one.payload + (one.size - headerSize) ≤ other.payload ∨
      other.payload + (other.size - headerSize) ≤ one.payload := by
  have oneBlock : one.state ≠ .sentinel := by simp [oneAllocated]
  have otherBlock : other.state ≠ .sentinel := by simp [otherAllocated]
  have oneRoom := (ordered.valid one oneMember).block oneBlock
  have otherRoom := (ordered.valid other otherMember).block otherBlock
  have apart := ordered.apart oneMember otherMember differ
  rw [Cell.stop_of_block oneBlock, Cell.stop_of_block otherBlock] at apart
  simp only [Cell.payload, headerSize] at oneRoom otherRoom ⊢
  omega

namespace Regular

variable {usage : Usage} {layout : Layout} {old cell : Cell} {address capacity bytes moved : Nat}

theorem cell_of_sized (regular : Regular usage layout) (held : address ∈ usage.live)
    (sized : usage.pool.capacity? address = some capacity) :
    ∃ cell ∈ layout.cells, cell.state = .allocated ∧ cell.payload = address ∧
      cell.size - headerSize = capacity := by
  obtain ⟨cell, member, allocated, rfl⟩ := regular.cell_of_live held
  rw [regular.capacity member allocated] at sized
  exact ⟨cell, member, allocated, rfl, Option.some.inj sized⟩

theorem regrants (regular : Regular usage layout) (unforged : ∀ place, ¬usage.forged place)
    (member : old ∈ layout.cells) (allocated : old.state = .allocated)
    (short : old.size - headerSize < bytes)
    (granted : (usage.pool.allocate bytes).value = some moved) :
    ∃ cell, cell.payload = moved ∧ bytes + headerSize ≤ cell.size ∧
      layout.Regrants (layout.reallocate (some old.payload) bytes).layout old cell := by
  obtain ⟨cell, rfl, enough, lends⟩ := regular.lends_allocate granted
  have value := (regular.call_allocate bytes).2.value.symm.trans granted
  have present := regular.capacity member allocated
  rw [regular.capacity?_eq unforged] at present
  have follows : (layout.reallocate (some old.payload) bytes).layout =
      ((layout.allocate bytes).layout.free old.payload).layout := by
    simp only [Layout.reallocate, present, if_neg (Nat.not_le_of_lt short), value]
  have still := lends.grants.kept old member allocated
  have differ := lends.grants.differ lends.regular.ordered member allocated
  have held := mem_payloads.mpr ⟨old, still, allocated, rfl⟩
  obtain ⟨_, allocations, frees⟩ := (layout.allocate bytes).layout.free_counters old.payload
  rw [if_pos held, lends.frees] at frees
  rw [follows]
  rcases Layout.free_frees lends.regular.wellFormed old.payload with
    ⟨gone, _⟩ | ⟨last, freed, settled⟩
  · exact absurd held gone
  · rw [freed] at allocations frees ⊢
    refine ⟨cell, rfl, enough, ?_, lends.grants.allocated, differ, by omega, ?_, ?_,
      allocations.trans lends.allocations, frees⟩
    · exact settled.kept cell lends.grants.member lends.grants.allocated differ
    · intro other otherMember otherAllocated other_differs
      have kept := lends.grants.kept other otherMember otherAllocated
      exact settled.kept other kept otherAllocated other_differs
    · intro other otherMember otherAllocated
      have kept := lends.grants.kept other otherMember otherAllocated
      apply lends.regular.ordered.payloads_apart lends.grants.member kept lends.grants.allocated
        otherAllocated
      rintro rfl
      exact lends.grants.differ lends.regular.ordered otherMember otherAllocated rfl

theorem bytes_moved (regular : Regular usage layout) (unforged : ∀ place, ¬usage.forged place)
    (member : old ∈ layout.cells) (allocated : old.state = .allocated)
    (value : (usage.pool.reallocate (some old.payload) bytes).value = .ok (some cell.payload))
    (regrants : layout.Regrants (layout.reallocate (some old.payload) bytes).layout old cell) :
    let after := (usage.pool.reallocate (some old.payload) bytes).pool.memory
    (∀ index < old.size - headerSize,
        after.byte (cell.payload + index) = usage.pool.memory.byte (old.payload + index)) ∧
      ∀ other ∈ layout.cells, other.state = .allocated → other.payload ≠ old.payload →
        ∀ index < other.size - headerSize,
          after.byte (other.payload + index) = usage.pool.memory.byte (other.payload + index) := by
  -- To clients who know every byte the invariant says where each of them is afterwards.
  let informed : Usage :=
    { usage with content := fun place => some (usage.pool.memory.byte place) }
  have guarded := Usage.guarded_of_unforged unforged (.call (.reallocate (some old.payload) bytes))
  have after := (regular.informed.call_reallocate (some old.payload) bytes guarded).1
  have pool : (informed.call (.reallocate (some old.payload) bytes)).pool =
      (usage.pool.reallocate (some old.payload) bytes).pool := Usage.call_pool informed _
  have present := regular.capacity member allocated
  have room := after.capacity regrants.member regrants.allocated
  have stored := after.content
  rw [pool] at room stored
  have grows := regrants.grows
  constructor
  · intro index bound
    have inside : index < cell.size - headerSize := by omega
    apply stored cell regrants.member _ (Cell.owns_of_lt regrants.allocated inside)
    rw [Usage.content_reallocate informed present value regrants.differ room, if_pos (by omega),
      Nat.add_sub_cancel_left]
  · intro other otherMember otherAllocated differ index bound
    have apart := regrants.apart other otherMember otherAllocated
    have kept := regrants.kept other otherMember otherAllocated differ
    apply stored other kept _ (Cell.owns_of_lt otherAllocated bound)
    rw [Usage.content_reallocate informed present value regrants.differ room, if_neg (by omega),
      if_neg (by omega)]

theorem moves (regular : Regular usage layout) (unforged : ∀ place, ¬usage.forged place)
    (held : address ∈ usage.live) (sized : usage.pool.capacity? address = some capacity)
    (short : capacity < bytes) (granted : (usage.pool.allocate bytes).value = some moved) :
    usage.pool.Moves usage.live address capacity bytes moved
      (usage.pool.reallocate (some address) bytes).pool := by
  obtain ⟨block, place, serving⟩ := (regular.firstFit bytes).serving moved granted
  have value := reallocate_of_granted sized short granted
  obtain ⟨old, member, allocated, rfl, rfl⟩ := regular.cell_of_sized held sized
  obtain ⟨cell, rfl, enough, regrants⟩ := regular.regrants unforged member allocated short granted
  obtain ⟨content, others⟩ := regular.bytes_moved unforged member allocated value regrants
  have guarded := Usage.guarded_of_unforged unforged (.call (.reallocate (some old.payload) bytes))
  have after := (regular.call_reallocate (some old.payload) bytes guarded).1
  have pool : (usage.call (.reallocate (some old.payload) bytes)).pool =
      (usage.pool.reallocate (some old.payload) bytes).pool := Usage.call_pool usage _
  have capacities : ∀ other ∈ (layout.reallocate (some old.payload) bytes).layout.cells,
      other.state = .allocated →
        (usage.pool.reallocate (some old.payload) bytes).pool.capacity? other.payload =
          some (other.size - headerSize) := by
    rw [← pool]
    exact fun other => after.capacity
  have distinct := regular.live.nodup_iff.mpr regular.ordered.payloads_nodup
  have lives : ∀ place,
      (∃ room, (usage.pool.reallocate (some old.payload) bytes).pool.capacity place =
        .ok (some room)) ↔
        place = cell.payload ∨ place ∈ usage.live ∧ place ≠ old.payload := by
    intro place
    have discerns := (after.discerns (Usage.call_unforged unforged _) place).capacity
    rw [pool, usage.live_reallocate value regrants.differ, List.mem_cons,
      distinct.mem_erase_iff] at discerns
    rw [discerns, and_comm (a := place ≠ old.payload)]
  refine ⟨⟨block, serving.free, place, serving.enough, serving.lowest⟩,
    ⟨_, capacities cell regrants.member regrants.allocated, Nat.le_sub_of_add_le enough, ?_⟩,
    content, ?_, lives, ?_, ?_, ?_⟩
  · intro other otherHeld room otherSized
    obtain ⟨beside, besideMember, besideAllocated, rfl, rfl⟩ :=
      regular.cell_of_sized otherHeld otherSized
    exact regrants.apart beside besideMember besideAllocated
  · intro other otherHeld differ room otherSized
    obtain ⟨beside, besideMember, besideAllocated, rfl, rfl⟩ :=
      regular.cell_of_sized otherHeld otherSized
    have kept := regrants.kept beside besideMember besideAllocated differ
    exact ⟨capacities beside kept besideAllocated, others beside besideMember besideAllocated differ⟩
  · rw [← pool]
    apply (after.discerns (Usage.call_unforged unforged _) old.payload).unmeasured
    rw [usage.live_reallocate value regrants.differ, List.mem_cons]
    rintro (same | kept)
    · exact regrants.differ same.symm
    · exact distinct.not_mem_erase kept
  · rw [← pool, after.realizes.allocations, regrants.allocations, regular.realizes.allocations]
  · rw [← pool, after.realizes.frees, regrants.frees, regular.realizes.frees]

theorem resizes (regular : Regular usage layout) (unforged : ∀ place, ¬usage.forged place)
    (bytes : Nat) : usage.pool.Resizes usage.live bytes := by
  have discerns := regular.discerns unforged
  have fits := regular.firstFit bytes
  have within : ∀ {capacity}, capacity < bytes → (bytes ≤ layout.stats.largestFree ↔
      ∃ block ∈ usage.pool.freeBlocks, bytes ≤ usage.pool.payloadAt block) :=
    fun short => regular.surveyed.le_largest (Nat.ne_zero_of_lt short)
  refine ⟨rfl, fun address foreign => (discerns address).refused foreign bytes,
    fun address held => ?_, ?_, ?_, ?_⟩
  · obtain ⟨room, sized⟩ := (discerns address).capacity.mpr held
    rw [capacity?_eq_some.mpr sized]
    rfl
  · intro address held capacity sized enough
    exact reallocate_of_le sized enough
  · intro address held capacity sized short some_block
    have served := fits.granted.mpr ⟨Nat.zero_lt_of_lt short, (within short).mpr some_block⟩
    obtain ⟨moved, granted⟩ := Option.isSome_iff_exists.mp served
    exact ⟨moved, reallocate_of_granted sized short granted,
      regular.moves unforged held sized short granted⟩
  · intro address held capacity sized short no_block
    have refused : (usage.pool.allocate bytes).value = none := by
      rw [← Option.not_isSome_iff_eq_none, fits.granted, within short]
      rintro ⟨_, block, member, enough⟩
      exact absurd enough (Nat.not_le_of_lt (no_block block member))
    rw [reallocate_of_refused sized short refused]
    exact ⟨congrArg Except.ok refused, fits.refused refused⟩

end Regular

end Pool

namespace SharedPool

structure ResizesAligned (shared : SharedPool) (address? : Option Nat) (bytes : Nat) : Prop where
  aligned : ∀ align ≤ alignment,
    let outcome := shared.pool.reallocate address? bytes
    let settled :=
      if outcome.notes = [] then outcome.pool else shared.logger.use outcome.pool
    let nested := if outcome.notes = [] then 0 else shared.logger.grants outcome.pool
    shared.reallocateAligned address? align bytes =
        ⟨outcome.value, { shared with pool := settled }, outcome.notes.map Note.record⟩ ∧
      outcome.pool.Restored nested settled
  misaligned : ∀ align, alignment < align →
    shared.reallocateAligned address? align bytes = ⟨.ok none, shared, []⟩

theorem Mirrors.resizesAligned {nested : Nat} {layout other : Layout} {usage beside : Usage}
    {shared : SharedPool} (mirrors : Mirrors nested layout other usage beside shared)
    (address? : Option Nat) (bytes : Nat) : shared.ResizesAligned address? bytes := by
  have guarded :=
    Usage.guarded_of_unforged mirrors.besideUnforged (.call (.reallocate address? bytes))
  obtain ⟨after, agrees⟩ := mirrors.besideRegular.call_reallocate address? bytes guarded
  have notes := agrees.notes
  have pool := Usage.call_pool beside (.reallocate address? bytes)
  rw [mirrors.pool] at notes pool
  have few : (shared.pool.reallocate address? bytes).notes.length ≤ 1 := by
    rw [notes]
    exact other.perform_notes (.reallocate address? bytes)
  constructor
  · intro align low
    refine ⟨?_, ?_⟩
    · rw [reallocateAligned, if_neg (Nat.not_lt_of_le low)]
      exact guarded_eq mirrors.pending mirrors.reporting few
    · by_cases quiet : (shared.pool.reallocate address? bytes).notes = []
      · simp only [if_pos quiet]
        have unchanged := after.restored_of_returns (.nil _ _)
        change Pool.Restored 0 (beside.call _).pool (beside.call _).pool at unchanged
        rw [pool] at unchanged
        exact unchanged
      · obtain ⟨events, used, _, returns⟩ := after.use shared.logger
        have restored := after.restored_of_returns returns
        rw [used, pool] at restored
        simp only [if_neg quiet]
        exact restored
  · intro align high
    exact if_pos high

end SharedPool

namespace Pool

/-- After any run in which clients forge no tags, a pool resizes what is live and nothing else, and
    so does a shared pool that has seen the same operations, whatever its logger does. -/
theorem run_resizes (memory : Memory) (events : List Event)
    (proper : (Usage.start memory).Along Usage.Proper events)
    (honest : (Usage.start memory).Along Usage.Honest events) (bytes : Nat) :
    let usage := (Usage.start memory).run events
    usage.pool.Resizes usage.live bytes ∧
      ∀ (initial : Memory) (logger : Logger),
        (SharedPool.create initial logger).Along SharedPool.Fair events →
        let shared := (SharedPool.create initial logger).run events
        shared.pool.Resizes usage.live bytes ∧
          ∀ address?, shared.ResizesAligned address? bytes := by
  have guarded := Usage.Along.guarded (Usage.start_unforged memory) honest
  have unforged := Usage.run_unforged (Usage.start_unforged memory) honest
  have regular := (Regular.start memory).run proper guarded
  refine ⟨regular.resizes unforged bytes, fun initial logger fair => ?_⟩
  obtain ⟨settled, beside, reached⟩ :=
    (SharedPool.Mirrors.create memory initial logger).run proper honest fair
  -- What the clients of the pool beside hold is held here, in another order.
  have mirrored : Regular { beside with live := ((Usage.start memory).run events).live } settled :=
    { reached.besideRegular with live := reached.live.symm.trans reached.besideRegular.live }
  have resizes := mirrored.resizes reached.besideUnforged bytes
  dsimp only at resizes
  rw [reached.pool] at resizes
  exact ⟨resizes, fun address? => reached.resizesAligned address? bytes⟩

/-- A block with something in it, and another one behind it, so that it cannot grow in place. -/
def growingRun : List Event :=
  [.call (.addArena 4096 8192), .call (.allocate 100), .write 4120 0 [1, 2, 3],
    .call (.allocate 40)]

theorem growingRun_layout : Layout.empty.run (growingRun.take 2) =
    ⟨[⟨4096, 128, .allocated⟩, ⟨4224, 3944, .free⟩, ⟨8168, 0, .sentinel⟩], [⟨4096, 8168⟩], 1, 0⟩ :=
  rfl

theorem growingRun_resizes :
    let usage := (Usage.start .zeroed).run growingRun
    let shared := (SharedPool.create .zeroed (.allocating 8)).run growingRun
    usage.pool.Resizes usage.live 200 ∧ shared.pool.Resizes usage.live 200 ∧
      shared.ResizesAligned (some 4120) 200 ∧
      (usage.pool.reallocate (some 4120) 200).value = .ok (some 4312) := by
  have region : (Usage.start .zeroed).Proper (.call (.addArena 4096 8192)) :=
    ⟨by decide, by decide, fun _ _ _ _ => Memory.byte_zeroed _⟩
  have granted : Regular ((Usage.start .zeroed).run (growingRun.take 2))
      (Layout.empty.run (growingRun.take 2)) :=
    (Regular.start .zeroed).run ⟨region, trivial, trivial⟩ ⟨trivial, trivial, trivial⟩
  rw [growingRun_layout] at granted
  have held : 4120 ∈ ((Usage.start .zeroed).run (growingRun.take 2)).live :=
    granted.live.mem_iff.mpr (by decide)
  have room : ((Usage.start .zeroed).run (growingRun.take 2)).pool.capacity? 4120 = some 104 :=
    granted.capacity List.mem_cons_self rfl
  have inside : 0 + 3 ≤
      (((Usage.start .zeroed).run (growingRun.take 2)).pool.capacity? 4120).getD 0 :=
    room.symm ▸ (by decide)
  have harmless : ∀ (memory : Memory) place, ¬Forges memory (4120 + 0) [1, 2, 3] place :=
    fun memory place => not_forges memory place (by decide) (by decide)
  have proper : (Usage.start .zeroed).Along Usage.Proper growingRun :=
    ⟨region, trivial, ⟨held, inside⟩, trivial, trivial⟩
  have honest : (Usage.start .zeroed).Along Usage.Honest growingRun :=
    ⟨trivial, trivial, harmless _, trivial, trivial⟩
  have unforged := Usage.run_unforged (Usage.start_unforged .zeroed) honest
  have regular := (Regular.start .zeroed).run proper
    (Usage.Along.guarded (Usage.start_unforged .zeroed) honest)
  have value := (regular.call_reallocate (some 4120) 200
    (Usage.guarded_of_unforged unforged (.call (.reallocate (some 4120) 200)))).2.value
  obtain ⟨resizes, others⟩ := run_resizes .zeroed growingRun proper honest 200
  obtain ⟨sharedResizes, aligned⟩ := others .zeroed (.allocating 8)
    ⟨fun _ _ _ _ => Memory.byte_zeroed _, trivial, harmless _, trivial, trivial⟩
  exact ⟨resizes, sharedResizes, aligned (some 4120), value.trans (by decide)⟩

end Pool

end FirmwareLink

import FirmwareLink.Proofs.Pool.Canonical
import FirmwareLink.Proofs.Pool.Reporting

namespace FirmwareLink

open Pool

namespace Pool

def inUse (pool : Pool) : List Nat :=
  ((pool.arenas.flatMap pool.blocks).filter fun header => (pool.block header).has .allocated).map
    fun header => header + headerSize

/-- The same pool after so many allocations and as many frees, but for bytes that nobody holds. -/
structure Restored (count : Nat) (before after : Pool) : Prop where
  fields : { before with
    memory := after.memory
    allocations := before.allocations + count
    frees := before.frees + count } = after
  blocks : ∀ arena ∈ before.arenas, before.blocks arena = after.blocks arena
  headers : ∀ arena ∈ before.arenas, ∀ header ∈ arena.sentinel :: before.blocks arena,
    before.block header = after.block header
  freeList : before.freeList = after.freeList
  stats : ∃ stats, before.stats = .ok stats ∧ after.stats = .ok (stats.credit count count)
  content : ∀ address ∈ before.inUse,
    ∀ index < before.sizeAt (address - headerSize) - headerSize,
      after.memory.byte (address + index) = before.memory.byte (address + index)

theorem mem_inUse {pool : Pool} {address : Nat} : address ∈ pool.inUse ↔
    ∃ arena ∈ pool.arenas, ∃ header ∈ pool.blocks arena,
      (pool.block header).has .allocated = true ∧ header + headerSize = address := by
  rw [inUse, List.mem_map]
  constructor
  · rintro ⟨header, listed, same⟩
    obtain ⟨inside, allocated⟩ := List.mem_filter.mp listed
    obtain ⟨arena, registered, among⟩ := List.mem_flatMap.mp inside
    exact ⟨arena, registered, header, among, allocated, same⟩
  · rintro ⟨arena, registered, header, among, allocated, same⟩
    exact ⟨header,
      List.mem_filter.mpr ⟨List.mem_flatMap.mpr ⟨arena, registered, among⟩, allocated⟩, same⟩

namespace Restored

variable {count more : Nat} {before between after : Pool}

theorem arenas (restored : Restored count before after) : after.arenas = before.arenas := by
  rw [← restored.fields]

theorem inUse (restored : Restored count before after) : after.inUse = before.inUse := by
  have blocks : after.arenas.flatMap after.blocks = before.arenas.flatMap before.blocks := by
    rw [restored.arenas, List.flatMap_def, List.flatMap_def,
      List.map_congr_left restored.blocks]
  have tags : (before.arenas.flatMap before.blocks).filter
      (fun header => (after.block header).has .allocated) =
        (before.arenas.flatMap before.blocks).filter
          fun header => (before.block header).has .allocated := by
    apply List.filter_congr
    intro header member
    obtain ⟨arena, registered, inside⟩ := List.mem_flatMap.mp member
    rw [restored.headers arena registered header (List.mem_cons_of_mem _ inside)]
  rw [Pool.inUse, blocks, tags, Pool.inUse]

theorem trans (first : Restored count before between) (second : Restored more between after) :
    Restored (count + more) before after := by
  have arenas : ∀ arena ∈ before.arenas, arena ∈ between.arenas :=
    fun arena registered => first.arenas.symm ▸ registered
  refine ⟨?_, ?_, ?_, first.freeList.trans second.freeList, ?_, ?_⟩
  · rw [← second.fields, ← first.fields, Nat.add_assoc, Nat.add_assoc]
  · intro arena registered
    exact (first.blocks arena registered).trans (second.blocks arena (arenas arena registered))
  · intro arena registered header listed
    have same := first.headers arena registered header listed
    rw [first.blocks arena registered] at listed
    exact same.trans (second.headers arena (arenas arena registered) header listed)
  · obtain ⟨stats, told, one⟩ := first.stats
    obtain ⟨credited, same, both⟩ := second.stats
    obtain rfl := Except.ok.inj (one.symm.trans same)
    refine ⟨stats, told, ?_⟩
    rw [both, PoolStats.credit, PoolStats.credit, PoolStats.credit, Nat.add_assoc, Nat.add_assoc]
  · intro address held index bound
    have before_same := first.content address held index bound
    -- How large a block is stands in its header, which the first step has kept.
    obtain ⟨arena, registered, header, inside, _, rfl⟩ := mem_inUse.mp held
    have same := first.headers arena registered header (List.mem_cons_of_mem _ inside)
    rw [Nat.add_sub_cancel, sizeAt, same] at bound
    rw [← first.inUse] at held
    exact (second.content _ held index (by rwa [Nat.add_sub_cancel])).trans before_same

end Restored

namespace Regular

variable {usage : Usage} {layout : Layout} {count : Nat} {events : List Event}

theorem inUse_perm (regular : Regular usage layout) : usage.pool.inUse.Perm usage.live := by
  have tags : (layout.cells.filter fun cell => cell.state ≠ .sentinel).filter
      ((fun header => (usage.pool.block header).has .allocated) ∘ Cell.address) =
        layout.cells.filter fun cell => cell.state = .allocated := by
    rw [List.filter_filter]
    apply List.filter_congr
    intro cell member
    rw [Function.comp_apply, regular.has_eq member]
    cases cell.state <;> rfl
  refine List.Perm.trans ?_ regular.live.symm
  have all := (regular.blocks_perm.filter fun header =>
    (usage.pool.block header).has .allocated).map fun header => header + headerSize
  rwa [List.filter_map, tags, List.map_map] at all

theorem inUse_lent {lent : Usage} {next : Layout} {cell : Cell} (regular : Regular usage layout)
    (lends : Pool.Lends usage lent layout next cell) :
    lent.pool.inUse.Perm (cell.payload :: usage.pool.inUse) := by
  have held := regular.inUse_perm.trans regular.live
  have more := lends.regular.inUse_perm.trans lends.regular.live
  exact more.trans (lends.grants.payloads.trans (held.symm.cons _))

theorem credit (regular : Regular usage layout) (count : Nat) :
    Regular { usage with
      pool := { usage.pool with
        allocations := usage.pool.allocations + count
        frees := usage.pool.frees + count } } (layout.credit count) where
  wellFormed := ⟨regular.wellFormed.tiled, regular.wellFormed.table, regular.wellFormed.few⟩
  realizes := { regular.realizes with
    allocations := congrArg (· + count) regular.realizes.allocations
    frees := congrArg (· + count) regular.realizes.frees }
  live := regular.live
  tags := regular.tags
  content := regular.content

theorem restored_of_returns (regular : Regular usage layout)
    (returns : Returns usage layout count events) :
    usage.pool.Restored count (usage.run events).pool := by
  have settled := regular.run returns.proper returns.guarded
  rw [returns.credits] at settled
  -- The layout settles all headers, so the old pool is the new one once the counters are credited.
  have same := (regular.credit count).sameState settled
  refine ⟨same.fields, same.blocks, same.headers, (regular.freeList_eq settled rfl).symm,
    ⟨layout.stats, regular.realizes.stats_eq regular.wellFormed, ?_⟩, ?_⟩
  · rw [settled.realizes.stats_eq settled.wellFormed, (layout.similar_credit count).stats]
  · intro address held index bound
    obtain ⟨cell, member, allocated, rfl⟩ :=
      regular.cell_of_live (regular.inUse_perm.mem_iff.mp held)
    have back : cell.payload - headerSize = cell.address := Nat.add_sub_cancel _ _
    rw [back, regular.sizeAt_eq member] at bound
    exact returns.kept cell member _ (Cell.owns_of_lt allocated bound)

theorem fills_zeroed (regular : Regular usage layout) {size address : Nat}
    (granted : (usage.pool.allocateZeroed count size).value = some address) {data : Bytes}
    (fits : data.length ≤ count * size) :
    let lent := (usage.pool.allocateZeroed count size).pool.write address data
    lent.inUse.Perm (address :: usage.pool.inUse) ∧ (lent.free address).notes = [] ∧
      ∃ events, Returns usage layout 1 events ∧
        (usage.run events).pool = (lent.free address).pool := by
  obtain ⟨cell, rfl, enough, lends⟩ := regular.lends_zeroed granted
  obtain ⟨proper, filled⟩ := lends.write (Nat.le_trans (Nat.add_le_add_right fits _) enough)
  let events : List Event := [.call (.allocateZeroed count size), .write cell.payload 0 data]
  have lent : (usage.run events).pool =
      (usage.pool.allocateZeroed count size).pool.write cell.payload data := by
    change (usage.call (.allocateZeroed count size)).pool.write cell.payload data = _
    rw [Usage.call_pool]
    rfl
  rw [← lent]
  refine ⟨regular.inUse_lent filled, filled.free_quiet, _,
    Lends.returns regular.wellFormed events filled ⟨trivial, proper, trivial⟩
      ⟨trivial, trivial, trivial⟩, ?_⟩
  rw [Usage.run_append]
  exact Usage.call_pool (usage.run events) (.free cell.payload)

end Regular

end Pool

namespace SharedPool

variable {α : Type} {shared : SharedPool} {operation : Pool → Pool.Outcome α}
  {count size length block : Nat}

/-- Nobody is inside the pool, and all that has happened to it kept to the rules. -/
structure Used (shared : SharedPool) : Prop where
  pending : shared.pending = none
  reporting : shared.reporting = false
  run : ∃ memory events, (Usage.start memory).Along Usage.Proper events ∧
    (Usage.start memory).Along Usage.Guarded events ∧
      ((Usage.start memory).run events).pool = shared.pool

structure Restored (count : Nat) (before after : SharedPool) : Prop where
  used : after.Used
  pool : before.pool.Restored count after.pool

structure Lends (before : SharedPool) (length block : Nat) (lent : SharedPool) (content : Bytes) :
    Prop where
  zeroed : (before.allocateZeroed length 1).pool.content block length = Vector.replicate length 0
  whole : content.length = length
  holds : lent.pool.memory.read block length = content
  inUse : lent.pool.inUse.Perm (block :: before.pool.inUse)

theorem guarded_quiet (idle : shared.pending = none) (ready : shared.reporting = false)
    (quiet : (operation shared.pool).notes = []) : shared.guarded operation =
      ⟨(operation shared.pool).value,
        { shared with pool := (operation shared.pool).pool }, []⟩ := by
  have few : (operation shared.pool).notes.length ≤ 1 := by
    rw [quiet]
    exact Nat.zero_le _
  rw [guarded_eq idle ready few, if_pos quiet, quiet]
  rfl

theorem Restored.trans {before between after : SharedPool} {more : Nat}
    (first : Restored count before between) (second : Restored more between after) :
    Restored (count + more) before after :=
  ⟨second.used, first.pool.trans second.pool⟩

namespace Used

variable (used : shared.Used)

include used

theorem regular : ∃ usage layout, usage.pool = shared.pool ∧ Regular usage layout ∧
    ∀ {count events} {after : SharedPool}, Returns usage layout count events →
      (usage.run events).pool = after.pool → after.pending = none → after.reporting = false →
        Restored count shared after := by
  obtain ⟨memory, events, proper, guarded, pool⟩ := used.run
  have regular := (Regular.start memory).run proper guarded
  refine ⟨_, _, pool, regular, fun {count more after} returns settled pending reporting => ?_⟩
  have restored := regular.restored_of_returns returns
  rw [pool, settled] at restored
  refine ⟨⟨pending, reporting, memory, events ++ more, ?_, ?_, ?_⟩, restored⟩
  · exact Usage.Along.append.mpr ⟨proper, returns.proper⟩
  · exact Usage.Along.append.mpr ⟨guarded, returns.guarded⟩
  · rw [Usage.run_append, settled]

theorem refl : Restored 0 shared shared := by
  obtain ⟨usage, layout, pool, _, restored⟩ := used.regular
  exact restored (.nil usage layout) pool used.pending used.reporting

theorem allocateZeroed (count size : Nat) :
    ((shared.allocateZeroed count size).value = none ∧
      ∃ nested, Restored nested shared (shared.allocateZeroed count size).pool) ∨
    ∃ block, (shared.pool.allocateZeroed count size).value = some block ∧
      shared.allocateZeroed count size = ⟨some block,
        { shared with pool := (shared.pool.allocateZeroed count size).pool }, []⟩ := by
  rcases shared.pool.allocateZeroed_either count size with
    ⟨notes, refused⟩ | ⟨_, block, next, _, granted⟩
  · obtain ⟨usage, layout, pool, regular, restored⟩ := used.regular
    have few : (shared.pool.allocateZeroed count size).notes.length ≤ 1 := by
      rw [← pool, (regular.call_allocateZeroed count size).2.notes]
      exact layout.perform_notes (.allocateZeroed count size)
    have performed : shared.allocateZeroed count size = _ :=
      guarded_eq used.pending used.reporting few
    rw [performed, refused]
    refine Or.inl ⟨rfl, ?_⟩
    by_cases quiet : notes = []
    · simp only [if_pos quiet]
      exact ⟨0, used.refl⟩
    · -- The refusal is logged, and the logger may borrow for itself.
      simp only [if_neg quiet]
      obtain ⟨events, settled, _, returns⟩ := regular.use shared.logger
      rw [pool] at settled
      exact ⟨_, restored returns settled used.pending used.reporting⟩
  · have quiet : (shared.pool.allocateZeroed count size).notes = [] := by rw [granted]
    have performed : shared.allocateZeroed count size = _ :=
      guarded_quiet used.pending used.reporting quiet
    refine Or.inr ⟨block, congrArg Pool.Outcome.value granted, ?_⟩
    rw [performed, granted]

theorem lends (granted : (shared.allocateZeroed length 1).value = some block) {content : Bytes}
    (whole : content.length = length) :
    let lent := (shared.allocateZeroed length 1).pool.write block content
    Lends shared length block lent content ∧ Restored 1 shared (lent.free block).pool := by
  rcases used.allocateZeroed length 1 with ⟨refused, _⟩ | ⟨address, plain, performed⟩
  · rw [refused] at granted
    cases granted
  rw [performed] at granted ⊢
  obtain rfl := Option.some.inj granted
  have fits : content.length ≤ length * 1 := by omega
  obtain ⟨usage, layout, pool, regular, restored⟩ := used.regular
  obtain ⟨inUse, quiet, events, returns, settled⟩ :=
    regular.fills_zeroed (pool.symm ▸ plain) fits
  rw [pool] at inUse quiet settled
  refine ⟨⟨?_, whole, ?_, inUse⟩, ?_⟩
  · rw [performed]
    apply Vector.ext
    intro index bound
    rw [SharedPool.content, Vector.getElem_ofFn, Vector.getElem_replicate]
    exact byte_allocateZeroed plain (by rwa [Nat.mul_one])
  · subst whole
    exact Memory.read_write _ _ _
  · have freed : SharedPool.free { shared with
        pool := (shared.pool.allocateZeroed length 1).pool.write address content } address = _ :=
      guarded_quiet used.pending used.reporting quiet
    change Restored 1 shared (SharedPool.free { shared with
        pool := (shared.pool.allocateZeroed length 1).pool.write address content } address).pool
    rw [freed]
    exact restored returns settled used.pending used.reporting

end Used

end SharedPool

end FirmwareLink

import FirmwareLink.Proofs.Pool.Undoing

namespace FirmwareLink.Pool

variable {usage lent : Usage} {layout next : Layout} {cell old : Cell}
  {place bytes address count size : Nat}

structure Lends (usage lent : Usage) (layout next : Layout) (cell : Cell) : Prop where
  regular : Regular lent next
  grants : layout.Grants next cell
  allocations : next.allocations = layout.allocations + 1
  frees : next.frees = layout.frees
  kept : ∀ old ∈ layout.cells, ∀ place, old.Owns place →
    lent.pool.memory.byte place = usage.pool.memory.byte place

/-- Clients give back what they take, and leave alone what is not theirs. -/
structure Returns (usage : Usage) (layout : Layout) (count : Nat) (events : List Event) :
    Prop where
  proper : usage.Along Usage.Proper events
  guarded : usage.Along Usage.Guarded events
  credits : layout.run events = layout.credit count
  kept : ∀ cell ∈ layout.cells, ∀ place, cell.Owns place →
    (usage.run events).pool.memory.byte place = usage.pool.memory.byte place

theorem Returns.nil (usage : Usage) (layout : Layout) : Returns usage layout 0 [] :=
  ⟨trivial, trivial, rfl, fun _ _ _ _ => rfl⟩

theorem Usage.run_borrow (usage : Usage) (bytes address : Nat) :
    (usage.run [.call (.allocate bytes), .call (.free address)]).pool =
      ((usage.pool.allocate bytes).pool.free address).pool := by
  change ((usage.call (.allocate bytes)).call (.free address)).pool = _
  rw [call_pool, call_pool]
  rfl

theorem allocate_either (pool : Pool) (bytes : Nat) :
    (∃ notes, pool.allocate bytes = ⟨none, pool, notes⟩) ∨
      ∃ address next, pool.allocate bytes = ⟨some address, next, []⟩ := by
  dsimp only [allocate]
  split
  · exact Or.inl ⟨_, rfl⟩
  · split
    · exact Or.inl ⟨_, rfl⟩
    · split
      · exact Or.inl ⟨_, rfl⟩
      · exact Or.inr ⟨_, _, rfl⟩

theorem allocateZeroed_either (pool : Pool) (count size : Nat) :
    (∃ notes, pool.allocateZeroed count size = ⟨none, pool, notes⟩) ∨
      count * size < UInt64.size ∧ ∃ address next,
        pool.allocate (count * size) = ⟨some address, next, []⟩ ∧
          pool.allocateZeroed count size =
            ⟨some address, next.write address (List.replicate (count * size) 0), []⟩ := by
  unfold allocateZeroed
  split
  · exact Or.inl ⟨_, rfl⟩
  · rename_i large
    rcases pool.allocate_either (count * size) with ⟨notes, refused⟩ | ⟨address, next, granted⟩
    · rw [refused]
      exact Or.inl ⟨_, rfl⟩
    · rw [granted]
      exact Or.inr ⟨Nat.lt_of_not_le large, address, next, rfl, rfl⟩

theorem byte_allocateZeroed {pool : Pool}
    (granted : (pool.allocateZeroed count size).value = some address) {index : Nat}
    (inside : index < count * size) :
    (pool.allocateZeroed count size).pool.memory.byte (address + index) = 0 := by
  rcases pool.allocateZeroed_either count size with
    ⟨notes, refused⟩ | ⟨_, block, next, _, zeroed⟩
  · rw [refused] at granted
    cases granted
  · rw [zeroed] at granted ⊢
    obtain rfl := Option.some.inj granted
    have zeros := Memory.byte_write_inside next.memory block index
      (List.replicate (count * size) 0) (by rwa [List.length_replicate])
    rwa [List.getElem_replicate] at zeros

theorem Layout.Grants.apart (grants : layout.Grants next cell) (ordered : Ordered next.cells)
    (member : old ∈ layout.cells) (owns : old.Owns place) :
    place < cell.payload ∨ cell.stop ≤ place := by
  have still := grants.kept old member owns.allocated
  have differ : old ≠ cell := fun same =>
    grants.differ ordered member owns.allocated (congrArg Cell.payload same).symm
  have low := owns.low
  have high := owns.high
  simp only [Cell.payload, headerSize] at low ⊢
  rcases ordered.apart still grants.member differ with below | above
  · omega
  · omega

namespace Regular

theorem informed (regular : Regular usage layout) :
    Regular { usage with content := fun place => some (usage.pool.memory.byte place) } layout where
  wellFormed := regular.wellFormed
  realizes := regular.realizes
  live := regular.live
  tags := regular.tags
  content := fun _ _ _ _ _ defined => Option.some.inj defined

theorem free_kept (regular : Regular usage layout)
    (guarded : usage.Guarded (.call (.free address)))
    (member : cell ∈ (layout.free address).layout.cells) (owns : cell.Owns place) :
    (usage.pool.free address).pool.memory.byte place = usage.pool.memory.byte place :=
  -- To clients who know every byte the invariant says what a free keeps.
  (regular.informed.free guarded).1.content cell member place owns _ rfl

theorem lends_allocate (regular : Regular usage layout)
    (granted : (usage.pool.allocate bytes).value = some address) :
    ∃ cell, cell.payload = address ∧ bytes + headerSize ≤ cell.size ∧
      Lends usage (usage.call (.allocate bytes)) layout (layout.allocate bytes).layout cell := by
  obtain ⟨held, agrees⟩ := regular.call_allocate bytes
  obtain ⟨allocations, frees⟩ := Layout.allocate_counters (agrees.value.symm.trans granted)
  rcases regular.allocate bytes with
    ⟨notes, refused, _⟩ | ⟨cell, pool, next, taken, expected, enough, grants, _, kept⟩
  · rw [refused] at granted
    cases granted
  · have left : (usage.call (.allocate bytes)).pool = pool := by
      rw [Usage.call_pool]
      exact congrArg Outcome.pool taken
    rw [taken] at granted
    refine ⟨cell, Option.some.inj granted, enough, held, ?_, allocations, frees, ?_⟩
    · rw [expected]
      exact grants
    · rw [left]
      exact kept

end Regular

namespace Lends

variable (lends : Lends usage lent layout next cell)

include lends

theorem live : cell.payload ∈ lent.live :=
  lends.regular.live.mem_iff.mpr
    (mem_payloads.mpr ⟨cell, lends.grants.member, lends.grants.allocated, rfl⟩)

theorem free_quiet : (lent.pool.free cell.payload).notes = [] := by
  have guarded : lent.Guarded (.call (.free cell.payload)) := fun _ _ => lends.live
  rw [(lends.regular.call_free guarded).2.notes]
  rcases Layout.free_frees lends.regular.wellFormed cell.payload with
    ⟨absent, _⟩ | ⟨settled, freed, _⟩
  · exact absurd (lends.regular.live.mem_iff.mp lends.live) absent
  · rw [freed]

theorem capacity : lent.pool.capacity? cell.payload = some (cell.size - headerSize) :=
  lends.regular.capacity lends.grants.member lends.grants.allocated

theorem write {data : Bytes} (fits : data.length + headerSize ≤ cell.size) :
    lent.Proper (.write cell.payload 0 data) ∧
      Lends usage (lent.step (.write cell.payload 0 data)) layout next cell := by
  have proper : lent.Proper (.write cell.payload 0 data) := by
    refine ⟨lends.live, ?_⟩
    rw [lends.capacity, Option.getD_some, Nat.zero_add]
    exact Nat.le_sub_of_add_le fits
  refine ⟨proper, lends.regular.step proper trivial, lends.grants, lends.allocations, lends.frees,
    fun old member place owns => ?_⟩
  have apart := lends.grants.apart lends.regular.ordered member owns
  rw [Cell.stop_of_block (by simp [lends.grants.allocated])] at apart
  have outside : place < cell.payload + 0 ∨ cell.payload + 0 + data.length ≤ place := by
    simp only [Cell.payload, headerSize] at apart fits ⊢
    omega
  exact (Memory.byte_write_outside _ _ _ _ outside).trans (lends.kept old member place owns)

end Lends

theorem Lends.returns (wellFormed : layout.WellFormed) (events : List Event)
    (lends : Lends usage (usage.run events) layout (layout.run events) cell)
    (proper : usage.Along Usage.Proper events) (guarded : usage.Along Usage.Guarded events) :
    Returns usage layout 1 (events ++ [.call (.free cell.payload)]) := by
  -- The block may hold forged tags, but its own address is one that was handed out.
  have free : (usage.run events).Guarded (.call (.free cell.payload)) := fun _ _ => lends.live
  have settled := wellFormed.free_granted lends.regular.wellFormed lends.grants lends.allocations
    lends.frees
  refine ⟨Usage.Along.append.mpr ⟨proper, trivial, trivial⟩,
    Usage.Along.append.mpr ⟨guarded, free, trivial⟩, ?_, fun old member place owns => ?_⟩
  · rw [Layout.run, List.foldl_append]
    exact settled
  · have still : old ∈ ((layout.run events).free cell.payload).layout.cells := by
      rw [settled]
      exact member
    rw [Usage.run_append]
    change ((usage.run events).call (.free cell.payload)).pool.memory.byte place = _
    rw [Usage.call_pool]
    exact (lends.regular.free_kept free still owns).trans (lends.kept old member place owns)

namespace Regular

theorem returns_allocate (regular : Regular usage layout)
    (granted : (usage.pool.allocate bytes).value = some address) :
    Returns usage layout 1 [.call (.allocate bytes), .call (.free address)] := by
  obtain ⟨cell, rfl, _, lends⟩ := regular.lends_allocate granted
  exact Lends.returns regular.wellFormed [.call (.allocate bytes)] lends ⟨trivial, trivial⟩
    ⟨trivial, trivial⟩

theorem lends_zeroed (regular : Regular usage layout)
    (granted : (usage.pool.allocateZeroed count size).value = some address) :
    ∃ cell, cell.payload = address ∧ count * size + headerSize ≤ cell.size ∧
      Lends usage (usage.call (.allocateZeroed count size)) layout
        (layout.allocateZeroed count size).layout cell := by
  rcases usage.pool.allocateZeroed_either count size with
    ⟨notes, refused⟩ | ⟨small, block, next, plain, zeroed⟩
  · rw [refused] at granted
    cases granted
  · rw [zeroed] at granted
    obtain rfl := Option.some.inj granted
    obtain ⟨cell, rfl, enough, lends⟩ := regular.lends_allocate (congrArg Outcome.value plain)
    have fits : (List.replicate (count * size) (0 : UInt8)).length + headerSize ≤ cell.size := by
      rwa [List.length_replicate]
    -- What zeroing keeps is what a write of zeros by the new owner keeps.
    obtain ⟨_, written⟩ := lends.write fits
    have same : layout.allocateZeroed count size = layout.allocate (count * size) :=
      if_neg (Nat.not_le_of_lt small)
    have held := (regular.call_allocateZeroed count size).1
    rw [same] at held ⊢
    refine ⟨cell, rfl, enough, held, lends.grants, lends.allocations, lends.frees,
      fun old member place owns => ?_⟩
    rw [← written.kept old member place owns, Usage.call_pool]
    change (usage.pool.allocateZeroed count size).pool.memory.byte place =
      ((usage.call (.allocate (count * size))).pool.write (cell.payload + 0) _).memory.byte place
    rw [zeroed, Usage.call_pool]
    change _ = ((usage.pool.allocate (count * size)).pool.write _ _).memory.byte place
    rw [plain]
    rfl

end Regular

end FirmwareLink.Pool

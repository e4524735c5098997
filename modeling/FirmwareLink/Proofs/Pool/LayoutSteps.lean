import FirmwareLink.Proofs.Pool.Bookkeeping

namespace FirmwareLink.Pool

theorem Ordered.split_at {cells : List Cell} (ordered : Ordered cells) (low : Nat) :
    ∃ before after, cells = before ++ after ∧
      (cells.takeWhile fun cell => cell.address < low) = before ∧
      (cells.dropWhile fun cell => cell.address < low) = after ∧
      (∀ cell ∈ before, cell.address < low) ∧ (∀ cell ∈ after, low ≤ cell.address) := by
  refine ⟨_, _, List.takeWhile_append_dropWhile.symm, rfl, rfl, ?_, ?_⟩
  · intro cell member
    simpa using List.mem_takeWhile_imp member
  · intro cell member
    exact ordered.le_of_mem_dropWhile member

namespace Layout

variable {layout : Layout}

theorem empty_wellFormed : empty.WellFormed where
  tiled := ⟨by simp [empty], List.IsChain.nil, closed_nil⟩
  table := List.Perm.nil
  few := Nat.zero_le _

namespace WellFormed

theorem vacant (wellFormed : layout.WellFormed) {start stop : Nat} (positive : 0 < start)
    (bounded : stop < UInt64.size) (room : ¬alignDown stop - alignUp start ≤ 2 * headerSize)
    (clear : ¬(layout.arenas.any fun arena => arena.start < alignDown stop &&
      alignUp start < arena.sentinel + headerSize) = true) :
    Vacant layout.cells (alignUp start) (alignDown stop) where
  positive := by
    simp only [alignUp, alignment]
    omega
  lowAligned := Nat.dvd_mul_left _ _
  highAligned := Nat.dvd_mul_left _ _
  bounded := Nat.lt_of_le_of_lt (Nat.div_mul_le_self stop alignment) bounded
  room := by omega
  clear := by
    intro arena member
    by_contra meets
    apply clear
    rw [List.any_eq_true]
    refine ⟨arena, wellFormed.table.mem_iff.mpr member, ?_⟩
    simp only [Bool.and_eq_true, decide_eq_true_eq]
    omega

theorem addArena (wellFormed : layout.WellFormed) {start stop : Nat} (positive : 0 < start)
    (bounded : stop < UInt64.size) : (layout.addArena start stop).layout.WellFormed := by
  dsimp only [Layout.addArena]
  split
  · exact wellFormed
  · split
    · exact wellFormed
    · rename_i room
      split
      · exact wellFormed
      · rename_i clear
        split
        · exact wellFormed
        · rename_i few
          have vacant := wellFormed.vacant positive bounded room clear
          obtain ⟨before, after, split, lower, higher, below, above⟩ :=
            wellFormed.tiled.ordered.split_at (alignUp start)
          have tiled := wellFormed.tiled
          have table := wellFormed.table
          simp only [lower, higher]
          rw [split] at vacant tiled table
          have closed := vacant.lower_closed tiled below above
          refine ⟨vacant.insert_tiled tiled below above, ?_, ?_⟩
          · rw [spans_append closed] at table ⊢
            exact (table.append_right _).trans (by
              simp only [List.append_assoc]
              exact (List.perm_append_comm).append_left _)
          · simp only [List.length_append, List.length_singleton]
            omega

theorem allocate (wellFormed : layout.WellFormed) (bytes : Nat) :
    (layout.allocate bytes).layout.WellFormed := by
  dsimp only [Layout.allocate]
  split
  · exact wellFormed
  · rename_i asked
    split
    · exact wellFormed
    · split
      · exact wellFormed
      · rename_i cell rest found
        obtain ⟨split, fits⟩ := firstFit_split found
        have blockSize := blockSize_alignUp fun zero : bytes = 0 => asked (Or.inl zero)
        have block : cell.state ≠ .sentinel := by
          simp only [Cell.fits, Bool.and_eq_true, decide_eq_true_eq] at fits
          simp [fits.1]
        have tiled := wellFormed.tiled
        have table := wellFormed.table
        rw [split] at tiled table
        refine ⟨tiled.carve blockSize fits, ?_, wellFormed.few⟩
        rw [spans_carve block]
        exact table

theorem allocateZeroed (wellFormed : layout.WellFormed) (count size : Nat) :
    (layout.allocateZeroed count size).layout.WellFormed := by
  unfold Layout.allocateZeroed
  split
  · exact wellFormed
  · exact wellFormed.allocate _

theorem free (wellFormed : layout.WellFormed) (address : Nat) :
    (layout.free address).layout.WellFormed := by
  unfold Layout.free
  split
  · exact wellFormed
  · rename_i cell held
    obtain ⟨member, allocated, _⟩ := held?_eq_some held
    have block : cell.state ≠ .sentinel := by simp [allocated]
    obtain ⟨before, after, split⟩ := List.append_of_mem member
    have tiled := wellFormed.tiled
    have table := wellFormed.table
    simp only [split] at tiled table ⊢
    refine ⟨tiled.release block, ?_, wellFormed.few⟩
    simp only [spans_release tiled block]
    exact table

theorem reallocate (wellFormed : layout.WellFormed) (address? : Option Nat) (bytes : Nat) :
    (layout.reallocate address? bytes).layout.WellFormed := by
  dsimp only [Layout.reallocate]
  split
  · exact wellFormed.allocate bytes
  · split
    · exact wellFormed
    · split
      · exact wellFormed
      · have allocated := wellFormed.allocate bytes
        split
        · exact allocated
        · exact allocated.free _

end WellFormed

end Layout

end FirmwareLink.Pool

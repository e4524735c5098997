import FirmwareLink.Proofs.Pool.Realize

namespace FirmwareLink.Pool

open Memory

variable {cells : List Cell} {cell : Cell} {address : Nat}

structure Cell.Owns (cell : Cell) (address : Nat) : Prop where
  allocated : cell.state = .allocated
  low : cell.payload ≤ address
  high : address < cell.stop

theorem Cell.Owns.off (owns : cell.Owns address) (ordered : Ordered cells) (member : cell ∈ cells) :
    OffHeaders cells address := by
  intro other otherMember
  have low := owns.low
  have high := owns.high
  simp only [Cell.payload, headerSize] at low
  simp only [headerSize]
  by_cases same : other = cell
  · subst same
    omega
  · have room := (ordered.valid other otherMember).header_le_stop
    simp only [headerSize] at room
    rcases ordered.apart otherMember member same with below | above
    · omega
    · omega

theorem Cell.owns_of_lt (allocated : cell.state = .allocated) {index : Nat}
    (inside : index < cell.size - headerSize) : cell.Owns (cell.payload + index) := by
  refine ⟨allocated, Nat.le_add_right _ _, ?_⟩
  rw [Cell.stop_of_block (by simp [allocated])]
  simp only [Cell.payload, headerSize] at inside ⊢
  omega

theorem not_payload_of_owns (owns : cell.Owns address) (ordered : Ordered cells)
    (member : cell ∈ cells) : address + 8 ∉ payloads cells := by
  intro held
  obtain ⟨other, otherMember, _, payload⟩ := mem_payloads.mp held
  have off := owns.off ordered member other otherMember
  simp only [Cell.payload, headerSize] at payload off
  omega

theorem Layout.held?_of_mem {layout : Layout} (ordered : Ordered layout.cells)
    (member : cell ∈ layout.cells) (allocated : cell.state = .allocated) :
    layout.held? cell.payload = some cell := by
  cases held : layout.held? cell.payload with
  | none =>
    have absent := Layout.held?_eq_none_iff.mp held
    exact absurd (mem_payloads.mpr ⟨cell, member, allocated, rfl⟩) absent
  | some other =>
    obtain ⟨otherMember, _, payload⟩ := Layout.held?_eq_some held
    simp only [Cell.payload, headerSize] at payload
    rw [ordered.eq_of_address otherMember member (by omega)]

section Write

variable {pool : Pool} {layout : Layout} {bytes : Bytes}

structure Forges (memory : Memory) (address : Nat) (bytes : Bytes) (place : Nat) : Prop where
  aligned : alignment ∣ place
  low : place < address + bytes.length
  high : address < place + 8
  tagged : (memory.write address bytes).word place = BlockState.allocated.tag

theorem write_tagsWithin {places : Nat → Prop} (within : pool.memory.TagsWithin places) :
    (pool.write address bytes).memory.TagsWithin
      fun place => places place ∨ Forges pool.memory address bytes place := by
  intro place aligned tagged
  by_cases meets : place < address + bytes.length ∧ address < place + 8
  · exact Or.inr ⟨aligned, meets.1, meets.2, tagged⟩
  · have same : (pool.write address bytes).memory.word place = pool.memory.word place := by
      apply word_congr
      intro index bound
      exact byte_write_outside _ _ _ _ (by omega)
    rw [same] at tagged
    exact Or.inl (within place aligned tagged)

/-- A write makes no tag where the first byte of each word that it reaches is not that of the
    tag, whatever stands behind the bytes. -/
theorem not_forges (memory : Memory) (place : Nat) (aligned : alignment ∣ address)
    (plain : ∀ index < bytes.length, alignment ∣ index → bytes[index]? ≠ some 0x43) :
    ¬Forges memory address bytes place := by
  rintro ⟨placeAligned, low, high, tagged⟩
  have multiple : alignment ∣ place - address := Nat.dvd_sub placeAligned aligned
  simp only [alignment] at aligned placeAligned
  have bound : place - address < bytes.length := by omega
  have first := byte_write_inside memory address (place - address) bytes bound
  rw [show address + (place - address) = place by omega] at first
  have lowest := word_mod_256 (memory.write address bytes) place
  rw [tagged, first] at lowest
  have same : bytes[place - address] = 0x43 := UInt8.toNat_inj.mp lowest.symm
  exact plain _ bound multiple (by rw [List.getElem?_eq_getElem bound, same])

theorem not_forges_zeros (memory : Memory) (count place : Nat) (aligned : alignment ∣ address) :
    ¬Forges memory address (List.replicate count 0) place := by
  apply not_forges memory place aligned
  intro index bound _ same
  rw [List.getElem?_replicate, if_pos (by simpa using bound)] at same
  exact absurd (Option.some.inj same) (by decide)

theorem write_realizes (realizes : pool.Realizes layout) (wellFormed : layout.WellFormed)
    (member : cell ∈ layout.cells) (allocated : cell.state = .allocated)
    (low : cell.payload ≤ address) (high : address + bytes.length ≤ cell.stop) :
    (pool.write address bytes).Realizes layout := by
  refine { realizes with shown := realizes.shown.congr ?_ }
  intro other otherMember
  apply block_congr
  intro index bound
  apply byte_write_outside
  by_contra inside
  have owns : cell.Owns (other.address + index) := ⟨allocated, by omega, by omega⟩
  have off := owns.off wellFormed.tiled.ordered member other otherMember
  omega

end Write

end FirmwareLink.Pool

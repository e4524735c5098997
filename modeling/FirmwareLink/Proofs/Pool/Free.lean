import FirmwareLink.Proofs.Pool.Restore

namespace FirmwareLink.Pool

open Memory

variable {pool : Pool} {layout : Layout} {before after : List Cell} {cell : Cell} {address : Nat}

/-- The pool in which a block is marked free and counted so, but not yet in the list. -/
def unmark (pool : Pool) (header : Nat) : Pool :=
  { pool with
    memory := pool.memory.setTag header .free
    freeSize := pool.freeSize + (pool.block header).size }

theorem unmark_arenas (pool : Pool) (header : Nat) : (pool.unmark header).arenas = pool.arenas := by
  simp only [unmark]

theorem free_eq {header : Nat} (live : pool.liveHeader? address = some header) :
    pool.free address =
      ⟨(), { (pool.unmark header).restore header with frees := pool.frees + 1 }, []⟩ := by
  have frees : ((pool.unmark header).restore header).frees = (pool.unmark header).frees := by
    rw [restore_frame]
  rw [Pool.free, live]
  dsimp only
  rw [← unmark, frees]
  rfl

theorem unmark_loose (realizes : pool.Realizes layout)
    (split : layout.cells = before ++ cell :: after) (ordered : Ordered (before ++ cell :: after))
    (allocated : cell.state = .allocated) : Loose (pool.unmark cell.address) before cell after := by
  have unlisted : cell.listed = false := by simp [Cell.listed, allocated]
  obtain ⟨_, lower, higher⟩ := ordered.block_lt (by simp [allocated])
  have room := (ordered.valid cell (by simp)).block (by simp [allocated])
  have head := realizes.head
  have shown := realizes.shown
  rw [split] at head shown
  have size : (pool.memory.block cell.address).size = cell.size := shown.size_eq (by simp)
  refine ⟨?_, ?_, ?_, ?_⟩
  · rw [links_append, links_cons, unlisted] at head
    rw [links_append]
    exact head
  · apply (shown.without unlisted).congr
    intro other member
    apply block_setWord_apart
    simp only [headerSize] at lower room ⊢
    rcases List.mem_append.mp member with low | high
    · have below := lower other low
      omega
    · have above := higher other high
      omega
  · exact (congrArg Block.size (block_setTag_same _ _ _)).trans size
  · exact congrArg Block.tag (block_setTag_same _ _ _)

theorem unmark_freeSize (realizes : pool.Realizes layout)
    (split : layout.cells = before ++ cell :: after) :
    (pool.unmark cell.address).freeSize = freeBytes layout.cells + cell.size := by
  have size : (pool.memory.block cell.address).size = cell.size :=
    realizes.shown.size_eq (by simp [split])
  have counted : (pool.unmark cell.address).freeSize =
      pool.freeSize + (pool.memory.block cell.address).size := rfl
  rw [counted, realizes.freeSize, size]

theorem unmark_byte (off : address < cell.address ∨ cell.address + headerSize ≤ address) :
    (pool.unmark cell.address).memory.byte address = pool.memory.byte address := by
  simp only [headerSize] at off
  exact byte_setWord_outside _ _ _ _ (by omega)

theorem free_realizes (realizes : pool.Realizes layout) (wellFormed : layout.WellFormed)
    (split : layout.cells = before ++ cell :: after) (allocated : cell.state = .allocated) :
    { (pool.unmark cell.address).restore cell.address with frees := pool.frees + 1 }.Realizes
      { layout with
        cells := release (before ++ cell :: after) cell.address
        frees := layout.frees + 1 } := by
  have block : cell.state ≠ .sentinel := by simp [allocated]
  have tiled := wellFormed.tiled
  rw [split] at tiled
  have loose := unmark_loose realizes split tiled.ordered allocated
  have frame := restore_frame (pool.unmark cell.address) cell.address
  obtain ⟨head, shown⟩ := loose.restore_shown tiled block
  refine ⟨head, shown, ?_, ?_, ?_, ?_, ?_⟩
  · exact (congrArg Pool.arenas frame).trans realizes.arenas
  · exact (congrArg Pool.poolSize frame).trans realizes.poolSize
  · have amount := unmark_freeSize realizes split
    rw [split, ← freeBytes_release tiled allocated] at amount
    exact (congrArg Pool.freeSize frame).trans amount
  · exact (congrArg Pool.allocations frame).trans realizes.allocations
  · exact congrArg (· + 1) realizes.frees

theorem free_cases (header : pool.liveHeader? address = (layout.held? address).map Cell.address) :
    (pool.free address = ⟨(), pool, [.notAllocated address]⟩ ∧
      layout.free address = ⟨(), layout, [.notAllocated address]⟩) ∨
    ∃ before cell after, layout.cells = before ++ cell :: after ∧ cell.state = .allocated ∧
      cell.payload = address ∧
      pool.free address = ⟨(), { (pool.unmark cell.address).restore cell.address with
        frees := pool.frees + 1 }, []⟩ ∧
      layout.free address = ⟨(), { layout with
        cells := release (before ++ cell :: after) cell.address
        frees := layout.frees + 1 }, []⟩ := by
  cases held : layout.held? address with
  | none =>
    rw [held] at header
    refine Or.inl ⟨?_, ?_⟩
    · rw [Pool.free, header]
      rfl
    · rw [Layout.free, held]
  | some cell =>
    rw [held] at header
    obtain ⟨member, allocated, payload⟩ := Layout.held?_eq_some held
    obtain ⟨before, after, split⟩ := List.append_of_mem member
    refine Or.inr ⟨before, cell, after, split, allocated, payload, free_eq header, ?_⟩
    rw [Layout.free, held, split]

theorem free_matches (realizes : pool.Realizes layout) (wellFormed : layout.WellFormed)
    (header : pool.liveHeader? address = (layout.held? address).map Cell.address) :
    Matches pool layout (pool.free address) (layout.free address) := by
  rcases free_cases header with
    ⟨ignored, expected⟩ | ⟨before, cell, after, split, allocated, _, freed, expected⟩
  · rw [ignored, expected]
    exact .unchanged realizes _ _
  · rw [freed, expected]
    refine ⟨rfl, rfl, free_realizes realizes wellFormed split allocated, ?_⟩
    intro place off _
    have tiled := wellFormed.tiled
    rw [split] at off tiled
    have loose := unmark_loose realizes split tiled.ordered allocated
    have restored := loose.restore_byte tiled (by simp [allocated]) off
    exact restored.trans (unmark_byte (off cell (by simp)))

theorem unmark_tagsWithin {places : Nat → Prop} (aligned : alignment ∣ cell.address)
    (within : pool.memory.TagsWithin places) :
    (pool.unmark cell.address).memory.TagsWithin
      fun place => places place ∧ place ≠ cell.address + 16 :=
  within.setTag aligned (by decide)

theorem free_tagsWithin (wellFormed : layout.WellFormed) (realizes : pool.Realizes layout)
    (header : pool.liveHeader? address = (layout.held? address).map Cell.address)
    {places : Nat → Prop} (within : pool.memory.TagsWithin places) :
    (pool.free address).pool.memory.TagsWithin fun place =>
      places place ∧ (address ∈ payloads layout.cells → place + 8 ≠ address) := by
  rcases free_cases header with
    ⟨ignored, expected⟩ | ⟨before, cell, after, split, allocated, payload, freed, _⟩
  · rw [ignored]
    refine within.mono fun place old => ⟨old, fun held => ?_⟩
    cases absent : layout.held? address with
    | none => exact absurd held (Layout.held?_eq_none_iff.mp absent)
    | some cell => simp [Layout.free, absent] at expected
  · rw [freed]
    have tiled := wellFormed.tiled
    rw [split] at tiled
    have loose := unmark_loose realizes split tiled.ordered allocated
    have valid := tiled.valid cell (by simp)
    refine TagsWithin.mono
      (loose.restore_tagsWithin tiled (by simp [allocated]) (unmark_tagsWithin valid.aligned within)) ?_
    rintro place ⟨old, other⟩
    refine ⟨old, fun _ same => other ?_⟩
    simp only [Cell.payload, headerSize] at payload
    omega

end FirmwareLink.Pool

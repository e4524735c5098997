import FirmwareLink.Proofs.Pool.Realize

namespace FirmwareLink.Pool

open Memory

variable {pool : Pool} {layout : Layout} {before after : List Cell} {low high start stop : Nat}

/-- The pool with the headers of a new arena written, but not yet linked from below. -/
def enclose (pool : Pool) (low high next : Nat) : Pool :=
  { pool with
    memory := (pool.memory.setBlock (high - headerSize) next 0 .sentinel).setBlock low
      (high - headerSize) (high - low - headerSize) .free
    arenas := pool.arenas ++ [⟨low, high - headerSize⟩]
    poolSize := pool.poolSize + (high - low)
    freeSize := pool.freeSize + (high - low - headerSize) }

theorem enclose_head (pool : Pool) (low high next : Nat) :
    (pool.enclose low high next).head = pool.head := by simp only [enclose]

theorem enclose_allocations (pool : Pool) (low high next : Nat) :
    (pool.enclose low high next).allocations = pool.allocations := by simp only [enclose]

theorem enclose_frees (pool : Pool) (low high next : Nat) :
    (pool.enclose low high next).frees = pool.frees := by simp only [enclose]

def Layout.enclose (layout : Layout) (before after : List Cell) (low high : Nat) : Layout :=
  { layout with
    cells := before ++ (⟨low, high - low - headerSize, .free⟩ ::
      ⟨high - headerSize, 0, .sentinel⟩ :: after)
    arenas := layout.arenas ++ [⟨low, high - headerSize⟩] }

structure Gap (before after : List Cell) (low high : Nat) : Prop where
  vacant : Vacant (before ++ after) low high
  below : ∀ cell ∈ before, cell.address < low
  above : ∀ cell ∈ after, low ≤ cell.address

theorem addArena_cases (realizes : pool.Realizes layout) (wellFormed : layout.WellFormed)
    (positive : 0 < start) (bounded : stop < UInt64.size) :
    (∃ answer notes, answer ≠ .ok true ∧ pool.addArena start stop = ⟨answer, pool, notes⟩ ∧
      layout.addArena start stop = ⟨answer, layout, notes⟩) ∨
    ∃ before after, layout.cells = before ++ after ∧
      Gap before after (alignUp start) (alignDown stop) ∧
      pool.addArena start stop = ⟨.ok true,
        (pool.enclose (alignUp start) (alignDown stop) ((links after).head?.getD 0)).link
          (links before).getLast? (alignUp start),
        [.registered (alignDown stop - alignUp start)]⟩ ∧
      layout.addArena start stop = ⟨.ok true,
        layout.enclose before after (alignUp start) (alignDown stop),
        [.registered (alignDown stop - alignUp start)]⟩ := by
  have visited := realizes.nodes_eq wellFormed
  dsimp only [Pool.addArena, Layout.addArena]
  rw [realizes.arenas]
  split
  · exact Or.inl ⟨_, _, by simp, rfl, rfl⟩
  · split
    · exact Or.inl ⟨_, _, by simp, rfl, rfl⟩
    · rename_i room
      split
      · exact Or.inl ⟨_, _, by simp, rfl, rfl⟩
      · rename_i clear
        split
        · exact Or.inl ⟨_, _, by simp, rfl, rfl⟩
        · have vacant := wellFormed.vacant positive bounded room clear
          obtain ⟨before, after, split, taken, dropped, below, above⟩ :=
            wellFormed.tiled.ordered.split_at (alignUp start)
          rw [split] at vacant visited
          refine Or.inr ⟨before, after, split, ⟨vacant, below, above⟩, ?_, ?_⟩
          · rw [neighbours_eq _ visited below above, ← realizes.arenas]
            rfl
          · rw [taken, dropped]
            rfl

namespace Gap

variable (gap : Gap before after low high) (tiled : Tiled (before ++ after))

include gap

theorem bounds : low + 48 < high ∧ high < UInt64.size ∧ alignment ∣ low ∧ alignment ∣ high := by
  have room := gap.vacant.room
  simp only [headerSize] at room
  exact ⟨by omega, gap.vacant.bounded, gap.vacant.lowAligned, gap.vacant.highAligned⟩

theorem not_contains (wellFormed : layout.WellFormed) (split : layout.cells = before ++ after)
    {address : Nat} (above : low ≤ address) (below : address < high) :
    layout.contains address = false := by
  rw [Layout.contains, List.any_eq_false]
  intro arena member
  have inSpans := wellFormed.table.mem_iff.mp member
  rw [split] at inSpans
  have clear := gap.vacant.clear arena inSpans
  simp only [Arena.covers, Bool.and_eq_true, decide_eq_true_eq]
  omega

include tiled

theorem lower {cell : Cell} (member : cell ∈ before) : cell.address + headerSize ≤ low := by
  have stop := gap.vacant.stop_le tiled (List.mem_append_left _ member) (gap.below cell member)
  have room := (tiled.valid cell (List.mem_append_left _ member)).header_le_stop
  omega

theorem upper {cell : Cell} (member : cell ∈ after) : high ≤ cell.address :=
  gap.vacant.le_address tiled (List.mem_append_right _ member) (gap.above cell member)

theorem enclose_block {cell : Cell} (member : cell ∈ before ++ after) (next : Nat) :
    (pool.enclose low high next).memory.block cell.address = pool.memory.block cell.address := by
  obtain ⟨room, _, _, _⟩ := gap.bounds
  have apart : cell.address + headerSize ≤ low ∨ high ≤ cell.address := by
    rcases List.mem_append.mp member with lower | upper
    · exact Or.inl (gap.lower tiled lower)
    · exact Or.inr (gap.upper tiled upper)
  simp only [headerSize] at apart
  refine (block_setBlock_apart _ _ _ _ _ _ ?_).trans (block_setBlock_apart _ _ _ _ _ _ ?_)
  · simp only [headerSize]
    omega
  · simp only [headerSize]
    omega

theorem enclose_shown (shown : Shown pool.memory (before ++ after) 0) :
    Shown ((pool.enclose low high ((links after).head?.getD 0)).link (links before).getLast?
        low).memory
      (before ++ (⟨low, high - low - headerSize, .free⟩ ::
        ⟨high - headerSize, 0, .sentinel⟩ :: after)) 0 := by
  obtain ⟨room, bounded, _, _⟩ := gap.bounds
  obtain ⟨shownBefore, shownAfter⟩ := Shown.append.mp shown
  have ordered := tiled.ordered
  have next := ordered.right.link_lt.1
  have kept : ∀ address, low ≤ address → ((pool.enclose low high
      ((links after).head?.getD 0)).link (links before).getLast? low).memory.block address =
      (pool.enclose low high ((links after).head?.getD 0)).memory.block address := by
    intro address above
    exact link_block fun cell member => Nat.le_trans (gap.lower tiled member) above
  refine Shown.append.mpr ⟨?_, ?_, ?_, ?_⟩
  · refine link_shown ordered.left (shownBefore.congr fun cell member => ?_) (by omega)
    exact gap.enclose_block tiled (List.mem_append_left _ member) _
  · rw [kept _ (Nat.le_refl _)]
    exact block_setBlock_same _ _ _ (show high - headerSize < UInt64.size by omega)
      (show high - low - headerSize < UInt64.size by omega)
  · simp only [headerSize]
    rw [kept _ (show low ≤ high - 24 by omega)]
    refine (block_setBlock_apart _ _ _ _ _ _ ?_).trans (block_setBlock_same _ _ _ next (by decide))
    simp only [headerSize]
    omega
  · apply shownAfter.congr
    intro cell member
    have above := gap.upper tiled member
    rw [kept _ (show low ≤ cell.address by omega)]
    exact gap.enclose_block tiled (List.mem_append_right _ member) _

end Gap

theorem enclose_byte {next address : Nat}
    (low_off : address < low ∨ low + headerSize ≤ address)
    (high_off : address < high - headerSize ∨ high - headerSize + headerSize ≤ address) :
    (pool.enclose low high next).memory.byte address = pool.memory.byte address :=
  (byte_setBlock_outside _ _ _ _ _ _ low_off).trans (byte_setBlock_outside _ _ _ _ _ _ high_off)

theorem enclose_realizes (realizes : pool.Realizes layout) (wellFormed : layout.WellFormed)
    (split : layout.cells = before ++ after) (gap : Gap before after low high) :
    ((pool.enclose low high ((links after).head?.getD 0)).link (links before).getLast? low).Realizes
      (layout.enclose before after low high) := by
  obtain ⟨room, _, _, _⟩ := gap.bounds
  have tiled := wellFormed.tiled
  have head := realizes.head
  have shown := realizes.shown
  rw [split] at tiled head shown
  rw [links_append, List.head?_append, Option.getD_or] at head
  refine ⟨?_, gap.enclose_shown tiled shown, ?_, ?_, ?_, ?_, ?_⟩
  · have first : (links (layout.enclose before after low high).cells).head?.getD 0 =
        (links before).head?.getD low := by
      simp [Layout.enclose, List.head?_append]
    rw [first]
    exact link_head ((enclose_head ..).trans head)
  · rw [link_arenas]
    exact congrArg (· ++ [Arena.mk low (high - headerSize)]) realizes.arenas
  · have span : (Arena.mk low (high - headerSize)).span = high - low := by
      simp only [Arena.span, headerSize]
      omega
    rw [link_poolSize, Layout.enclose, List.map_append, List.sum_append, List.map_singleton,
      List.sum_singleton, span, ← realizes.poolSize]
    rfl
  · have counted : freeBytes (layout.enclose before after low high).cells =
        freeBytes layout.cells + (high - low - headerSize) := by
      simp only [Layout.enclose, split, freeBytes_append, freeBytes_cons, if_true, reduceCtorEq,
        if_false]
      omega
    rw [link_freeSize, counted, ← realizes.freeSize]
    rfl
  · rw [link_allocations, enclose_allocations]
    exact realizes.allocations
  · rw [link_frees, enclose_frees]
    exact realizes.frees

theorem addArena_matches (realizes : pool.Realizes layout) (wellFormed : layout.WellFormed)
    (positive : 0 < start) (bounded : stop < UInt64.size) :
    Matches pool layout (pool.addArena start stop) (layout.addArena start stop) := by
  rcases addArena_cases realizes wellFormed positive bounded with
    ⟨_, _, _, unchanged, expected⟩ | ⟨before, after, split, gap, registered, expected⟩
  · rw [unchanged, expected]
    exact .unchanged realizes _ _
  · rw [registered, expected]
    refine ⟨rfl, rfl, enclose_realizes realizes wellFormed split gap, ?_⟩
    intro address off offNew
    rw [split] at off
    obtain ⟨_, offRegion⟩ := OffHeaders.append.mp offNew
    refine (link_byte (OffHeaders.append.mp off).1).trans (enclose_byte ?_ ?_)
    · exact offRegion _ List.mem_cons_self
    · exact offRegion _ (List.mem_cons_of_mem _ List.mem_cons_self)

theorem addArena_tagsWithin {places : Nat → Prop} (realizes : pool.Realizes layout)
    (wellFormed : layout.WellFormed) (positive : 0 < start) (bounded : stop < UInt64.size)
    (within : pool.memory.TagsWithin places) :
    (pool.addArena start stop).pool.memory.TagsWithin places := by
  rcases addArena_cases realizes wellFormed positive bounded with
    ⟨_, _, _, unchanged, _⟩ | ⟨before, after, split, gap, registered, _⟩
  · rw [unchanged]
    exact within
  · rw [registered]
    obtain ⟨room, below, lowAligned, highAligned⟩ := gap.bounds
    have ordered := wellFormed.tiled.ordered
    rw [split] at ordered
    have next := ordered.right.link_lt
    have top : alignment ∣ alignDown stop - headerSize := Nat.dvd_sub highAligned (by decide)
    refine link_tagsWithin ordered.left ?_ (by omega) lowAligned
    refine TagsWithin.setBlock ?_ lowAligned (by omega) top (by omega)
      (Nat.dvd_sub (Nat.dvd_sub highAligned lowAligned) (by decide)) (by decide)
    exact within.setBlock top next.1 next.2 (by decide) (Nat.dvd_zero _) (by decide)

end FirmwareLink.Pool

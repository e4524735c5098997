import FirmwareLink.Proofs.Pool.Realize

namespace FirmwareLink.Pool

open Memory

variable {pool : Pool} {layout : Layout} {before after : List Cell} {cell : Cell} {size : Nat}

theorem fits_eq {link : Nat} (shown : Shown pool.memory (before ++ cell :: after) link) :
    pool.fits size cell.address = cell.fits size := by
  have member : cell ∈ before ++ cell :: after := by simp
  have tag : (pool.block cell.address).has .free = decide (cell.state = .free) :=
    shown.has_eq member .free
  have amount : (pool.block cell.address).size = cell.size := shown.size_eq member
  rw [fits, Cell.fits, tag, amount]

theorem search_eq {cells : List Cell} {link : Nat} (shown : Shown pool.memory cells link)
    (size : Nat) :
    (links cells).takeWhile (!pool.fits size ·) = links (cells.takeWhile (!·.fits size)) ∧
      (links cells).dropWhile (!pool.fits size ·) = links (cells.dropWhile (!·.fits size)) := by
  induction cells with
  | nil => exact ⟨rfl, rfl⟩
  | cons cell rest ih =>
    have same : pool.fits size cell.address = cell.fits size := by
      have whole : Shown pool.memory ([] ++ cell :: rest) link := shown
      exact fits_eq whole
    obtain ⟨taken, dropped⟩ := ih shown.2
    cases fits : cell.fits size with
    | true =>
      have free : cell.listed = true := by
        simp only [Cell.fits, Bool.and_eq_true, decide_eq_true_eq] at fits
        simp [Cell.listed, fits.1]
      simp [links_cons, free, fits, same]
    | false =>
      cases listed : cell.listed with
      | true => simp [links_cons, listed, fits, same, taken, dropped]
      | false => simp [links_cons, listed, fits, taken, dropped]

section Take

theorem Shown.at_free {memory : Memory} (free : cell.state = .free)
    (shown : Shown memory (before ++ cell :: after) 0) :
    Shown memory before cell.address ∧
      memory.block cell.address =
        ⟨(links after).head?.getD 0, cell.size, BlockState.free.tag⟩ ∧
      Shown memory after 0 := by
  rw [Shown.append] at shown
  simpa [Shown, links_cons, Cell.listed, free] using shown

/-- The rest of a block that is large enough to be split becomes a free block of its own. -/
theorem take_split (ordered : Ordered (before ++ cell :: after))
    (shown : Shown pool.memory (before ++ cell :: after) 0) (free : cell.state = .free)
    (room : headerSize ≤ size) (large : 2 * headerSize < cell.size - size) :
    Shown (pool.take (links before).getLast? cell.address size).memory
      (before ++ (⟨cell.address, size, .allocated⟩ ::
        ⟨cell.address + size, cell.size - size, .free⟩ :: after)) 0 := by
  obtain ⟨bounded, lower, higher⟩ := ordered.block_lt (by simp [free])
  obtain ⟨shownBefore, header, shownAfter⟩ := shown.at_free free
  have nextBound := ordered.right.tail.link_lt.1
  have read : pool.block cell.address = _ := header
  dsimp only [take]
  rw [read, if_pos large]
  let next := (links after).head?.getD 0
  let rest := cell.address + size
  let memory := pool.memory.setBlock rest next (cell.size - size) .free
  let linked := { pool with memory }.link (links before).getLast? rest
  have linkedBefore : Shown linked.memory before rest := by
    refine link_shown ordered.left (shownBefore.congr ?_) (by omega)
    intro low member
    have below := lower low member
    exact block_setBlock_apart _ _ _ _ _ _ (by omega)
  have linkedRest : linked.memory.block rest = ⟨next, cell.size - size, BlockState.free.tag⟩ := by
    rw [link_block fun low member => by have below := lower low member; omega]
    exact block_setBlock_same _ _ _ nextBound (by omega)
  have linkedAfter : Shown linked.memory after 0 := by
    apply shownAfter.congr
    intro high member
    have above := higher high member
    rw [link_block fun low member => by have below := lower low member; omega]
    exact block_setBlock_apart _ _ _ _ _ _ (by omega)
  refine Shown.append.mpr ⟨?_, ?_, ?_, ?_⟩
  · apply linkedBefore.congr
    intro low member
    have below := lower low member
    exact block_setBlock_apart _ _ _ _ _ _ (by omega)
  · exact block_setBlock_same _ _ _ (by decide) (by omega)
  · exact (block_setBlock_apart _ cell.address (cell.address + size) _ _ _ (by omega)).trans
      linkedRest
  · apply linkedAfter.congr
    intro high member
    have above := higher high member
    exact block_setBlock_apart _ _ _ _ _ _ (by omega)

theorem take_whole (ordered : Ordered (before ++ cell :: after))
    (shown : Shown pool.memory (before ++ cell :: after) 0) (free : cell.state = .free)
    (small : ¬2 * headerSize < cell.size - size) :
    Shown (pool.take (links before).getLast? cell.address size).memory
      (before ++ (⟨cell.address, cell.size, .allocated⟩ :: after)) 0 := by
  obtain ⟨bounded, lower, higher⟩ := ordered.block_lt (by simp [free])
  obtain ⟨shownBefore, header, shownAfter⟩ := shown.at_free free
  have room := (ordered.valid cell (by simp)).block (by simp [free])
  have nextBound := ordered.right.tail.link_lt.1
  have read : pool.block cell.address = _ := header
  dsimp only [take]
  rw [read, if_neg small]
  let next := (links after).head?.getD 0
  let linked := pool.link (links before).getLast? next
  have linkedBefore : Shown linked.memory before next :=
    link_shown ordered.left shownBefore nextBound
  have linkedAfter : Shown linked.memory after 0 := by
    apply shownAfter.congr
    intro high member
    have above := higher high member
    exact link_block fun low member => by have below := lower low member; omega
  refine Shown.append.mpr ⟨?_, ?_, ?_⟩
  · apply linkedBefore.congr
    intro low member
    have below := lower low member
    exact block_setBlock_apart _ _ _ _ _ _ (by omega)
  · exact block_setBlock_same _ _ _ (by decide) (show cell.size < UInt64.size by omega)
  · apply linkedAfter.congr
    intro high member
    have above := higher high member
    exact block_setBlock_apart _ _ _ _ _ _ (by omega)

theorem take_shown (ordered : Ordered (before ++ cell :: after))
    (shown : Shown pool.memory (before ++ cell :: after) 0) (fits : cell.fits size = true)
    (room : headerSize ≤ size) :
    Shown (pool.take (links before).getLast? cell.address size).memory
      (before ++ (cell.carve size ++ after)) 0 := by
  simp only [Cell.fits, Bool.and_eq_true, decide_eq_true_eq] at fits
  unfold Cell.carve
  split
  · rename_i large
    exact take_split ordered shown fits.1 room large
  · rename_i small
    exact take_whole ordered shown fits.1 small

theorem take_byte {address : Nat} {link : Nat}
    (shown : Shown pool.memory (before ++ cell :: after) link)
    (off : OffHeaders (before ++ cell :: after) address)
    (offCarved : OffHeaders (cell.carve size) address) :
    (pool.take (links before).getLast? cell.address size).memory.byte address =
      pool.memory.byte address := by
  have read : (pool.block cell.address).size = cell.size := shown.size_eq (by simp)
  obtain ⟨offBefore, offRest⟩ := OffHeaders.append.mp off
  have offCell := offRest cell List.mem_cons_self
  dsimp only [take]
  rw [read]
  unfold Cell.carve at offCarved
  split at offCarved
  · rename_i large
    have offRest := offCarved _ (List.mem_cons_of_mem _ List.mem_cons_self)
    rw [if_pos large]
    simp only
    rw [byte_setBlock_outside _ _ _ _ _ _ offCell, link_byte offBefore,
      byte_setBlock_outside _ _ _ _ _ _ offRest]
  · rename_i small
    rw [if_neg small]
    simp only
    rw [byte_setBlock_outside _ _ _ _ _ _ offCell, link_byte offBefore]

theorem take_tagsWithin {places : Nat → Prop} (ordered : Ordered (before ++ cell :: after))
    (shown : Shown pool.memory (before ++ cell :: after) 0) (fits : cell.fits size = true)
    (aligned : alignment ∣ size) (within : pool.memory.TagsWithin places) :
    (pool.take (links before).getLast? cell.address size).memory.TagsWithin
      fun place => places place ∨ place = cell.address + 16 := by
  simp only [Cell.fits, Bool.and_eq_true, decide_eq_true_eq] at fits
  have valid := ordered.valid cell (by simp)
  obtain ⟨bounded, _, _⟩ := ordered.block_lt (by simp [fits.1])
  obtain ⟨_, header, _⟩ := shown.at_free fits.1
  have next := ordered.right.tail.link_lt
  have read : pool.block cell.address = _ := header
  have zero : alignment ∣ 0 := Nat.dvd_zero _
  dsimp only [take]
  rw [read]
  split
  · have restAligned : alignment ∣ cell.address + size := Nat.dvd_add valid.aligned aligned
    have amountAligned : alignment ∣ cell.size - size := Nat.dvd_sub valid.sizeAligned aligned
    refine TagsWithin.setBlock_allocated ?_ valid.aligned (by decide) zero (by omega) aligned
    refine link_tagsWithin ordered.left ?_ (by omega) restAligned
    exact within.setBlock restAligned next.1 next.2 (show cell.size - size < UInt64.size by omega)
      amountAligned (by decide)
  · refine TagsWithin.setBlock_allocated ?_ valid.aligned (by decide) zero
      (show cell.size < UInt64.size by omega) valid.sizeAligned
    exact link_tagsWithin ordered.left within next.1 next.2

end Take

theorem take_realizes (realizes : pool.Realizes layout) (wellFormed : layout.WellFormed)
    (split : layout.cells = before ++ cell :: after) (fits : cell.fits size = true)
    (room : headerSize ≤ size) :
    (pool.take (links before).getLast? cell.address size).Realizes { layout with
      cells := before ++ (cell.carve size ++ after)
      allocations := layout.allocations + 1 } := by
  have ordered := wellFormed.tiled.ordered
  have head := realizes.head
  have shown := realizes.shown
  have freeSize := realizes.freeSize
  have free : cell.state = .free := by
    simp only [Cell.fits, Bool.and_eq_true, decide_eq_true_eq] at fits
    exact fits.1
  rw [split] at ordered head shown freeSize
  have read : pool.block cell.address = _ := (shown.at_free free).2.1
  have listed : cell.listed = true := by simp [Cell.listed, free]
  have headBefore : pool.head = (links before).head?.getD cell.address := by
    simpa [links_cons, listed, List.head?_append, Option.getD_or] using head
  rw [← freeBytes_carve fits] at freeSize
  refine ⟨?_, take_shown ordered shown fits room, ?_, ?_, ?_, ?_, ?_⟩
  · dsimp only [take, Cell.carve]
    rw [read]
    split
    · simp only [links_append, links_allocated, links_free, List.cons_append, List.nil_append,
        List.head?_append, Option.getD_or, List.head?_cons, Option.getD_some]
      exact link_head headBefore
    · simp only [links_append, links_allocated, List.cons_append, List.nil_append,
        List.head?_append, Option.getD_or]
      exact link_head headBefore
  · dsimp only [take]
    split <;> simp [realizes.arenas]
  · dsimp only [take]
    split <;> simp [realizes.poolSize]
  · dsimp only [take, Cell.carvedSize] at freeSize ⊢
    rw [read]
    split
    · rename_i large
      rw [if_pos large] at freeSize
      simp only [link_freeSize]
      omega
    · rename_i small
      rw [if_neg small] at freeSize
      simp only [link_freeSize]
      omega
  · dsimp only [take]
    split <;> simp [realizes.allocations]
  · dsimp only [take]
    split <;> simp [realizes.frees]

/-- Either an allocation fails and changes nothing, or it takes the first block that fits. -/
theorem allocate_cases (realizes : pool.Realizes layout) (wellFormed : layout.WellFormed)
    (bytes : Nat) :
    (∃ notes, pool.allocate bytes = ⟨none, pool, notes⟩ ∧
      layout.allocate bytes = ⟨none, layout, notes⟩) ∨
    ∃ before cell after size, layout.cells = before ++ cell :: after ∧ cell.fits size = true ∧
      BlockSize size ∧ bytes + headerSize ≤ size ∧
      pool.allocate bytes =
        ⟨some cell.payload, pool.take (links before).getLast? cell.address size, []⟩ ∧
      layout.allocate bytes = ⟨some cell.payload, { layout with
        cells := before ++ (cell.carve size ++ after)
        allocations := layout.allocations + 1 }, []⟩ := by
  have nodes := realizes.nodes_eq wellFormed
  have search := search_eq realizes.shown
  simp only [Pool.allocate, Layout.allocate, realizes.head_eq_zero wellFormed, realizes.freeSize,
    nodes, (search _).1, (search _).2]
  split
  · exact Or.inl ⟨_, rfl, rfl⟩
  · rename_i asked
    split
    · exact Or.inl ⟨_, rfl, rfl⟩
    · cases found : layout.cells.dropWhile (!·.fits (alignUp (bytes + headerSize))) with
      | nil => exact Or.inl ⟨_, rfl, rfl⟩
      | cons cell rest =>
        obtain ⟨split, fits⟩ := firstFit_split found
        have listed : cell.listed = true := by
          simp only [Cell.fits, Bool.and_eq_true, decide_eq_true_eq] at fits
          simp [Cell.listed, fits.1]
        rw [links_cons, listed]
        refine Or.inr ⟨_, cell, rest, _, split, fits, ?_, ?_, rfl, rfl⟩
        · exact blockSize_alignUp fun zero : bytes = 0 => asked (Or.inl zero)
        · simp only [alignUp, alignment]
          omega

theorem allocate_matches (realizes : pool.Realizes layout) (wellFormed : layout.WellFormed)
    (bytes : Nat) : Matches pool layout (pool.allocate bytes) (layout.allocate bytes) := by
  rcases allocate_cases realizes wellFormed bytes with
    ⟨notes, failed, expected⟩ | ⟨before, cell, after, size, split, fits, blockSize, _, taken, expected⟩
  · rw [failed, expected]
    exact .unchanged realizes _ _
  · have room : headerSize ≤ size := Nat.le_trans (Nat.le_add_right _ _) blockSize.room
    rw [taken, expected]
    refine ⟨rfl, rfl, take_realizes realizes wellFormed split fits room, ?_⟩
    intro address off offNext
    have shown := realizes.shown
    rw [split] at off shown
    simp only [OffHeaders.append] at offNext
    exact take_byte shown off offNext.2.1

theorem allocate_tagsWithin (realizes : pool.Realizes layout) (wellFormed : layout.WellFormed)
    (bytes : Nat) {places : Nat → Prop} (within : pool.memory.TagsWithin places) :
    (pool.allocate bytes).pool.memory.TagsWithin
      fun place => places place ∨ (layout.allocate bytes).value = some (place + 8) := by
  rcases allocate_cases realizes wellFormed bytes with
    ⟨notes, failed, expected⟩ | ⟨before, cell, after, size, split, fits, blockSize, _, taken, expected⟩
  · rw [failed, expected]
    exact within.mono fun _ => Or.inl
  · have ordered := wellFormed.tiled.ordered
    have shown := realizes.shown
    rw [split] at ordered shown
    rw [taken, expected]
    refine TagsWithin.mono (take_tagsWithin ordered shown fits blockSize.aligned within) ?_
    rintro place (old | rfl)
    · exact Or.inl old
    · exact Or.inr rfl

end FirmwareLink.Pool

import FirmwareLink.Proofs.Pool.Realize

namespace FirmwareLink.Pool

open Memory

variable {pool : Pool} {layout : Layout} {before after below : List Cell} {cell node : Cell}

structure Hangs (pool : Pool) (below : List Cell) (node : Cell) (after : List Cell) : Prop where
  head : pool.head = (links below).head?.getD node.address
  below : Shown pool.memory below node.address
  size : (pool.block node.address).size = node.size
  tag : (pool.block node.address).tag = BlockState.free.tag
  after : Shown pool.memory after 0

section Below

theorem getLast?_links_of_free {low : Cell} (free : low.state = .free) :
    (links (before ++ [low])).getLast? = some low.address := by
  have listed : low.listed = true := by simp [Cell.listed, free]
  simp [links_cons, listed]

theorem last_of_touching {low : Cell} {early late : List Cell}
    (ordered : Ordered (early ++ low :: late ++ cell :: after)) (block : low.state ≠ .sentinel)
    (touch : low.address + low.size = cell.address) : late = [] := by
  rw [← Cell.stop_of_block block] at touch
  cases late with
  | nil => rfl
  | cons other rest =>
    rw [List.append_assoc] at ordered
    have first := ordered.right.stop_le_of_cons
      (show other ∈ other :: rest ++ cell :: after by simp)
    have inLower : other ∈ low :: other :: rest := by simp
    have second := ordered.right.header_le inLower List.mem_cons_self
    simp only [headerSize] at second
    omega

theorem joinBelow_eq_merge {early : List Cell} {low : Cell} {link : Nat}
    (shown : Shown pool.memory (early ++ [low]) link) (free : low.state = .free)
    (touch : cell.address = low.address + low.size)
    (size : (pool.block cell.address).size = cell.size) :
    pool.joinBelow (links (early ++ [low])).getLast? cell.address =
      (low.address, { pool with
        memory := pool.memory.setSize low.address (low.size + cell.size) }) := by
  have member : low ∈ early ++ [low] := by simp
  have tagged : (pool.block low.address).has .free = true :=
    (shown.has_eq member .free).trans (decide_eq_true free)
  have amount : (pool.block low.address).size = low.size := shown.size_eq member
  rw [getLast?_links_of_free free, joinBelow]
  simp only [tagged, amount, size, touch.symm, Bool.true_and, decide_true, if_true]

theorem joinBelow_eq_link {link : Nat} (ordered : Ordered (before ++ cell :: after))
    (shown : Shown pool.memory before link) (noLow : ∀ low ∈ before.getLast?, low.state ≠ .free) :
    pool.joinBelow (links before).getLast? cell.address =
      (cell.address, pool.link (links before).getLast? cell.address) := by
  cases last : (links before).getLast? with
  | none => rfl
  | some node =>
    obtain ⟨early, low, late, rfl, listed, rfl, none_later⟩ := split_of_getLast?_links last
    have member : low ∈ early ++ low :: late := by simp
    have tagged : (pool.block low.address).has .free = decide (low.state = .free) :=
      shown.has_eq member .free
    have amount : (pool.block low.address).size = low.size := shown.size_eq member
    have apart : ¬(low.state = .free ∧ low.address + low.size = cell.address) := by
      rintro ⟨free, touch⟩
      obtain rfl := last_of_touching ordered (by simp [free]) touch
      exact noLow low (by simp) free
    rw [joinBelow]
    simp only [tagged, amount, Bool.and_eq_true, decide_eq_true_eq, if_neg apart]

theorem joinBelow_hangs {link : Nat} (tiled : Tiled (before ++ cell :: after))
    (block : cell.state ≠ .sentinel) (head : pool.head = (links before).head?.getD link)
    (shownBefore : Shown pool.memory before link) (shownAfter : Shown pool.memory after 0)
    (size : (pool.block cell.address).size = cell.size)
    (tag : (pool.block cell.address).tag = BlockState.free.tag) :
    (pool.joinBelow (links before).getLast? cell.address).1 = (cell.mergeBelow before).2.address ∧
      Hangs (pool.joinBelow (links before).getLast? cell.address).2 (cell.mergeBelow before).1
        (cell.mergeBelow before).2 after := by
  have ordered := tiled.ordered
  obtain ⟨bounded, lower, higher⟩ := ordered.block_lt block
  by_cases noLow : ∀ low ∈ before.getLast?, low.state ≠ .free
  · rw [joinBelow_eq_link ordered shownBefore noLow, mergeBelow_other noLow]
    have same : (pool.link (links before).getLast? cell.address).block cell.address =
        pool.block cell.address := link_block lower
    refine ⟨rfl, link_head head, link_shown ordered.left shownBefore (by omega), ?_, ?_, ?_⟩
    · rw [same, size]
    · rw [same, tag]
    · apply shownAfter.congr
      intro high member
      have above := higher high member
      exact link_block fun low member => by have below := lower low member; omega
  · push Not at noLow
    obtain ⟨low, last, free⟩ := noLow
    obtain ⟨early, rfl⟩ := List.getLast?_eq_some_iff.mp last
    have lowBlock : low.state ≠ .sentinel := by simp [free]
    have listed : low.listed = true := by simp [Cell.listed, free]
    have touch : cell.address = low.address + low.size := by
      rw [List.append_assoc, List.singleton_append] at tiled
      rw [← Cell.stop_of_block lowBlock]
      exact tiled.right.next_touches lowBlock
    rw [joinBelow_eq_merge shownBefore free touch size, mergeBelow_free free]
    -- Only the size of the free block in front is written; every link stays.
    obtain ⟨shownEarly, header, _⟩ := Shown.append.mp shownBefore
    have room : low.address + headerSize ≤ cell.address := lower low (by simp)
    have bound : low.size + cell.size < UInt64.size := by omega
    simp only [headerSize] at room
    refine ⟨rfl, ?_, ?_, ?_, ?_, ?_⟩
    · simpa [links_cons, listed, List.head?_append, Option.getD_or] using head
    · simp only [links_cons, listed, if_true, links_nil, List.head?_cons, Option.getD_some]
        at shownEarly
      apply shownEarly.congr
      intro other member
      have apart := ordered.left.header_le member (List.mem_singleton_self low)
      exact block_setWord_apart _ _ _ _ (by omega)
    · exact congrArg Block.size (block_setSize_same _ _ bound)
    · apply (congrArg Block.tag (block_setSize_same _ _ bound)).trans
      rw [header, free]
    · apply shownAfter.congr
      intro high member
      have above := higher high member
      exact block_setWord_apart _ _ _ _ (by omega)

theorem joinBelow_byte {address other : Nat} (off : OffHeaders before other) :
    (pool.joinBelow (links before).getLast? address).2.memory.byte other =
      pool.memory.byte other := by
  cases last : (links before).getLast? with
  | none => rfl
  | some node =>
    obtain ⟨low, member, _, rfl⟩ := mem_links.mp (List.mem_of_getLast? last)
    have outside := off low member
    simp only [headerSize] at outside
    dsimp only [joinBelow]
    split
    · exact byte_setWord_outside _ _ _ _ (by omega)
    · exact byte_setWord_outside _ _ _ _ (by omega)

theorem joinBelow_tagsWithin {places : Nat → Prop} {link : Nat}
    (ordered : Ordered (before ++ cell :: after)) (block : cell.state ≠ .sentinel)
    (shown : Shown pool.memory before link) (size : (pool.block cell.address).size = cell.size)
    (within : pool.memory.TagsWithin places) :
    (pool.joinBelow (links before).getLast? cell.address).2.memory.TagsWithin places := by
  have valid := ordered.valid cell (by simp)
  obtain ⟨bounded, lower, _⟩ := ordered.block_lt block
  cases last : (links before).getLast? with
  | none => exact within
  | some node =>
    obtain ⟨low, member, _, rfl⟩ := mem_links.mp (List.mem_of_getLast? last)
    have lowValid := ordered.left.valid low member
    have amount : (pool.block low.address).size = low.size := shown.size_eq member
    dsimp only [joinBelow]
    split
    · rename_i touches
      simp only [amount, Bool.and_eq_true, decide_eq_true_eq] at touches
      rw [amount, size]
      exact within.setSize lowValid.aligned (by omega)
        (Nat.dvd_add lowValid.sizeAligned valid.sizeAligned)
    · exact within.setNext lowValid.aligned (by omega) valid.aligned

theorem joinBelow_frame (previous : Option Nat) (address : Nat) :
    (pool.joinBelow previous address).2 = { pool with
      memory := (pool.joinBelow previous address).2.memory
      head := (pool.joinBelow previous address).2.head } := by
  cases previous with
  | none => rfl
  | some before =>
    dsimp only [joinBelow]
    split <;> rfl

end Below

section Above

theorem joinAbove_eq_merge {high : Cell} {late : List Cell}
    (hangs : Hangs pool below node (high :: late)) (free : high.state = .free)
    (positive : 0 < high.address) (touch : high.address = node.address + node.size) :
    pool.joinAbove node.address ((links (high :: late)).head?.getD 0) = { pool with
      memory := (pool.memory.setSize node.address (node.size + high.size)).setNext node.address
        ((links late).head?.getD 0) } := by
  have listed : high.listed = true := by simp [Cell.listed, free]
  have header : pool.block high.address =
      ⟨(links late).head?.getD 0, high.size, high.state.tag⟩ := by
    have shown := hangs.after.1
    rwa [listed] at shown
  have tagged : (pool.block high.address).has .free = true := by
    rw [header, free]
    rfl
  have first : (links (high :: late)).head?.getD 0 = high.address := by
    rw [links_cons, listed]
    rfl
  have merges : high.address ≠ 0 ∧ (pool.block high.address).has .free = true ∧
      node.address + node.size = high.address := ⟨by omega, tagged, touch.symm⟩
  rw [joinAbove, first]
  simp only [hangs.size, if_pos merges]
  rw [header]

theorem joinAbove_eq_link (hangs : Hangs pool below node after)
    (ordered : Ordered (node :: after)) (block : node.state ≠ .sentinel)
    (noHigh : ∀ high ∈ after.head?, high.state ≠ .free) :
    pool.joinAbove node.address ((links after).head?.getD 0) = { pool with
      memory := pool.memory.setNext node.address ((links after).head?.getD 0) } := by
  dsimp only [joinAbove]
  rw [if_neg]
  rintro ⟨more, tagged, touch⟩
  rw [hangs.size] at touch
  cases first : (links after).head? with
  | none => simp [first] at more
  | some next =>
    obtain ⟨other, member, _, rfl⟩ := mem_links.mp (List.mem_of_mem_head? first)
    simp only [first, Option.getD_some] at tagged touch
    have same : (pool.block other.address).has .free = decide (other.state = .free) :=
      hangs.after.has_eq member .free
    rw [same, decide_eq_true_eq] at tagged
    cases after with
    | nil => cases member
    | cons high late =>
      rcases List.mem_cons.mp member with rfl | later
      · exact noHigh other rfl tagged
      · -- Between the block and a later one lies the first.
        have low := ordered.stop_le_of_cons (List.mem_cons_self (a := high) (l := late))
        have room := (ordered.valid high (by simp)).header_le_stop
        have top := ordered.tail.stop_le_of_cons later
        rw [Cell.stop_of_block block] at low
        simp only [headerSize] at room
        omega

theorem joinAbove_cases (hangs : Hangs pool below node after) (free : node.state = .free)
    (ordered : Ordered (node :: after))
    (touch : ∀ high ∈ after.head?, high.address = node.address + node.size) :
    (∃ high late, after = high :: late ∧ node.address + (node.size + high.size) < UInt64.size ∧
      node.mergeAbove after = ⟨node.address, node.size + high.size, .free⟩ :: late ∧
      pool.joinAbove node.address ((links after).head?.getD 0) = { pool with
        memory := (pool.memory.setSize node.address (node.size + high.size)).setNext node.address
          ((links late).head?.getD 0) }) ∨
    node.mergeAbove after = node :: after ∧
      pool.joinAbove node.address ((links after).head?.getD 0) = { pool with
        memory := pool.memory.setNext node.address ((links after).head?.getD 0) } := by
  have block : node.state ≠ .sentinel := by simp [free]
  by_cases noHigh : ∀ high ∈ after.head?, high.state ≠ .free
  · refine Or.inr ⟨?_, joinAbove_eq_link hangs ordered block noHigh⟩
    cases after with
    | nil => rfl
    | cons high late => exact if_neg (noHigh high rfl)
  · push Not at noHigh
    obtain ⟨high, first, highFree⟩ := noHigh
    obtain ⟨late, rfl⟩ := List.head?_eq_some_iff.mp first
    have positive := (ordered.valid high (by simp)).positive
    have above : Ordered ([] ++ high :: late) := ordered.tail
    have bounded := (above.block_lt (by simp [highFree])).1
    have meets := touch high first
    exact Or.inl ⟨high, late, rfl, by omega, if_pos highFree,
      joinAbove_eq_merge hangs highFree positive meets⟩

theorem joinAbove_shown (hangs : Hangs pool below node after) (free : node.state = .free)
    (ordered : Ordered (below ++ node :: after))
    (touch : ∀ high ∈ after.head?, high.address = node.address + node.size) :
    Shown (pool.joinAbove node.address ((links after).head?.getD 0)).memory
      (below ++ node.mergeAbove after) 0 := by
  have listed : node.listed = true := by simp [Cell.listed, free]
  have room := (ordered.valid node (by simp)).header_le_stop
  obtain ⟨_, lower, higher⟩ := ordered.block_lt (by simp [free])
  have apart : ∀ high ∈ after, node.address + headerSize ≤ high.address := by
    intro high member
    have above := ordered.right.stop_le_of_cons member
    omega
  simp only [headerSize] at apart
  rcases joinAbove_cases hangs free ordered.right touch with
    ⟨high, late, rfl, bounded, merged, joined⟩ | ⟨merged, joined⟩
  · rw [joined, merged, Shown.append]
    refine ⟨?_, ?_, ?_⟩
    · apply hangs.below.congr
      intro low member
      have below := lower low member
      apply (block_setWord_apart _ _ _ _ (Or.inl below)).trans
      exact block_setWord_apart _ _ _ _ (Or.inl (by omega))
    · rw [block_setNext_same _ _ ordered.right.tail.tail.link_lt.1,
        block_setSize_same _ _ (by omega)]
      exact congrArg (Block.mk _ _) hangs.tag
    · apply hangs.after.2.congr
      intro other member
      have above := apart other (List.mem_cons_of_mem _ member)
      apply (block_setWord_apart _ _ _ _ (Or.inr (by omega))).trans
      exact block_setWord_apart _ _ _ _ (Or.inr (by omega))
  · rw [joined, merged, Shown.append, links_cons, listed]
    refine ⟨?_, ?_, ?_⟩
    · apply hangs.below.congr
      intro low member
      exact block_setWord_apart _ _ _ _ (Or.inl (lower low member))
    · rw [block_setNext_same _ _ ordered.right.tail.link_lt.1, if_pos listed, free]
      exact congrArg₂ (Block.mk _) hangs.size hangs.tag
    · apply hangs.after.congr
      intro high member
      have above := apart high member
      exact block_setWord_apart _ _ _ _ (Or.inr (by omega))

theorem joinAbove_tagsWithin {places : Nat → Prop} (hangs : Hangs pool below node after)
    (free : node.state = .free) (ordered : Ordered (node :: after))
    (touch : ∀ high ∈ after.head?, high.address = node.address + node.size)
    (within : pool.memory.TagsWithin places) :
    (pool.joinAbove node.address ((links after).head?.getD 0)).memory.TagsWithin places := by
  have valid := ordered.valid node (by simp)
  rcases joinAbove_cases hangs free ordered touch with
    ⟨high, late, rfl, bounded, _, joined⟩ | ⟨_, joined⟩
  · have highValid := ordered.valid high (by simp)
    have link := ordered.tail.tail.link_lt
    rw [joined]
    refine TagsWithin.setNext ?_ valid.aligned link.1 link.2
    exact within.setSize valid.aligned (by omega)
      (Nat.dvd_add valid.sizeAligned highValid.sizeAligned)
  · have link := ordered.tail.link_lt
    rw [joined]
    exact within.setNext valid.aligned link.1 link.2

theorem joinAbove_byte {next address : Nat}
    (off : address < node.address ∨ node.address + headerSize ≤ address) :
    (pool.joinAbove node.address next).memory.byte address = pool.memory.byte address := by
  simp only [headerSize] at off
  dsimp only [joinAbove]
  split
  · exact (byte_setWord_outside _ _ _ _ (by omega)).trans (byte_setWord_outside _ _ _ _ (by omega))
  · exact byte_setWord_outside _ _ _ _ (by omega)

theorem joinAbove_frame (node next : Nat) :
    pool.joinAbove node next = { pool with memory := (pool.joinAbove node next).memory } := by
  dsimp only [joinAbove]
  split <;> rfl

end Above

section Restore

variable {link : Nat}

/-- The state in which a block is put back: out of the list, which shows the others. -/
structure Loose (pool : Pool) (before : List Cell) (cell : Cell) (after : List Cell) : Prop where
  head : pool.head = (links (before ++ after)).head?.getD 0
  shown : Shown pool.memory (before ++ after) 0
  size : (pool.block cell.address).size = cell.size
  tag : (pool.block cell.address).tag = BlockState.free.tag

theorem Loose.neighbours_eq (loose : Loose pool before cell after)
    (ordered : Ordered (before ++ cell :: after)) :
    pool.neighbours cell.address = ((links before).getLast?, (links after).head?.getD 0) := by
  have visited := Pool.nodes_eq loose.head loose.shown ordered.without
  have lower : ∀ low ∈ before, low.address < cell.address := by
    intro low member
    have room := ordered.header_le member List.mem_cons_self
    simp only [headerSize] at room
    omega
  have upper : ∀ high ∈ after, cell.address ≤ high.address := by
    intro high member
    have room := (ordered.valid cell (by simp)).header_le_stop
    have above := ordered.right.stop_le_of_cons member
    omega
  exact Pool.neighbours_eq cell.address visited lower upper

theorem Loose.restore_eq (loose : Loose pool before cell after)
    (tiled : Tiled (before ++ cell :: after)) :
    pool.restore cell.address =
      (pool.joinBelow (links before).getLast? cell.address).2.joinAbove
        (pool.joinBelow (links before).getLast? cell.address).1
        ((links after).head?.getD 0) := by
  rw [restore, loose.neighbours_eq tiled.ordered]

theorem Loose.hangs (loose : Loose pool before cell after)
    (tiled : Tiled (before ++ cell :: after)) (block : cell.state ≠ .sentinel) :
    (pool.joinBelow (links before).getLast? cell.address).1 = (cell.mergeBelow before).2.address ∧
      Hangs (pool.joinBelow (links before).getLast? cell.address).2 (cell.mergeBelow before).1
        (cell.mergeBelow before).2 after := by
  have head := loose.head
  obtain ⟨shownBefore, shownAfter⟩ := Shown.append.mp loose.shown
  rw [links_append, List.head?_append, Option.getD_or] at head
  exact joinBelow_hangs tiled block head shownBefore shownAfter loose.size loose.tag

theorem touch_of_tiled (tiled : Tiled (before ++ cell :: after)) (block : cell.state ≠ .sentinel) :
    ∀ high ∈ after.head?, high.address =
      (cell.mergeBelow before).2.address + (cell.mergeBelow before).2.size := by
  intro high first
  obtain ⟨late, rfl⟩ := List.head?_eq_some_iff.mp first
  obtain ⟨_, free, stop⟩ := mergeBelow_ordered tiled block
  have touch := tiled.right.next_touches block
  rw [← stop, Cell.stop_of_block (by simp [free])] at touch
  exact touch

theorem Loose.restore_shown (loose : Loose pool before cell after)
    (tiled : Tiled (before ++ cell :: after)) (block : cell.state ≠ .sentinel) :
    (pool.restore cell.address).head =
        (links (release (before ++ cell :: after) cell.address)).head?.getD 0 ∧
      Shown (pool.restore cell.address).memory
        (release (before ++ cell :: after) cell.address) 0 := by
  obtain ⟨ordered, free, _⟩ := mergeBelow_ordered tiled block
  have touch := touch_of_tiled tiled block
  obtain ⟨address, hangs⟩ := loose.hangs tiled block
  rw [loose.restore_eq tiled, release_eq tiled.ordered, address]
  refine ⟨?_, joinAbove_shown hangs free ordered touch⟩
  have first : (links ((cell.mergeBelow before).2.mergeAbove after)).head?.getD 0 =
      (cell.mergeBelow before).2.address := by
    have listed : (cell.mergeBelow before).2.listed = true := by simp [Cell.listed, free]
    rcases joinAbove_cases hangs free ordered.right touch with
      ⟨high, late, rfl, _, merged, _⟩ | ⟨merged, _⟩
    · rw [merged]
      rfl
    · rw [merged, links_cons, listed]
      rfl
  rw [joinAbove_frame, links_append, List.head?_append, Option.getD_or, first]
  exact hangs.head

theorem Loose.restore_byte (loose : Loose pool before cell after)
    (tiled : Tiled (before ++ cell :: after)) (block : cell.state ≠ .sentinel) {address : Nat}
    (off : OffHeaders (before ++ cell :: after) address) :
    (pool.restore cell.address).memory.byte address = pool.memory.byte address := by
  obtain ⟨offBefore, offRest⟩ := OffHeaders.append.mp off
  obtain ⟨node, hangs⟩ := loose.hangs tiled block
  rw [loose.restore_eq tiled, node]
  refine (joinAbove_byte ?_).trans (joinBelow_byte offBefore)
  by_cases noLow : ∀ low ∈ before.getLast?, low.state ≠ .free
  · rw [mergeBelow_other noLow]
    exact offRest cell List.mem_cons_self
  · push Not at noLow
    obtain ⟨low, last, free⟩ := noLow
    obtain ⟨early, rfl⟩ := List.getLast?_eq_some_iff.mp last
    rw [mergeBelow_free free]
    exact offBefore low (by simp)

theorem Loose.restore_tagsWithin {places : Nat → Prop} (loose : Loose pool before cell after)
    (tiled : Tiled (before ++ cell :: after)) (block : cell.state ≠ .sentinel)
    (within : pool.memory.TagsWithin places) :
    (pool.restore cell.address).memory.TagsWithin places := by
  obtain ⟨ordered, free, _⟩ := mergeBelow_ordered tiled block
  obtain ⟨address, hangs⟩ := loose.hangs tiled block
  obtain ⟨shownBefore, _⟩ := Shown.append.mp loose.shown
  have below := joinBelow_tagsWithin tiled.ordered block shownBefore loose.size within
  rw [loose.restore_eq tiled, address]
  exact joinAbove_tagsWithin hangs free ordered.right (touch_of_tiled tiled block) below

theorem restore_frame (pool : Pool) (address : Nat) :
    pool.restore address = { pool with
      memory := (pool.restore address).memory
      head := (pool.restore address).head } := by
  dsimp only [restore]
  rw [joinAbove_frame, joinBelow_frame]

end Restore

end FirmwareLink.Pool

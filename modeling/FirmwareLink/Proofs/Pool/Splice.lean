import FirmwareLink.Proofs.Pool.Layout

namespace FirmwareLink.Pool

variable {before after old new : List Cell} {cell : Cell}

/-- Blocks may take the place of others that begin and end where they do, unless free cells
    come to touch. -/
theorem Tiled.splice {first last newFirst newLast : Cell}
    (tiled : Tiled (before ++ (old ++ after)))
    (oldHead : old.head? = some first) (oldEnd : old.getLast? = some last)
    (newHead : new.head? = some newFirst) (newEnd : new.getLast? = some newLast)
    (block : last.state ≠ .sentinel)
    (start : newFirst.address = first.address) (stop : newLast.stop = last.stop)
    (valid : ∀ cell ∈ new, cell.Valid) (chained : new.IsChain Cell.Precedes)
    (below : newFirst.state = .free →
      first.state = .free ∨ ∀ low ∈ before.getLast?, low.state ≠ .free)
    (above : newLast.state = .free →
      last.state = .free ∨ ∀ high ∈ after.head?, high.state ≠ .free) :
    Tiled (before ++ (new ++ after)) := by
  obtain ⟨chainBefore, chainRest, joint⟩ := List.isChain_append.mp tiled.chained
  obtain ⟨_, chainAfter, innerJoint⟩ := List.isChain_append.mp chainRest
  have more : after ≠ [] := by
    rintro rfl
    exact block (tiled.closed last (by simp [List.getLast?_append, oldEnd]))
  refine ⟨?_, ?_, ?_⟩
  · intro other member
    rcases List.mem_append.mp member with low | rest
    · exact tiled.valid other (List.mem_append_left _ low)
    · rcases List.mem_append.mp rest with replaced | high
      · exact valid other replaced
      · exact tiled.valid other (List.mem_append_right _ (List.mem_append_right _ high))
  · refine chainBefore.append (chained.append chainAfter ?_) ?_
    -- Cells below and above meet the new blocks where they met the old ones.
    · intro inner isLast high isHead
      obtain rfl : newLast = inner := Option.some.inj (newEnd.symm.trans isLast)
      obtain ⟨_, touches⟩ := innerJoint last oldEnd high isHead
      obtain ⟨touch, notBoth⟩ := touches block
      rw [← stop] at touch
      refine ⟨Nat.le_of_eq touch.symm, fun _ => ⟨touch, ?_⟩⟩
      rintro ⟨free, highFree⟩
      rcases above free with lastFree | noFree
      · exact notBoth ⟨lastFree, highFree⟩
      · exact noFree high isHead highFree
    · intro low isLast inner isHead
      rw [List.head?_append, newHead, Option.some_or] at isHead
      obtain rfl : newFirst = inner := Option.some.inj isHead
      obtain ⟨room, touches⟩ := joint low isLast first (by simp [List.head?_append, oldHead])
      rw [← start] at room
      refine ⟨room, fun lowBlock => ?_⟩
      obtain ⟨touch, notBoth⟩ := touches lowBlock
      rw [← start] at touch
      refine ⟨touch, ?_⟩
      rintro ⟨lowFree, free⟩
      rcases below free with firstFree | noFree
      · exact notBoth ⟨lowFree, firstFree⟩
      · exact noFree low isLast lowFree
  · have closed := tiled.closed
    rw [← List.append_assoc] at closed ⊢
    exact (closed_append more).mpr ((closed_append more).mp closed)

structure BlockSize (size : Nat) : Prop where
  aligned : alignment ∣ size
  room : headerSize + alignment ≤ size

theorem Tiled.carve {size : Nat} (tiled : Tiled (before ++ (cell :: after)))
    (blockSize : BlockSize size) (fits : cell.fits size = true) :
    Tiled (before ++ (cell.carve size ++ after)) := by
  simp only [Cell.fits, Bool.and_eq_true, decide_eq_true_eq] at fits
  obtain ⟨free, enough⟩ := fits
  have block : cell.state ≠ .sentinel := by
    rw [free]
    decide
  have single : Tiled (before ++ ([cell] ++ after)) := tiled
  have valid := tiled.valid cell (by simp)
  have bounded := valid.bounded
  have room := blockSize.room
  rw [Cell.stop_of_block block] at bounded
  unfold Cell.carve
  split
  · rename_i large
    simp only [headerSize, alignment] at large room
    refine single.splice rfl rfl rfl rfl block rfl ?_ ?_ ?_ (by simp)
      (fun _ => Or.inl free)
    · change cell.address + size + (cell.size - size) = cell.stop
      rw [Cell.stop_of_block block]
      omega
    · intro part member
      rcases List.mem_cons.mp member with rfl | member
      · exact .of_block (by simp) valid.positive valid.aligned (by omega) blockSize.aligned
          blockSize.room
      · obtain rfl := List.mem_singleton.mp member
        exact .of_block (by simp) (by omega) (Nat.dvd_add valid.aligned blockSize.aligned)
          (by omega) (Nat.dvd_sub valid.sizeAligned blockSize.aligned)
          (by simp only [headerSize, alignment]; omega)
    · refine List.isChain_cons_cons.mpr ⟨⟨?_, fun _ => ⟨?_, ?_⟩⟩, List.IsChain.singleton _⟩
      · exact Nat.le_refl _
      · rfl
      · simp
  · refine single.splice rfl rfl rfl rfl block rfl ?_ ?_
      (List.IsChain.singleton _) (by simp) (by simp)
    · exact (Cell.stop_of_block block).symm
    · intro part member
      obtain rfl := List.mem_singleton.mp member
      exact .of_block (by simp) valid.positive valid.aligned bounded valid.sizeAligned
        (valid.block block)

section Release

theorem contiguous_append {blocks more : List Cell} {start middle stop : Nat}
    (low : Contiguous start blocks middle) (high : Contiguous middle more stop) :
    Contiguous start (blocks ++ more) stop := by
  induction blocks generalizing start with
  | nil =>
    obtain rfl : start = middle := low
    exact high
  | cons block rest ih => exact ⟨low.1, ih low.2⟩

theorem Contiguous.last_stop {blocks : List Cell} {start stop : Nat} {last : Cell}
    (contiguous : Contiguous start blocks stop) (isLast : blocks.getLast? = some last) :
    last.stop = stop := by
  induction blocks generalizing start with
  | nil => cases isLast
  | cons block rest ih =>
    cases rest with
    | nil =>
      obtain rfl : block = last := by simpa using isLast
      exact contiguous.2
    | cons next others => exact ih contiguous.2 (by rwa [List.getLast?_cons_cons] at isLast)

theorem mergeBelow_free {low : Cell} (free : low.state = .free) :
    cell.mergeBelow (before ++ [low]) =
      (before, ⟨low.address, low.size + cell.size, .free⟩) := by
  simp [Cell.mergeBelow, free]

theorem mergeBelow_other (noLow : ∀ low ∈ before.getLast?, low.state ≠ .free) :
    cell.mergeBelow before = (before, ⟨cell.address, cell.size, .free⟩) := by
  unfold Cell.mergeBelow
  cases last : before.getLast? with
  | none => rfl
  | some low => exact if_neg (noLow low last)

theorem Cell.Valid.stop_aligned (valid : cell.Valid) : alignment ∣ cell.stop := by
  by_cases ending : cell.state = .sentinel
  · rw [Cell.stop, if_pos ending]
    exact Nat.dvd_add valid.aligned (by decide)
  · rw [Cell.stop_of_block ending]
    exact Nat.dvd_add valid.aligned valid.sizeAligned

theorem Contiguous.valid {blocks : List Cell} {start size : Nat}
    (contiguous : Contiguous start blocks (start + size)) (more : blocks ≠ [])
    (plain : ∀ block ∈ blocks, block.state ≠ .sentinel)
    (valid : ∀ block ∈ blocks, block.Valid) : (Cell.mk start size .free).Valid := by
  obtain ⟨first, rest, rfl⟩ := List.exists_cons_of_ne_nil more
  have isLast := List.getLast?_eq_some_getLast more
  have lastValid := valid _ (List.mem_of_getLast? isLast)
  have lastStop := contiguous.last_stop isLast
  have firstValid := valid first List.mem_cons_self
  have firstBlock := plain first List.mem_cons_self
  have bounded := lastValid.bounded
  have stopAligned := lastValid.stop_aligned
  have sum := contiguous.bytes plain
  have firstRoom := firstValid.block firstBlock
  obtain rfl : first.address = start := contiguous.1
  rw [lastStop] at bounded stopAligned
  refine .of_block (by simp) firstValid.positive firstValid.aligned bounded
    ((Nat.dvd_add_iff_right firstValid.aligned).mpr stopAligned) ?_
  rw [freeBytes_cons, allocatedBytes_cons] at sum
  cases state : first.state with
  | sentinel => exact absurd state firstBlock
  | free =>
    simp only [state, if_true] at sum
    omega
  | allocated =>
    simp only [state, if_true] at sum
    omega

theorem mergeBelow_eq (tiled : Tiled (before ++ cell :: after)) (block : cell.state ≠ .sentinel) :
    ∃ early lows start size, before = early ++ lows ∧ (∀ low ∈ lows, low.state = .free) ∧
      Contiguous start (lows ++ [cell]) cell.stop ∧ start + size = cell.stop ∧
      (∀ low ∈ early.getLast?, low.state ≠ .free) ∧
      cell.mergeBelow before = (early, ⟨start, size, .free⟩) := by
  have cellStop := Cell.stop_of_block block
  cases last : before.getLast? with
  | none =>
    have noLow : ∀ low ∈ before.getLast?, low.state ≠ .free := by simp [last]
    exact ⟨before, [], cell.address, cell.size, by simp, by simp, ⟨rfl, rfl⟩, cellStop.symm, noLow,
      mergeBelow_other noLow⟩
  | some low =>
    obtain ⟨early, rfl⟩ := List.getLast?_eq_some_iff.mp last
    by_cases free : low.state = .free
    · have lowBlock : low.state ≠ .sentinel := by simp [free]
      rw [List.append_assoc, List.singleton_append] at tiled
      have touch := tiled.right.next_touches lowBlock
      refine ⟨early, [low], low.address, low.size + cell.size, rfl, by simpa using free,
        ⟨rfl, touch, rfl⟩, ?_, ?_, mergeBelow_free free⟩
      · rw [Cell.stop_of_block lowBlock] at touch
        omega
      · intro other isLast otherFree
        obtain ⟨others, rfl⟩ := List.getLast?_eq_some_iff.mp isLast
        rw [List.append_assoc, List.singleton_append] at tiled
        exact tiled.right.not_both_free otherFree free
    · have noLow : ∀ other ∈ (early ++ [low]).getLast?, other.state ≠ .free := by simpa using free
      exact ⟨early ++ [low], [], cell.address, cell.size, by simp, by simp, ⟨rfl, rfl⟩,
        cellStop.symm, noLow, mergeBelow_other noLow⟩

theorem mergeAbove_eq (tiled : Tiled (before ++ cell :: after)) (block : cell.state ≠ .sentinel)
    {start size : Nat} (ends : start + size = cell.stop) :
    ∃ highs late total, after = highs ++ late ∧ (∀ high ∈ highs, high.state = .free) ∧
      Contiguous cell.stop highs (start + total) ∧
      (∀ high ∈ late.head?, high.state ≠ .free) ∧
      Cell.mergeAbove ⟨start, size, .free⟩ after = ⟨start, total, .free⟩ :: late := by
  obtain ⟨high, late, rfl⟩ := tiled.right.closed.next block
  by_cases free : high.state = .free
  · have highBlock : high.state ≠ .sentinel := by simp [free]
    have touch := tiled.right.next_touches block
    have highStop := Cell.stop_of_block highBlock
    refine ⟨[high], late, size + high.size, rfl, by simpa using free, ⟨touch, ?_⟩, ?_,
      by simp [Cell.mergeAbove, free]⟩
    · change high.stop = start + (size + high.size)
      omega
    · intro other isHead
      obtain ⟨others, rfl⟩ := List.head?_eq_some_iff.mp isHead
      exact tiled.right.tail.not_both_free free
  · refine ⟨[], high :: late, size, rfl, by simp, ends.symm, ?_, by simp [Cell.mergeAbove, free]⟩
    simpa using free

/-- A freed block becomes one with all the free cells it touches, and no other cell changes. -/
theorem release_merges (tiled : Tiled (before ++ cell :: after)) (block : cell.state ≠ .sentinel) :
    ∃ early lows highs late start size, before = early ++ lows ∧ after = highs ++ late ∧
      (∀ other ∈ lows ++ highs, other.state = .free) ∧
      Contiguous start (lows ++ cell :: highs) (start + size) ∧
      (∀ low ∈ early.getLast?, low.state ≠ .free) ∧
      (∀ high ∈ late.head?, high.state ≠ .free) ∧
      release (before ++ cell :: after) cell.address = early ++ ⟨start, size, .free⟩ :: late := by
  obtain ⟨early, lows, start, size, splitLow, lowsFree, lowTouch, ends, noLow, below⟩ :=
    mergeBelow_eq tiled block
  obtain ⟨highs, late, total, splitHigh, highsFree, highTouch, noHigh, above⟩ :=
    mergeAbove_eq tiled block ends
  refine ⟨early, lows, highs, late, start, total, splitLow, splitHigh, ?_, ?_, noLow, noHigh, ?_⟩
  · intro other member
    rcases List.mem_append.mp member with low | high
    · exact lowsFree other low
    · exact highsFree other high
  · have whole := contiguous_append lowTouch highTouch
    rwa [List.append_assoc, List.singleton_append] at whole
  · rw [release_eq tiled.ordered, below, above]

theorem plain_of_free {lows highs : List Cell} (block : cell.state ≠ .sentinel)
    (free : ∀ other ∈ lows ++ highs, other.state = .free) :
    ∀ other ∈ lows ++ cell :: highs, other.state ≠ .sentinel := by
  intro other member
  rcases List.mem_append.mp member with low | member
  · simp [free other (List.mem_append_left _ low)]
  · rcases List.mem_cons.mp member with rfl | high
    · exact block
    · simp [free other (List.mem_append_right _ high)]

theorem mergeBelow_ordered (tiled : Tiled (before ++ cell :: after))
    (block : cell.state ≠ .sentinel) :
    Ordered ((cell.mergeBelow before).1 ++ (cell.mergeBelow before).2 :: after) ∧
      (cell.mergeBelow before).2.state = .free ∧
      (cell.mergeBelow before).2.stop = cell.stop := by
  obtain ⟨early, lows, start, size, rfl, lowsFree, contiguous, ends, _, merged⟩ :=
    mergeBelow_eq tiled block
  have ordered := tiled.ordered
  rw [List.append_assoc] at ordered
  rw [merged]
  have noHighs : ∀ low ∈ lows ++ [], low.state = .free := by simpa using lowsFree
  have plain := plain_of_free block noHighs
  have valid : ∀ other ∈ lows ++ [cell], other.Valid := by
    intro other member
    apply ordered.right.valid
    rcases List.mem_append.mp member with low | same
    · exact List.mem_append_left _ low
    · exact List.mem_append_right _ (by simp [List.mem_singleton.mp same])
  rw [← ends] at contiguous
  have nodeValid := contiguous.valid (by simp) plain valid
  refine ⟨⟨?_, ?_⟩, rfl, ends⟩
  · intro other member
    rcases List.mem_append.mp member with low | member
    · exact ordered.left.valid other low
    · rcases List.mem_cons.mp member with rfl | high
      · exact nodeValid
      · exact ordered.right.right.tail.valid other high
  · refine List.pairwise_append.mpr ⟨ordered.left.sorted, List.pairwise_cons.mpr ⟨?_, ?_⟩, ?_⟩
    · intro high member
      have above := ordered.right.right.stop_le_of_cons member
      rwa [← ends] at above
    · exact ordered.right.right.tail.sorted
    · intro low lowMember other member
      rcases List.mem_cons.mp member with rfl | high
      · obtain ⟨first, rest, split⟩ := List.exists_cons_of_ne_nil
          (show lows ++ [cell] ≠ [] by simp)
        rw [split] at contiguous
        have firstMember : first ∈ lows ++ cell :: after := by
          have inBlocks : first ∈ lows ++ [cell] := by simp [split]
          rcases List.mem_append.mp inBlocks with low | same
          · exact List.mem_append_left _ low
          · exact List.mem_append_right _ (by simp [List.mem_singleton.mp same])
        have order := ordered.stop_le lowMember firstMember
        rwa [contiguous.1] at order
      · exact ordered.stop_le lowMember (List.mem_append_right _ (List.mem_cons_of_mem _ high))

theorem Tiled.release (tiled : Tiled (before ++ cell :: after)) (block : cell.state ≠ .sentinel) :
    Tiled (release (before ++ cell :: after) cell.address) := by
  obtain ⟨early, lows, highs, late, start, size, rfl, rfl, free, contiguous, noLow, noHigh, eq⟩ :=
    release_merges tiled block
  rw [eq]
  have whole : Tiled (early ++ ((lows ++ cell :: highs) ++ late)) := by simpa using tiled
  have plain := plain_of_free block free
  obtain ⟨first, rest, split⟩ := List.exists_cons_of_ne_nil
    (show lows ++ cell :: highs ≠ [] by simp)
  rw [split] at whole contiguous plain
  have isLast := List.getLast?_eq_some_getLast (show first :: rest ≠ [] by simp)
  have valid : ∀ other ∈ first :: rest, other.Valid := fun other member =>
    whole.valid other (List.mem_append_right _ (List.mem_append_left _ member))
  have merged : Tiled (early ++ ([⟨start, size, .free⟩] ++ late)) := by
    refine whole.splice rfl isLast rfl rfl (plain _ (List.mem_of_getLast? isLast))
      contiguous.1.symm (contiguous.last_stop isLast).symm ?_ (List.IsChain.singleton _)
      (fun _ => Or.inr noLow) (fun _ => Or.inr noHigh)
    intro other member
    obtain rfl := List.mem_singleton.mp member
    exact contiguous.valid (by simp) plain valid
  exact merged

end Release

end FirmwareLink.Pool

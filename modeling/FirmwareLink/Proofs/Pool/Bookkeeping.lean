import Mathlib.Data.List.TakeWhile
import FirmwareLink.Proofs.Pool.Splice

namespace FirmwareLink.Pool

variable {cells before after : List Cell} {cell : Cell} {size : Nat}

def Cell.carvedSize (cell : Cell) (size : Nat) : Nat :=
  if 2 * headerSize < cell.size - size then size else cell.size

section Carve

theorem spans_carve (block : cell.state ≠ .sentinel) :
    spans none (before ++ (cell.carve size ++ after)) = spans none (before ++ cell :: after) := by
  have plain : ∀ other ∈ [cell], other.state ≠ .sentinel := by simpa using block
  unfold Cell.carve
  split
  · exact spans_replace none (by simp) plain rfl
  · exact spans_replace none (by simp) plain rfl

@[simp]
theorem payloads_carve : payloads (cell.carve size) = [cell.payload] := by
  unfold Cell.carve
  split <;> rfl

theorem freeBytes_carve (fits : cell.fits size = true) :
    freeBytes (before ++ (cell.carve size ++ after)) + cell.carvedSize size =
      freeBytes (before ++ cell :: after) := by
  simp only [Cell.fits, Bool.and_eq_true, decide_eq_true_eq] at fits
  obtain ⟨free, enough⟩ := fits
  simp only [freeBytes_append, freeBytes_cons, free, if_true, Cell.carve, Cell.carvedSize]
  split
  · simp [freeBytes_cons]
    omega
  · simp [freeBytes_cons]
    omega

theorem firstFit_split {rest : List Cell}
    (found : cells.dropWhile (!·.fits size) = cell :: rest) :
    cells = cells.takeWhile (!·.fits size) ++ cell :: rest ∧ cell.fits size = true := by
  have split := cells.takeWhile_append_dropWhile (p := fun cell => !cell.fits size)
  rw [found] at split
  refine ⟨split.symm, ?_⟩
  have head := List.head?_dropWhile_not (fun cell : Cell => !cell.fits size) cells
  rw [found] at head
  simpa using head

end Carve

theorem blockSize_alignUp {bytes : Nat} (positive : bytes ≠ 0) :
    BlockSize (alignUp (bytes + headerSize)) where
  aligned := Nat.dvd_mul_left _ _
  room := by
    simp only [alignUp, headerSize, alignment]
    omega

section Release

theorem payloads_of_free {others : List Cell} (free : ∀ other ∈ others, other.state = .free) :
    payloads others = [] := by
  rw [payloads, List.map_eq_nil_iff, List.filter_eq_nil_iff]
  intro other member
  simp [free other member]

theorem payloads_release (tiled : Tiled (before ++ cell :: after)) (block : cell.state ≠ .sentinel) :
    payloads (release (before ++ cell :: after) cell.address) =
      payloads before ++ payloads after := by
  obtain ⟨early, lows, highs, late, start, total, rfl, rfl, free, _, _, _, eq⟩ :=
    release_merges tiled block
  have lowsEmpty := payloads_of_free fun low member => free low (List.mem_append_left _ member)
  have highsEmpty := payloads_of_free fun high member => free high (List.mem_append_right _ member)
  rw [eq, payloads_append, payloads_append, payloads_append, lowsEmpty, highsEmpty]
  simp [payloads]

theorem spans_release (tiled : Tiled (before ++ cell :: after)) (block : cell.state ≠ .sentinel) :
    spans none (release (before ++ cell :: after) cell.address) =
      spans none (before ++ cell :: after) := by
  obtain ⟨early, lows, highs, late, start, total, rfl, rfl, free, contiguous, _, _, eq⟩ :=
    release_merges tiled block
  have plain := plain_of_free block free
  obtain ⟨first, rest, split⟩ := List.exists_cons_of_ne_nil
    (show lows ++ cell :: highs ≠ [] by simp)
  have whole : early ++ lows ++ cell :: (highs ++ late) = early ++ (first :: rest ++ late) := by
    simp [← split]
  rw [split] at plain contiguous
  have mergedPlain : ∀ other ∈ [Cell.mk start total .free], other.state ≠ .sentinel := by simp
  rw [eq, whole]
  exact spans_replace none mergedPlain plain contiguous.1.symm

theorem allocatedBytes_of_free {others : List Cell} (free : ∀ other ∈ others, other.state = .free) :
    allocatedBytes others = 0 := by
  have none : others.filter (fun cell => cell.state = .allocated) = [] := by
    rw [List.filter_eq_nil_iff]
    intro other member
    simp [free other member]
  rw [allocatedBytes, none]
  rfl

theorem freeBytes_release (tiled : Tiled (before ++ cell :: after))
    (allocated : cell.state = .allocated) :
    freeBytes (release (before ++ cell :: after) cell.address) =
      freeBytes (before ++ cell :: after) + cell.size := by
  have block : cell.state ≠ .sentinel := by simp [allocated]
  obtain ⟨early, lows, highs, late, start, total, rfl, rfl, free, contiguous, _, _, eq⟩ :=
    release_merges tiled block
  have lowsPlain := allocatedBytes_of_free fun low member => free low (List.mem_append_left _ member)
  have highsPlain :=
    allocatedBytes_of_free fun high member => free high (List.mem_append_right _ member)
  have sum := contiguous.bytes (plain_of_free block free)
  simp only [freeBytes_append, allocatedBytes_append, freeBytes_cons, allocatedBytes_cons,
    allocated, lowsPlain, highsPlain, if_true] at sum
  simp only [eq, freeBytes_append, freeBytes_cons, allocated, if_true]
  simp only [reduceCtorEq, if_false] at sum ⊢
  omega

end Release

section Insert

variable {low high : Nat}

theorem Ordered.le_of_mem_dropWhile (ordered : Ordered cells)
    (member : cell ∈ cells.dropWhile fun cell => cell.address < low) : low ≤ cell.address := by
  induction cells with
  | nil => cases member
  | cons first rest ih =>
    by_cases below : first.address < low
    · rw [List.dropWhile_cons_of_pos (by simpa using below)] at member
      exact ih ordered.tail member
    · rw [List.dropWhile_cons_of_neg (by simpa using below)] at member
      rcases List.mem_cons.mp member with rfl | later
      · omega
      · have room := (ordered.valid first List.mem_cons_self).header_le_stop
        have order := ordered.stop_le_of_cons later
        omega

structure Vacant (cells : List Cell) (low high : Nat) : Prop where
  positive : 0 < low
  lowAligned : alignment ∣ low
  highAligned : alignment ∣ high
  bounded : high < UInt64.size
  room : low + 2 * headerSize < high
  clear : ∀ arena ∈ spans none cells, high ≤ arena.start ∨ arena.sentinel + headerSize ≤ low

namespace Vacant

theorem stop_le (vacant : Vacant cells low high) (tiled : Tiled cells) (member : cell ∈ cells)
    (below : cell.address < low) : cell.stop ≤ low := by
  obtain ⟨arena, inSpans, start, sentinel, stop⟩ := tiled.mem_arena member
  have room := vacant.room
  rcases vacant.clear arena inSpans with above | clear
  · omega
  · by_cases ending : cell.state = .sentinel
    · rw [Cell.stop, if_pos ending]
      omega
    · have within := stop ending
      omega

theorem le_address (vacant : Vacant cells low high) (tiled : Tiled cells) (member : cell ∈ cells)
    (above : low ≤ cell.address) : high ≤ cell.address := by
  obtain ⟨arena, inSpans, start, sentinel, _⟩ := tiled.mem_arena member
  rcases vacant.clear arena inSpans with clear | below
  · omega
  · simp only [headerSize] at below
    omega

theorem lower_closed (vacant : Vacant (before ++ after) low high) (tiled : Tiled (before ++ after))
    (below : ∀ cell ∈ before, cell.address < low) (above : ∀ cell ∈ after, low ≤ cell.address) :
    Closed before := by
  intro last isLast
  by_contra block
  obtain ⟨others, rfl⟩ := List.getLast?_eq_some_iff.mp isLast
  have lastMember : last ∈ others ++ [last] := by simp
  have stop := vacant.stop_le tiled (List.mem_append_left _ lastMember) (below last lastMember)
  rw [List.append_assoc, List.singleton_append] at tiled
  obtain ⟨next, rest, rfl⟩ := tiled.right.closed.next block
  have touch := tiled.right.next_touches block
  have nextMember : next ∈ others ++ [last] ++ next :: rest := by simp
  have far := vacant.le_address (by simpa using tiled) nextMember (above next (by simp))
  have wide := vacant.room
  omega

theorem insert_tiled (vacant : Vacant (before ++ after) low high) (tiled : Tiled (before ++ after))
    (below : ∀ cell ∈ before, cell.address < low) (above : ∀ cell ∈ after, low ≤ cell.address) :
    Tiled (before ++ ⟨low, high - low - headerSize, .free⟩ ::
      ⟨high - headerSize, 0, .sentinel⟩ :: after) := by
  have closed := vacant.lower_closed tiled below above
  have room := vacant.room
  have bounded := vacant.bounded
  simp only [headerSize] at room ⊢
  obtain ⟨chainBefore, chainAfter, _⟩ := List.isChain_append.mp tiled.chained
  refine ⟨?_, ?_, ?_⟩
  · intro other member
    rcases List.mem_append.mp member with lower | member
    · exact tiled.valid other (List.mem_append_left _ lower)
    · rcases List.mem_cons.mp member with rfl | member
      · have lowAligned := vacant.lowAligned
        have highAligned := vacant.highAligned
        exact .of_block (by simp) vacant.positive lowAligned (by omega)
          (Nat.dvd_sub (Nat.dvd_sub highAligned lowAligned) (by decide))
          (by simp only [headerSize, alignment] at *; omega)
      · rcases List.mem_cons.mp member with rfl | higher
        · refine ⟨?_, Nat.dvd_sub vacant.highAligned (by decide), ?_, Nat.dvd_zero _, fun _ => rfl,
            fun block => absurd rfl block⟩
          · change 0 < high - 24
            omega
          · rw [Cell.stop_sentinel]
            simp only [headerSize]
            omega
        · exact tiled.valid other (List.mem_append_right _ higher)
  · refine chainBefore.append (List.IsChain.cons (List.IsChain.cons chainAfter ?_) ?_) ?_
    · intro next isHead
      have member := List.mem_append_right before (List.mem_of_mem_head? isHead)
      have far := vacant.le_address tiled member (above next (List.mem_of_mem_head? isHead))
      refine ⟨?_, fun block => absurd rfl block⟩
      rw [Cell.stop_sentinel]
      simp only [headerSize]
      omega
    · intro next isHead
      obtain rfl : ⟨high - 24, 0, .sentinel⟩ = next := Option.some.inj isHead
      refine ⟨?_, fun _ => ⟨?_, by simp⟩⟩
      · simp only [Cell.stop_free]
        omega
      · simp only [Cell.stop_free]
        omega
    · intro last isLast next isHead
      obtain rfl : ⟨low, high - low - 24, .free⟩ = next := Option.some.inj isHead
      have member := List.mem_of_getLast? isLast
      exact ⟨vacant.stop_le tiled (List.mem_append_left _ member) (below last member),
        fun block => absurd (closed last isLast) block⟩
  · refine (closed_append (by simp)).mpr (Closed.cons (by simp) ?_)
    cases after with
    | nil => simp [Closed]
    | cons next rest => exact Closed.cons (by simp) tiled.closed.of_append_cons

end Vacant

end Insert

end FirmwareLink.Pool

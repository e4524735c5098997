import Mathlib.Order.Bounds.Basic
import FirmwareLink.Proofs.Pool.FirstFit

namespace FirmwareLink.Pool

open Memory

/-- A new pool over memory of any content. What looks like a tag at these places counts as
    forged: none of them where regions are zeroed, all of them where nothing is known. -/
def Usage.startStale (memory : Memory) (stale : Nat → Prop) : Usage :=
  { start memory with forged := stale }

/-- Regions may hold anything, but whatever looks like a tag in them has to count as forged.
    Clients write only to what they hold. -/
def Usage.Usable (usage : Usage) : Event → Prop
  | .call (.addArena start stop) =>
    0 < start ∧ stop < UInt64.size ∧ ∀ place, alignment ∣ place → start ≤ place →
      place + 8 ≤ stop → (∀ index < 8, usage.pool.contains (place + index) = false) →
        usage.pool.memory.word place = BlockState.allocated.tag → usage.forged place
  | event => usage.Proper event

structure Admits (pool : Pool) (low high : Nat) : Prop where
  room : low + 2 * headerSize < high
  clear : ∀ arena ∈ pool.arenas, ∀ address, low ≤ address → address < high →
    ¬arena.covers address
  few : pool.arenas.length < maxArenas

/-- The addresses that are written when a region is taken, behind this node of the list. -/
def Entry (low high : Nat) (previous : Option Nat) (address : Nat) : Prop :=
  low ≤ address ∧ address < low + headerSize ∨ high - headerSize ≤ address ∧ address < high ∨
    ∃ node ∈ previous, node ≤ address ∧ address < node + 8

structure Registers (pool next : Pool) (low high : Nat) (lower upper : List Nat) : Prop where
  list : pool.memory.Linked pool.head (lower ++ upper)
  longer : next.memory.Linked next.head (lower ++ low :: (high - headerSize) :: upper)
  below : ∀ node ∈ lower, node + headerSize ≤ low
  above : ∀ node ∈ upper, high ≤ node
  first : next.block low = ⟨high - headerSize, high - low - headerSize, BlockState.free.tag⟩
  last : next.block (high - headerSize) = ⟨upper.headD 0, 0, BlockState.sentinel.tag⟩
  previous : ∀ node ∈ lower.getLast?, (∃ arena ∈ pool.arenas, arena.sentinel = node) ∧
    pool.block node = ⟨upper.headD 0, 0, BlockState.sentinel.tag⟩ ∧
    next.block node = ⟨low, 0, BlockState.sentinel.tag⟩
  head : next.head = if lower = [] then low else pool.head
  bytes : ∀ address, ¬Entry low high lower.getLast? address →
    next.memory.byte address = pool.memory.byte address
  arenas : next.arenas = pool.arenas ++ [⟨low, high - headerSize⟩]
  poolSize : next.poolSize = pool.poolSize + (high - low)
  freeSize : next.freeSize = pool.freeSize + (high - low - headerSize)
  allocations : next.allocations = pool.allocations
  frees : next.frees = pool.frees

structure Keeps (pool next : Pool) (address : Nat) : Prop where
  header : next.block (address - headerSize) = pool.block (address - headerSize)
  capacity : ∃ capacity, pool.capacity? address = some capacity ∧
    next.capacity? address = some capacity ∧
    next.memory.read address capacity = pool.memory.read address capacity

section Bounds

theorem isLeast_alignUp (start : Nat) :
    IsLeast {address | start ≤ address ∧ alignment ∣ address} (alignUp start) :=
  ⟨⟨le_alignUp start, Nat.dvd_mul_left _ _⟩, fun _ ⟨reached, aligned⟩ =>
    (alignUp_le_iff aligned).mpr reached⟩

theorem isGreatest_alignDown (stop : Nat) :
    IsGreatest {address | address ≤ stop ∧ alignment ∣ address} (alignDown stop) := by
  refine ⟨⟨Nat.div_mul_le_self stop alignment, Nat.dvd_mul_left _ _⟩, ?_⟩
  rintro address ⟨within, aligned⟩
  simp only [alignDown, alignment] at aligned ⊢
  omega

end Bounds

section Admits

variable {pool : Pool} {start stop : Nat}

theorem overlaps_iff {arena : Arena} {low high : Nat} (sized : arena.start ≤ arena.sentinel)
    (filled : low < high) :
    (arena.start < high && low < arena.sentinel + headerSize) = true ↔
      ∃ address, (low ≤ address ∧ address < high) ∧ arena.covers address := by
  simp only [Arena.covers, Bool.and_eq_true, decide_eq_true_eq]
  simp only [headerSize]
  constructor
  · rintro ⟨below, above⟩
    -- The higher one of the two starts lies in both.
    exact ⟨max low arena.start, by omega, by omega⟩
  · rintro ⟨address, within, inside⟩
    omega

theorem addArena_iff (sized : ∀ arena ∈ pool.arenas, arena.start ≤ arena.sentinel)
    (bounded : stop < UInt64.size) : (pool.addArena start stop).value = .ok true ↔
      pool.Admits (alignUp start) (alignDown stop) := by
  dsimp only [addArena]
  split
  · rename_i beyond
    refine iff_of_false (by simp) fun admits => ?_
    -- Above such a start there are fewer bytes than `alignment`.
    have room := admits.room
    have reached : start ≤ alignUp start := (isLeast_alignUp start).1.1
    have within : alignDown stop ≤ stop := (isGreatest_alignDown stop).1.1
    simp only [alignment, headerSize] at beyond room
    omega
  · split
    · rename_i small
      refine iff_of_false (by simp) fun admits => ?_
      have room := admits.room
      omega
    · rename_i large
      have filled : alignUp start < alignDown stop := by omega
      split
      · rename_i overlaps
        refine iff_of_false (by simp) fun admits => ?_
        obtain ⟨arena, member, meets⟩ := List.any_eq_true.mp overlaps
        obtain ⟨address, within, inside⟩ := (overlaps_iff (sized arena member) filled).mp meets
        exact admits.clear arena member address within.1 within.2 inside
      · rename_i apart
        split
        · rename_i full
          refine iff_of_false (by simp) fun admits => ?_
          exact absurd admits.few (Nat.not_lt.mpr full)
        · rename_i few
          refine iff_of_true rfl ⟨by omega, ?_, Nat.lt_of_not_le few⟩
          intro arena member address reached below inside
          have meets := (overlaps_iff (sized arena member) filled).mpr
            ⟨address, ⟨reached, below⟩, inside⟩
          exact apart (List.any_eq_true.mpr ⟨arena, member, meets⟩)

theorem addArena_answers : (∃ taken, (pool.addArena start stop).value = .ok taken) ↔
    start + alignment < UInt64.size := by
  rw [addArena]
  split
  · rename_i beyond
    exact iff_of_false (by simp) (Nat.not_lt_of_le beyond)
  · rename_i within
    refine iff_of_true ?_ (Nat.lt_of_not_le within)
    dsimp only
    split
    · exact ⟨false, rfl⟩
    · split
      · exact ⟨false, rfl⟩
      · split
        · exact ⟨false, rfl⟩
        · exact ⟨true, rfl⟩

end Admits

section Entry

variable {pool next : Pool} {before after : List Cell} {low high : Nat}

/-- A region is entered behind a sentinel, if there is anything below it. -/
theorem Closed.getLast?_links {node : Nat} (closed : Closed before)
    (last : (links before).getLast? = some node) :
    ∃ others cell, before = others ++ [cell] ∧ cell.state = .sentinel ∧ cell.address = node := by
  rcases List.eq_nil_or_concat before with rfl | ⟨others, cell, rfl⟩
  · cases last
  · have ending := closed cell (by simp)
    refine ⟨others, cell, by simp, ending, ?_⟩
    have listed : cell.listed = true := by simp [Cell.listed, ending]
    simpa [links_cons, listed] using last

theorem Shown.last_block {memory : Memory} {others : List Cell} {cell : Cell}
    (shown : Shown memory (others ++ [cell] ++ after) 0) (listed : cell.listed = true) :
    memory.block cell.address = ⟨(links after).headD 0, cell.size, cell.state.tag⟩ := by
  rw [List.append_assoc, List.singleton_append, Shown.append] at shown
  have header := shown.2.1
  rwa [listed, if_pos rfl, ← List.headD_eq_head?_getD] at header

theorem link_some_head (node address : Nat) : (pool.link (some node) address).head = pool.head :=
  rfl

theorem entry_byte {previous : Option Nat} {above address : Nat}
    (off : ¬Entry low high previous address) (room : low + 2 * headerSize < high) :
    ((pool.enclose low high above).link previous low).memory.byte address =
      pool.memory.byte address := by
  simp only [Entry, headerSize, not_or, not_and, not_exists] at off room
  obtain ⟨offLow, offHigh, offLink⟩ := off
  have enclosed : (pool.enclose low high above).memory.byte address = pool.memory.byte address := by
    apply enclose_byte
    · simp only [headerSize]
      omega
    · simp only [headerSize]
      omega
  cases previous with
  | none => exact enclosed
  | some node =>
    have apart := offLink node rfl
    exact (byte_setWord_outside _ _ _ _ (by omega)).trans enclosed

theorem liveHeader?_of_header {address place : Nat} {more : List Arena}
    (arenas : next.arenas = pool.arenas ++ more)
    (header : next.block (address - headerSize) = pool.block (address - headerSize))
    (live : pool.liveHeader? address = some place) : next.liveHeader? address = some place := by
  dsimp only [liveHeader?] at live ⊢
  rw [header, arenas, List.any_append]
  split at live
  · rename_i facts
    obtain ⟨aligned, positive, inside, allocated, unlinked⟩ := facts
    rw [inside]
    exact (if_pos ⟨aligned, positive, rfl, allocated, unlinked⟩).trans live
  · cases live

/-- What is off the entry keeps its header, and with it its standing. -/
theorem capacity?_of_header {address capacity : Nat} {more : List Arena}
    (arenas : next.arenas = pool.arenas ++ more)
    (header : next.block (address - headerSize) = pool.block (address - headerSize))
    (held : pool.capacity? address = some capacity) :
    next.capacity? address = some capacity := by
  rw [capacity?_eq_some] at held ⊢
  cases live : pool.liveHeader? address with
  | none =>
    rw [capacity_of_none live] at held
    cases held
  | some place =>
    obtain rfl := header_of_liveHeader? live
    rw [capacity_of_header live] at held
    rw [capacity_of_header (liveHeader?_of_header arenas header live), header]
    exact held

end Entry

namespace Regular

variable {usage : Usage} {layout : Layout} {before after : List Cell} {low high : Nat}

theorem startStale (memory : Memory) (stale : Nat → Prop) :
    Regular (.startStale memory stale) .empty :=
  (start memory).relabel rfl rfl
    (fun _ _ _ covered => by simp [Layout.contains, Layout.empty] at covered)
    fun _ _ _ _ _ defined => defined

theorem step_usable (regular : Regular usage layout) {event : Event}
    (usable : usage.Usable event) (guarded : usage.Guarded event) :
    Regular (usage.step event) (layout.step event) := by
  cases event with
  | write block offset bytes => exact regular.step usable guarded
  | call operation =>
    cases operation with
    | addArena start stop =>
      obtain ⟨positive, bounded, stale⟩ := usable
      exact regular.addArena positive bounded stale
    | _ => exact regular.step usable guarded

theorem run_usable (regular : Regular usage layout) {events : List Event}
    (usable : usage.Along Usage.Usable events) (guarded : usage.Along Usage.Guarded events) :
    Regular (usage.run events) (layout.run events) := by
  induction events generalizing usage layout with
  | nil => exact regular
  | cons event rest ih => exact ih (regular.step_usable usable.1 guarded.1) usable.2 guarded.2

theorem registers (regular : Regular usage layout) (split : layout.cells = before ++ after)
    (gap : Gap before after low high) :
    usage.pool.Registers
      ((usage.pool.enclose low high ((links after).head?.getD 0)).link (links before).getLast? low)
      low high (links before) (links after) := by
  have tiled := regular.wellFormed.tiled
  have shown := regular.realizes.shown
  have head := regular.realizes.head
  have entered := enclose_realizes regular.realizes regular.wellFormed split gap
  have shownNext := entered.shown
  have headNext := entered.head
  have longer := linked_of_shown shownNext
  dsimp only [Layout.enclose] at shownNext headNext longer
  rw [split] at tiled shown head
  have tiledNext := gap.vacant.insert_tiled tiled gap.below gap.above
  have closed := gap.vacant.lower_closed tiled gap.below gap.above
  obtain ⟨shownBefore, shownLow, shownHigh, shownAfter⟩ := Shown.append.mp shownNext
  constructor
  case list =>
    rw [head, ← links_append]
    exact linked_of_shown shown tiled.ordered
  case longer =>
    rw [headNext]
    simpa using longer tiledNext.ordered
  case below =>
    intro node member
    obtain ⟨cell, inBefore, _, rfl⟩ := mem_links.mp member
    exact gap.lower tiled inBefore
  case above =>
    intro node member
    obtain ⟨cell, inAfter, _, rfl⟩ := mem_links.mp member
    exact gap.upper tiled inAfter
  case first => exact shownLow
  case last =>
    rw [List.headD_eq_head?_getD]
    exact shownHigh
  case previous =>
    intro node last
    obtain ⟨others, cell, rfl, ending, rfl⟩ := closed.getLast?_links last
    have listed : cell.listed = true := by simp [Cell.listed, ending]
    have member : cell ∈ layout.cells := by simp [split]
    have size := (regular.wellFormed.tiled.valid cell member).sentinel ending
    have old := shown.last_block listed
    have new := shownNext.last_block listed
    rw [size, ending] at old new
    exact ⟨regular.mem_sentinels.mpr ⟨cell, member, ending, rfl⟩, old, new⟩
  case head =>
    cases last : (links before).getLast? with
    | none => exact (if_pos (List.getLast?_eq_none_iff.mp last)).symm
    | some node =>
      have more : links before ≠ [] := by
        intro empty
        rw [empty] at last
        cases last
      rw [if_neg more, link_some_head, enclose_head]
  case bytes => exact fun address off => entry_byte off gap.vacant.room
  case arenas =>
    rw [link_arenas]
    simp only [enclose]
  case poolSize =>
    rw [link_poolSize]
    simp only [enclose]
  case freeSize =>
    rw [link_freeSize]
    simp only [enclose]
  case allocations => rw [link_allocations, enclose_allocations]
  case frees => rw [link_frees, enclose_frees]

theorem off_entry (regular : Regular usage layout) (split : layout.cells = before ++ after)
    (gap : Gap before after low high) {cell : Cell} (member : cell ∈ layout.cells)
    (allocated : cell.state = .allocated) {place : Nat} (low_le : cell.address ≤ place)
    (lt_stop : place < cell.stop) : ¬Entry low high (links before).getLast? place := by
  have tiled := regular.wellFormed.tiled
  rw [split] at tiled member
  have room := gap.vacant.room
  have outside : cell.stop ≤ low ∨ high ≤ cell.address := by
    rcases List.mem_append.mp member with inBefore | inAfter
    · exact Or.inl (gap.vacant.stop_le tiled member (gap.below cell inBefore))
    · exact Or.inr (gap.upper tiled inAfter)
  simp only [headerSize] at room
  rintro (inFirst | inLast | ⟨node, last, inLink⟩)
  · simp only [headerSize] at inFirst
    omega
  · simp only [headerSize] at inLast
    omega
  · have closed := gap.vacant.lower_closed tiled gap.below gap.above
    obtain ⟨others, sentinel, rfl, ending, rfl⟩ := closed.getLast?_links last
    have differ : cell ≠ sentinel := by
      rintro rfl
      rw [ending] at allocated
      cases allocated
    have stop : sentinel.stop = sentinel.address + 24 := by
      rw [Cell.stop, if_pos ending, headerSize]
    have apart := tiled.ordered.apart member (by simp) differ
    omega

theorem keeps (regular : Regular usage layout) (split : layout.cells = before ++ after)
    (gap : Gap before after low high) {next : Pool} {upper : List Nat}
    (registers : usage.pool.Registers next low high (links before) upper) {address : Nat}
    (held : address ∈ usage.live) : usage.pool.Keeps next address := by
  obtain ⟨cell, member, allocated, rfl⟩ := regular.cell_of_live held
  have valid := regular.wellFormed.tiled.valid cell member
  have room := valid.block (by simp [allocated])
  have stop : cell.stop = cell.address + cell.size := Cell.stop_of_block (by simp [allocated])
  have kept : ∀ place, cell.address ≤ place → place < cell.stop →
      next.memory.byte place = usage.pool.memory.byte place := by
    intro place low_le lt_stop
    exact registers.bytes place (regular.off_entry split gap member allocated low_le lt_stop)
  have place : cell.payload - headerSize = cell.address := Nat.add_sub_cancel _ _
  have header : next.block (cell.payload - headerSize) =
      usage.pool.block (cell.payload - headerSize) := by
    rw [place]
    exact block_congr fun index bound => kept _ (Nat.le_add_right _ _) (by omega)
  have capacity := regular.capacity member allocated
  refine ⟨header, cell.size - headerSize, capacity,
    capacity?_of_header registers.arenas header capacity, read_congr fun index bound => ?_⟩
  apply kept
  · exact (Nat.le_add_right _ _).trans (Nat.le_add_right _ _)
  · simp only [Cell.payload] at bound ⊢
    omega

end Regular

/-- Whatever has been done with a pool, it takes the aligned part of a region exactly if it has room
    there, and then all that it writes are two new headers and a link to them. Otherwise it changes
    nothing. It fails to tell only where aligning the start is beyond 64 bits. -/
theorem run_admits (memory : Memory) (stale : Nat → Prop) (events : List Event) (start stop : Nat)
    (usable : (Usage.startStale memory stale).Along Usage.Usable events)
    (guarded : (Usage.startStale memory stale).Along Usage.Guarded events)
    (positive : 0 < start) (bounded : stop < UInt64.size) :
    let usage := (Usage.startStale memory stale).run events
    let outcome := usage.pool.addArena start stop
    ∃ low high, IsLeast {address | start ≤ address ∧ alignment ∣ address} low ∧
      IsGreatest {address | address ≤ stop ∧ alignment ∣ address} high ∧
      (outcome.value = .ok true ↔ usage.pool.Admits low high) ∧
      (outcome.value = .ok true →
        (∃ lower upper, usage.pool.Registers outcome.pool low high lower upper) ∧
          ∀ address ∈ usage.live, usage.pool.Keeps outcome.pool address) ∧
      (outcome.value ≠ .ok true → outcome.pool = usage.pool) ∧
      ((∃ taken, outcome.value = .ok taken) ↔ start + alignment < UInt64.size) := by
  intro usage outcome
  have regular := (Regular.startStale memory stale).run_usable usable guarded
  have sized : ∀ arena ∈ usage.pool.arenas, arena.start ≤ arena.sentinel :=
    fun arena member => (Nat.le_add_right _ _).trans_eq (regular.filled member)
  refine ⟨alignUp start, alignDown stop, isLeast_alignUp start, isGreatest_alignDown stop,
    addArena_iff sized bounded, ?_⟩
  rw [← and_assoc]
  refine ⟨?_, addArena_answers⟩
  rcases addArena_cases regular.realizes regular.wellFormed positive bounded with
    ⟨answer, notes, other, unchanged, _⟩ | ⟨before, after, split, gap, taken, _⟩
  · have unchanged : outcome = ⟨answer, usage.pool, notes⟩ := unchanged
    rw [unchanged]
    exact ⟨fun taken => absurd taken other, fun _ => rfl⟩
  · have registers := regular.registers split gap
    have taken : outcome = ⟨.ok true, _, _⟩ := taken
    rw [taken]
    refine ⟨fun _ => ⟨⟨_, _, registers⟩, ?_⟩, fun other => absurd rfl other⟩
    exact fun address held => regular.keeps split gap registers held

def dirtyMemory : Memory := Memory.zeroed.setTag 4144 .allocated

/-- Between two arenas there is some space. The only block of the lower one is allocated. -/
def partedRun : List Event :=
  [.call (.addArena 4096 4200), .call (.addArena 8192 8296), .call (.allocate 50)]

theorem partedRun_layout : Layout.empty.run partedRun =
    ⟨[⟨4096, 80, .allocated⟩, ⟨4176, 0, .sentinel⟩, ⟨8192, 80, .free⟩, ⟨8272, 0, .sentinel⟩],
      [⟨4096, 4176⟩, ⟨8192, 8272⟩], 1, 0⟩ :=
  rfl

theorem partedRun_admits :
    let usage := (Usage.startStale dirtyMemory fun _ => True).run partedRun
    let taken := usage.pool.addArena 4195 8199
    let refused := usage.pool.addArena 4192 8199
    let beyond := usage.pool.addArena (UInt64.size - 3) 8199
    taken.value = .ok true ∧
      (∃ lower upper, usage.pool.Registers taken.pool 4200 8192 lower upper) ∧
      refused.value = .ok false ∧ refused.pool = usage.pool ∧
      beyond.value = .error .overflow ∧ beyond.pool = usage.pool := by
  intro usage taken refused beyond
  have usable : (Usage.startStale dirtyMemory fun _ => True).Along Usage.Usable partedRun :=
    ⟨⟨by decide, by decide, fun _ _ _ _ _ _ => trivial⟩,
      ⟨by decide, by decide, fun _ _ _ _ _ _ => trivial⟩, trivial, trivial⟩
  have guarded : (Usage.startStale dirtyMemory fun _ => True).Along Usage.Guarded partedRun :=
    ⟨trivial, trivial, trivial, trivial⟩
  have regular := (Regular.startStale dirtyMemory fun _ => True).run_usable usable guarded
  rw [partedRun_layout] at regular
  have value : taken.value = .ok true :=
    (addArena_matches regular.realizes regular.wellFormed (by decide) (by decide)).value.trans
      (by decide)
  have none : refused.value = .ok false :=
    (addArena_matches regular.realizes regular.wellFormed (by decide) (by decide)).value.trans
      (by decide)
  obtain ⟨low, high, least, greatest, _, takes, _⟩ := run_admits dirtyMemory (fun _ => True)
    partedRun 4195 8199 usable guarded (by decide) (by decide)
  obtain rfl : low = 4200 := least.unique (isLeast_alignUp 4195)
  obtain rfl : high = 8192 := greatest.unique (isGreatest_alignDown 8199)
  obtain ⟨_, _, _, _, _, _, refuses, _⟩ := run_admits dirtyMemory (fun _ => True) partedRun 4192 8199
    usable guarded (by decide) (by decide)
  obtain ⟨_, _, _, _, _, _, fails, _⟩ := run_admits dirtyMemory (fun _ => True) partedRun
    (UInt64.size - 3) 8199 usable guarded (by decide) (by decide)
  have fault : beyond.value = .error .overflow := rfl
  refine ⟨value, (takes value).1, none, refuses fun admitted => ?_, fault, fails fun admitted => ?_⟩
  · cases none.symm.trans admitted
  · cases fault.symm.trans admitted

end FirmwareLink.Pool

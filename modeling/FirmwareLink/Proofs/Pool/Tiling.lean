import Mathlib.Algebra.GroupWithZero.Nat
import FirmwareLink.Proofs.Pool.Cells

namespace FirmwareLink.Pool

/-- What holds of a cell and the next one. A block ends where the next cell begins. -/
def Cell.Precedes (cell next : Cell) : Prop :=
  cell.stop ≤ next.address ∧
  (cell.state ≠ .sentinel →
    next.address = cell.stop ∧ ¬(cell.state = .free ∧ next.state = .free))

def Closed (cells : List Cell) : Prop := ∀ last ∈ cells.getLast?, last.state = .sentinel

/-- Within an arena cells touch and no two free ones do. -/
structure Tiled (cells : List Cell) : Prop where
  valid : ∀ cell ∈ cells, cell.Valid
  chained : cells.IsChain Cell.Precedes
  closed : Closed cells

def Contiguous : Nat → List Cell → Nat → Prop
  | start, [], stop => start = stop
  | start, cell :: rest, stop => cell.address = start ∧ Contiguous cell.stop rest stop

/-- The arenas that cells make up. The first one begins at `start?` where that is given, every
    other one with the cell behind a sentinel. -/
def spans : Option Nat → List Cell → List Arena
  | _, [] => []
  | start?, cell :: rest =>
    let start := start?.getD cell.address
    if cell.state = .sentinel then ⟨start, cell.address⟩ :: spans none rest
    else spans (some start) rest

def Arena.span (arena : Arena) : Nat := arena.sentinel + headerSize - arena.start

def freeBytes (cells : List Cell) : Nat :=
  ((cells.filter fun cell => cell.state = .free).map Cell.size).sum

def allocatedBytes (cells : List Cell) : Nat :=
  ((cells.filter fun cell => cell.state = .allocated).map Cell.size).sum

section Closed

variable {cells before after : List Cell}

theorem closed_nil : Closed [] := by simp [Closed]

theorem Closed.of_append_cons {cell : Cell} (closed : Closed (before ++ cell :: after)) :
    Closed (cell :: after) := by
  simpa [Closed, List.getLast?_append] using closed

theorem Closed.of_cons {cell : Cell} (closed : Closed (cell :: after)) : Closed after := by
  cases after with
  | nil => exact closed_nil
  | cons next rest => simpa [Closed, List.getLast?_cons_cons] using closed

theorem closed_append (more : after ≠ []) : Closed (before ++ after) ↔ Closed after := by
  obtain ⟨cell, rest, rfl⟩ := List.exists_cons_of_ne_nil more
  simp [Closed, List.getLast?_append]

theorem Closed.cons {cell : Cell} (more : after ≠ []) (closed : Closed after) :
    Closed (cell :: after) := by
  obtain ⟨next, rest, rfl⟩ := List.exists_cons_of_ne_nil more
  simpa [Closed, List.getLast?_cons_cons] using closed

theorem Closed.next {cell : Cell} (closed : Closed (cell :: after))
    (block : cell.state ≠ .sentinel) : ∃ next rest, after = next :: rest := by
  cases after with
  | nil => exact absurd (closed cell (by simp)) block
  | cons next rest => exact ⟨next, rest, rfl⟩

/-- Induction over the arenas of a list, each given by its blocks and its sentinel. -/
theorem Closed.arenas_induction {motive : (cells : List Cell) → Closed cells → Prop}
    (nil : motive [] closed_nil)
    (arena : ∀ blocks sentinel rest, (∀ block ∈ blocks, block.state ≠ .sentinel) →
      sentinel.state = .sentinel → ∀ (closed : Closed rest), motive rest closed →
      ∀ whole : Closed (blocks ++ sentinel :: rest), motive (blocks ++ sentinel :: rest) whole)
    (cells : List Cell) (closed : Closed cells) : motive cells closed := by
  -- Generalised over the blocks of the arena that the walk is in.
  suffices within : ∀ blocks : List Cell, (∀ block ∈ blocks, block.state ≠ .sentinel) →
      ∀ whole : Closed (blocks ++ cells), motive (blocks ++ cells) whole by
    exact within [] (by simp) closed
  clear closed
  induction cells with
  | nil =>
    intro blocks plain whole
    cases blocks with
    | nil => exact nil
    | cons block rest =>
      have last := List.getLast?_eq_some_getLast (l := block :: rest) (by simp)
      rw [List.append_nil] at whole
      exact absurd (whole _ last) (plain _ (List.mem_of_getLast? last))
  | cons cell rest ih =>
    intro blocks plain whole
    by_cases sentinel : cell.state = .sentinel
    · have closed := whole.of_append_cons.of_cons
      exact arena blocks cell rest plain sentinel closed (ih [] (by simp) closed) whole
    · have longer := ih (blocks ++ [cell]) (by
        intro block member
        rcases List.mem_append.mp member with earlier | same
        · exact plain block earlier
        · rwa [List.mem_singleton.mp same])
      simp only [List.append_assoc, List.singleton_append] at longer
      exact longer whole

end Closed

namespace Tiled

variable {cells before after : List Cell} {cell next : Cell}

theorem ordered (tiled : Tiled cells) : Ordered cells where
  valid := tiled.valid
  sorted := by
    have chained := tiled.chained
    have valid := tiled.valid
    clear tiled
    induction cells with
    | nil => exact List.Pairwise.nil
    | cons cell rest ih =>
      have sorted := ih chained.tail fun other member =>
        valid other (List.mem_cons_of_mem _ member)
      refine List.Pairwise.cons ?_ sorted
      intro later member
      cases rest with
      | nil => cases member
      | cons next others =>
        have first : cell.stop ≤ next.address := (List.isChain_cons_cons.mp chained).1.1
        rcases List.mem_cons.mp member with rfl | further
        · exact first
        · have step := (List.pairwise_cons.mp sorted).1 later further
          have room := (valid next (by simp)).header_le_stop
          omega

theorem right (tiled : Tiled (before ++ cell :: after)) : Tiled (cell :: after) where
  valid := fun other member => tiled.valid other (List.mem_append_right _ member)
  chained := tiled.chained.right_of_append
  closed := tiled.closed.of_append_cons

theorem tail (tiled : Tiled (cell :: after)) : Tiled after where
  valid := fun other member => tiled.valid other (List.mem_cons_of_mem _ member)
  chained := tiled.chained.tail
  closed := tiled.closed.of_cons

theorem next_touches (tiled : Tiled (cell :: next :: after)) (block : cell.state ≠ .sentinel) :
    next.address = cell.stop :=
  ((List.isChain_cons_cons.mp tiled.chained).1.2 block).1

theorem not_both_free (tiled : Tiled (cell :: next :: after)) (free : cell.state = .free) :
    next.state ≠ .free := by
  have block : cell.state ≠ .sentinel := by simp [free]
  intro nextFree
  exact ((List.isChain_cons_cons.mp tiled.chained).1.2 block).2 ⟨free, nextFree⟩

end Tiled

section Spans

variable {cells before after blocks : List Cell} {sentinel : Cell}

theorem spans_blocks (start : Nat) (plain : ∀ block ∈ blocks, block.state ≠ .sentinel) :
    spans (some start) (blocks ++ after) = spans (some start) after := by
  induction blocks with
  | nil => rfl
  | cons block rest ih =>
    rw [List.cons_append, spans, if_neg (plain block (by simp))]
    exact ih fun other member => plain other (List.mem_cons_of_mem _ member)

theorem spans_arena (plain : ∀ block ∈ blocks, block.state ≠ .sentinel)
    (ending : sentinel.state = .sentinel) :
    spans none (blocks ++ sentinel :: after) =
      ⟨((blocks.head?).getD sentinel).address, sentinel.address⟩ :: spans none after := by
  cases blocks with
  | nil => simp [spans, ending]
  | cons block rest =>
    rw [List.cons_append, spans, if_neg (plain block (by simp)), spans_blocks _ fun other member =>
      plain other (List.mem_cons_of_mem _ member), spans, if_pos ending]
    rfl

theorem spans_replace {first other : Cell} {more others : List Cell} (start? : Option Nat)
    (plain : ∀ block ∈ first :: more, block.state ≠ .sentinel)
    (otherPlain : ∀ block ∈ other :: others, block.state ≠ .sentinel)
    (same : first.address = other.address) :
    spans start? (before ++ (first :: more ++ after)) =
      spans start? (before ++ (other :: others ++ after)) := by
  induction before generalizing start? with
  | nil =>
    simp only [List.nil_append, List.cons_append, spans, if_neg (plain first (by simp)),
      if_neg (otherPlain other (by simp)), same]
    rw [spans_blocks _ fun block member => plain block (List.mem_cons_of_mem _ member),
      spans_blocks _ fun block member => otherPlain block (List.mem_cons_of_mem _ member)]
  | cons cell rest ih =>
    have step := ih none
    have open_step := ih (some (start?.getD cell.address))
    simp only [List.cons_append] at step open_step ⊢
    simp only [spans, step, open_step]

theorem spans_append (closed : Closed before) :
    spans none (before ++ after) = spans none before ++ spans none after := by
  induction before, closed using Closed.arenas_induction with
  | nil => rfl
  | arena blocks sentinel rest plain ending _ ih =>
    rw [List.append_assoc, List.cons_append, spans_arena plain ending, spans_arena plain ending, ih]
    rfl

theorem contiguous_of_chain (plain : ∀ block ∈ blocks, block.state ≠ .sentinel)
    (chained : (blocks ++ sentinel :: after).IsChain Cell.Precedes) :
    Contiguous ((blocks.head?).getD sentinel).address blocks sentinel.address := by
  induction blocks with
  | nil => rfl
  | cons block rest ih =>
    have contiguous := ih (fun other member => plain other (List.mem_cons_of_mem _ member))
      chained.tail
    refine ⟨rfl, ?_⟩
    have touches : ((rest.head?).getD sentinel).address = block.stop := by
      cases rest with
      | nil => exact ((List.isChain_cons_cons.mp chained).1.2 (plain block (by simp))).1
      | cons next others =>
        exact ((List.isChain_cons_cons.mp chained).1.2 (plain block (by simp))).1
    rwa [touches] at contiguous

/-- Blocks without gap or overlap fill each arena up to its sentinel. -/
theorem Tiled.arena_tiled (tiled : Tiled cells) {arena : Arena} (member : arena ∈ spans none cells) :
    ∃ before blocks sentinel after, cells = before ++ (blocks ++ sentinel :: after) ∧
      (∀ block ∈ blocks, block.state ≠ .sentinel) ∧ sentinel.state = .sentinel ∧
      sentinel.address = arena.sentinel ∧ Contiguous arena.start blocks arena.sentinel := by
  have closed := tiled.closed
  induction cells, closed using Closed.arenas_induction with
  | nil => cases member
  | arena blocks sentinel rest plain ending _ ih =>
    rw [spans_arena plain ending] at member
    rcases List.mem_cons.mp member with rfl | later
    · exact ⟨[], blocks, sentinel, rest, rfl, plain, ending, rfl,
        contiguous_of_chain plain tiled.chained⟩
    · obtain ⟨before, others, last, after, rfl, facts⟩ := ih tiled.right.tail later
      exact ⟨blocks ++ sentinel :: before, others, last, after, by simp, facts⟩

theorem Tiled.mem_arena (tiled : Tiled cells) {cell : Cell} (member : cell ∈ cells) :
    ∃ arena ∈ spans none cells, arena.start ≤ cell.address ∧ cell.address ≤ arena.sentinel ∧
      (cell.state ≠ .sentinel → cell.stop ≤ arena.sentinel) := by
  have closed := tiled.closed
  induction cells, closed using Closed.arenas_induction with
  | nil => cases member
  | arena blocks sentinel rest plain ending _ ih =>
    rw [spans_arena plain ending]
    have ordered := tiled.ordered
    rcases List.mem_append.mp member with inBlocks | later
    · refine ⟨_, List.mem_cons_self, ?_, ?_, fun _ => ordered.stop_le inBlocks (by simp)⟩
      · cases blocks with
        | nil => cases inBlocks
        | cons first others =>
          rcases List.mem_cons.mp inBlocks with rfl | further
          · exact Nat.le_refl _
          · have low := (tiled.valid first (by simp)).header_le_stop
            have high := ordered.left.stop_le_of_cons further
            simp only [List.head?_cons, Option.getD_some]
            omega
      · have high := ordered.header_le inBlocks List.mem_cons_self
        simp only
        omega
    · rcases List.mem_cons.mp later with rfl | further
      · refine ⟨_, List.mem_cons_self, ?_, Nat.le_refl _, fun block => absurd ending block⟩
        cases blocks with
        | nil => exact Nat.le_refl _
        | cons first others =>
          have firstMember : first ∈ first :: others := List.mem_cons_self
          have high := ordered.header_le firstMember List.mem_cons_self
          simp only [List.head?_cons, Option.getD_some]
          omega
      · obtain ⟨arena, inSpans, facts⟩ := ih tiled.right.tail further
        exact ⟨arena, List.mem_cons_of_mem _ inSpans, facts⟩

end Spans

section Bytes

variable {cells before after : List Cell} {cell : Cell}

@[simp]
theorem freeBytes_nil : freeBytes [] = 0 := rfl

@[simp]
theorem freeBytes_append : freeBytes (before ++ after) = freeBytes before + freeBytes after := by
  simp [freeBytes]

@[simp]
theorem allocatedBytes_append :
    allocatedBytes (before ++ after) = allocatedBytes before + allocatedBytes after := by
  simp [allocatedBytes]

theorem freeBytes_cons : freeBytes (cell :: after) =
    (if cell.state = .free then cell.size else 0) + freeBytes after := by
  by_cases free : cell.state = .free <;> simp [freeBytes, free]

theorem allocatedBytes_cons : allocatedBytes (cell :: after) =
    (if cell.state = .allocated then cell.size else 0) + allocatedBytes after := by
  by_cases allocated : cell.state = .allocated <;> simp [allocatedBytes, allocated]

theorem Contiguous.bytes {blocks : List Cell} {start stop : Nat}
    (contiguous : Contiguous start blocks stop)
    (plain : ∀ block ∈ blocks, block.state ≠ .sentinel) :
    stop = start + (freeBytes blocks + allocatedBytes blocks) := by
  induction blocks generalizing start with
  | nil => exact contiguous.symm
  | cons block rest ih =>
    obtain ⟨rfl, contiguous⟩ := contiguous
    have total := ih contiguous fun other member => plain other (List.mem_cons_of_mem _ member)
    have notSentinel := plain block (by simp)
    rw [total, Cell.stop, if_neg notSentinel, freeBytes_cons, allocatedBytes_cons]
    cases state : block.state with
    | free => simp; omega
    | allocated => simp; omega
    | sentinel => exact absurd state notSentinel

/-- Free bytes, allocated bytes and the headers of the sentinels make up the arenas. -/
theorem Tiled.bytes (tiled : Tiled cells) :
    ((spans none cells).map Arena.span).sum =
      freeBytes cells + allocatedBytes cells + (spans none cells).length * headerSize := by
  have closed := tiled.closed
  induction cells, closed using Closed.arenas_induction with
  | nil => rfl
  | arena blocks sentinel rest plain ending _ ih =>
    have total := (contiguous_of_chain plain tiled.chained).bytes plain
    rw [spans_arena plain ending, List.map_cons, List.sum_cons, ih tiled.right.tail,
      freeBytes_append, allocatedBytes_append, freeBytes_cons, allocatedBytes_cons, ending,
      List.length_cons]
    simp only [Arena.span, headerSize]
    rw [total]
    simp
    omega

end Bytes

end FirmwareLink.Pool

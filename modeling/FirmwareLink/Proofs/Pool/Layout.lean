import FirmwareLink.Pool.Stats
import FirmwareLink.Proofs.Pool.Tiling

namespace FirmwareLink.Pool

/-- A pool without its memory. Every operation of a pool has its counterpart here, and none of them
    looks at a byte. -/
structure Layout where
  cells : List Cell
  arenas : List Arena
  allocations : Nat
  frees : Nat

namespace Cell

def fits (size : Nat) (cell : Cell) : Bool := cell.state = .free && size ≤ cell.size

/-- What a free cell becomes when `size` bytes of it are handed out. -/
def carve (cell : Cell) (size : Nat) : List Cell :=
  if 2 * headerSize < cell.size - size then
    [⟨cell.address, size, .allocated⟩, ⟨cell.address + size, cell.size - size, .free⟩]
  else [⟨cell.address, cell.size, .allocated⟩]

/-- Merges a cell, free from now on, with the free cell that it follows, if it follows one. -/
def mergeBelow (cell : Cell) (below : List Cell) : List Cell × Cell :=
  match below.getLast? with
  | none => (below, ⟨cell.address, cell.size, .free⟩)
  | some last =>
    if last.state = .free then (below.dropLast, ⟨last.address, last.size + cell.size, .free⟩)
    else (below, ⟨cell.address, cell.size, .free⟩)

def mergeAbove (node : Cell) (above : List Cell) : List Cell :=
  match above with
  | [] => [node]
  | next :: rest =>
    if next.state = .free then ⟨node.address, node.size + next.size, .free⟩ :: rest
    else node :: above

end Cell

def release (cells : List Cell) (address : Nat) : List Cell :=
  match cells.dropWhile fun cell => cell.address ≠ address with
  | [] => cells
  | cell :: above =>
    let (below, node) := cell.mergeBelow (cells.takeWhile fun cell => cell.address ≠ address)
    below ++ node.mergeAbove above

def payloads (cells : List Cell) : List Nat :=
  (cells.filter fun cell => cell.state = .allocated).map Cell.payload

namespace Layout

structure Outcome (α : Type) where
  value : α
  layout : Layout
  notes : List Note

def empty : Layout := ⟨[], [], 0, 0⟩

structure WellFormed (layout : Layout) : Prop where
  tiled : Tiled layout.cells
  table : layout.arenas.Perm (spans none layout.cells)
  few : layout.arenas.length ≤ maxArenas

def addArena (layout : Layout) (start stop : Nat) : Outcome (Except Fault Bool) :=
  if UInt64.size ≤ start + alignment then ⟨.error .overflow, layout, []⟩
  else
    let low := alignUp start
    let high := alignDown stop
    let span := high - low
    if span ≤ 2 * headerSize then ⟨.ok false, layout, [.regionTooSmall span]⟩
    else if layout.arenas.any fun arena =>
        arena.start < high && low < arena.sentinel + headerSize then
      ⟨.ok false, layout, [.regionOverlaps low]⟩
    else if maxArenas ≤ layout.arenas.length then ⟨.ok false, layout, [.arenasFull]⟩
    else
      let sentinel := high - headerSize
      let cells := layout.cells.takeWhile (fun cell => cell.address < low) ++
        (⟨low, span - headerSize, .free⟩ :: ⟨sentinel, 0, .sentinel⟩ ::
          layout.cells.dropWhile fun cell => cell.address < low)
      ⟨.ok true, { layout with cells, arenas := layout.arenas ++ [⟨low, sentinel⟩] },
        [.registered span]⟩

def allocate (layout : Layout) (bytes : Nat) : Outcome (Option Nat) :=
  if bytes = 0 ∨ layout.cells = [] ∨ UInt64.size ≤ bytes + (headerSize + (alignment - 1)) then
    ⟨none, layout, []⟩
  else
    let size := alignUp (bytes + headerSize)
    if freeBytes layout.cells < size then ⟨none, layout, [.beyondFree bytes]⟩
    else
      match layout.cells.dropWhile (!·.fits size) with
      | [] => ⟨none, layout, [.noFit bytes]⟩
      | cell :: rest =>
        let cells := layout.cells.takeWhile (!·.fits size) ++ (cell.carve size ++ rest)
        ⟨some cell.payload, { layout with cells, allocations := layout.allocations + 1 }, []⟩

def allocateZeroed (layout : Layout) (count size : Nat) : Outcome (Option Nat) :=
  if UInt64.size ≤ count * size then ⟨none, layout, []⟩ else layout.allocate (count * size)

def held? (layout : Layout) (address : Nat) : Option Cell :=
  layout.cells.find? fun cell => cell.state = .allocated ∧ cell.payload = address

def capacity? (layout : Layout) (address : Nat) : Option Nat :=
  (layout.held? address).map fun cell => cell.size - headerSize

def contains (layout : Layout) (address : Nat) : Bool := layout.arenas.any (·.covers address)

def free (layout : Layout) (address : Nat) : Outcome Unit :=
  match layout.held? address with
  | none => ⟨(), layout, [.notAllocated address]⟩
  | some cell =>
    ⟨(), { layout with
      cells := release layout.cells cell.address
      frees := layout.frees + 1 }, []⟩

def reallocate (layout : Layout) (address? : Option Nat) (bytes : Nat) : Outcome (Option Nat) :=
  match address? with
  | none => layout.allocate bytes
  | some address =>
    match layout.capacity? address with
    | none => ⟨none, layout, []⟩
    | some capacity =>
      if bytes ≤ capacity then ⟨some address, layout, []⟩
      else
        let outcome := layout.allocate bytes
        match outcome.value with
        | none => outcome
        | some moved =>
          let freed := outcome.layout.free address
          ⟨some moved, freed.layout, outcome.notes ++ freed.notes⟩

def freePayloads (layout : Layout) : List Nat :=
  (layout.cells.filter fun cell => cell.state = .free).map fun cell => cell.size - headerSize

def stats (layout : Layout) : PoolStats where
  freeBytes := freeBytes layout.cells
  largestFree := layout.freePayloads.foldl max 0
  smallestFree := layout.freePayloads.min?.getD 0
  freeBlocks := layout.freePayloads.length
  poolBytes := (layout.arenas.map Arena.span).sum
  arenas := layout.arenas.length
  allocations := layout.allocations
  frees := layout.frees

end Layout

section Release

variable {before after : List Cell} {cell : Cell}

theorem span_at_address {other : Cell} (ordered : Ordered (before ++ cell :: after))
    (address : other.address = cell.address) :
    (before ++ cell :: after).takeWhile (fun cell => cell.address ≠ other.address) = before ∧
      (before ++ cell :: after).dropWhile (fun cell => cell.address ≠ other.address) =
        cell :: after := by
  have below : ∀ low ∈ before, decide (low.address ≠ other.address) = true := by
    intro low member
    have high := ordered.header_le member List.mem_cons_self
    simp only [headerSize] at high
    exact decide_eq_true (by omega)
  rw [List.takeWhile_append_of_pos below, List.dropWhile_append_of_pos below]
  simp [address]

theorem release_eq (ordered : Ordered (before ++ cell :: after)) :
    release (before ++ cell :: after) cell.address =
      (cell.mergeBelow before).1 ++ (cell.mergeBelow before).2.mergeAbove after := by
  have split := span_at_address ordered rfl
  rw [release, split.1, split.2]

end Release

theorem mem_payloads {cells : List Cell} {address : Nat} :
    address ∈ payloads cells ↔
      ∃ cell ∈ cells, cell.state = .allocated ∧ cell.payload = address := by
  simp [payloads, and_assoc]

@[simp]
theorem payloads_append (cells more : List Cell) :
    payloads (cells ++ more) = payloads cells ++ payloads more := by
  simp [payloads]

theorem Layout.held?_eq_some {layout : Layout} {address : Nat} {cell : Cell}
    (held : layout.held? address = some cell) :
    cell ∈ layout.cells ∧ cell.state = .allocated ∧ cell.payload = address := by
  have facts := List.find?_some held
  exact ⟨List.mem_of_find?_eq_some held, of_decide_eq_true facts⟩

theorem Layout.held?_eq_none_iff {layout : Layout} {address : Nat} :
    layout.held? address = none ↔ address ∉ payloads layout.cells := by
  simp [Layout.held?, mem_payloads]

end FirmwareLink.Pool

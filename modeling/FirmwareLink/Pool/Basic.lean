import FirmwareLink.Log
import FirmwareLink.Pool.Block

namespace FirmwareLink

namespace Pool

def maxArenas : Nat := 8

structure Arena where
  start : Nat
  sentinel : Nat
deriving DecidableEq, Repr

def Arena.hasHeaderAt (arena : Arena) (address : Nat) : Bool :=
  arena.start ≤ address && address < arena.sentinel

def Arena.covers (arena : Arena) (address : Nat) : Bool :=
  arena.start ≤ address && address < arena.sentinel + headerSize

inductive Note where
  | regionTooSmall (bytes : Nat)
  | regionOverlaps (address : Nat)
  | arenasFull
  | registered (bytes : Nat)
  | beyondFree (bytes : Nat)
  | noFit (bytes : Nat)
  | notAllocated (address : Nat)
deriving DecidableEq, Repr

def Note.record : Note → LogRecord
  | .regionTooSmall bytes => ⟨.warn, s!"pool region of {bytes} bytes is too small"⟩
  | .regionOverlaps address => ⟨.warn, s!"pool region {address} overlaps a registered arena"⟩
  | .arenasFull => ⟨.warn, s!"pool already holds {maxArenas} arenas"⟩
  | .registered bytes => ⟨.debug, s!"pool arena of {bytes} bytes registered"⟩
  | .beyondFree bytes => ⟨.trace, s!"pool request of {bytes} bytes exceeds free bytes"⟩
  | .noFit bytes => ⟨.trace, s!"no free block for {bytes} bytes"⟩
  | .notAllocated address => ⟨.warn, s!"ignoring free of {address}"⟩

end Pool

open Pool

/-- The free blocks of all arenas and the sentinel at the end of each form one list in the order of
    their addresses, kept in the headers of the blocks themselves. -/
structure Pool where
  memory : Memory
  /-- The first block of the free list; zero if there is none. -/
  head : Nat
  arenas : List Arena
  poolSize : Nat
  /-- The sizes of all free blocks together, headers included. -/
  freeSize : Nat
  allocations : Nat
  frees : Nat

namespace Pool

structure Outcome (α : Type) where
  value : α
  pool : Pool
  notes : List Note

def Outcome.map {α β : Type} (answer : α → β) (outcome : Outcome α) : Outcome β :=
  ⟨answer outcome.value, outcome.pool, outcome.notes⟩

@[simp]
theorem Outcome.map_mk {α β : Type} (answer : α → β) (value : α) (pool : Pool)
    (notes : List Note) : (Outcome.mk value pool notes).map answer = ⟨answer value, pool, notes⟩ :=
  rfl

def empty (memory : Memory) : Pool where
  memory := memory
  head := 0
  arenas := []
  poolSize := 0
  freeSize := 0
  allocations := 0
  frees := 0

def write (pool : Pool) (address : Nat) (bytes : Bytes) : Pool :=
  { pool with memory := pool.memory.write address bytes }

def block (pool : Pool) (address : Nat) : Block := pool.memory.block address

def nodes (pool : Pool) : List Nat := pool.memory.chain pool.head

/-- Makes `address` the successor of a node, or the head where there is no node before. -/
def link (pool : Pool) (previous : Option Nat) (address : Nat) : Pool :=
  match previous with
  | none => { pool with head := address }
  | some node => { pool with memory := pool.memory.setNext node address }

/-- The last node below an address and the link to what follows it. -/
def neighbours (pool : Pool) (address : Nat) : Option Nat × Nat :=
  ((pool.nodes.takeWhile (· < address)).getLast?,
    (pool.nodes.dropWhile (· < address)).headD 0)

def addArena (pool : Pool) (start stop : Nat) : Outcome (Except Fault Bool) :=
  -- To align an address, all of `alignment` is added before one is taken off again.
  if UInt64.size ≤ start + alignment then ⟨.error .overflow, pool, []⟩
  else
    let low := alignUp start
    let high := alignDown stop
    let span := high - low
    if span ≤ 2 * headerSize then ⟨.ok false, pool, [.regionTooSmall span]⟩
    else if pool.arenas.any fun arena =>
        arena.start < high && low < arena.sentinel + headerSize then
      ⟨.ok false, pool, [.regionOverlaps low]⟩
    else if maxArenas ≤ pool.arenas.length then ⟨.ok false, pool, [.arenasFull]⟩
    else
      let sentinel := high - headerSize
      let (previous, next) := pool.neighbours low
      let memory := (pool.memory.setBlock sentinel next 0 .sentinel).setBlock low sentinel
        (span - headerSize) .free
      let pool := { pool with
        memory
        arenas := pool.arenas ++ [Arena.mk low sentinel]
        poolSize := pool.poolSize + span
        freeSize := pool.freeSize + (span - headerSize) }
      ⟨.ok true, pool.link previous low, [.registered span]⟩

def fits (pool : Pool) (size address : Nat) : Bool :=
  (pool.block address).has .free && size ≤ (pool.block address).size

/-- Unlinks the free block at `address`, which follows `previous` in the list, for a block of
    `size` bytes. A rest that could be a block of more than a header's payload stays free. -/
def take (pool : Pool) (previous : Option Nat) (address size : Nat) : Pool :=
  let block := pool.block address
  if 2 * headerSize < block.size - size then
    let rest := address + size
    let memory := pool.memory.setBlock rest block.next (block.size - size) .free
    let pool := { pool with memory }.link previous rest
    { pool with
      memory := pool.memory.setBlock address 0 size .allocated
      freeSize := pool.freeSize - size
      allocations := pool.allocations + 1 }
  else
    let pool := pool.link previous block.next
    { pool with
      memory := pool.memory.setBlock address 0 block.size .allocated
      freeSize := pool.freeSize - block.size
      allocations := pool.allocations + 1 }

def allocate (pool : Pool) (bytes : Nat) : Outcome (Option Nat) :=
  if bytes = 0 ∨ pool.head = 0 ∨ UInt64.size ≤ bytes + (headerSize + (alignment - 1)) then
    ⟨none, pool, []⟩
  else
    let size := alignUp (bytes + headerSize)
    if pool.freeSize < size then ⟨none, pool, [.beyondFree bytes]⟩
    else
      match pool.nodes.dropWhile (!pool.fits size ·) with
      | [] => ⟨none, pool, [.noFit bytes]⟩
      | node :: _ =>
        let previous := (pool.nodes.takeWhile (!pool.fits size ·)).getLast?
        ⟨some (node + headerSize), pool.take previous node size, []⟩

def allocateZeroed (pool : Pool) (count size : Nat) : Outcome (Option Nat) :=
  if UInt64.size ≤ count * size then ⟨none, pool, []⟩
  else
    let outcome := pool.allocate (count * size)
    match outcome.value with
    | none => outcome
    | some address =>
      let memory := outcome.pool.memory.write address (List.replicate (count * size) 0)
      { outcome with pool := { outcome.pool with memory } }

def liveHeader? (pool : Pool) (address : Nat) : Option Nat :=
  let header := address - headerSize
  if address % alignment = 0 ∧ headerSize ≤ address ∧
      pool.arenas.any (·.hasHeaderAt header) ∧
      (pool.block header).has .allocated ∧ (pool.block header).next = 0 then some header
  else none

def capacity (pool : Pool) (address : Nat) : Except Fault (Option Nat) :=
  match pool.liveHeader? address with
  | none => .ok none
  | some header => (pool.block header).payload.map some

def contains (pool : Pool) (address : Nat) : Bool := pool.arenas.any (·.covers address)

/-- Merges a free block with the free block that ends where it begins, or else links it behind
    the node before it. Gives the address of the block that it is part of from then on. -/
def joinBelow (pool : Pool) (previous : Option Nat) (address : Nat) : Nat × Pool :=
  match previous with
  | none => (address, pool.link none address)
  | some before =>
    let below := pool.block before
    if below.has .free && before + below.size = address then
      let size := below.size + (pool.block address).size
      (before, { pool with memory := pool.memory.setSize before size })
    else (address, pool.link (some before) address)

/-- Merges a free block with the free block `next` that begins where it ends, or else makes
    `next` its successor. -/
def joinAbove (pool : Pool) (node next : Nat) : Pool :=
  let size := (pool.block node).size
  let above := pool.block next
  if next ≠ 0 ∧ above.has .free ∧ node + size = next then
    { pool with
      memory := (pool.memory.setSize node (size + above.size)).setNext node above.next }
  else { pool with memory := pool.memory.setNext node next }

def restore (pool : Pool) (address : Nat) : Pool :=
  let (previous, next) := pool.neighbours address
  let (node, pool) := pool.joinBelow previous address
  pool.joinAbove node next

def free (pool : Pool) (address : Nat) : Outcome Unit :=
  match pool.liveHeader? address with
  | none => ⟨(), pool, [.notAllocated address]⟩
  | some header =>
    let pool := { pool with
      memory := pool.memory.setTag header .free
      freeSize := pool.freeSize + (pool.block header).size }
    let pool := pool.restore header
    ⟨(), { pool with frees := pool.frees + 1 }, []⟩

/-- Resizes an allocation. One that is large enough stays; otherwise its content moves to a new
    block, if there is one. Without an address this allocates. -/
def reallocate (pool : Pool) (address? : Option Nat) (bytes : Nat) :
    Outcome (Except Fault (Option Nat)) :=
  match address? with
  | none => (pool.allocate bytes).map .ok
  | some address =>
    match pool.capacity address with
    | .error fault => ⟨.error fault, pool, []⟩
    | .ok none => ⟨.ok none, pool, []⟩
    | .ok (some capacity) =>
      if bytes ≤ capacity then ⟨.ok (some address), pool, []⟩
      else
        let outcome := pool.allocate bytes
        match outcome.value with
        | none => outcome.map .ok
        | some moved =>
          let content := outcome.pool.memory.read address capacity
          let memory := outcome.pool.memory.write moved content
          let freed := { outcome.pool with memory }.free address
          ⟨.ok (some moved), freed.pool, outcome.notes ++ freed.notes⟩

end Pool

end FirmwareLink

import FirmwareLink.Pool.Basic
import FirmwareLink.Text.Layout

namespace FirmwareLink

structure PoolStats where
  freeBytes : Nat
  largestFree : Nat
  smallestFree : Nat
  freeBlocks : Nat
  poolBytes : Nat
  arenas : Nat
  allocations : Nat
  frees : Nat
deriving DecidableEq, Repr

namespace Pool

def freePayloads (pool : Pool) : Except Fault (List Nat) :=
  (pool.nodes.filter fun node => (pool.block node).has .free).mapM fun node =>
    (pool.block node).payload

def stats (pool : Pool) : Except Fault PoolStats := do
  let payloads ← pool.freePayloads
  return {
    freeBytes := pool.freeSize
    largestFree := payloads.foldl max 0
    smallestFree := payloads.min?.getD 0
    freeBlocks := payloads.length
    poolBytes := pool.poolSize
    arenas := pool.arenas.length
    allocations := pool.allocations
    frees := pool.frees }

end Pool

open Text

def PoolStats.describe (stats : PoolStats) : String :=
  let field (name : String) (number : Nat) : String := field name s!"{number}"
  record "PoolStats"
    [field "free_bytes" stats.freeBytes,
     field "largest_free" stats.largestFree,
     field "smallest_free" stats.smallestFree,
     field "free_blocks" stats.freeBlocks,
     field "pool_bytes" stats.poolBytes,
     field "arenas" stats.arenas,
     field "allocations" stats.allocations,
     field "frees" stats.frees]

end FirmwareLink

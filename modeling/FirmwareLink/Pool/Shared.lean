import FirmwareLink.Pool.Stats

namespace FirmwareLink

open Pool

inductive Logger where
  | plain
  | allocating (bytes : Nat)
deriving DecidableEq, Repr

/-- An operation runs under a lock and leaves at most one note behind, which is logged once the lock
    is released. A note raised while another one is being logged is discarded. -/
structure SharedPool where
  pool : Pool
  pending : Option Note
  reporting : Bool
  logger : Logger

namespace SharedPool

variable {α : Type}

structure Outcome (α : Type) where
  value : α
  pool : SharedPool
  log : List LogRecord

def create (memory : Memory) (logger : Logger) : SharedPool :=
  ⟨.empty memory, none, false, logger⟩

/-- Runs an operation under the lock and takes the note that it leaves, the last one raised. -/
def critical (shared : SharedPool) (operation : Pool → Pool.Outcome α) :
    α × Option Note × SharedPool :=
  let outcome := operation shared.pool
  (outcome.value, outcome.notes.getLast?.or shared.pending,
    { shared with pool := outcome.pool, pending := none })

/-- The traffic of the logger itself. The pool is reporting already, so its notes go nowhere. -/
def react (shared : SharedPool) : SharedPool :=
  match shared.logger with
  | .plain => shared
  | .allocating bytes =>
    let (block?, _, shared) := shared.critical (·.allocate bytes)
    match block? with
    | none => shared
    | some address =>
      let ((), _, shared) := shared.critical (·.free address)
      shared

def report (shared : SharedPool) (note : Note) : SharedPool × List LogRecord :=
  if shared.reporting then (shared, [])
  else ({ react { shared with reporting := true } with reporting := false }, [note.record])

def guarded (shared : SharedPool) (operation : Pool → Pool.Outcome α) : Outcome α :=
  let (value, note?, shared) := shared.critical operation
  match note? with
  | none => ⟨value, shared, []⟩
  | some note =>
    let (shared, log) := shared.report note
    ⟨value, shared, log⟩

def addArena (shared : SharedPool) (start stop : Nat) : Outcome (Except Fault Bool) :=
  shared.guarded (·.addArena start stop)

def allocate (shared : SharedPool) (bytes : Nat) : Outcome (Option Nat) :=
  shared.guarded (·.allocate bytes)

def allocateZeroed (shared : SharedPool) (count size : Nat) : Outcome (Option Nat) :=
  shared.guarded (·.allocateZeroed count size)

def free (shared : SharedPool) (address : Nat) : Outcome Unit :=
  shared.guarded (·.free address)

def reallocate (shared : SharedPool) (address? : Option Nat) (bytes : Nat) :
    Outcome (Except Fault (Option Nat)) :=
  shared.guarded (·.reallocate address? bytes)

def capacity (shared : SharedPool) (address : Nat) : Outcome (Except Fault (Option Nat)) :=
  shared.guarded fun pool => ⟨pool.capacity address, pool, []⟩

def contains (shared : SharedPool) (address : Nat) : Outcome Bool :=
  shared.guarded fun pool => ⟨pool.contains address, pool, []⟩

def stats (shared : SharedPool) : Outcome (Except Fault PoolStats) :=
  shared.guarded fun pool => ⟨pool.stats, pool, []⟩

def content (shared : SharedPool) (address length : Nat) : Vector UInt8 length :=
  Vector.ofFn fun index => shared.pool.memory.byte (address + index)

def write (shared : SharedPool) (address : Nat) (bytes : Bytes) : SharedPool :=
  { shared with pool := shared.pool.write address bytes }

def describe (shared : SharedPool) : Except Fault String := do
  let stats ← shared.stats.value
  return Text.record "LockedPool" [Text.field "stats" stats.describe]

def refuse (shared : SharedPool) (refusal : α) : Outcome α := ⟨refusal, shared, []⟩

def allocateAligned (shared : SharedPool) (size align : Nat) : Outcome (Option Nat) :=
  if alignment < align then shared.refuse none else shared.allocate size

def allocateZeroedAligned (shared : SharedPool) (size align : Nat) : Outcome (Option Nat) :=
  if alignment < align then shared.refuse none else shared.allocateZeroed 1 size

def reallocateAligned (shared : SharedPool) (address? : Option Nat) (align size : Nat) :
    Outcome (Except Fault (Option Nat)) :=
  if alignment < align then shared.refuse (.ok none) else shared.reallocate address? size

def deallocate (shared : SharedPool) : Option Nat → Outcome Unit
  | none => ⟨(), shared, []⟩
  | some address => shared.free address

end SharedPool

end FirmwareLink

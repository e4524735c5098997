import FirmwareLink.Proofs.Pool.Payload

namespace FirmwareLink.Pool

inductive Operation where
  | addArena (start stop : Nat)
  | allocate (bytes : Nat)
  | allocateZeroed (count size : Nat)
  | reallocate (address? : Option Nat) (bytes : Nat)
  | free (address : Nat)
  | capacity (address : Nat)
  | contains (address : Nat)
  | stats
deriving DecidableEq, Repr

inductive Answer where
  | accepted (taken : Bool)
  | address (address? : Option Nat)
  | done
  | capacity (bytes? : Option Nat)
  | contained (inside : Bool)
  | stats (stats : PoolStats)
  | fault (fault : Fault)
deriving DecidableEq, Repr

def Answer.ofResult {α : Type} (answer : α → Answer) : Except Fault α → Answer
  | .ok value => answer value
  | .error stop => .fault stop

def Layout.Outcome.map {α β : Type} (answer : α → β) (outcome : Layout.Outcome α) :
    Layout.Outcome β :=
  ⟨answer outcome.value, outcome.layout, outcome.notes⟩

def perform (pool : Pool) : Operation → Outcome Answer
  | .addArena start stop => (pool.addArena start stop).map (.ofResult .accepted)
  | .allocate bytes => (pool.allocate bytes).map .address
  | .allocateZeroed count size => (pool.allocateZeroed count size).map .address
  | .reallocate address? bytes => (pool.reallocate address? bytes).map (.ofResult .address)
  | .free address => (pool.free address).map fun _ => .done
  | .capacity address => ⟨.ofResult .capacity (pool.capacity address), pool, []⟩
  | .contains address => ⟨.contained (pool.contains address), pool, []⟩
  | .stats => ⟨.ofResult .stats pool.stats, pool, []⟩

/-- The same on a layout. No byte of memory has a part in it. -/
def Layout.perform (layout : Layout) : Operation → Layout.Outcome Answer
  | .addArena start stop => (layout.addArena start stop).map (.ofResult .accepted)
  | .allocate bytes => (layout.allocate bytes).map .address
  | .allocateZeroed count size => (layout.allocateZeroed count size).map .address
  | .reallocate address? bytes => (layout.reallocate address? bytes).map .address
  | .free address => (layout.free address).map fun _ => .done
  | .capacity address => ⟨.capacity (layout.capacity? address), layout, []⟩
  | .contains address => ⟨.contained (layout.contains address), layout, []⟩
  | .stats => ⟨.stats layout.stats, layout, []⟩

inductive Event where
  | call (operation : Operation)
  | write (block offset : Nat) (bytes : Bytes)
deriving DecidableEq, Repr

/-- A pool and what its clients know: which allocations are theirs, what they last put into each
    byte, and which words they made look like the tag of an allocated block. -/
structure Usage where
  pool : Pool
  live : List Nat
  /-- What the holder of a byte last put there; nothing for a byte not yet defined. -/
  content : Nat → Option UInt8
  /-- The words of clients that were made to look like the tag of an allocated block. -/
  forged : Nat → Prop

namespace Usage

def start (memory : Memory) : Usage := ⟨.empty memory, [], fun _ => none, fun _ => False⟩

def define (usage : Usage) (address count : Nat) (value : Nat → Option UInt8) : Usage :=
  { usage with
    content := fun place =>
      if address ≤ place ∧ place < address + count then value (place - address)
      else usage.content place }

def hold (usage : Usage) (address : Nat) : Usage :=
  { usage with live := address :: usage.live }.define address
    ((usage.pool.capacity? address).getD 0) fun _ => none

def drop (usage : Usage) (address : Nat) : Usage :=
  { usage with live := usage.live.erase address }

def write (usage : Usage) (address : Nat) (bytes : Bytes) : Usage :=
  { usage.define address bytes.length fun index => bytes[index]? with
    pool := usage.pool.write address bytes
    forged := fun place => usage.forged place ∨ Forges usage.pool.memory address bytes place }

def move (usage : Usage) (previous address capacity : Nat) (memory : Memory) : Usage :=
  { ((usage.drop previous).hold address).define address capacity
      fun index => some (memory.byte (previous + index)) with
    forged := fun place => usage.forged place ∨
      address ≤ place ∧ place < address + capacity ∧
        usage.forged (previous + (place - address)) }

section Content

variable {usage : Usage} {address count place : Nat} {value : Nat → Option UInt8} {bytes : Bytes}

theorem content_define : (usage.define address count value).content place =
    if address ≤ place ∧ place < address + count then value (place - address)
    else usage.content place := rfl

theorem content_hold {pool : Pool} (capacity : pool.capacity? address = some count) :
    ({ usage with pool }.hold address).content place =
      if address ≤ place ∧ place < address + count then none else usage.content place := by
  rw [hold, content_define]
  simp only [capacity, Option.getD_some]

theorem content_write : (usage.write address bytes).content place =
    if address ≤ place ∧ place < address + bytes.length then bytes[place - address]?
    else usage.content place := rfl

theorem live_write : (usage.write address bytes).live = usage.live := rfl

theorem content_move {pool : Pool} {previous granted : Nat} {memory : Memory}
    (capacity : pool.capacity? address = some granted) :
    ({ usage with pool }.move previous address count memory).content place =
      if address ≤ place ∧ place < address + count then
        some (memory.byte (previous + (place - address)))
      else if address ≤ place ∧ place < address + granted then none
      else usage.content place := by
  simp only [move, hold, drop, define, capacity, Option.getD_some]

end Content

def call (usage : Usage) (operation : Operation) : Usage :=
  let outcome := usage.pool.perform operation
  let next := { usage with pool := outcome.pool }
  match operation, outcome.value with
  | .allocate _, .address (some address) => next.hold address
  | .allocateZeroed count size, .address (some address) =>
    (next.hold address).define address (count * size) fun _ => some 0
  | .reallocate none _, .address (some address) => next.hold address
  | .reallocate (some previous) _, .address (some address) =>
    if address = previous then next
    else
      let capacity := (usage.pool.capacity? previous).getD 0
      next.move previous address capacity usage.pool.memory
  | .free address, _ => next.drop address
  | _, _ => next

def step (usage : Usage) : Event → Usage
  | .call operation => usage.call operation
  | .write block offset bytes => usage.write (block + offset) bytes

def run (usage : Usage) (events : List Event) : Usage := events.foldl step usage

def answers (usage : Usage) : List Event → List (Answer × List Note)
  | [] => []
  | .call operation :: rest =>
    let outcome := usage.pool.perform operation
    (outcome.value, outcome.notes) :: answers (usage.step (.call operation)) rest
  | event :: rest => answers (usage.step event) rest

/-- Regions are memory that was zeroed and that nothing else uses. Clients write only to what
    they hold. -/
def Proper (usage : Usage) : Event → Prop
  | .call (.addArena start stop) =>
    0 < start ∧ stop < UInt64.size ∧ ∀ address, start ≤ address → address < stop →
      usage.pool.contains address = false → usage.pool.memory.byte address = 0
  | .call _ => True
  | .write block offset bytes =>
    block ∈ usage.live ∧ offset + bytes.length ≤ (usage.pool.capacity? block).getD 0

/-- A pointer that passes for an allocation because of a forged tag is not given back. -/
def Guarded (usage : Usage) : Event → Prop
  | .call (.free address) | .call (.reallocate (some address) _) =>
    (usage.pool.liveHeader? address).isSome → usage.forged (address - 8) → address ∈ usage.live
  | _ => True

/-- No word of a client ever equals the tag of an allocated block. -/
def Honest (usage : Usage) : Event → Prop
  | .write block offset bytes => ∀ place, ¬Forges usage.pool.memory (block + offset) bytes place
  | _ => True

def Along (holds : Usage → Event → Prop) (usage : Usage) : List Event → Prop
  | [] => True
  | event :: rest => holds usage event ∧ Along holds (usage.step event) rest

theorem run_append (usage : Usage) (before after : List Event) :
    usage.run (before ++ after) = (usage.run before).run after := List.foldl_append

theorem Along.append {holds : Usage → Event → Prop} {usage : Usage} {before after : List Event} :
    usage.Along holds (before ++ after) ↔
      usage.Along holds before ∧ (usage.run before).Along holds after := by
  induction before generalizing usage with
  | nil => exact (and_iff_right trivial).symm
  | cons event rest ih => exact (and_congr_right fun _ => ih).trans and_assoc.symm

end Usage

def calls (events : List Event) : List Operation :=
  events.filterMap fun
    | .call operation => some operation
    | .write _ _ _ => none

def Layout.step (layout : Layout) : Event → Layout
  | .call operation => (layout.perform operation).layout
  | .write _ _ _ => layout

def Layout.run (layout : Layout) (events : List Event) : Layout := events.foldl step layout

def Layout.answers (layout : Layout) : List Operation → List (Answer × List Note)
  | [] => []
  | operation :: rest =>
    let outcome := layout.perform operation
    (outcome.value, outcome.notes) :: answers outcome.layout rest

end FirmwareLink.Pool

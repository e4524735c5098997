import FirmwareLink.Memory

namespace FirmwareLink.Pool

/-- What stops an operation: a sum or a difference that has no place in 64 bits. -/
inductive Fault where
  | overflow
deriving DecidableEq, Repr

def alignment : Nat := 8

def headerSize : Nat := 24

def alignUp (address : Nat) : Nat := (address + (alignment - 1)) / alignment * alignment

def alignDown (address : Nat) : Nat := address / alignment * alignment

inductive BlockState where
  | free
  | allocated
  | sentinel
deriving DecidableEq, Repr

def BlockState.tag : BlockState → Nat
  | .free => 0x46524545
  | .allocated => 0x414c4c43
  | .sentinel => 0x454e4421

def BlockState.ofTag? (tag : Nat) : Option BlockState :=
  [BlockState.free, .allocated, .sentinel].find? fun state => state.tag = tag

theorem BlockState.ofTag?_tag (state : BlockState) : ofTag? state.tag = some state := by
  cases state <;> decide

structure Block where
  next : Nat
  size : Nat
  tag : Nat
deriving DecidableEq, Repr

def Block.has (block : Block) (state : BlockState) : Bool := block.tag = state.tag

/-- The bytes behind the header. Only what a client made look like a header can be too small. -/
def Block.payload (block : Block) : Except Fault Nat :=
  if headerSize ≤ block.size then .ok (block.size - headerSize) else .error .overflow

theorem Block.payload_eq {block : Block} (room : headerSize ≤ block.size) :
    block.payload = .ok (block.size - headerSize) :=
  if_pos room

end FirmwareLink.Pool

namespace FirmwareLink.Memory

open Pool

def block (memory : Memory) (address : Nat) : Block :=
  ⟨memory.word address, memory.word (address + 8), memory.word (address + 16)⟩

def setNext (memory : Memory) (address next : Nat) : Memory := memory.setWord address next

def setSize (memory : Memory) (address size : Nat) : Memory := memory.setWord (address + 8) size

def setTag (memory : Memory) (address : Nat) (state : BlockState) : Memory :=
  memory.setWord (address + 16) state.tag

def setBlock (memory : Memory) (address next size : Nat) (state : BlockState) : Memory :=
  ((memory.setNext address next).setSize address size).setTag address state

/-- The addresses of a list of blocks, from its first one on. Links lead upwards, so the list
    ends; a link that does not is not followed. -/
def chain (memory : Memory) (address : Nat) : List Nat :=
  if address = 0 then []
  else if address < (memory.block address).next then
    address :: chain memory (memory.block address).next
  else [address]
termination_by UInt64.size - address
decreasing_by
  have bound : (memory.block address).next < UInt64.size := memory.word_lt address
  omega

end FirmwareLink.Memory

import Std.Data.TreeMap.Basic
import FirmwareLink.Bytes

namespace FirmwareLink

namespace Bytes

def littleEndian : Nat → Nat → Bytes
  | 0, _ => []
  | count + 1, number => number.toUInt8 :: littleEndian count (number / 256)

def number : Bytes → Nat
  | [] => 0
  | byte :: rest => byte.toNat + 256 * number rest

theorem length_littleEndian (count value : Nat) : (littleEndian count value).length = count := by
  induction count generalizing value with
  | zero => rfl
  | succ count ih => simp [littleEndian, ih]

theorem shiftLeft_byte (count : Nat) : 1 <<< (8 * (count + 1)) = 256 * 1 <<< (8 * count) := by
  rw [Nat.one_shiftLeft, Nat.one_shiftLeft, Nat.mul_succ, Nat.pow_add, Nat.mul_comm]

theorem number_lt (bytes : Bytes) : bytes.number < 1 <<< (8 * bytes.length) := by
  induction bytes with
  | nil => decide
  | cons byte rest ih =>
    have bound := byte.toNat_lt
    rw [number, List.length_cons, shiftLeft_byte]
    omega

theorem number_littleEndian (count value : Nat) :
    (littleEndian count value).number = value % 1 <<< (8 * count) := by
  induction count generalizing value with
  | zero => simp [littleEndian, number, Nat.mod_one]
  | succ count ih =>
    rw [shiftLeft_byte, Nat.mod_mul]
    simp only [littleEndian, number, ih, Nat.toUInt8, UInt8.toNat_ofNat']

end Bytes

structure Memory where
  cells : Std.TreeMap Nat UInt8

namespace Memory

def zeroed : Memory := ⟨∅⟩

def byte (memory : Memory) (address : Nat) : UInt8 := memory.cells.getD address 0

def setByte (memory : Memory) (address : Nat) (byte : UInt8) : Memory :=
  ⟨memory.cells.insert address byte⟩

def write (memory : Memory) (address : Nat) : Bytes → Memory
  | [] => memory
  | byte :: rest => write (memory.setByte address byte) (address + 1) rest

def read (memory : Memory) (address : Nat) : Nat → Bytes
  | 0 => []
  | count + 1 => memory.byte address :: read memory (address + 1) count

def word (memory : Memory) (address : Nat) : Nat := (memory.read address 8).number

def setWord (memory : Memory) (address value : Nat) : Memory :=
  memory.write address (Bytes.littleEndian 8 value)

theorem length_read (memory : Memory) (address count : Nat) :
    (memory.read address count).length = count := by
  induction count generalizing address with
  | zero => rfl
  | succ count ih => simp [read, ih]

theorem word_lt (memory : Memory) (address : Nat) : memory.word address < UInt64.size := by
  have bound := Bytes.number_lt (memory.read address 8)
  rw [length_read] at bound
  exact bound

end Memory

end FirmwareLink

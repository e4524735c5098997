import Std.Data.TreeMap.Lemmas
import FirmwareLink.Pool.Block

namespace FirmwareLink.Memory

theorem byte_zeroed (address : Nat) : zeroed.byte address = 0 := Std.TreeMap.getD_emptyc

theorem byte_setByte (memory : Memory) (address other : Nat) (byte : UInt8) :
    (memory.setByte address byte).byte other =
      if other = address then byte else memory.byte other := by
  simp only [Memory.byte, setByte, Std.TreeMap.getD_insert, Nat.compare_eq_eq]
  by_cases same : other = address
  · rw [if_pos same, if_pos same.symm]
  · rw [if_neg same, if_neg fun equal => same equal.symm]

theorem byte_write_outside (memory : Memory) (address other : Nat) (bytes : Bytes)
    (outside : other < address ∨ address + bytes.length ≤ other) :
    (memory.write address bytes).byte other = memory.byte other := by
  induction bytes generalizing memory address with
  | nil => rfl
  | cons byte rest ih =>
    simp only [List.length_cons] at outside
    rw [write, ih _ _ (by omega), byte_setByte, if_neg (by omega)]

theorem byte_write_inside (memory : Memory) (address index : Nat) (bytes : Bytes)
    (inside : index < bytes.length) :
    (memory.write address bytes).byte (address + index) = bytes[index] := by
  induction bytes generalizing memory address index with
  | nil => simp at inside
  | cons byte rest ih =>
    rw [write]
    cases index with
    | zero =>
      rw [byte_write_outside _ _ _ _ (by omega), byte_setByte, if_pos (Nat.add_zero address)]
      rfl
    | succ index =>
      have moved := ih (memory.setByte address byte) (address + 1) index (by simpa using inside)
      rw [show address + (index + 1) = address + 1 + index by omega, moved]
      rfl

theorem read_congr {memory other : Memory} {address count : Nat}
    (same : ∀ index < count, other.byte (address + index) = memory.byte (address + index)) :
    other.read address count = memory.read address count := by
  induction count generalizing address with
  | zero => rfl
  | succ count ih =>
    simp only [read]
    have first := same 0 (by omega)
    have rest : other.read (address + 1) count = memory.read (address + 1) count := by
      apply ih
      intro index bound
      have later := same (index + 1) (by omega)
      rwa [show address + (index + 1) = address + 1 + index by omega] at later
    rw [rest]
    simpa using first

theorem getElem_read (memory : Memory) (address count index : Nat)
    (bound : index < (memory.read address count).length) :
    (memory.read address count)[index] = memory.byte (address + index) := by
  induction count generalizing address index with
  | zero => simp [read] at bound
  | succ count ih =>
    cases index with
    | zero => rfl
    | succ index =>
      simp only [read, List.getElem_cons_succ, ih]
      rw [show address + (index + 1) = address + 1 + index by omega]

theorem read_write (memory : Memory) (address : Nat) (bytes : Bytes) :
    (memory.write address bytes).read address bytes.length = bytes := by
  apply List.ext_getElem (length_read _ _ _)
  intro index _ bound
  rw [getElem_read, byte_write_inside _ _ _ _ bound]

theorem word_write (memory : Memory) (address index : Nat) (bytes : Bytes)
    (inside : index + 8 ≤ bytes.length) :
    (memory.write address bytes).word (address + index) =
      Bytes.number ((bytes.drop index).take 8) := by
  rw [word]
  congr 1
  apply List.ext_getElem
  · rw [length_read, List.length_take, List.length_drop]
    omega
  · intro offset bound _
    rw [length_read] at bound
    rw [getElem_read, Nat.add_assoc, byte_write_inside _ _ _ _ (by omega), List.getElem_take,
      List.getElem_drop]

theorem word_congr {memory other : Memory} {address : Nat}
    (same : ∀ index < 8, other.byte (address + index) = memory.byte (address + index)) :
    other.word address = memory.word address := by
  rw [word, word, read_congr same]

theorem byte_setWord_outside (memory : Memory) (address other value : Nat)
    (outside : other < address ∨ address + 8 ≤ other) :
    (memory.setWord address value).byte other = memory.byte other := by
  apply byte_write_outside
  rwa [Bytes.length_littleEndian]

@[simp]
theorem word_setWord_same (memory : Memory) (address : Nat) {value : Nat}
    (bound : value < UInt64.size) : (memory.setWord address value).word address = value := by
  have content := read_write memory address (Bytes.littleEndian 8 value)
  rw [Bytes.length_littleEndian] at content
  rw [word, setWord, content, Bytes.number_littleEndian]
  exact Nat.mod_eq_of_lt bound

theorem word_setWord_apart (memory : Memory) (address other value : Nat)
    (apart : other + 8 ≤ address ∨ address + 8 ≤ other) :
    (memory.setWord address value).word other = memory.word other := by
  apply word_congr
  intro index bound
  exact byte_setWord_outside _ _ _ _ (by omega)

theorem word_mod_256 (memory : Memory) (address : Nat) :
    memory.word address % 256 = (memory.byte address).toNat := by
  have bound := (memory.byte address).toNat_lt
  simp only [word, read, Bytes.number]
  omega

theorem word_eq_zero {memory : Memory} {address : Nat}
    (zero : ∀ index < 8, memory.byte (address + index) = 0) : memory.word address = 0 := by
  have content : memory.read address 8 = List.replicate 8 0 := by
    apply List.ext_getElem (by simp [length_read])
    intro index bound _
    rw [getElem_read, List.getElem_replicate, zero index (by simpa [length_read] using bound)]
  rw [word, content]
  rfl

end FirmwareLink.Memory

import FirmwareLink.Checksum

namespace FirmwareLink

def wordBits {width : Nat} (word : BitVec width) : List Bool :=
  (List.range width).map word.getMsbD

def Bytes.bits (bytes : Bytes) : List Bool := bytes.flatMap fun byte => wordBits byte.toBitVec

theorem length_wordBits {width : Nat} (word : BitVec width) : (wordBits word).length = width := by
  rw [wordBits, List.length_map, List.length_range]

theorem length_wordBits_eq {width : Nat} (one other : BitVec width) :
    (wordBits one).length = (wordBits other).length := by
  rw [length_wordBits, length_wordBits]

theorem wordBits_xor {width : Nat} (one other : BitVec width) :
    wordBits (one ^^^ other) = List.zipWith (· ^^ ·) (wordBits one) (wordBits other) := by
  rw [wordBits, wordBits, wordBits, List.zipWith_map, List.zipWith_self]
  exact List.map_congr_left fun place _ => BitVec.getMsbD_xor

namespace Bytes

theorem bits_cons (byte : UInt8) (rest : Bytes) :
    bits (byte :: rest) = wordBits byte.toBitVec ++ bits rest := List.flatMap_cons

theorem length_bits (bytes : Bytes) : bytes.bits.length = 8 * bytes.length := by
  induction bytes with
  | nil => rfl
  | cons byte rest ih =>
    rw [bits_cons, List.length_append, length_wordBits, ih, List.length_cons]
    omega

end Bytes

namespace Checksum

/-- The generator without its leading term. -/
def feedback : UInt16 := 0x1021

/-- Shifts left by one place. The feedback comes in if the bit shifted out and the bit of the
    message differ. -/
def takeBit (crc : UInt16) (bit : Bool) : UInt16 :=
  if crc.toBitVec.msb ^^ bit then (crc <<< 1) ^^^ feedback else crc <<< 1

def takeBits (crc : UInt16) (bits : List Bool) : UInt16 := bits.foldl takeBit crc

/-! ### Linearity -/

theorem xor_interchange (first second third fourth : UInt16) :
    first ^^^ second ^^^ (third ^^^ fourth) = first ^^^ third ^^^ (second ^^^ fourth) := by
  rw [UInt16.xor_assoc, ← UInt16.xor_assoc second, UInt16.xor_comm second third,
    UInt16.xor_assoc third, ← UInt16.xor_assoc]

theorem takeBit_xor (crc other : UInt16) (bit flip : Bool) :
    takeBit (crc ^^^ other) (bit ^^ flip) = takeBit crc bit ^^^ takeBit other flip := by
  have differs : ((crc ^^^ other).toBitVec.msb ^^ (bit ^^ flip)) =
      ((crc.toBitVec.msb ^^ bit) ^^ (other.toBitVec.msb ^^ flip)) := by
    rw [UInt16.toBitVec_xor, BitVec.msb_xor]
    cases crc.toBitVec.msb <;> cases bit <;> simp
  rw [takeBit, takeBit, takeBit, differs, UInt16.shiftLeft_xor]
  cases crc.toBitVec.msb ^^ bit with
  | false =>
    cases other.toBitVec.msb ^^ flip with
    | false => rfl
    | true => exact UInt16.xor_assoc _ _ _
  | true =>
    cases other.toBitVec.msb ^^ flip with
    | false =>
      simp only [Bool.xor_false, if_true, Bool.false_eq_true, if_false]
      rw [UInt16.xor_assoc, UInt16.xor_comm (other <<< 1), UInt16.xor_assoc]
    | true =>
      -- The feedback comes in twice, which is not at all.
      simp only [Bool.xor_self, if_true, Bool.false_eq_true, if_false]
      rw [xor_interchange, UInt16.xor_self, UInt16.xor_zero]

theorem takeBits_xor {bits flips : List Bool} (same : bits.length = flips.length)
    (crc other : UInt16) :
    takeBits (crc ^^^ other) (List.zipWith (· ^^ ·) bits flips) =
      takeBits crc bits ^^^ takeBits other flips := by
  induction bits generalizing flips crc other with
  | nil =>
    cases flips with
    | nil => rfl
    | cons flip later => cases same
  | cons bit rest ih =>
    cases flips with
    | nil => cases same
    | cons flip later =>
      have goesOn := ih (Nat.succ.inj same) (takeBit crc bit) (takeBit other flip)
      rw [← takeBit_xor] at goesOn
      exact goesOn

theorem update_xor (crc other : UInt16) (byte flip : UInt8) :
    update (crc ^^^ other) (byte ^^^ flip) = update crc byte ^^^ update other flip := by
  have spread : ∀ upper lower mixed twisted : UInt16,
      upper ^^^ lower ^^^ (mixed ^^^ twisted) <<< 12 ^^^ (mixed ^^^ twisted) <<< 5 ^^^
          (mixed ^^^ twisted) =
        upper ^^^ mixed <<< 12 ^^^ mixed <<< 5 ^^^ mixed ^^^
          (lower ^^^ twisted <<< 12 ^^^ twisted <<< 5 ^^^ twisted) := by
    intro upper lower mixed twisted
    rw [UInt16.shiftLeft_xor, UInt16.shiftLeft_xor, xor_interchange upper,
      xor_interchange (upper ^^^ mixed <<< 12), xor_interchange (upper ^^^ mixed <<< 12 ^^^ _)]
  simp only [update, UInt8.toUInt16_xor, UInt16.shiftRight_xor]
  rw [xor_interchange (crc >>> 8), xor_interchange (crc >>> 8 >>> 4),
    xor_interchange (crc >>> 8 ^^^ byte.toUInt16), UInt16.shiftLeft_xor (c := 8)]
  exact spread _ _ _ _

/-! ### A byte at once -/

theorem halves (word : BitVec 16) :
    word = (word.setWidth 8).setWidth 16 ^^^ ((word >>> 8).setWidth 8).setWidth 16 <<< 8 := by
  apply BitVec.eq_of_getLsbD_eq
  intro place bound
  simp only [BitVec.getLsbD_xor, BitVec.getLsbD_setWidth, BitVec.getLsbD_shiftLeft,
    BitVec.getLsbD_ushiftRight, bound]
  by_cases low : place < 8
  · simp [low]
  · have upper : 8 + (place - 8) = place := by omega
    have near : place - 8 < 8 := by omega
    have inside : place - 8 < 16 := by omega
    simp [low, upper, near, inside]

theorem register_halves (crc : UInt16) :
    crc = crc.toUInt8.toUInt16 ^^^ ((crc >>> 8).toUInt8.toUInt16 <<< 8) :=
  UInt16.toBitVec_inj.mp (halves crc.toBitVec)

theorem update_register (crc : UInt16) :
    update crc 0 = takeBits crc (wordBits (0 : BitVec 8)) := by
  have low : ∀ number : Fin 256, update (UInt8.ofFin number).toUInt16 0 =
      takeBits (UInt8.ofFin number).toUInt16 (wordBits (0 : BitVec 8)) := by decide +kernel
  have high : ∀ number : Fin 256, update ((UInt8.ofFin number).toUInt16 <<< 8) 0 =
      takeBits ((UInt8.ofFin number).toUInt16 <<< 8) (wordBits (0 : BitVec 8)) := by decide +kernel
  have lower : update crc.toUInt8.toUInt16 0 =
      takeBits crc.toUInt8.toUInt16 (wordBits (0 : BitVec 8)) := low crc.toUInt8.toFin
  have upper : update ((crc >>> 8).toUInt8.toUInt16 <<< 8) 0 =
      takeBits ((crc >>> 8).toUInt8.toUInt16 <<< 8) (wordBits (0 : BitVec 8)) :=
    high (crc >>> 8).toUInt8.toFin
  have zero : (0 : UInt8) = 0 ^^^ 0 := rfl
  have zeros : wordBits (0 : BitVec 8) =
      List.zipWith (· ^^ ·) (wordBits (0 : BitVec 8)) (wordBits (0 : BitVec 8)) := rfl
  rw [register_halves crc, zero, update_xor, zeros, takeBits_xor (length_wordBits_eq _ _), lower,
    upper]

theorem update_message (byte : UInt8) : update 0 byte = takeBits 0 (wordBits byte.toBitVec) := by
  have message : ∀ number : Fin 256, update 0 (UInt8.ofFin number) =
      takeBits 0 (wordBits (UInt8.ofFin number).toBitVec) := by decide +kernel
  exact message byte.toFin

/-- Taking a byte at once is taking its bits one by one. -/
theorem update_eq_takeBits (crc : UInt16) (byte : UInt8) :
    update crc byte = takeBits crc (wordBits byte.toBitVec) := by
  have parts : wordBits byte.toBitVec =
      List.zipWith (· ^^ ·) (wordBits (0 : BitVec 8)) (wordBits byte.toBitVec) := by
    rw [← wordBits_xor]
    exact congrArg wordBits BitVec.zero_xor.symm
  calc
    update crc byte = update (crc ^^^ 0) (0 ^^^ byte) := by rw [UInt16.xor_zero, UInt8.zero_xor]
    _ = update crc 0 ^^^ update 0 byte := update_xor crc 0 0 byte
    _ = takeBits crc (wordBits (0 : BitVec 8)) ^^^ takeBits 0 (wordBits byte.toBitVec) := by
      rw [update_register, update_message]
    _ = takeBits (crc ^^^ 0) (wordBits byte.toBitVec) := by
      rw [← takeBits_xor (length_wordBits_eq _ _), ← parts]
    _ = takeBits crc (wordBits byte.toBitVec) := by rw [UInt16.xor_zero]

theorem foldl_update (bytes : Bytes) (crc : UInt16) :
    bytes.foldl update crc = takeBits crc bytes.bits := by
  induction bytes generalizing crc with
  | nil => rfl
  | cons byte rest ih =>
    rw [List.foldl_cons, ih, update_eq_takeBits, Bytes.bits_cons]
    exact List.foldl_append.symm

end Checksum

end FirmwareLink

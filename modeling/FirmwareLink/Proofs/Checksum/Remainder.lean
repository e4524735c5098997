import Mathlib.Algebra.CharP.Two
import Mathlib.Algebra.Field.ZMod
import Mathlib.RingTheory.AdjoinRoot
import Mathlib.Tactic.ComputeDegree
import FirmwareLink.Proofs.Checksum.Serial

namespace FirmwareLink.Checksum

open Polynomial

noncomputable def coefficient (bit : Bool) : (ZMod 2)[X] := if bit then 1 else 0

/-- The polynomial of a string of bits, whose first bit stands at the highest power. -/
noncomputable def polynomial : List Bool → (ZMod 2)[X]
  | [] => 0
  | bit :: rest => coefficient bit * X ^ rest.length + polynomial rest

noncomputable def registerPolynomial (crc : UInt16) : (ZMod 2)[X] :=
  polynomial (wordBits crc.toBitVec)

noncomputable def generator : (ZMod 2)[X] := X ^ 16 + X ^ 12 + X ^ 5 + 1

noncomputable abbrev root : AdjoinRoot generator := AdjoinRoot.root generator

noncomputable abbrev residue (crc : UInt16) : AdjoinRoot generator :=
  AdjoinRoot.mk generator (registerPolynomial crc)

theorem coefficient_xor (bit flip : Bool) :
    coefficient (bit ^^ flip) = coefficient bit + coefficient flip := by
  cases bit with
  | false => simp [coefficient]
  | true =>
    cases flip with
    | false => simp [coefficient]
    | true => exact (CharTwo.add_self_eq_zero 1).symm

theorem polynomial_append (bits more : List Bool) :
    polynomial (bits ++ more) = polynomial bits * X ^ more.length + polynomial more := by
  induction bits with
  | nil => simp [polynomial]
  | cons bit rest ih =>
    rw [List.cons_append, polynomial, ih, polynomial, List.length_append, pow_add]
    ring

theorem polynomial_xor {bits flips : List Bool} (same : bits.length = flips.length) :
    polynomial (List.zipWith (· ^^ ·) bits flips) = polynomial bits + polynomial flips := by
  induction bits generalizing flips with
  | nil =>
    cases flips with
    | nil => exact (add_zero 0).symm
    | cons flip later => cases same
  | cons bit rest ih =>
    cases flips with
    | nil => cases same
    | cons flip later =>
      have lengths : rest.length = later.length := Nat.succ.inj same
      rw [List.zipWith_cons_cons, polynomial, polynomial, polynomial, ih lengths, coefficient_xor,
        List.length_zipWith, ← lengths, Nat.min_self]
      ring

theorem degree_polynomial_lt (bits : List Bool) : (polynomial bits).degree < bits.length := by
  induction bits with
  | nil => exact WithBot.bot_lt_coe 0
  | cons bit rest ih =>
    have longer : (rest.length : WithBot ℕ) < (bit :: rest).length :=
      WithBot.coe_lt_coe.mpr (Nat.lt_succ_self _)
    have leading : (coefficient bit * X ^ rest.length).degree ≤ (rest.length : WithBot ℕ) := by
      cases bit with
      | false => simp [coefficient]
      | true => simp [coefficient]
    exact (degree_add_le _ _).trans_lt (max_lt (leading.trans_lt longer) (ih.trans longer))

theorem registerPolynomial_xor (crc other : UInt16) :
    registerPolynomial (crc ^^^ other) = registerPolynomial crc + registerPolynomial other := by
  rw [registerPolynomial, UInt16.toBitVec_xor, wordBits_xor]
  exact polynomial_xor (length_wordBits_eq _ _)

theorem registerPolynomial_feedback : registerPolynomial feedback = X ^ 12 + X ^ 5 + 1 := by
  have bits : wordBits feedback.toBitVec = [false, false, false, true, false, false, false, false,
      false, false, true, false, false, false, false, true] := by decide
  rw [registerPolynomial, bits]
  simp [polynomial, coefficient, add_assoc]

theorem registerPolynomial_zero : registerPolynomial 0 = 0 := by
  have bits : wordBits (0 : UInt16).toBitVec = List.replicate 16 false := by decide
  rw [registerPolynomial, bits]
  simp [polynomial, coefficient, List.replicate]

theorem residue_zero : residue 0 = 0 := by rw [residue, registerPolynomial_zero, map_zero]

theorem degree_registerPolynomial_lt (crc : UInt16) : (registerPolynomial crc).degree < 16 := by
  have bound := degree_polynomial_lt (wordBits crc.toBitVec)
  rwa [length_wordBits] at bound

/-! ### The generator -/

theorem degree_generator : generator.degree = 16 := by
  rw [generator]
  compute_degree!

theorem monic_generator : generator.Monic := by
  rw [generator]
  monicity!

theorem generator_eq : generator = X ^ 16 + registerPolynomial feedback := by
  rw [registerPolynomial_feedback, generator]
  ring

/-! ### One bit -/

theorem wordBits_shift (crc : UInt16) : ∃ later, later.length = 15 ∧
    wordBits crc.toBitVec = crc.toBitVec.msb :: later ∧
      wordBits (crc <<< 1).toBitVec = later ++ [false] := by
  refine ⟨(List.range 15).map fun place => crc.toBitVec.getMsbD (place + 1), ?_, ?_, ?_⟩
  · rw [List.length_map, List.length_range]
  · rw [wordBits, List.range_succ_eq_map, List.map_cons, List.map_map, BitVec.msb_eq_getMsbD_zero]
    rfl
  · have moved : (crc <<< 1).toBitVec = crc.toBitVec <<< 1 := rfl
    have bit : ∀ place, (crc.toBitVec <<< 1).getMsbD place = crc.toBitVec.getMsbD (place + 1) :=
      fun place => BitVec.getMsbD_shiftLeft _ _
    have last : crc.toBitVec.getMsbD (15 + 1) = false := BitVec.getMsbD_of_ge _ _ (Nat.le_refl 16)
    rw [moved, wordBits, List.range_succ, List.map_append, List.map_singleton, bit, last]
    exact congrArg (· ++ [false]) (List.map_congr_left fun place _ => bit place)

/-- A shift multiplies by the variable and loses the leading bit. -/
theorem registerPolynomial_shift (crc : UInt16) :
    registerPolynomial (crc <<< 1) + coefficient crc.toBitVec.msb * X ^ 16 =
      registerPolynomial crc * X := by
  obtain ⟨later, length, before, after⟩ := wordBits_shift crc
  have unset : polynomial [false] = 0 := by simp [polynomial, coefficient]
  rw [registerPolynomial, registerPolynomial, before, after, polynomial_append, unset, polynomial,
    length, List.length_singleton]
  ring

theorem registerPolynomial_takeBit (crc : UInt16) (bit : Bool) :
    registerPolynomial (takeBit crc bit) + coefficient (crc.toBitVec.msb ^^ bit) * generator =
      registerPolynomial crc * X + coefficient bit * X ^ 16 := by
  have shifted : registerPolynomial crc * X + coefficient bit * X ^ 16 =
      registerPolynomial (crc <<< 1) + coefficient (crc.toBitVec.msb ^^ bit) * X ^ 16 := by
    rw [← registerPolynomial_shift, coefficient_xor]
    ring
  rw [shifted, takeBit]
  cases crc.toBitVec.msb ^^ bit with
  | false => simp [coefficient]
  | true =>
    have twice := CharTwo.add_self_eq_zero (registerPolynomial feedback)
    have once : coefficient true = 1 := rfl
    rw [if_pos rfl, registerPolynomial_xor, generator_eq, once, one_mul, one_mul]
    linear_combination twice

theorem residue_takeBit (crc : UInt16) (bit : Bool) :
    residue (takeBit crc bit) =
      residue crc * root + AdjoinRoot.mk generator (coefficient bit) * root ^ 16 := by
  have taken := congrArg (AdjoinRoot.mk generator) (registerPolynomial_takeBit crc bit)
  rw [map_add, map_add, map_mul, map_mul, map_mul, AdjoinRoot.mk_self, mul_zero, add_zero, map_pow,
    AdjoinRoot.mk_X] at taken
  exact taken

/-! ### Any number of bits -/

/-- A register is congruent to what it held at first, moved up behind the message, and the
    message moved up by sixteen places. -/
theorem residue_takeBits (bits : List Bool) (crc : UInt16) :
    residue (takeBits crc bits) =
      residue crc * root ^ bits.length + AdjoinRoot.mk generator (polynomial bits) * root ^ 16 := by
  induction bits generalizing crc with
  | nil => simp [takeBits, polynomial]
  | cons bit rest ih =>
    have goesOn := ih (takeBit crc bit)
    rw [residue_takeBit] at goesOn
    rw [polynomial, map_add, map_mul, map_pow, AdjoinRoot.mk_X, List.length_cons]
    exact goesOn.trans (by ring)

theorem registerPolynomial_takeBits (bits : List Bool) (crc : UInt16) :
    registerPolynomial (takeBits crc bits) =
      (registerPolynomial crc * X ^ bits.length + polynomial bits * X ^ 16) %ₘ generator := by
  have small : (registerPolynomial (takeBits crc bits)).degree < generator.degree := by
    rw [degree_generator]
    exact degree_registerPolynomial_lt _
  have congruent : generator ∣ registerPolynomial (takeBits crc bits) -
      (registerPolynomial crc * X ^ bits.length + polynomial bits * X ^ 16) := by
    rw [← AdjoinRoot.mk_eq_mk, map_add, map_mul, map_mul, map_pow, map_pow, AdjoinRoot.mk_X]
    exact residue_takeBits bits crc
  rw [← modByMonic_eq_of_dvd_sub monic_generator congruent]
  exact ((modByMonic_eq_self_iff monic_generator).mpr small).symm

/-- To take bytes at once is to take them bit by bit, and what is left is the remainder of division
    by the generator. -/
theorem crc16_remainder :
    (∀ (crc : UInt16) (bytes : Bytes), bytes.foldl update crc = takeBits crc bytes.bits) ∧
      (∀ (crc : UInt16) (bytes : Bytes), registerPolynomial (bytes.foldl update crc) =
        (registerPolynomial crc * X ^ (8 * bytes.length) + polynomial bytes.bits * X ^ 16) %ₘ
          generator) ∧
      ∀ bytes : Bytes, registerPolynomial (crc16 bytes) =
        (polynomial bytes.bits * X ^ 16) %ₘ generator := by
  have remainder : ∀ (crc : UInt16) (bytes : Bytes), registerPolynomial (bytes.foldl update crc) =
      (registerPolynomial crc * X ^ (8 * bytes.length) + polynomial bytes.bits * X ^ 16) %ₘ
        generator := by
    intro crc bytes
    rw [foldl_update, registerPolynomial_takeBits, Bytes.length_bits]
  refine ⟨fun crc bytes => foldl_update bytes crc, remainder, fun bytes => ?_⟩
  have unset := remainder preset bytes
  rw [preset, registerPolynomial_zero, zero_mul, zero_add] at unset
  exact unset

end FirmwareLink.Checksum

import Mathlib.Algebra.Order.BigOperators.Group.Finset
import Mathlib.Data.Finset.Max
import Mathlib.GroupTheory.OrderOfElement
import Mathlib.Tactic.NormNum.Prime
import FirmwareLink.Proofs.Checksum.Remainder

namespace FirmwareLink

def flips (bits other : List Bool) : Finset ℕ :=
  (Finset.range bits.length).filter fun place => bits[place]? ≠ other[place]?

/-- The errors between two messages of one length that a checksum is there to detect: all of them
    within sixteen bits in a row, an odd number of them, or two of them less than 32767 bits
    apart. Bits are counted from the front, each byte from its most significant bit. -/
inductive Detectable (sent received : Bytes) : Prop
  | burst (start : ℕ) (differ : sent ≠ received)
      (within : ∀ place ∈ flips sent.bits received.bits, start ≤ place ∧ place < start + 16)
  | odd (odd : Odd (flips sent.bits received.bits).card)
  | double (first second : ℕ) (order : first < second) (near : second - first < 32767)
      (both : flips sent.bits received.bits = {first, second})

theorem lt_of_mem_flips {bits other : List Bool} {place : ℕ} (among : place ∈ flips bits other) :
    place < bits.length := Finset.mem_range.mp (Finset.mem_filter.mp among).1

theorem eq_of_flips_eq_empty {bits other : List Bool} (same : bits.length = other.length)
    (none : flips bits other = ∅) : bits = other := by
  apply List.ext_getElem?
  intro place
  by_cases inside : place < bits.length
  · by_contra differ
    have member : place ∈ flips bits other :=
      Finset.mem_filter.mpr ⟨Finset.mem_range.mpr inside, differ⟩
    rw [none] at member
    exact Finset.notMem_empty place member
  · rw [List.getElem?_eq_none (by omega), List.getElem?_eq_none (by omega)]

theorem wordBits_injective {width : ℕ} {word other : BitVec width}
    (same : wordBits word = wordBits other) : word = other := by
  apply BitVec.eq_of_getMsbD_eq
  intro place inside
  exact List.map_inj_left.mp same place (List.mem_range.mpr inside)

theorem Bytes.length_bits_congr {sent received : Bytes} (same : sent.length = received.length) :
    sent.bits.length = received.bits.length := by
  rw [length_bits, length_bits, same]

theorem Bytes.bits_injective {sent received : Bytes} (same : sent.bits = received.bits) :
    sent = received := by
  induction sent generalizing received with
  | nil =>
    have lengths := congrArg List.length same
    rw [Bytes.length_bits, Bytes.length_bits, List.length_nil] at lengths
    exact (List.length_eq_zero_iff.mp (by omega)).symm
  | cons byte rest ih =>
    cases received with
    | nil =>
      have lengths := congrArg List.length same
      rw [Bytes.length_bits, Bytes.length_bits, List.length_nil, List.length_cons] at lengths
      omega
    | cons other later =>
      rw [Bytes.bits_cons, Bytes.bits_cons] at same
      obtain ⟨first, others⟩ := List.append_inj same (length_wordBits_eq _ _)
      rw [UInt8.toBitVec_inj.mp (wordBits_injective first), ih others]

namespace Checksum

open Polynomial

/-! ### The error polynomial -/

noncomputable def errorPolynomial (length : ℕ) (places : Finset ℕ) : (ZMod 2)[X] :=
  ∑ place ∈ places, X ^ (length - 1 - place)

theorem polynomial_eq_sum (bits : List Bool) :
    polynomial bits = ∑ place ∈ Finset.range bits.length,
      coefficient (bits.getD place false) * X ^ (bits.length - 1 - place) := by
  induction bits with
  | nil => rfl
  | cons bit rest ih =>
    rw [polynomial, ih, List.length_cons, Finset.sum_range_succ', add_comm]
    refine congrArg₂ (· + ·) (Finset.sum_congr rfl fun place inside => ?_) rfl
    have exponent : rest.length - 1 - place = rest.length + 1 - 1 - (place + 1) := by omega
    rw [exponent]
    rfl

theorem polynomial_add {bits other : List Bool} (same : bits.length = other.length) :
    polynomial bits + polynomial other = errorPolynomial bits.length (flips bits other) := by
  rw [polynomial_eq_sum, polynomial_eq_sum, ← same, ← Finset.sum_add_distrib, errorPolynomial,
    flips, Finset.sum_filter]
  apply Finset.sum_congr rfl
  intro place inside
  have here := Finset.mem_range.mp inside
  have there : place < other.length := same ▸ here
  rw [← add_mul, ← coefficient_xor, List.getD_eq_getElem?_getD, List.getD_eq_getElem?_getD,
    List.getElem?_eq_getElem here, List.getElem?_eq_getElem there]
  cases bits[place] <;> cases other[place] <;> simp [coefficient]

theorem root_relation : root ^ 16 + root ^ 12 + root ^ 5 + 1 = 0 := by
  have vanishes : AdjoinRoot.mk generator (X ^ 16 + X ^ 12 + X ^ 5 + 1) = 0 := AdjoinRoot.mk_self
  simpa only [map_add, map_pow, map_one, AdjoinRoot.mk_X] using vanishes

theorem isUnit_root : IsUnit root := by
  have inverse : root * -(root ^ 15 + root ^ 11 + root ^ 4) = 1 := by
    linear_combination -root_relation
  exact IsUnit.of_mul_eq_one _ inverse

theorem generator_dvd_of_mul_X_pow {error : (ZMod 2)[X]} {count : ℕ}
    (divides : generator ∣ error * X ^ count) : generator ∣ error := by
  rw [← AdjoinRoot.mk_eq_zero] at divides ⊢
  rw [map_mul, map_pow, AdjoinRoot.mk_X] at divides
  exact (isUnit_root.pow count).mul_left_eq_zero.mp divides

/-- Two messages of one length with the same checksum differ by a multiple of the generator. -/
theorem generator_dvd_error {sent received : Bytes} (same : sent.length = received.length)
    (equal : crc16 sent = crc16 received) :
    generator ∣ errorPolynomial sent.bits.length (flips sent.bits received.bits) := by
  have lengths := Bytes.length_bits_congr same
  have moved : ∀ bytes : Bytes, residue (crc16 bytes) =
      AdjoinRoot.mk generator (polynomial bytes.bits) * root ^ 16 := by
    intro bytes
    rw [crc16, preset, foldl_update, residue_takeBits, residue_zero, zero_mul, zero_add]
  have congruent := moved sent
  rw [equal, moved received] at congruent
  refine generator_dvd_of_mul_X_pow (?_ : generator ∣ _ * X ^ 16)
  rw [← polynomial_add lengths, ← CharTwo.sub_eq_add, ← AdjoinRoot.mk_eq_zero, map_mul, map_sub,
    map_pow, AdjoinRoot.mk_X, sub_mul, congruent, sub_self]

/-! ### Bursts and odd numbers of errors -/

theorem generator_dvd_upTo {places : Finset ℕ} {length last : ℕ} (inside : last < length)
    (latest : ∀ place ∈ places, place ≤ last) (divides : generator ∣ errorPolynomial length places) :
    generator ∣ errorPolynomial (last + 1) places := by
  have moved : errorPolynomial length places =
      errorPolynomial (last + 1) places * X ^ (length - 1 - last) := by
    rw [errorPolynomial, errorPolynomial, Finset.sum_mul]
    apply Finset.sum_congr rfl
    intro place among
    have order := latest place among
    have exponent : length - 1 - place = last + 1 - 1 - place + (length - 1 - last) := by omega
    rw [exponent, pow_add]
  rw [moved] at divides
  exact generator_dvd_of_mul_X_pow divides

theorem degree_errorPolynomial_lt {places : Finset ℕ} {length bound : ℕ}
    (within : ∀ place ∈ places, length - 1 - place < bound) :
    (errorPolynomial length places).degree < bound := by
  refine (degree_sum_le _ _).trans_lt ((Finset.sup_lt_iff (WithBot.bot_lt_coe bound)).mpr ?_)
  intro place among
  rw [degree_X_pow]
  exact WithBot.coe_lt_coe.mpr (within place among)

theorem coeff_errorPolynomial_zero {places : Finset ℕ} {last : ℕ} (member : last ∈ places)
    (latest : ∀ place ∈ places, place ≤ last) :
    (errorPolynomial (last + 1) places).coeff 0 = 1 := by
  rw [errorPolynomial, finsetSum_coeff, Finset.sum_eq_single_of_mem last member]
  · simp
  · intro place among other
    have before : last + 1 - 1 - place ≠ 0 := by
      have order := latest place among
      omega
    rw [coeff_X_pow, if_neg before.symm]

/-- Errors within sixteen bits in a row are no multiple of the generator, unless there is none. -/
theorem burst_empty {places : Finset ℕ} {length start : ℕ}
    (inside : ∀ place ∈ places, place < length)
    (within : ∀ place ∈ places, start ≤ place ∧ place < start + 16)
    (divides : generator ∣ errorPolynomial length places) : places = ∅ := by
  by_contra some_error
  have nonempty := Finset.nonempty_iff_ne_empty.mpr some_error
  let last := places.max' nonempty
  have member : last ∈ places := places.max'_mem nonempty
  have latest : ∀ place ∈ places, place ≤ last := fun place => places.le_max' place
  have near : ∀ place ∈ places, last + 1 - 1 - place < 16 := by
    intro place among
    have first := (within place among).1
    have bound := (within last member).2
    omega
  have small : (errorPolynomial (last + 1) places).degree < generator.degree := by
    rw [degree_generator]
    exact degree_errorPolynomial_lt near
  have zero := eq_zero_of_dvd_of_degree_lt
    (generator_dvd_upTo (inside last member) latest divides) small
  have constant := coeff_errorPolynomial_zero member latest
  rw [zero, coeff_zero] at constant
  exact absurd constant (by decide)

theorem even_card_of_dvd {places : Finset ℕ} {length : ℕ}
    (divides : generator ∣ errorPolynomial length places) : Even places.card := by
  have root_one : generator.eval 1 = 0 := by
    simp only [generator, eval_add, eval_pow, eval_X, eval_one, one_pow]
    decide
  have value := eval_dvd (x := 1) divides
  rw [root_one, zero_dvd_iff, errorPolynomial, eval_finsetSum] at value
  simp only [eval_pow, eval_X, one_pow, Finset.sum_const, nsmul_eq_mul, mul_one] at value
  exact (ZMod.natCast_eq_zero_iff_even).mp value

/-! ### The order of the root -/

theorem residue_injective {crc other : UInt16} (same : residue crc = residue other) :
    crc = other := by
  have lengths := length_wordBits_eq crc.toBitVec other.toBitVec
  have divides : generator ∣ errorPolynomial (wordBits crc.toBitVec).length
      (flips (wordBits crc.toBitVec) (wordBits other.toBitVec)) := by
    rw [← polynomial_add lengths, ← CharTwo.sub_eq_add]
    exact AdjoinRoot.mk_eq_mk.mp same
  have within : ∀ place ∈ flips (wordBits crc.toBitVec) (wordBits other.toBitVec),
      0 ≤ place ∧ place < 0 + 16 := by
    intro place among
    have bound := lt_of_mem_flips among
    rw [length_wordBits] at bound
    exact ⟨Nat.zero_le place, by omega⟩
  have none := burst_empty (fun place => lt_of_mem_flips) within divides
  exact UInt16.toBitVec_inj.mp (wordBits_injective (eq_of_flips_eq_empty lengths none))

def times (crc other : UInt16) : UInt16 :=
  (wordBits other.toBitVec).foldl
    (fun sum bit => if bit then takeBit sum false ^^^ crc else takeBit sum false) 0

def power (crc : UInt16) : ℕ → UInt16
  | 0 => 1
  | count + 1 => times (power crc count) crc

theorem residue_times (crc other : UInt16) :
    residue (times crc other) = residue crc * residue other := by
  have onward : ∀ (bits : List Bool) (sum : UInt16),
      residue (bits.foldl
          (fun sum bit => if bit then takeBit sum false ^^^ crc else takeBit sum false) sum) =
        residue sum * root ^ bits.length +
          residue crc * AdjoinRoot.mk generator (polynomial bits) := by
    intro bits
    induction bits with
    | nil => simp [polynomial]
    | cons bit rest ih =>
      intro sum
      have shifted : residue (takeBit sum false) = residue sum * root := by
        simpa [coefficient] using residue_takeBit sum false
      have added : residue (takeBit sum false ^^^ crc) = residue sum * root + residue crc := by
        rw [residue, registerPolynomial_xor, map_add]
        exact congrArg (· + residue crc) shifted
      rw [List.foldl_cons, ih, polynomial, map_add, map_mul, map_pow, AdjoinRoot.mk_X,
        List.length_cons]
      cases bit with
      | false =>
        rw [if_neg (by decide), shifted]
        simp only [coefficient, Bool.false_eq_true, if_false, map_zero]
        ring
      | true =>
        rw [if_pos rfl, added]
        simp only [coefficient, if_true, map_one]
        ring
  rw [times, onward, residue_zero, zero_mul, zero_add]
  rfl

theorem residue_one : residue 1 = 1 := by
  have bits : wordBits (1 : UInt16).toBitVec = List.replicate 15 false ++ [true] := by decide
  rw [residue, registerPolynomial, bits]
  simp [polynomial, coefficient, List.replicate]

theorem residue_two : residue 2 = root := by
  have bits : wordBits (2 : UInt16).toBitVec = List.replicate 14 false ++ [true, false] := by decide
  rw [residue, registerPolynomial, bits]
  simp [polynomial, coefficient, List.replicate]

theorem residue_power (crc : UInt16) (count : ℕ) :
    residue (power crc count) = residue crc ^ count := by
  induction count with
  | zero => rw [power, residue_one, pow_zero]
  | succ count ih => rw [power, residue_times, ih, pow_succ]

theorem residue_hundredFiftyOne (crc : UInt16) :
    residue (times (power (power crc 10) 15) crc) = residue crc ^ 151 := by
  rw [residue_times, residue_power, residue_power, ← pow_mul, ← pow_succ]

theorem residue_ne_one {crc : UInt16} (other : crc ≠ 1) : residue crc ≠ 1 := by
  rw [← residue_one]
  exact fun same => other (residue_injective same)

/-- The order divides `7 * 31 * 151` and none of the products of two of these. -/
theorem orderOf_root : orderOf root = 32767 := by
  have seventh : root ^ 7 = residue (power 2 7) := by rw [residue_power, residue_two]
  have thirtyFirst : root ^ 31 = residue (power 2 31) := by rw [residue_power, residue_two]
  have both : root ^ 217 = residue (power (power 2 7) 31) := by
    rw [residue_power, ← seventh, ← pow_mul]
  apply orderOf_eq_of_pow_and_pow_div_prime (by decide)
  · have whole : root ^ 32767 = (root ^ 217) ^ 151 := by rw [← pow_mul]
    rw [whole, both, ← residue_hundredFiftyOne, ← residue_one]
    exact congrArg residue (by decide +kernel)
  · intro factor prime divides
    have product : 32767 = 7 * (31 * 151) := by decide
    rw [product] at divides
    rcases prime.dvd_mul.mp divides with seven | others
    · obtain rfl := (Nat.prime_dvd_prime_iff_eq prime (by norm_num)).mp seven
      have rest : root ^ (32767 / 7) = (root ^ 31) ^ 151 := by rw [← pow_mul]
      rw [rest, thirtyFirst, ← residue_hundredFiftyOne]
      exact residue_ne_one (by decide +kernel)
    · rcases prime.dvd_mul.mp others with thirtyOne | last
      · obtain rfl := (Nat.prime_dvd_prime_iff_eq prime (by norm_num)).mp thirtyOne
        have rest : root ^ (32767 / 31) = (root ^ 7) ^ 151 := by rw [← pow_mul]
        rw [rest, seventh, ← residue_hundredFiftyOne]
        exact residue_ne_one (by decide +kernel)
      · obtain rfl := (Nat.prime_dvd_prime_iff_eq prime (by norm_num)).mp last
        have rest : root ^ (32767 / 151) = root ^ 217 := rfl
        rw [rest, both]
        exact residue_ne_one (by decide +kernel)

/-- Two errors that are a multiple of the generator are at least 32767 bits apart. -/
theorem le_of_dvd_double {length first second : ℕ} (order : first < second)
    (inside : second < length) (divides : generator ∣ errorPolynomial length {first, second}) :
    32767 ≤ second - first := by
  have latest : ∀ place ∈ ({first, second} : Finset ℕ), place ≤ second := by
    intro place among
    rcases Finset.mem_insert.mp among with rfl | among
    · exact order.le
    · exact (Finset.mem_singleton.mp among).le
  have two_powers : errorPolynomial (second + 1) {first, second} = X ^ (second - first) + 1 := by
    rw [errorPolynomial, Finset.sum_pair order.ne, Nat.add_sub_cancel, Nat.sub_self, pow_zero]
  have vanishes := AdjoinRoot.mk_eq_zero.mpr (generator_dvd_upTo inside latest divides)
  rw [two_powers, ← CharTwo.sub_eq_add, map_sub, map_pow, map_one, AdjoinRoot.mk_X,
    sub_eq_zero] at vanishes
  have multiple := orderOf_dvd_of_pow_eq_one vanishes
  rw [orderOf_root] at multiple
  exact Nat.le_of_dvd (by omega) multiple

theorem crc16_ne_of_detectable {sent received : Bytes} (same : sent.length = received.length)
    (detectable : Detectable sent received) : crc16 sent ≠ crc16 received := by
  intro equal
  have divides := generator_dvd_error same equal
  have lengths := Bytes.length_bits_congr same
  have inside : ∀ place ∈ flips sent.bits received.bits, place < sent.bits.length :=
    fun place => lt_of_mem_flips
  cases detectable with
  | burst start differ within =>
    have none := burst_empty inside within divides
    exact differ (Bytes.bits_injective (eq_of_flips_eq_empty lengths none))
  | odd odd => exact Nat.not_even_iff_odd.mpr odd (even_card_of_dvd divides)
  | double first second order near both =>
    rw [both] at divides inside
    have far := le_of_dvd_double order (inside second (by simp)) divides
    omega

end Checksum

end FirmwareLink

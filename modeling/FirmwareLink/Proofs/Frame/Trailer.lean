import Mathlib.Algebra.GroupWithZero.Nat
import Mathlib.Data.List.Induction
import FirmwareLink.Proofs.Frame.Grammar

namespace FirmwareLink

namespace Numeral

section Read

theorem mapM_eq_some_iff {α β : Type} {digit? : α → Option β} {text : List α} {numbers : List β} :
    text.mapM digit? = some numbers ↔ text.map digit? = numbers.map some := by
  induction text generalizing numbers with
  | nil => cases numbers <;> simp
  | cons byte rest ih =>
    have first : (byte :: rest).mapM digit? = (digit? byte).bind fun number =>
        (rest.mapM digit?).bind fun others => some (number :: others) := List.mapM_cons
    rw [first, List.map_cons]
    simp only [Option.bind_eq_some_iff, Option.some.injEq, ih]
    constructor
    · rintro ⟨number, digit, others, later, rfl⟩
      rw [digit, later, List.map_cons]
    · intro same
      cases numbers with
      | nil => cases same
      | cons number others =>
        obtain ⟨digit, later⟩ := List.cons.inj same
        exact ⟨number, digit, others, later, rfl⟩

theorem hexDigit?_lt {byte : UInt8} {number : Nat} (digit : hexDigit? byte = some number) :
    number < 16 := by
  unfold hexDigit? at digit
  simp only [UInt8.le_iff_toNat_le] at digit
  split at digit
  · rename_i bounds
    have last : byte.toNat ≤ 0x39 := bounds.2
    simp only [Option.some.injEq] at digit
    omega
  · split at digit
    · rename_i bounds
      have last : byte.toNat ≤ 0x46 := bounds.2
      simp only [Option.some.injEq] at digit
      omega
    · split at digit
      · rename_i bounds
        have last : byte.toNat ≤ 0x66 := bounds.2
        simp only [Option.some.injEq] at digit
        omega
      · cases digit

theorem value_snoc (base number : Nat) (numbers : List Nat) :
    value base (numbers ++ [number]) = value base numbers * base + number := by
  rw [value, List.foldl_append]
  rfl

theorem value_lt {base : Nat} {numbers : List Nat} (small : ∀ number ∈ numbers, number < base) :
    value base numbers < base ^ numbers.length := by
  induction numbers using List.reverseRecOn with
  | nil => exact Nat.one_pos
  | append_singleton numbers number ih =>
    have front := ih fun other member => small other (List.mem_append_left _ member)
    have last := small number (by simp)
    have room := Nat.mul_le_mul_right base (Nat.succ_le_of_lt front)
    rw [value_snoc, List.length_append, List.length_singleton, Nat.pow_succ]
    rw [Nat.succ_mul] at room
    omega

theorem value_zeros (base count : Nat) (numbers : List Nat) :
    value base (List.replicate count 0 ++ numbers) = value base numbers := by
  induction count with
  | zero => rfl
  | succ count ih =>
    rw [List.replicate_succ, List.cons_append, ← ih]
    simp [value]

end Read

section Digits

theorem value_digits (base number : Nat) : value base (digits base number) = number := by
  fun_induction digits base number with
  | case1 number small => simp [value]
  | case2 number large ih => rw [value_snoc, ih, Nat.div_add_mod']

theorem digits_ne_nil (base number : Nat) : digits base number ≠ [] := by
  rw [digits]
  split <;> simp

variable {base : Nat} (radix : 2 ≤ base)

include radix

theorem lt_of_mem_digits (number : Nat) : ∀ digit ∈ digits base number, digit < base := by
  fun_induction digits base number with
  | case1 number small =>
    intro digit member
    rw [List.mem_singleton.mp member]
    omega
  | case2 number large ih =>
    intro digit member
    rcases List.mem_append.mp member with front | last
    · exact ih digit front
    · rw [List.mem_singleton.mp last]
      exact Nat.mod_lt _ (by omega)

theorem length_digits {number places : Nat} (small : number < base ^ (places + 1)) :
    (digits base number).length ≤ places + 1 := by
  induction places generalizing number with
  | zero =>
    rw [Nat.zero_add, Nat.pow_one] at small
    rw [digits, if_pos (Or.inr small), List.length_singleton]
  | succ places ih =>
    rw [digits]
    split
    · simp
    · have shorter : number / base < base ^ (places + 1) := by
        rw [Nat.div_lt_iff_lt_mul (by omega), ← Nat.pow_succ]
        exact small
      rw [List.length_append, List.length_singleton]
      exact Nat.succ_le_succ (ih shorter)

theorem map_digitByte {digit? : UInt8 → Option Nat}
    (back : ∀ digit < base, digit? (digitByte digit) = some digit) (number : Nat) :
    ((digits base number).map digitByte).map digit? = (digits base number).map some := by
  rw [List.map_map]
  apply List.map_congr_left
  intro digit member
  exact back digit (lt_of_mem_digits radix number digit member)

theorem read?_digits {digit? : UInt8 → Option Nat}
    (back : ∀ digit < base, digit? (digitByte digit) = some digit) (number : Nat) :
    read? base digit? ((digits base number).map digitByte) = some number := by
  have some_digit : ((digits base number).map digitByte).isEmpty = false := by
    simp [digits_ne_nil]
  rw [read?, some_digit, mapM_eq_some_iff.mpr (map_digitByte radix back number)]
  exact congrArg some (value_digits base number)

end Digits

theorem hexDigit?_digitByte {digit : Nat} (small : digit < 16) :
    hexDigit? (digitByte digit) = some digit := by
  have all : ∀ digit : Fin 16, hexDigit? (digitByte digit) = some digit.val := by decide
  exact all ⟨digit, small⟩

end Numeral

namespace Body

open Numeral Checksum

theorem value_of_digits {digits : Bytes} {numbers : List Nat} (few : digits.length ≤ 4)
    (spelled : digits.map hexDigit? = numbers.map some) :
    (value 16 numbers).toUInt16.toNat = value 16 numbers := by
  have small : ∀ number ∈ numbers, number < 16 := by
    intro number member
    have inDigits : some number ∈ digits.map hexDigit? := by
      rw [spelled]
      exact List.mem_map_of_mem member
    obtain ⟨byte, _, digit⟩ := List.mem_map.mp inDigits
    exact hexDigit?_lt digit
  have length : numbers.length ≤ 4 := by
    have same := congrArg List.length spelled
    rw [List.length_map, List.length_map] at same
    omega
  have bound := value_lt small
  have most : 16 ^ numbers.length ≤ 16 ^ 4 := Nat.pow_le_pow_right (by decide) length
  rw [Nat.toUInt16, UInt16.toNat_ofNat']
  exact Nat.mod_eq_of_lt (Nat.lt_of_lt_of_le bound most)

/-- A parser takes a trailer for good exactly if it proves the payload. -/
theorem readTrailer?_eq_some_iff {digits payload : Bytes} :
    readTrailer? digits = some (crc16 payload) ↔ Proves digits payload := by
  unfold readTrailer?
  by_cases few : digits.length ≤ 4
  · rw [if_pos few, readHex?, read?]
    by_cases empty : digits = []
    · simp only [empty, List.isEmpty_nil, if_true, Option.map_none]
      exact ⟨fun none => (nomatch none), fun proves => absurd rfl proves.some_digit⟩
    · rw [if_neg (by simpa using empty)]
      simp only [Option.map_map, Option.map_eq_some_iff, mapM_eq_some_iff]
      constructor
      · rintro ⟨numbers, spelled, same⟩
        refine ⟨empty, few, numbers, spelled, ?_⟩
        rw [← same]
        exact (value_of_digits few spelled).symm
      · rintro ⟨_, _, numbers, spelled, same⟩
        exact ⟨numbers, spelled, UInt16.toNat_inj.mp ((value_of_digits few spelled).trans same)⟩
  · rw [if_neg few]
    exact ⟨fun none => (nomatch none), fun proves => absurd proves.few few⟩

theorem trailerPieces_proves (payload : Bytes) :
    Proves (trailerPieces (crc16 payload)).flatten payload := by
  let number := (crc16 payload).toNat
  let padding := 4 - (hex number).length
  have written : (trailerPieces (crc16 payload)).flatten =
      List.replicate padding 0x30 ++ hex number := by
    simp [trailerPieces, padding, number]
  have short : (hex number).length ≤ 4 := by
    have bound : number < 16 ^ (3 + 1) := (crc16 payload).toNat_lt
    have places := length_digits (by decide : 2 ≤ 16) bound
    simpa [hex] using places
  rw [written]
  refine ⟨?_, ?_, List.replicate padding 0 ++ digits 16 number, ?_, ?_⟩
  · simp [hex, digits_ne_nil]
  · rw [List.length_append, List.length_replicate]
    omega
  · have back : (hex number).map hexDigit? = (digits 16 number).map some :=
      map_digitByte (by decide) (fun _ => hexDigit?_digitByte) number
    rw [List.map_append, List.map_append, back, List.map_replicate, List.map_replicate]
    rfl
  · rw [value_zeros, value_digits]

end Body

end FirmwareLink

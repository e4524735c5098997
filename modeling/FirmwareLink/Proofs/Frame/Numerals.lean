import FirmwareLink.Frame.Basic
import FirmwareLink.Proofs.Frame.Trailer

namespace FirmwareLink

namespace Bytes

theorem ofText_of_text? {bytes : Bytes} {text : String} (shown : bytes.text? = some text) :
    ofText text = bytes := by
  rw [text?, String.fromUTF8?] at shown
  split at shown
  · obtain rfl := Option.some.inj shown
    rw [ofText, String.toUTF8_eq_toByteArray, String.fromUTF8, List.data_toByteArray]
  · cases shown

theorem text?_of_ascii {bytes : Bytes} (ascii : ∀ byte ∈ bytes, byte < 0x80) :
    ∃ text, bytes.text? = some text := by
  have encoded : (bytes.map Char.ofUInt8).flatMap String.utf8EncodeChar = bytes := by
    rw [List.flatMap_map]
    induction bytes with
    | nil => rfl
    | cons byte rest ih =>
      obtain ⟨small, others⟩ := List.forall_mem_cons.mp ascii
      have one : String.utf8EncodeChar (Char.ofUInt8 byte) = [byte] := by
        have low : (Char.ofUInt8 byte).val.toNat ≤ 127 := Nat.le_of_lt_succ small
        rw [String.utf8EncodeChar, if_pos low]
        exact congrArg (fun byte => [byte]) UInt8.ofNat_toNat
      rw [List.flatMap_cons, one, ih others, List.singleton_append]
  have valid : bytes.toByteArray.IsValidUTF8 :=
    .intro (bytes.map Char.ofUInt8) (congrArg List.toByteArray encoded).symm
  exact ⟨_, dif_pos valid⟩

end Bytes

namespace Numeral

/-- A base and the alphabets of its digits, which a text may mix. -/
structure Radix where
  base : Nat
  alphabets : List String

def decimalRadix : Radix := ⟨10, ["0123456789"]⟩

def hexRadix : Radix := ⟨16, ["0123456789ABCDEF", "0123456789abcdef"]⟩

def Radix.IsDigit (radix : Radix) (byte : UInt8) (digit : Nat) : Prop :=
  ∃ alphabet ∈ radix.alphabets, (Bytes.ofText alphabet)[digit]? = some byte

inductive Radix.Spells (radix : Radix) : Bytes → Nat → Prop
  | one {byte : UInt8} {digit : Nat} (last : radix.IsDigit byte digit) : radix.Spells [byte] digit
  | more {text : Bytes} {number : Nat} {byte : UInt8} {digit : Nat}
      (front : radix.Spells text number) (last : radix.IsDigit byte digit) :
      radix.Spells (text ++ [byte]) (number * radix.base + digit)

inductive SpellsSigned : Bytes → Int → Prop
  | unsigned {text : Bytes} {number : Nat} (digits : decimalRadix.Spells text number) :
      SpellsSigned text number
  | negative {text : Bytes} {number : Nat} (digits : decimalRadix.Spells text number) :
      SpellsSigned (minus :: text) (-number)

section Grammar

variable {radix : Radix} {digit? : UInt8 → Option Nat} {text : Bytes}

instance (radix : Radix) (byte : UInt8) (digit : Nat) : Decidable (radix.IsDigit byte digit) :=
  inferInstanceAs (Decidable (∃ alphabet ∈ radix.alphabets, _))

def Radix.ReadBy (radix : Radix) (digit? : UInt8 → Option Nat) : Prop :=
  ∀ byte digit, digit? byte = some digit ↔ radix.IsDigit byte digit

theorem Radix.readBy
    (sound : ∀ byte : Fin 256, ∀ digit ∈ digit? (.ofFin byte), radix.IsDigit (.ofFin byte) digit)
    (complete : ∀ alphabet ∈ radix.alphabets, ∀ index : Fin (Bytes.ofText alphabet).length,
      digit? (Bytes.ofText alphabet)[index] = some index.val) : radix.ReadBy digit? := by
  intro byte digit
  constructor
  · exact sound byte.toFin digit
  · rintro ⟨alphabet, among, place⟩
    obtain ⟨inside, rfl⟩ := List.getElem?_eq_some_iff.mp place
    exact complete alphabet among ⟨digit, inside⟩

theorem decimalRadix_readBy : decimalRadix.ReadBy decimalDigit? :=
  Radix.readBy (by decide +kernel) (by decide +kernel)

theorem hexRadix_readBy : hexRadix.ReadBy hexDigit? :=
  Radix.readBy (by decide +kernel) (by decide +kernel)

theorem Radix.Spells.of_digits (digits : radix.ReadBy digit?) {numbers : List Nat}
    (some_digit : text ≠ []) (spelled : text.map digit? = numbers.map some) :
    radix.Spells text (value radix.base numbers) := by
  induction text using List.reverseRecOn generalizing numbers with
  | nil => exact absurd rfl some_digit
  | append_singleton front byte ih =>
    rw [List.map_append, List.map_singleton] at spelled
    obtain ⟨first, last, rfl, frontSpelled, lastSpelled⟩ := List.append_eq_map_iff.mp spelled
    obtain ⟨digit, rfl, read⟩ := List.map_eq_singleton_iff.mp lastSpelled
    have isDigit := (digits byte digit).mp read.symm
    rw [value_snoc]
    cases front with
    | nil =>
      obtain rfl : first = [] := by simpa using frontSpelled
      rw [value, List.foldl_nil, Nat.zero_mul, Nat.zero_add]
      exact .one isDigit
    | cons byte rest => exact .more (ih (List.cons_ne_nil _ _) frontSpelled.symm) isDigit

theorem Radix.Spells.read (digits : radix.ReadBy digit?) {number : Nat}
    (spells : radix.Spells text number) :
    text ≠ [] ∧ ∃ numbers : List Nat, text.map digit? = numbers.map some ∧
      value radix.base numbers = number := by
  induction spells with
  | @one byte digit last =>
    refine ⟨List.cons_ne_nil _ _, [digit], ?_, ?_⟩
    · rw [List.map_singleton, (digits byte digit).mpr last, List.map_singleton]
    · rw [value, List.foldl_cons, List.foldl_nil, Nat.zero_mul, Nat.zero_add]
  | @more text number byte digit _ last ih =>
    obtain ⟨_, numbers, spelled, rfl⟩ := ih
    refine ⟨by simp, numbers ++ [digit], ?_, value_snoc _ _ _⟩
    rw [List.map_append, spelled, List.map_singleton, (digits byte digit).mpr last,
      List.map_append, List.map_singleton]

theorem read?_eq_some_iff (digits : radix.ReadBy digit?) {number : Nat} :
    read? radix.base digit? text = some number ↔ radix.Spells text number := by
  constructor
  · intro read
    rw [read?] at read
    split at read
    · cases read
    · rename_i some_digit
      obtain ⟨numbers, spelled, rfl⟩ := Option.map_eq_some_iff.mp read
      exact .of_digits digits (by simpa using some_digit) (mapM_eq_some_iff.mp spelled)
  · intro spells
    obtain ⟨some_digit, numbers, spelled, rfl⟩ := spells.read digits
    rw [read?, if_neg (by simpa using some_digit), mapM_eq_some_iff.mpr spelled]
    rfl

theorem Radix.Spells.isSome_digit (digits : radix.ReadBy digit?) {number : Nat} {byte : UInt8}
    (spells : radix.Spells text number) (member : byte ∈ text) : (digit? byte).isSome := by
  obtain ⟨_, numbers, spelled, _⟩ := spells.read digits
  have inside : digit? byte ∈ numbers.map some := spelled ▸ List.mem_map_of_mem member
  obtain ⟨number, _, read⟩ := List.mem_map.mp inside
  rw [← read]
  rfl

theorem readDecimal?_eq_some_iff {number : Nat} :
    readDecimal? text = some number ↔ decimalRadix.Spells text number :=
  read?_eq_some_iff decimalRadix_readBy

theorem readInt?_minus (rest : Bytes) : readInt? (minus :: rest) =
    (readDecimal? rest).map fun number : Nat => -(number : Int) := by
  rw [readInt?, if_pos rfl]
  cases readDecimal? rest with
  | none => rfl
  | some number => rfl

theorem readInt?_unsigned (unsigned : text.head? ≠ some minus) : readInt? text =
    (readDecimal? text).map fun number : Nat => (number : Int) := by
  cases text with
  | nil => rfl
  | cons byte rest =>
    have other : byte ≠ minus := fun same => unsigned (congrArg some same)
    rw [readInt?, if_neg other]
    cases readDecimal? (byte :: rest) with
    | none => rfl
    | some number => rfl

theorem readInt?_eq_some_iff {number : Int} :
    readInt? text = some number ↔ SpellsSigned text number := by
  constructor
  · intro read
    by_cases sign : text.head? = some minus
    · obtain ⟨rest, rfl⟩ := List.head?_eq_some_iff.mp sign
      rw [readInt?_minus] at read
      obtain ⟨size, digits, rfl⟩ := Option.map_eq_some_iff.mp read
      exact .negative (readDecimal?_eq_some_iff.mp digits)
    · rw [readInt?_unsigned sign] at read
      obtain ⟨size, digits, rfl⟩ := Option.map_eq_some_iff.mp read
      exact .unsigned (readDecimal?_eq_some_iff.mp digits)
  · rintro (digits | digits)
    · have unsigned : text.head? ≠ some minus := fun sign =>
        absurd (digits.isSome_digit decimalRadix_readBy (List.mem_of_head? sign)) (by decide)
      rw [readInt?_unsigned unsigned, readDecimal?_eq_some_iff.mpr digits]
      rfl
    · rw [readInt?_minus, readDecimal?_eq_some_iff.mpr digits]
      rfl

theorem readWord?_eq_some_iff {number : UInt32} :
    readWord? text = some number ↔ hexRadix.Spells text number.toNat := by
  have spelled : ∀ {size : Nat}, readHex? text = some size ↔ hexRadix.Spells text size :=
    read?_eq_some_iff hexRadix_readBy
  rw [← spelled, readWord?]
  constructor
  · intro read
    obtain ⟨size, digits, ranged⟩ := Option.bind_eq_some_iff.mp read
    split at ranged
    · rename_i small
      obtain rfl := Option.some.inj ranged
      rw [digits, Nat.toUInt32, UInt32.toNat_ofNat', Nat.mod_eq_of_lt small]
    · cases ranged
  · intro digits
    rw [digits]
    exact (if_pos number.toNat_lt).trans (congrArg some UInt32.ofNat_toNat)

theorem readSigned?_eq_some_iff {number : Int32} :
    readSigned? text = some number ↔ SpellsSigned text number.toInt := by
  rw [← readInt?_eq_some_iff, readSigned?]
  constructor
  · intro read
    obtain ⟨value, digits, ranged⟩ := Option.bind_eq_some_iff.mp read
    split at ranged
    · rename_i inside
      obtain ⟨least, greatest⟩ := inside
      obtain rfl := Option.some.inj ranged
      rw [digits, Int32.toInt_ofInt_of_le least (Int.lt_of_le_sub_one greatest)]
    · cases ranged
  · intro digits
    rw [digits]
    exact (if_pos ⟨number.minValue_le_toInt, number.toInt_le⟩).trans
      (congrArg some (Int32.ofInt_toInt number))

end Grammar

section Checked

/-- The only other sign that a parser of text would take. -/
def plus : UInt8 := 0x2b

def unsigned? (bytes : Bytes) : Option Bytes := do
  let text ← bytes.text?
  if (Bytes.ofText text).head? = some plus then none else some (Bytes.ofText text)

/-- Takes in one digit after another, as long as no number on the way is out of range. -/
def accumulate (least greatest : Int) (base : Nat) (digit? : UInt8 → Option Nat) (sign : Int) :
    Int → Bytes → Option Int
  | number, [] => some number
  | number, byte :: rest => do
    let digit ← digit? byte
    let scaled := number * base
    let next := scaled + sign * digit
    if (least ≤ scaled ∧ scaled ≤ greatest) ∧ least ≤ next ∧ next ≤ greatest then
      accumulate least greatest base digit? sign next rest
    else none

def magnitude? (least greatest : Int) (base : Nat) (digit? : UInt8 → Option Nat) (sign : Int)
    (text : Bytes) : Option Int :=
  if text.isEmpty then none else accumulate least greatest base digit? sign 0 text

/-- Digits, with a sign before them or none. There is a minus sign if negative numbers are in
    range. -/
def parse? (least greatest : Int) (base : Nat) (digit? : UInt8 → Option Nat) :
    Bytes → Option Int
  | [] => none
  | byte :: rest =>
    if byte = plus then magnitude? least greatest base digit? 1 rest
    else if byte = minus ∧ least < 0 then magnitude? least greatest base digit? (-1) rest
    else magnitude? least greatest base digit? 1 (byte :: rest)

variable {base : Nat} {digit? : UInt8 → Option Nat} {least greatest sign : Int} {limit : Nat}

def valueFrom (base number : Nat) (digits : List Nat) : Nat :=
  digits.foldl (fun number digit => number * base + digit) number

theorem le_valueFrom (radix : 1 ≤ base) (number : Nat) (digits : List Nat) :
    number ≤ valueFrom base number digits := by
  induction digits generalizing number with
  | nil => exact Nat.le_refl _
  | cons digit rest ih =>
    have step : number ≤ number * base + digit :=
      (Nat.le_mul_of_pos_right number radix).trans (Nat.le_add_right _ _)
    exact step.trans (ih _)

/-- No number on the way is larger than the one at the end, so it does not matter when the range is
    checked. -/
theorem accumulate_eq (radix : 1 ≤ base)
    (ranged : ∀ size : Nat, least ≤ sign * size ∧ sign * size ≤ greatest ↔ size ≤ limit)
    (text : Bytes) {number : Nat} (small : number ≤ limit) :
    accumulate least greatest base digit? sign (sign * number) text =
      (text.mapM digit?).bind fun digits =>
        if valueFrom base number digits ≤ limit then some (sign * valueFrom base number digits)
        else none := by
  induction text generalizing number with
  | nil => exact (if_pos small).symm
  | cons byte rest ih =>
    have mapped : (byte :: rest).mapM digit? = (digit? byte).bind fun digit =>
        (rest.mapM digit?).bind fun others => some (digit :: others) := List.mapM_cons
    rw [accumulate, mapped]
    cases digit? byte with
    | none => rfl
    | some digit =>
      have scaled : sign * number * base = sign * ((number * base : Nat) : Int) := by
        rw [Int.natCast_mul, Int.mul_assoc]
      have next : sign * ((number * base : Nat) : Int) + sign * digit =
          sign * ((number * base + digit : Nat) : Int) := by
        rw [Int.natCast_add, Int.mul_add]
      simp only [Option.bind_eq_bind, Option.bind_some, scaled, next, ranged, Option.bind_assoc]
      by_cases fits : number * base + digit ≤ limit
      · rw [if_pos ⟨Nat.le_of_add_right_le fits, fits⟩, ih fits]
        rfl
      · have stays : ∀ digits, ¬valueFrom base number (digit :: digits) ≤ limit := by
          intro digits within
          exact fits ((le_valueFrom radix _ digits).trans within)
        rw [if_neg fun both => fits both.2]
        cases rest.mapM digit? with
        | none => rfl
        | some digits => exact (if_neg (stays digits)).symm

theorem magnitude?_eq (radix : 1 ≤ base)
    (ranged : ∀ size : Nat, least ≤ sign * size ∧ sign * size ≤ greatest ↔ size ≤ limit)
    (text : Bytes) : magnitude? least greatest base digit? sign text =
      (read? base digit? text).bind fun number =>
        if number ≤ limit then some (sign * number) else none := by
  rw [magnitude?, read?]
  split
  · rfl
  · have all : accumulate least greatest base digit? sign (sign * (0 : Nat)) text = _ :=
      accumulate_eq radix ranged text (Nat.zero_le limit)
    rw [Int.natCast_zero, Int.mul_zero] at all
    rw [all, Option.bind_map]
    rfl

theorem parse?_unsigned {text : Bytes} (noPlus : text.head? ≠ some plus)
    (noMinus : text.head? = some minus → ¬least < 0) : parse? least greatest base digit? text =
      magnitude? least greatest base digit? 1 text := by
  cases text with
  | nil => rfl
  | cons byte rest =>
    have other : byte ≠ plus := fun same => noPlus (congrArg some same)
    rw [parse?, if_neg other, if_neg fun both => noMinus (congrArg some both.1) both.2]

theorem parse?_negative (rest : Bytes) (signed : least < 0) :
    parse? least greatest base digit? (minus :: rest) =
      magnitude? least greatest base digit? (-1) rest := by
  rw [parse?, if_neg (by decide), if_pos ⟨rfl, signed⟩]

def Foreign (byte : UInt8) : Prop := byte = plus ∨ 0x80 ≤ byte

instance (byte : UInt8) : Decidable (Foreign byte) := inferInstanceAs (Decidable (_ ∨ _))

theorem Foreign.no_digit {byte : UInt8} (foreign : Foreign byte) :
    hexDigit? byte = none ∧ decimalDigit? byte = none ∧ byte ≠ minus := by
  have all : ∀ byte : Fin 256, Foreign (.ofFin byte) → hexDigit? (.ofFin byte) = none ∧
      decimalDigit? (.ofFin byte) = none ∧ UInt8.ofFin byte ≠ minus := by decide +kernel
  exact all byte.toFin foreign

/-- Only what could not be a numeral is refused before its digits are read. -/
theorem unsigned?_cases (bytes : Bytes) :
    (unsigned? bytes = some bytes ∧ bytes.head? ≠ some plus) ∨
      (unsigned? bytes = none ∧ ∃ byte ∈ bytes, Foreign byte) := by
  rw [unsigned?]
  cases shown : bytes.text? with
  | none =>
    refine Or.inr ⟨rfl, ?_⟩
    by_contra plain
    have ascii : ∀ byte ∈ bytes, byte < 0x80 := by
      intro byte member
      by_contra high
      exact plain ⟨byte, member, Or.inr (UInt8.not_lt.mp high)⟩
    obtain ⟨text, some_text⟩ := Bytes.text?_of_ascii ascii
    cases shown.symm.trans some_text
  | some text =>
    rw [Option.bind_eq_bind, Option.bind_some, Bytes.ofText_of_text? shown]
    by_cases sign : bytes.head? = some plus
    · exact Or.inr ⟨if_pos sign, plus, List.mem_of_head? sign, Or.inl rfl⟩
    · exact Or.inl ⟨if_neg sign, sign⟩

theorem readWord?_eq_none {bytes : Bytes} (foreign : ∃ byte ∈ bytes, Foreign byte) :
    readWord? bytes = none := by
  obtain ⟨byte, member, foreign⟩ := foreign
  by_contra read
  obtain ⟨number, read⟩ := Option.ne_none_iff_exists'.mp read
  have digit := (readWord?_eq_some_iff.mp read).isSome_digit hexRadix_readBy member
  rw [foreign.no_digit.1] at digit
  cases digit

theorem readSigned?_eq_none {bytes : Bytes} (foreign : ∃ byte ∈ bytes, Foreign byte) :
    readSigned? bytes = none := by
  obtain ⟨byte, member, foreign⟩ := foreign
  obtain ⟨_, noDigit, notMinus⟩ := foreign.no_digit
  have outside : ∀ {text : Bytes} {number : Nat}, decimalRadix.Spells text number →
      byte ∉ text := by
    intro text number digits inside
    have digit := digits.isSome_digit decimalRadix_readBy inside
    rw [noDigit] at digit
    cases digit
  by_contra read
  obtain ⟨number, read⟩ := Option.ne_none_iff_exists'.mp read
  have spelled := readSigned?_eq_some_iff.mp read
  generalize number.toInt = value at spelled
  cases spelled with
  | unsigned digits => exact outside digits member
  | negative digits => exact (List.mem_cons.mp member).elim notMinus (outside digits)

theorem readWord?_eq (bytes : Bytes) : readWord? bytes =
    ((unsigned? bytes).bind (parse? 0 4294967295 16 hexDigit?)).map
      fun number => number.toNat.toUInt32 := by
  rcases unsigned?_cases bytes with ⟨kept, noPlus⟩ | ⟨left, foreign⟩
  · have ranged : ∀ size : Nat, (0 : Int) ≤ 1 * size ∧ 1 * (size : Int) ≤ 4294967295 ↔
        size ≤ 4294967295 := by
      intro size
      omega
    rw [kept, Option.bind_some, parse?_unsigned noPlus fun _ => Int.lt_irrefl 0,
      magnitude?_eq (by decide) ranged, readWord?, readHex?]
    cases read? 16 hexDigit? bytes with
    | none => rfl
    | some number =>
      by_cases small : number ≤ 4294967295
      · have same : (1 * (number : Int)).toNat = number := by omega
        rw [Option.bind_some, if_pos small, Option.map_some, same]
        exact if_pos (Nat.lt_succ_of_le small)
      · rw [Option.bind_some, if_neg small]
        exact if_neg (mt Nat.le_of_lt_succ small)
  · rw [left, readWord?_eq_none foreign]
    rfl

theorem ranged_map {α : Type}
    (ranged : ∀ size : Nat, least ≤ sign * size ∧ sign * size ≤ greatest ↔ size ≤ limit)
    (size? : Option Nat) (result : Int → α) :
    (size?.bind fun size => if size ≤ limit then some (sign * (size : Int)) else none).map result =
      (size?.map fun size : Nat => sign * (size : Int)).bind fun number =>
        if least ≤ number ∧ number ≤ greatest then some (result number) else none := by
  cases size? with
  | none => rfl
  | some size =>
    rw [Option.bind_some, Option.map_some, Option.bind_some]
    by_cases small : size ≤ limit
    · rw [if_pos small, if_pos ((ranged size).mpr small)]
      rfl
    · rw [if_neg small, if_neg (mt (ranged size).mp small)]
      rfl

theorem readSigned?_eq (bytes : Bytes) : readSigned? bytes =
    ((unsigned? bytes).bind (parse? (-2147483648) 2147483647 10 decimalDigit?)).map Int32.ofInt := by
  rcases unsigned?_cases bytes with ⟨kept, noPlus⟩ | ⟨left, foreign⟩
  · rw [kept, Option.bind_some, readSigned?]
    by_cases sign : bytes.head? = some minus
    · have ranged : ∀ size : Nat,
          (-2147483648 : Int) ≤ -1 * size ∧ -1 * (size : Int) ≤ 2147483647 ↔ size ≤ 2147483648 := by
        intro size
        omega
      obtain ⟨rest, rfl⟩ := List.head?_eq_some_iff.mp sign
      rw [parse?_negative rest (by decide), magnitude?_eq (by decide) ranged, ranged_map ranged,
        readInt?_minus]
      simp only [Int.neg_one_mul]
      rfl
    · have ranged : ∀ size : Nat,
          (-2147483648 : Int) ≤ 1 * size ∧ 1 * (size : Int) ≤ 2147483647 ↔ size ≤ 2147483647 := by
        intro size
        omega
      rw [parse?_unsigned noPlus fun minus => absurd minus sign, magnitude?_eq (by decide) ranged,
        ranged_map ranged, readInt?_unsigned sign]
      simp only [Int.one_mul]
      rfl
  · rw [left, readSigned?_eq_none foreign]
    rfl

end Checked

end Numeral

end FirmwareLink

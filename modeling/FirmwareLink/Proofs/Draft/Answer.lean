import FirmwareLink.Proofs.Draft.Refusal

namespace FirmwareLink

open Wire Body

namespace Numeral

def signed (number : Int32) : Bytes := (signedPieces number).flatten

theorem signed_of_neg {number : Int32} (negative : number.toInt < 0) :
    signed number = minus :: decimal number.toInt.natAbs := by
  simp [signed, signedPieces, negative]

theorem signed_of_nonneg {number : Int32} (positive : ¬number.toInt < 0) :
    signed number = decimal number.toInt.natAbs := by
  simp [signed, signedPieces, positive]

theorem signed_ofNat {number : Nat} (small : number < 256) :
    signed (Int32.ofNat number) = decimal number := by
  have same : (Int32.ofNat number).toInt = number := Int32.toInt_ofNat_of_lt (by omega)
  rw [signed_of_nonneg (by omega), same, Int.natAbs_natCast]

theorem decimalDigit?_digitByte {digit : Nat} (small : digit < 10) :
    decimalDigit? (digitByte digit) = some digit := by
  have all : ∀ digit : Fin 10, decimalDigit? (digitByte digit) = some digit.val := by decide
  exact all ⟨digit, small⟩

theorem readDecimal?_decimal (number : Nat) : readDecimal? (decimal number) = some number :=
  read?_digits (by decide) (fun _ => decimalDigit?_digitByte) number

theorem minus_not_mem_decimal (number : Nat) : minus ∉ decimal number := by
  intro member
  obtain ⟨digit, among, same⟩ := List.mem_map.mp member
  have read := decimalDigit?_digitByte (lt_of_mem_digits (by decide) number digit among)
  rw [same] at read
  cases read

theorem readSigned?_signed (number : Int32) : readSigned? (signed number) = some number := by
  have within : Int32.minValue.toInt ≤ number.toInt ∧ number.toInt ≤ Int32.maxValue.toInt :=
    ⟨number.minValue_le_toInt, number.toInt_le⟩
  have read : readInt? (signed number) = some number.toInt := by
    by_cases negative : number.toInt < 0
    · have size : -(number.toInt.natAbs : Int) = number.toInt := by omega
      rw [signed_of_neg negative, readInt?, if_pos rfl, readDecimal?_decimal]
      exact congrArg some size
    · have size : (number.toInt.natAbs : Int) = number.toInt := by omega
      have digits := readDecimal?_decimal number.toInt.natAbs
      have unsigned := minus_not_mem_decimal number.toInt.natAbs
      rw [signed_of_nonneg negative]
      cases spelled : decimal number.toInt.natAbs with
      | nil =>
        rw [spelled] at digits
        cases digits
      | cons byte rest =>
        rw [spelled] at digits unsigned
        have other : byte ≠ minus := fun same => unsigned (by simp [same])
        rw [readInt?, if_neg other, digits]
        exact congrArg some size
  rw [readSigned?, read]
  exact (if_pos within).trans (congrArg some (Int32.ofInt_toInt number))

theorem plain_digitBytes {base : Nat} (radix : 2 ≤ base) (few : base ≤ 16) (number : Nat) :
    Plain ((digits base number).map digitByte) := by
  have absent : ∀ mark, hexDigit? mark = none → mark ∉ (digits base number).map digitByte := by
    intro mark none member
    obtain ⟨digit, among, rfl⟩ := List.mem_map.mp member
    have small := lt_of_mem_digits radix number digit among
    rw [hexDigit?_digitByte (Nat.lt_of_lt_of_le small few)] at none
    cases none
  exact ⟨absent _ (by decide), absent _ (by decide), absent _ (by decide)⟩

theorem plain_signed (number : Int32) : Plain (signed number) := by
  have plain : Plain (decimal number.toInt.natAbs) :=
    plain_digitBytes (by decide) (by decide) number.toInt.natAbs
  by_cases negative : number.toInt < 0
  · have sign : Plain [minus] := ⟨by decide, by decide, by decide⟩
    rw [signed_of_neg negative]
    exact sign.append plain
  · rw [signed_of_nonneg negative]
    exact plain

end Numeral

namespace Status

def kind : Except StatusCode Unit → FrameKind
  | .ok () => .ack
  | .error _ => .nak

def code : Except StatusCode Unit → StatusCode
  | .ok () => ok
  | .error code => code

def digits : Except StatusCode Unit → Bytes
  | .ok () => [0x30]
  | .error code => Numeral.signed code

theorem digits_eq (outcome : Except StatusCode Unit) :
    digits outcome = Numeral.signed (code outcome) := by
  have zero : [0x30] = Numeral.signed ok := by decide +kernel
  cases outcome with
  | ok => exact zero
  | error code => rfl

theorem readSigned?_digits (outcome : Except StatusCode Unit) :
    Numeral.readSigned? (digits outcome) = some (code outcome) := by
  rw [digits_eq]
  exact Numeral.readSigned?_signed _

theorem plain_digits (outcome : Except StatusCode Unit) : Plain (digits outcome) := by
  rw [digits_eq]
  exact Numeral.plain_signed _

end Status

/-- The frame that tells an outcome in answer to a request with this first record. -/
def answerFrame (crc : Bool) (record : Bytes) (outcome : Except StatusCode Unit)
    (fields : List Bytes) : Bytes :=
  (Status.kind outcome).marker ::
    sealed crc (record ++ (Status.digits outcome :: fields).flatMap (recordMark :: ·)) ++ [endMark]

namespace Channel

/-- Each call of the transport reports just the bytes that it takes, while this many are sent. -/
def Faithful : Nat → List Acceptance → Prop
  | _, [] => True
  | left, .wouldBlock :: plan => Faithful left plan
  | _, .failure :: _ => True
  | left, .accept limit claim :: plan =>
    left = 0 ∨ claim.getD (min limit left) = min limit left ∧ Faithful (left - min limit left) plan

theorem deliverFrom_faithful {frame : Bytes} {written count : Nat} {channel : Channel}
    {plan : List Acceptance} (faithful : Faithful (frame.length - written) plan)
    (delivered : (deliverFrom frame written channel plan).result = .ok count) :
    (deliverFrom frame written channel plan).channel.accepted =
      channel.accepted ++ frame.drop written := by
  induction plan generalizing written channel with
  | nil =>
    rw [deliverFrom]
    split
    · rename_i done
      rw [List.drop_eq_nil_of_le done, List.append_nil]
    · exact congrArg (channel.accepted ++ ·) (List.take_length ..)
  | cons acceptance plan ih =>
    rw [deliverFrom] at delivered ⊢
    by_cases done : frame.length ≤ written
    · rw [if_pos done, List.drop_eq_nil_of_le done, List.append_nil]
    · rw [if_neg done] at delivered ⊢
      cases acceptance with
      | wouldBlock =>
        rw [ih faithful delivered]
        exact congrArg (· ++ frame.drop written) (List.append_nil _)
      | failure => cases delivered
      | accept limit claim =>
        rw [← List.length_drop] at faithful
        obtain ⟨reported, faithful⟩ := faithful.resolve_left (by rw [List.length_drop]; omega)
        dsimp only at delivered ⊢
        rw [reported] at delivered ⊢
        split at delivered
        · cases delivered
        · rename_i some_byte
          have left : (frame.drop written).length - min limit (frame.drop written).length =
              frame.length - (written + min limit (frame.drop written).length) := by
            rw [List.length_drop]
            omega
          rw [left] at faithful
          rw [if_neg some_byte, ih faithful delivered, taking, List.append_assoc, ← List.drop_drop,
            List.take_eq_take_min, List.take_append_drop]

theorem deliver_faithful {channel : Channel} {frame : Bytes} {count : Nat}
    (faithful : Faithful frame.length channel.plan)
    (delivered : (channel.deliver frame).result = .ok count) :
    (channel.deliver frame).channel.accepted = channel.accepted ++ frame :=
  deliverFrom_faithful faithful delivered

end Channel

namespace Outbox

variable {N : Nat} {outbox : Outbox N} {count : Nat}

theorem send_ok (sent : outbox.send.1 = .ok count) : outbox.draft.close.overflow = false ∧
    (outbox.channel.deliver outbox.draft.close.bytes).result = .ok count := by
  rw [send] at sent
  split at sent
  · cases sent
  · rename_i kept
    exact ⟨by simpa using kept, sent⟩

theorem send_filled_ok {kind : FrameKind} {pieces : List Bytes} {frame : Bytes}
    (whole : kind.marker :: sealed outbox.draft.crc
      (outbox.draft.header.encode ++ pieces.flatten) ++ [endMark] = frame)
    (faithful : Channel.Faithful frame.length outbox.channel.plan)
    (sent : (Outbox.send { outbox with draft := outbox.draft.filled kind pieces }).1 = .ok count) :
    frame.length ≤ N ∧
      (Outbox.send { outbox with draft := outbox.draft.filled kind pieces }).2.channel.accepted =
        outbox.channel.accepted ++ frame := by
  obtain ⟨kept, delivered⟩ := send_ok sent
  dsimp only at kept delivered
  rw [Draft.close_filled_bytes kept, whole] at delivered
  have fits : frame.length ≤ N := whole ▸ Draft.close_filled_overflow.mp kept
  rw [send_filled whole, if_pos fits]
  exact ⟨fits, Channel.deliver_faithful faithful delivered⟩

end Outbox

namespace DraftM

variable {N : Nat} {outbox : Outbox N} {outcome : Except StatusCode Unit} {fields : List Bytes}

theorem run_status (outcome : Except StatusCode Unit) (outbox : Outbox N) :
    ((status outcome).run outbox).2 =
      { outbox with
        draft := outbox.draft.filled (Status.kind outcome)
          ([recordMark] :: Numeral.signedPieces (Status.code outcome)) } := by
  cases outcome with
  | ok => exact run_numbered .ack Status.ok outbox
  | error code => exact run_numbered .nak code outbox

def answer (outcome : Except StatusCode Unit) (fields : List Bytes) :
    DraftM (Except SendError Nat) := do
  status outcome
  recordAll fields
  send

def answerPieces (outcome : Except StatusCode Unit) (fields : List Bytes) : List Bytes :=
  [recordMark] :: Numeral.signedPieces (Status.code outcome) ++ Draft.recordPieces fields

theorem flatten_answerPieces : (answerPieces outcome fields).flatten =
    (Status.digits outcome :: fields).flatMap (recordMark :: ·) := by
  rw [answerPieces, List.flatten_append, Draft.flatten_recordPieces, Status.digits_eq]
  rfl

theorem run_told (outcome : Except StatusCode Unit) (fields : List Bytes) (outbox : Outbox N) :
    ((recordAll fields).run ((status outcome).run outbox).2).2 = { outbox with
      draft := outbox.draft.filled (Status.kind outcome) (answerPieces outcome fields) } := by
  rw [run_status, run_recordAll, answerPieces, Draft.filled, Draft.filled, Draft.appendAll_append]

theorem run_answer (outcome : Except StatusCode Unit) (fields : List Bytes) (outbox : Outbox N) :
    (answer outcome fields).run outbox = Outbox.send { outbox with
      draft := outbox.draft.filled (Status.kind outcome) (answerPieces outcome fields) } := by
  rw [answer, run_bind, run_bind, run_told]
  rfl

theorem answer_whole {record : Bytes} (encoded : outbox.draft.header.encode = record) :
    (Status.kind outcome).marker :: sealed outbox.draft.crc
        (outbox.draft.header.encode ++ (answerPieces outcome fields).flatten) ++ [endMark] =
      answerFrame outbox.draft.crc record outcome fields := by
  rw [flatten_answerPieces, encoded]
  rfl

end DraftM

end FirmwareLink

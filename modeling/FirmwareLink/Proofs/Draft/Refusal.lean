import FirmwareLink.Endpoint
import FirmwareLink.Proofs.Frame.RoundTrip

namespace FirmwareLink

open Wire Body

def hexAlphabet : Bytes :=
  [0x30, 0x31, 0x32, 0x33, 0x34, 0x35, 0x36, 0x37, 0x38, 0x39, 0x41, 0x42, 0x43, 0x44, 0x45, 0x46]

def fourDigits (number : Nat) : Bytes :=
  [number / 4096, number / 256 % 16, number / 16 % 16, number % 16].map fun digit =>
    hexAlphabet.getD digit 0

def refusedStatus : Bytes := [0x2d, 0x32, 0x30, 0x30, 0x30]

/-- The frame that refuses a request with this first record. -/
def refusalFrame (record : Bytes) : Bytes :=
  let body := record ++ recordMark :: refusedStatus
  nakMark :: body ++ trailerMark :: fourDigits (crc16 body).toNat ++ [endMark]

theorem length_refusalFrame (record : Bytes) : (refusalFrame record).length = record.length + 13 := by
  simp [refusalFrame, refusedStatus, fourDigits]

namespace Numeral

theorem digitByte_eq {digit : Nat} (small : digit < 16) :
    digitByte digit = hexAlphabet.getD digit 0 := by
  have all : ∀ digit : Fin 16, digitByte digit = hexAlphabet.getD digit 0 := by decide
  exact all ⟨digit, small⟩

theorem digits_of_le {number : Nat} (large : 16 ≤ number) :
    digits 16 number = digits 16 (number / 16) ++ [number % 16] := by
  rw [digits, if_neg (by omega)]

theorem digits_of_lt {number : Nat} (small : number < 16) : digits 16 number = [number] := by
  rw [digits, if_pos (Or.inr small)]

theorem padded_digits {number : Nat} (small : number < 65536) :
    List.replicate (4 - (digits 16 number).length) 0 ++ digits 16 number =
      [number / 4096, number / 256 % 16, number / 16 % 16, number % 16] := by
  by_cases one : number < 16
  · rw [digits_of_lt one]
    simp
    omega
  · rw [digits_of_le (Nat.le_of_not_lt one)]
    by_cases two : number / 16 < 16
    · rw [digits_of_lt two]
      simp
      omega
    · rw [digits_of_le (Nat.le_of_not_lt two)]
      by_cases three : number / 16 / 16 < 16
      · rw [digits_of_lt three]
        simp
        omega
      · rw [digits_of_le (Nat.le_of_not_lt three), digits_of_lt (by omega)]
        simp
        omega

end Numeral

open Numeral in
theorem Checksum.trailerPieces_flatten (crc : UInt16) :
    (trailerPieces crc).flatten = fourDigits crc.toNat := by
  have bound : crc.toNat < 65536 := crc.toNat_lt
  have padded := congrArg (List.map digitByte) (padded_digits bound)
  rw [List.map_append, List.map_replicate] at padded
  have zero : digitByte 0 = 0x30 := by decide
  have written : (trailerPieces crc).flatten =
      List.replicate (4 - (digits 16 crc.toNat).length) (digitByte 0) ++
        (digits 16 crc.toNat).map digitByte := by
    rw [zero]
    simp [trailerPieces, hex]
  rw [written, padded, fourDigits]
  apply List.map_congr_left
  intro digit member
  apply digitByte_eq
  simp only [List.mem_cons, List.not_mem_nil, or_false] at member
  omega

namespace DraftM

variable {N : Nat} {outbox : Outbox N}

theorem run_appendAll (pieces : List Bytes) (outbox : Outbox N) :
    ((appendAll pieces).run outbox).2 =
      { outbox with draft := outbox.draft.appendAll pieces } := by
  induction pieces generalizing outbox with
  | nil => rfl
  | cons piece rest ih =>
    rw [appendAll, run_bind, ih]
    rfl

theorem run_recordInt (number : Int32) (outbox : Outbox N) : ((recordInt number).run outbox).2 =
    { outbox with
      draft := outbox.draft.appendAll ([recordMark] :: Numeral.signedPieces number) } := by
  rw [recordInt, run_bind, appendInt, run_appendAll]
  rfl

theorem run_numbered (kind : FrameKind) (code : StatusCode) (outbox : Outbox N) :
    ((do reset kind; recordInt code : DraftM Unit).run outbox).2 =
      { outbox with
        draft := outbox.draft.filled kind ([recordMark] :: Numeral.signedPieces code) } := by
  rw [run_bind, run_recordInt]
  rfl

theorem run_nak (code : StatusCode) (outbox : Outbox N) : ((nak code).run outbox).2 =
    { outbox with
      draft := outbox.draft.filled .nak ([recordMark] :: Numeral.signedPieces code) } :=
  run_numbered .nak code outbox

end DraftM

theorem Outbox.send_filled {N : Nat} {outbox : Outbox N} {kind : FrameKind} {pieces : List Bytes}
    {frame : Bytes} (whole : kind.marker :: sealed outbox.draft.crc
      (outbox.draft.header.encode ++ pieces.flatten) ++ [endMark] = frame) :
    (Outbox.send { outbox with draft := outbox.draft.filled kind pieces }).2.channel =
      if frame.length ≤ N then (outbox.channel.deliver frame).channel else outbox.channel := by
  subst whole
  rw [Outbox.send_channel]
  dsimp only
  by_cases kept : (outbox.draft.filled kind pieces).close.overflow = false
  · rw [kept, if_neg (by decide), if_pos (Draft.close_filled_overflow.mp kept),
      Draft.close_filled_bytes kept]
  · rw [if_neg (mt Draft.close_filled_overflow.mpr kept), if_pos (by simpa using kept)]

/-- What becomes of a refusal, whose draft has the header of the request and a trailer to come. -/
theorem Endpoint.refusal_channel {N : Nat} {outbox : Outbox N} {record : Bytes} (name : String)
    (spelled : outbox.draft.header.Spelled record) (crc : outbox.draft.crc = true) :
    ((refusal name).run outbox).2.channel =
      if record.length + 13 ≤ N then (outbox.channel.deliver (refusalFrame record)).channel
      else outbox.channel := by
  have status : ([recordMark] :: Numeral.signedPieces Status.crcMismatch).flatten =
      recordMark :: refusedStatus := by decide +kernel
  have frame : FrameKind.nak.marker :: sealed outbox.draft.crc (outbox.draft.header.encode ++
      ([recordMark] :: Numeral.signedPieces Status.crcMismatch).flatten) ++ [endMark] =
        refusalFrame record := by
    rw [status, spelled.encode_eq, crc, sealed_true, Checksum.trailerPieces_flatten, refusalFrame]
    simp [FrameKind.marker]
  -- A failure of the transport is only logged.
  have reported : ((refusal name).run outbox).2.channel =
      ((DraftM.send.run ((DraftM.nak Status.crcMismatch).run outbox).2)).2.channel := by
    rw [refusal, DraftM.run_bind, DraftM.run_bind]
    split
    · rfl
    · rfl
  rw [reported, DraftM.run_nak, ← length_refusalFrame]
  exact Outbox.send_filled frame

end FirmwareLink

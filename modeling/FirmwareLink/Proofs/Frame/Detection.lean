import FirmwareLink.Proofs.Checksum.Errors
import FirmwareLink.Proofs.Frame.Reception
import FirmwareLink.Proofs.Frame.RoundTrip

namespace FirmwareLink

open Wire Body

structure Body.Trailable (payload : Bytes) : Prop where
  noEnd : endMark ∉ payload
  noTrailer : trailerMark ∉ payload
  records : payload.count recordMark < maxRecords

theorem Body.Proves.crc16_eq {digits payload other : Bytes} (proves : Proves digits payload)
    (again : Proves digits other) : crc16 payload = crc16 other := by
  obtain ⟨numbers, spelled, value⟩ := proves.value
  obtain ⟨others, respelled, same⟩ := again.value
  have numbers_eq : numbers.map some = others.map some := spelled.symm.trans respelled
  obtain rfl := List.map_injective_iff.mpr (Option.some_injective Nat) numbers_eq
  exact UInt16.toNat_inj.mp (value.symm.trans same)

namespace Parser

variable {N : Nat} {parser : Parser N}

theorem receives_trailed (outside : parser.isActive = false) (kind : FrameKind)
    {payload digits : Bytes} (trailable : Trailable payload) (spelled : Plain digits)
    (room : payload.length + digits.length ≤ N) :
    ∃ frame, parser.Receives kind (payload ++ trailerMark :: digits) frame ∧
      frame.Decodes kind (payload ++ trailerMark :: digits) := by
  have other : endMark ≠ trailerMark := by decide
  have noEnd : endMark ∉ payload ++ trailerMark :: digits :=
    List.not_mem_append trailable.noEnd
      (List.not_mem_cons_of_ne_of_not_mem other spelled.noEnd)
  exact receives_of_admissible outside kind noEnd
    (admissible_trailed trailable.noTrailer trailable.records spelled room)

/-- Behind the digits of a checksum a parser tells the payload that they were made for from any
    that differs from it by a detectable error, since the checksums of the two differ. -/
theorem receives_detects (parser : Parser N) (outside : parser.isActive = false)
    (kind : FrameKind) (sent received digits : Bytes) (same : received.length = sent.length)
    (sendable : Trailable sent) (receivable : Trailable received) (proves : Proves digits sent)
    (room : sent.length + digits.length ≤ N) :
    (Detectable sent received →
        ∃ frame, parser.Receives kind (received ++ trailerMark :: digits) frame ∧
          frame.crc = .mismatched) ∧
      (∃ frame, parser.Receives kind (sent ++ trailerMark :: digits) frame ∧
        frame.crc = .matched) ∧
      ∀ message other : Bytes, message.length = other.length → Detectable message other →
        crc16 message ≠ crc16 other := by
  refine ⟨fun detectable => ?_, ?_, fun message other => Checksum.crc16_ne_of_detectable⟩
  · have differ := Checksum.crc16_ne_of_detectable same.symm detectable
    have disproves : ¬Proves digits received := fun again => differ (proves.crc16_eq again)
    obtain ⟨frame, receives, decodes⟩ :=
      receives_trailed outside kind receivable proves.plain (same ▸ room)
    have judged := judged_mismatched receivable.noTrailer disproves
    exact ⟨frame, receives, decodes.crc.unique judged⟩
  · obtain ⟨frame, receives, decodes⟩ :=
      receives_trailed outside kind sendable proves.plain room
    have judged := judged_matched sendable.noTrailer proves
    exact ⟨frame, receives, decodes.crc.unique judged⟩

/-- Sixteen bits in a row that are all wrong, behind a trailer with digits of either case. -/
theorem receives_detects_burst :
    Detectable [0x61, recordMark, 0x62] [0x61, 0xe1, 0x9d] ∧
      (∃ frame, (Parser.empty : Parser 7).Receives .request
          ([0x61, 0xe1, 0x9d] ++ trailerMark :: [0x63, 0x30, 0x43, 0x33]) frame ∧
        frame.crc = .mismatched) ∧
      ∃ frame, (Parser.empty : Parser 7).Receives .request
          ([0x61, recordMark, 0x62] ++ trailerMark :: [0x63, 0x30, 0x43, 0x33]) frame ∧
        frame.crc = .matched := by
  have burst : Detectable [0x61, recordMark, 0x62] [0x61, 0xe1, 0x9d] :=
    .burst 8 (by decide) (by decide +kernel)
  have proves : Proves [0x63, 0x30, 0x43, 0x33] [0x61, recordMark, 0x62] :=
    ⟨by decide, by decide, [12, 0, 12, 3], by decide, by decide +kernel⟩
  have detects := receives_detects Parser.empty rfl .request [0x61, recordMark, 0x62]
    [0x61, 0xe1, 0x9d] [0x63, 0x30, 0x43, 0x33] rfl ⟨by decide, by decide, by decide⟩
    ⟨by decide, by decide, by decide⟩ proves (Nat.le_refl 7)
  exact ⟨burst, detects.1 burst, detects.2.1⟩

end Parser

end FirmwareLink

import FirmwareLink.Proofs.Frame.RoundTrip

namespace FirmwareLink

open Wire

namespace Header

variable {header : Header}

theorem encode_parse (record : Bytes) : (parse record).encode = record :=
  (parse_spelled record).encode_eq

theorem Spelled.unambiguous (spelled : header.Spelled header.encode) : header.Unambiguous := by
  obtain ⟨id, name, sequence⟩ := header
  obtain ⟨rest, front, back⟩ := spelled
  have named : sequenceMark ∉ name := by
    cases sequence with
    | none =>
      obtain ⟨rfl, unmarked⟩ := back
      exact unmarked
    | some sequence => exact back.2
  cases id with
  | some id => exact ⟨fun other same => Option.some.inj same ▸ front.2, named, nofun⟩
  | none =>
    -- Without an id the whole of the written form must be free of the mark that ends one.
    have unmarked : idMark ∉ encode ⟨none, name, sequence⟩ := front.2
    refine ⟨nofun, named, fun _ => ?_⟩
    cases sequence with
    | none =>
      rw [encode_name] at unmarked
      exact ⟨unmarked, nofun⟩
    | some sequence =>
      rw [encode_some_sequence, List.mem_append, not_or] at unmarked
      obtain ⟨inName, behind⟩ := unmarked
      refine ⟨inName, fun other same inside => behind (List.mem_cons_of_mem _ ?_)⟩
      rwa [Option.some.inj same]

theorem spelled_encode_iff : header.Spelled header.encode ↔ header.Unambiguous :=
  ⟨Spelled.unambiguous, Unambiguous.spelled⟩

theorem parse_encode_iff : parse header.encode = header ↔ header.Unambiguous := by
  rw [← spelled_encode_iff]
  constructor
  · intro same
    have spelled := parse_spelled header.encode
    rwa [same] at spelled
  · exact Spelled.parse_eq

end Header

namespace Draft

variable {N : Nat} {draft : Draft N} {kind : FrameKind}

theorem reset_view (room : draft.header.encode.length < N) :
    (draft.reset kind).view =
      ⟨kind.marker :: draft.header.encode, false, draft.header, draft.crc⟩ := by
  have filled : draft.filled kind [] = draft.reset kind := rfl
  have kept : (draft.filled kind []).overflow = false :=
    filled_overflow.mpr (by simpa using Nat.succ_le_of_lt room)
  have bytes := filled_bytes kept
  have header : (draft.reset kind).header = draft.header := appendAll_header _
  have crc : (draft.reset kind).crc = draft.crc := appendAll_crc _
  rw [filled] at kept bytes
  rw [view, kept, bytes, header, crc, List.flatten_nil, List.append_nil]

/-- What is written of a header that was read is the record that it was read from. What is written
    of any header is read as this header exactly if it is unambiguous. -/
theorem reset_echoes (kind : FrameKind) :
    (∀ (record : Bytes) (draft : Draft N), draft.header = Header.parse record →
      record.length < N → (draft.reset kind).view =
        ⟨kind.marker :: record, false, Header.parse record, draft.crc⟩) ∧
      ∀ draft : Draft N, draft.header.encode.length < N → ∃ record,
        (draft.reset kind).view =
            ⟨kind.marker :: record, false, draft.header, draft.crc⟩ ∧
          (Header.parse record = draft.header ↔ draft.header.Unambiguous) := by
  constructor
  · intro record draft read room
    have written : draft.header.encode = record := by rw [read, Header.encode_parse]
    rw [reset_view (written ▸ room), written, read]
  · intro draft room
    exact ⟨draft.header.encode, reset_view room, Header.parse_encode_iff⟩

def markedRecord : Bytes := [0x61, idMark, sequenceMark, idMark, sequenceMark]

/-- The mark in the name is taken for the end of an id. -/
def misreadHeader : Header := ⟨none, [0x61, idMark], some [0x62]⟩

theorem reset_echoes_marked :
    ((create (Buffer.zeroed 6) (Header.parse markedRecord) true).reset .nak).bytes =
        nakMark :: markedRecord ∧
      ∃ record, ((create (Buffer.zeroed 5) misreadHeader false).reset .request).bytes =
          requestMark :: record ∧ Header.parse record ≠ misreadHeader := by
  have echoed := (reset_echoes .nak).1 markedRecord
    (create (Buffer.zeroed 6) (Header.parse markedRecord) true) rfl (by decide)
  obtain ⟨record, written, read⟩ := (reset_echoes .request).2
    (create (Buffer.zeroed 5) misreadHeader false) (by decide)
  refine ⟨congrArg DraftView.bytes echoed, record, congrArg DraftView.bytes written, ?_⟩
  intro same
  exact absurd (show idMark ∈ misreadHeader.name by decide) ((read.mp same).unmarked rfl).1

end Draft

end FirmwareLink

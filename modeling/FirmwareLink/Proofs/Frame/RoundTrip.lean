import FirmwareLink.Proofs.Draft.Building
import FirmwareLink.Proofs.Frame.Acceptance

namespace FirmwareLink

open Wire Checksum

structure Plain (bytes : Bytes) : Prop where
  noEnd : endMark ∉ bytes
  noRecord : recordMark ∉ bytes
  noTrailer : trailerMark ∉ bytes

instance (bytes : Bytes) : Decidable (Plain bytes) :=
  decidable_of_iff (endMark ∉ bytes ∧ recordMark ∉ bytes ∧ trailerMark ∉ bytes)
    ⟨fun ⟨noEnd, noRecord, noTrailer⟩ => ⟨noEnd, noRecord, noTrailer⟩,
      fun ⟨noEnd, noRecord, noTrailer⟩ => ⟨noEnd, noRecord, noTrailer⟩⟩

theorem Plain.append {before behind : Bytes} (front : Plain before) (back : Plain behind) :
    Plain (before ++ behind) where
  noEnd := List.not_mem_append front.noEnd back.noEnd
  noRecord := List.not_mem_append front.noRecord back.noRecord
  noTrailer := List.not_mem_append front.noTrailer back.noTrailer

/-- A header none of whose parts holds a mark that would be read before the one behind it: no id
    mark in the id, or anywhere if there is no id, and no sequence mark in the name. -/
structure Header.Unambiguous (header : Header) : Prop where
  id : ∀ id ∈ header.id, idMark ∉ id
  name : sequenceMark ∉ header.name
  unmarked : header.id = none →
    idMark ∉ header.name ∧ ∀ sequence ∈ header.sequence, idMark ∉ sequence

structure Header.Writable (header : Header) : Prop where
  id : ∀ id ∈ header.id, Plain id ∧ idMark ∉ id
  name : Plain header.name ∧ sequenceMark ∉ header.name
  sequence : ∀ sequence ∈ header.sequence, Plain sequence
  unmarked : header.id = none →
    idMark ∉ header.name ∧ ∀ sequence ∈ header.sequence, idMark ∉ sequence

namespace Header

variable {header : Header}

theorem encode_some_id (id name : Bytes) (sequence : Option Bytes) :
    encode ⟨some id, name, sequence⟩ = id ++ idMark :: encode ⟨none, name, sequence⟩ := by
  simp [encode, pieces]

theorem encode_some_sequence (name sequence : Bytes) :
    encode ⟨none, name, some sequence⟩ = name ++ sequenceMark :: sequence := by
  simp [encode, pieces]

theorem encode_name (name : Bytes) : encode ⟨none, name, none⟩ = name := by
  simp [encode, pieces]

theorem Writable.plain_encode (writable : header.Writable) : Plain header.encode := by
  obtain ⟨id, name, sequence⟩ := header
  have behind : Plain (encode ⟨none, name, sequence⟩) := by
    cases sequence with
    | none =>
      rw [encode_name]
      exact writable.name.1
    | some sequence =>
      have mark : Plain [sequenceMark] := ⟨by decide, by decide, by decide⟩
      rw [encode_some_sequence]
      exact writable.name.1.append (mark.append (writable.sequence sequence rfl))
  cases id with
  | none => exact behind
  | some id =>
    have mark : Plain [idMark] := ⟨by decide, by decide, by decide⟩
    rw [encode_some_id]
    exact (writable.id id rfl).1.append (mark.append behind)

theorem Unambiguous.spelled (unambiguous : header.Unambiguous) : header.Spelled header.encode := by
  obtain ⟨id, name, sequence⟩ := header
  refine ⟨encode ⟨none, name, sequence⟩, ?_, ?_⟩
  · cases id with
    | none =>
      obtain ⟨inName, inSequence⟩ := unambiguous.unmarked rfl
      refine ⟨rfl, ?_⟩
      cases sequence with
      | none =>
        rw [encode_name]
        exact inName
      | some sequence =>
        have other : idMark ≠ sequenceMark := by decide
        rw [encode_some_sequence]
        exact List.not_mem_append inName (List.not_mem_cons_of_ne_of_not_mem other
          (inSequence sequence rfl))
    | some id => exact ⟨encode_some_id id name sequence, unambiguous.id id rfl⟩
  · cases sequence with
    | none =>
      refine ⟨encode_name name, ?_⟩
      rw [encode_name]
      exact unambiguous.name
    | some sequence => exact ⟨encode_some_sequence name sequence, unambiguous.name⟩

theorem Spelled.encode_eq {record : Bytes} (spelled : header.Spelled record) :
    header.encode = record := by
  obtain ⟨id, name, sequence⟩ := header
  obtain ⟨rest, front, back⟩ := spelled
  have behind : encode ⟨none, name, sequence⟩ = rest := by
    cases sequence with
    | none => exact (encode_name name).trans back.1.symm
    | some sequence => exact (encode_some_sequence name sequence).trans back.1.symm
  cases id with
  | none => exact behind.trans front.1.symm
  | some id => rw [encode_some_id, behind, front.1]

theorem Writable.unambiguous (writable : header.Writable) : header.Unambiguous where
  id := fun id isId => (writable.id id isId).2
  name := writable.name.2
  unmarked := writable.unmarked

theorem Writable.spelled (writable : header.Writable) : header.Spelled header.encode :=
  writable.unambiguous.spelled

end Header

namespace Body

variable {N : Nat} {crc : Bool}

def written (header : Header) (records : List Bytes) : Bytes :=
  header.encode ++ records.flatMap (recordMark :: ·)

/-- A payload with the trailer that is asked for. -/
def sealed (crc : Bool) (payload : Bytes) : Bytes :=
  payload ++ if crc then trailerMark :: (trailerPieces (crc16 payload)).flatten else []

theorem sealed_false (payload : Bytes) : sealed false payload = payload := List.append_nil payload

theorem sealed_true (payload : Bytes) :
    sealed true payload = payload ++ trailerMark :: (trailerPieces (crc16 payload)).flatten := rfl

theorem splitOn_records {first : Bytes} {records : List Bytes} (plain : recordMark ∉ first)
    (others : ∀ record ∈ records, recordMark ∉ record) :
    (first ++ records.flatMap (recordMark :: ·)).splitOn recordMark = first :: records := by
  induction records generalizing first with
  | nil => rw [List.flatMap_nil, List.append_nil, List.splitOn_eq_singleton plain]
  | cons record rest ih =>
    obtain ⟨here, later⟩ := List.forall_mem_cons.mp others
    rw [List.flatMap_cons, List.cons_append, List.splitOn_append_cons_self_of_not_mem plain,
      ih here later]

theorem count_records {first : Bytes} {records : List Bytes} (plain : recordMark ∉ first)
    (others : ∀ record ∈ records, recordMark ∉ record) :
    (first ++ records.flatMap (recordMark :: ·)).count recordMark = records.length := by
  induction records generalizing first with
  | nil => rw [List.flatMap_nil, List.append_nil, List.count_eq_zero.mpr plain, List.length_nil]
  | cons record rest ih =>
    obtain ⟨here, later⟩ := List.forall_mem_cons.mp others
    rw [List.flatMap_cons, List.cons_append, List.count_append, List.count_cons_self,
      ih here later, List.count_eq_zero.mpr plain, List.length_cons, Nat.zero_add]

theorem Proves.plain {digits payload : Bytes} (proves : Proves digits payload) : Plain digits := by
  obtain ⟨numbers, spelled, _⟩ := proves.value
  have digit : ∀ byte ∈ digits, Numeral.hexDigit? byte ≠ none := by
    intro byte member none
    have inside : Numeral.hexDigit? byte ∈ digits.map Numeral.hexDigit? :=
      List.mem_map_of_mem member
    rw [spelled, none] at inside
    simp at inside
  exact ⟨fun member => digit _ member (by decide), fun member => digit _ member (by decide),
    fun member => digit _ member (by decide)⟩

theorem payload_sealed {payload : Bytes} (plain : trailerMark ∉ payload) :
    Body.payload (sealed crc payload) = payload := by
  cases crc with
  | false =>
    rw [sealed_false]
    exact payload_of_not_mem plain
  | true => exact payload_append_trailer plain _

theorem judged_matched {payload digits : Bytes} (plain : trailerMark ∉ payload)
    (proves : Proves digits payload) : Judged (payload ++ trailerMark :: digits) .matched := by
  have front := payload_append_trailer plain digits
  refine ⟨digits, ?_, ?_⟩
  · rw [front]
  · rw [front]
    exact proves

theorem judged_mismatched {payload digits : Bytes} (plain : trailerMark ∉ payload)
    (disproves : ¬Proves digits payload) :
    Judged (payload ++ trailerMark :: digits) .mismatched := by
  have front := payload_append_trailer plain digits
  refine ⟨digits, ?_, ?_⟩
  · rw [front]
  · rw [front]
    exact disproves

theorem judged_sealed {payload : Bytes} (plain : trailerMark ∉ payload) :
    Judged (sealed crc payload) (if crc then .matched else .absent) := by
  cases crc with
  | false =>
    rw [sealed_false]
    exact plain
  | true => exact judged_matched plain (trailerPieces_proves payload)

theorem noEnd_sealed {payload : Bytes} (plain : endMark ∉ payload) :
    endMark ∉ sealed crc payload := by
  cases crc with
  | false =>
    rw [sealed_false]
    exact plain
  | true =>
    have digits := (trailerPieces_proves payload).plain
    have other : endMark ≠ trailerMark := by decide
    exact List.not_mem_append plain (List.not_mem_cons_of_ne_of_not_mem other digits.noEnd)

theorem admissible_trailed {payload digits : Bytes} (plain : trailerMark ∉ payload)
    (few : payload.count recordMark < maxRecords) (spelled : Plain digits)
    (fits : payload.length + digits.length ≤ N) :
    Admissible N (payload ++ trailerMark :: digits) := by
  have other : recordMark ≠ trailerMark := by decide
  have behind : recordMark ∉ trailerMark :: digits :=
    List.not_mem_cons_of_ne_of_not_mem other spelled.noRecord
  refine ⟨?_, ?_, ?_, ?_⟩
  · rw [List.count_append, List.count_cons_self, List.count_eq_zero.mpr plain,
      List.count_eq_zero.mpr spelled.noTrailer]
  · rw [List.dropWhile_append_of_pos (passes_of_not_mem plain),
      List.dropWhile_cons_of_neg (by decide)]
    exact behind
  · rw [List.count_append, List.count_eq_zero.mpr behind]
    exact few
  · rw [stored_trailed plain spelled.noTrailer, List.length_append]
    exact fits

theorem admissible_sealed {payload : Bytes} (plain : trailerMark ∉ payload)
    (few : payload.count recordMark < maxRecords)
    (fits : (stored (sealed crc payload)).length ≤ N) : Admissible N (sealed crc payload) := by
  cases crc with
  | false =>
    rw [sealed_false] at fits ⊢
    refine ⟨?_, ?_, few, fits⟩
    · rw [List.count_eq_zero.mpr plain]
      decide
    · rw [dropWhile_of_not_mem plain]
      exact List.not_mem_nil
  | true =>
    have digits := (trailerPieces_proves payload).plain
    rw [sealed_true, stored_trailed plain digits.noTrailer, List.length_append] at fits
    exact admissible_trailed plain few digits fits

end Body

def Frame.ofHeader (kind : FrameKind) (header : Header) (records : List Bytes) (crc : Bool) :
    Frame where
  kind := kind
  header := header
  args := header.name :: records
  crc := if crc then .matched else .absent

section Written

open Body

variable {header : Header} {records : List Bytes}

theorem Body.plain_written (front : Plain header.encode)
    (plain : ∀ record ∈ records, Plain record) :
    endMark ∉ written header records ∧ trailerMark ∉ written header records := by
  have absent : ∀ mark : UInt8, mark ∉ header.encode → (∀ record ∈ records, mark ∉ record) →
      mark ≠ recordMark → mark ∉ written header records := by
    intro mark inHeader inRecords other
    refine List.not_mem_append inHeader fun member => ?_
    obtain ⟨record, among, inside⟩ := List.mem_flatMap.mp member
    exact List.not_mem_cons_of_ne_of_not_mem other (inRecords record among) inside
  exact ⟨absent endMark front.noEnd (fun record among => (plain record among).noEnd) (by decide),
    absent trailerMark front.noTrailer (fun record among => (plain record among).noTrailer)
      (by decide)⟩

theorem Header.Writable.decodes (writable : header.Writable)
    (plain : ∀ record ∈ records, Plain record) (kind : FrameKind) (crc : Bool) :
    (Frame.ofHeader kind header records crc).Decodes kind (sealed crc (written header records)) where
  kind := rfl
  records := by
    refine ⟨header.encode, records, ?_, writable.spelled, rfl⟩
    rw [payload_sealed (plain_written writable.plain_encode plain).2]
    exact splitOn_records writable.plain_encode.noRecord fun record among =>
      (plain record among).noRecord
  crc := judged_sealed (plain_written writable.plain_encode plain).2

end Written

namespace Draft

open Body

variable {N : Nat} {draft : Draft N} {kind : FrameKind} {pieces records : List Bytes}

theorem flatten_recordPieces (records : List Bytes) :
    (recordPieces records).flatten = records.flatMap (recordMark :: ·) := by
  induction records with
  | nil => rfl
  | cons record rest ih =>
    rw [List.flatMap_cons, ← ih]
    simp [recordPieces]

theorem filled_overflow : (draft.filled kind pieces).overflow = false ↔
    (kind.marker :: (draft.header.encode ++ pieces.flatten)).length ≤ N := by
  rw [filled_eq, appendAll_overflow, List.flatten_append]
  simp [clear, Header.encode]

theorem filled_bytes (kept : (draft.filled kind pieces).overflow = false) :
    (draft.filled kind pieces).bytes =
      kind.marker :: (draft.header.encode ++ pieces.flatten) := by
  rw [filled_eq] at kept ⊢
  rw [appendAll_bytes kept, List.flatten_append]
  rfl

theorem filled_closing (kept : (draft.filled kind pieces).overflow = false) :
    kind.marker :: (draft.header.encode ++ pieces.flatten) ++
        (draft.filled kind pieces).closing.flatten =
      kind.marker :: sealed draft.crc (draft.header.encode ++ pieces.flatten) ++ [endMark] := by
  have bytes := filled_bytes kept
  have some_byte : 0 < (draft.filled kind pieces).length := by
    rw [← length_bytes, bytes]
    exact Nat.succ_pos _
  have crc : (draft.filled kind pieces).crc = draft.crc := by
    rw [filled_eq, appendAll_crc]
    rfl
  rw [closing, crc, bytes]
  cases draft.crc <;> simp [sealed, some_byte]

/-- A frame is closed without overflow exactly if it fits the buffer. -/
theorem close_filled_overflow : (draft.filled kind pieces).close.overflow = false ↔
    (kind.marker :: sealed draft.crc (draft.header.encode ++ pieces.flatten) ++
      [endMark]).length ≤ N := by
  rw [close_eq, appendAll_overflow, filled_overflow]
  by_cases room : (kind.marker :: (draft.header.encode ++ pieces.flatten)).length ≤ N
  · have kept := filled_overflow.mpr room
    rw [← filled_closing kept, ← length_bytes, filled_bytes kept, List.length_append]
    exact and_iff_right room
  · have longer : (draft.header.encode ++ pieces.flatten).length ≤
        (sealed draft.crc (draft.header.encode ++ pieces.flatten)).length := by simp [sealed]
    simp only [List.length_append, List.length_cons] at room longer ⊢
    omega

theorem close_filled_bytes (kept : (draft.filled kind pieces).close.overflow = false) :
    (draft.filled kind pieces).close.bytes =
      kind.marker :: sealed draft.crc (draft.header.encode ++ pieces.flatten) ++ [endMark] := by
  rw [close_eq] at kept ⊢
  have before := ((appendAll_overflow _).mp kept).1
  rw [appendAll_bytes kept, filled_bytes before, filled_closing before]

theorem close_recorded_overflow : (draft.recorded kind records).close.overflow = false ↔
    (kind.marker :: sealed draft.crc (written draft.header records) ++ [endMark]).length ≤ N := by
  rw [recorded_eq, close_filled_overflow, flatten_recordPieces]
  rfl

theorem close_recorded_bytes (kept : (draft.recorded kind records).close.overflow = false) :
    (draft.recorded kind records).close.bytes =
      kind.marker :: sealed draft.crc (written draft.header records) ++ [endMark] := by
  rw [recorded_eq] at kept ⊢
  rw [close_filled_bytes kept, flatten_recordPieces]
  rfl

end Draft

namespace DraftM

open Body

variable {N : Nat} {outbox : Outbox N} {kind : FrameKind} {records : List Bytes}

theorem sendRecords_offers
    (fits : (kind.marker :: sealed outbox.draft.crc (written outbox.draft.header records) ++
      [endMark]).length ≤ N) :
    ∃ later, ((sendRecords kind records).run outbox).2.channel.offered =
      outbox.channel.offered ++ (kind.marker ::
        sealed outbox.draft.crc (written outbox.draft.header records) ++ [endMark]) :: later := by
  have kept := Draft.close_recorded_overflow.mpr fits
  rw [run_sendRecords, Outbox.send_channel]
  dsimp only
  rw [kept, if_neg (by decide), Draft.close_recorded_bytes kept]
  exact outbox.channel.deliver_offered (List.cons_ne_nil _ _)

/-- A channel is handed nothing but the whole frame, and only if it fits. -/
theorem sendRecords_handed {frame : Bytes} {later : List Bytes}
    (handed : ((sendRecords kind records).run outbox).2.channel.offered =
      outbox.channel.offered ++ frame :: later) :
    frame = kind.marker :: sealed outbox.draft.crc (written outbox.draft.header records) ++
        [endMark] ∧
      frame.length ≤ N := by
  by_cases kept : (outbox.draft.recorded kind records).close.overflow = false
  · have fits := Draft.close_recorded_overflow.mp kept
    obtain ⟨more, offered⟩ := sendRecords_offers fits
    have same := List.append_cancel_left (offered.symm.trans handed)
    obtain ⟨rfl, _⟩ := List.cons.inj same
    exact ⟨rfl, fits⟩
  · rw [run_sendRecords, Outbox.send_channel, if_pos (by simpa using kept)] at handed
    dsimp only at handed
    have length := congrArg List.length handed
    rw [List.length_append, List.length_cons] at length
    omega

end DraftM

namespace Parser

open Body

theorem pushAll_plain {M : Nat} {parser : Parser M} {header : Header} {records : List Bytes}
    (inactive : parser.isActive = false) (kind : FrameKind) (crc : Bool)
    (front : Plain header.encode) (few : records.length < maxRecords)
    (plain : ∀ record ∈ records, Plain record)
    (room : (sealed crc (written header records)).length ≤ M) :
    (parser.pushAll (kind.marker :: sealed crc (written header records) ++ [endMark])).1 =
        List.replicate ((sealed crc (written header records)).length + 1) .waiting ++
          [.completed] ∧
      (parser.pushAll (kind.marker :: sealed crc (written header records) ++ [endMark])).2.dropped =
        parser.dropped ∧
      ∃ frame, (parser.pushAll (kind.marker :: sealed crc (written header records) ++
          [endMark])).2.frame? = some frame ∧
        frame.Decodes kind (sealed crc (written header records)) := by
  obtain ⟨noEnd, noTrailer⟩ := plain_written front plain
  have count : (written header records).count recordMark = records.length :=
    count_records front.noRecord fun record among => (plain record among).noRecord
  have fits : (stored (sealed crc (written header records))).length ≤ M :=
    Nat.le_trans (List.length_filter_le _ _) room
  have admissible : Admissible M (sealed crc (written header records)) :=
    admissible_sealed noTrailer (count ▸ few) fits
  exact pushAll_frame inactive kind (noEnd_sealed noEnd) admissible

theorem pushAll_written {M : Nat} {parser : Parser M} {header : Header} {records : List Bytes}
    (inactive : parser.isActive = false) (kind : FrameKind) (crc : Bool)
    (writable : header.Writable) (few : records.length < maxRecords)
    (plain : ∀ record ∈ records, Plain record)
    (room : (sealed crc (written header records)).length ≤ M) :
    (parser.pushAll (kind.marker :: sealed crc (written header records) ++ [endMark])).1 =
        List.replicate ((sealed crc (written header records)).length + 1) .waiting ++
          [.completed] ∧
      (parser.pushAll (kind.marker :: sealed crc (written header records) ++ [endMark])).2.dropped =
        parser.dropped ∧
      (parser.pushAll (kind.marker :: sealed crc (written header records) ++ [endMark])).2.frame? =
        some (Frame.ofHeader kind header records crc) := by
  obtain ⟨waits, dropped, frame, shown, decodes⟩ :=
    pushAll_plain inactive kind crc writable.plain_encode few plain room
  refine ⟨waits, dropped, ?_⟩
  rw [shown, decodes.unique (writable.decodes plain kind crc)]

/-- A frame that fits the buffer it is built in is sent, and what is sent is read back as it was
    by any parser that is not within a frame and holds as many bytes as that buffer. -/
theorem pushAll_sent {N : Nat} (outbox : Outbox N) (kind : FrameKind) (records : List Bytes)
    (writable : outbox.draft.header.Writable) (few : records.length < maxRecords)
    (plain : ∀ record ∈ records, Plain record) :
    ((sealed outbox.draft.crc (written outbox.draft.header records)).length + 2 ≤ N →
      ∃ frame later, ((DraftM.sendRecords kind records).run outbox).2.channel.offered =
        outbox.channel.offered ++ frame :: later) ∧
    ∀ (frame : Bytes) (later : List Bytes),
      ((DraftM.sendRecords kind records).run outbox).2.channel.offered =
        outbox.channel.offered ++ frame :: later →
      ∀ (M : Nat) (parser : Parser M), parser.isActive = false → N ≤ M →
        (parser.pushAll frame).1 = List.replicate (frame.length - 1) .waiting ++ [.completed] ∧
          (parser.pushAll frame).2.dropped = parser.dropped ∧
          (parser.pushAll frame).2.frame? =
            some (Frame.ofHeader kind outbox.draft.header records outbox.draft.crc) := by
  have length : ∀ body : Bytes, (kind.marker :: body ++ [endMark]).length = body.length + 2 := by
    simp
  constructor
  · intro fits
    rw [← length] at fits
    exact ⟨_, DraftM.sendRecords_offers fits⟩
  · intro frame later handed M parser inactive room
    obtain ⟨rfl, fits⟩ := DraftM.sendRecords_handed handed
    rw [length] at fits ⊢
    exact pushAll_written inactive kind outbox.draft.crc writable few plain (by omega)

/-- An empty id and sequence, a name with an id mark in it, an empty record. -/
def sampleOutbox : Outbox 14 where
  draft := Draft.create (Buffer.zeroed 14) ⟨some [], [0x61, idMark], some []⟩ true
  channel := Channel.ofPlan [.wouldBlock]
  log := []

def sampleFrame : Bytes :=
  [nakMark, idMark, 0x61, idMark, sequenceMark, recordMark, ackMark, recordMark, trailerMark,
    0x39, 0x33, 0x34, 0x35, endMark]

theorem pushAll_sent_full :
    ((Parser.empty : Parser 14).pushAll sampleFrame).1 =
        List.replicate (sampleFrame.length - 1) .waiting ++ [.completed] ∧
      ((Parser.empty : Parser 14).pushAll sampleFrame).2.dropped = 0 ∧
      ((Parser.empty : Parser 14).pushAll sampleFrame).2.frame? =
        some ⟨.nak, ⟨some [], [0x61, idMark], some []⟩, [[0x61, idMark], [ackMark], []], .matched⟩ :=
  (pushAll_sent sampleOutbox .nak [[ackMark], []]
    ⟨by decide, by decide, by decide, by decide⟩ (by decide) (by decide)).2 sampleFrame
    [sampleFrame] (by decide +kernel) 14 Parser.empty rfl (Nat.le_refl 14)

end Parser

end FirmwareLink

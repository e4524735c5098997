import FirmwareLink.Proofs.Draft.Answer
import FirmwareLink.Proofs.Frame.Numerals

namespace FirmwareLink

open Wire Body Numeral

inductive Field where
  | raw (bytes : Bytes)
  | int (number : Int32)
  | word (number : UInt32)

namespace Field

def record : Field → DraftM Unit
  | .raw bytes => DraftM.recordBytes bytes
  | .int number => DraftM.recordInt number
  | .word number => DraftM.recordHex number

def text : Field → Bytes
  | .raw bytes => bytes
  | .int number => signed number
  | .word number => hex number.toNat

def pieces : Field → List Bytes
  | .raw bytes => [[recordMark], bytes]
  | .int number => [recordMark] :: signedPieces number
  | .word number => [[recordMark], hex number.toNat]

def ReadAt (frame : Frame) (index : Nat) : Field → Prop
  | .raw bytes => frame.arg? index = some bytes
  | .int number => frame.argInt? index = some number
  | .word number => frame.argHex? index = some number

theorem flatten_pieces (field : Field) : field.pieces.flatten = recordMark :: field.text := by
  cases field with
  | raw bytes => simp [pieces, text]
  | int number => simp [pieces, text, signed]
  | word number => simp [pieces, text]

theorem flatten_flatMap_pieces (fields : List Field) :
    (fields.flatMap pieces).flatten = (fields.map text).flatMap (recordMark :: ·) := by
  induction fields with
  | nil => rfl
  | cons field rest ih =>
    rw [List.flatMap_cons, List.flatten_append, flatten_pieces, ih, List.map_cons,
      List.flatMap_cons]

theorem run_record {N : Nat} (field : Field) (outbox : Outbox N) : (field.record.run outbox).2 =
    { outbox with draft := outbox.draft.appendAll field.pieces } := by
  cases field with
  | raw bytes => rfl
  | int number => exact DraftM.run_recordInt number outbox
  | word number => rfl

theorem plain_text {field : Field} (plain : ∀ bytes, field = .raw bytes → Plain bytes) :
    Plain field.text := by
  cases field with
  | raw bytes => exact plain bytes rfl
  | int number => exact plain_signed number
  | word number => exact plain_digitBytes (by decide) (by decide) number.toNat

theorem readWord?_hex (number : UInt32) : readWord? (hex number.toNat) = some number := by
  have read : readHex? (hex number.toNat) = some number.toNat :=
    read?_digits (by decide) (fun _ => hexDigit?_digitByte) number.toNat
  rw [readWord?, read]
  exact (if_pos number.toNat_lt).trans (congrArg some UInt32.ofNat_toNat)

theorem readAt_of_arg {frame : Frame} {index : Nat} {field : Field}
    (arg : frame.arg? index = some field.text) : field.ReadAt frame index := by
  cases field with
  | raw bytes => exact arg
  | int number =>
    change frame.argInt? index = some number
    rw [Frame.argInt?, arg]
    exact readSigned?_signed number
  | word number =>
    change frame.argHex? index = some number
    rw [Frame.argHex?, arg]
    exact readWord?_hex number

end Field

namespace DraftM

variable {N : Nat} {outbox : Outbox N} {kind : FrameKind} {fields : List Field}

def recordFields : List Field → DraftM Unit
  | [] => .done ()
  | field :: rest => do
    field.record
    recordFields rest

def sendFields (kind : FrameKind) (fields : List Field) : DraftM (Except SendError Nat) := do
  reset kind
  recordFields fields
  send

theorem run_recordFields (fields : List Field) (outbox : Outbox N) :
    ((recordFields fields).run outbox).2 =
      { outbox with draft := outbox.draft.appendAll (fields.flatMap Field.pieces) } := by
  induction fields generalizing outbox with
  | nil => rfl
  | cons field rest ih =>
    rw [recordFields, run_bind, ih, Field.run_record, List.flatMap_cons, Draft.appendAll_append]

theorem run_sendFields (kind : FrameKind) (fields : List Field) (outbox : Outbox N) :
    (sendFields kind fields).run outbox =
      Outbox.send { outbox with draft := outbox.draft.filled kind (fields.flatMap Field.pieces) } := by
  have built := run_recordFields fields { outbox with draft := outbox.draft.reset kind }
  rw [sendFields, run_bind, run_bind]
  exact congrArg Outbox.send built

/-- It does not matter to the channel in which pieces a frame is appended. -/
theorem sendFields_channel : ((sendFields kind fields).run outbox).2.channel =
    ((sendRecords kind (fields.map Field.text)).run outbox).2.channel := by
  have records : kind.marker :: sealed outbox.draft.crc (outbox.draft.header.encode ++
      (Draft.recordPieces (fields.map Field.text)).flatten) ++ [endMark] =
        kind.marker :: sealed outbox.draft.crc (outbox.draft.header.encode ++
          (fields.flatMap Field.pieces).flatten) ++ [endMark] := by
    rw [Draft.flatten_recordPieces, Field.flatten_flatMap_pieces]
  rw [run_sendFields, run_sendRecords, Draft.recorded_eq, Outbox.send_filled records,
    Outbox.send_filled rfl]

end DraftM

/-- An argument is read as a number exactly if it is a numeral in range, and that is the number that
    a parser of text makes of it. -/
structure Frame.ReadsNumbers (frame : Frame) (index : Nat) : Prop where
  hex : ∀ number : UInt32, frame.argHex? index = some number ↔
    ∃ text, frame.arg? index = some text ∧ hexRadix.Spells text number.toNat
  int : ∀ number : Int32, frame.argInt? index = some number ↔
    ∃ text, frame.arg? index = some text ∧ SpellsSigned text number.toInt
  hexParsed : frame.argHex? index = (((frame.arg? index).bind unsigned?).bind
    (parse? 0 4294967295 16 hexDigit?)).map fun number => number.toNat.toUInt32
  intParsed : frame.argInt? index = (((frame.arg? index).bind unsigned?).bind
    (parse? (-2147483648) 2147483647 10 decimalDigit?)).map Int32.ofInt

theorem Frame.readsNumbers (frame : Frame) (index : Nat) : frame.ReadsNumbers index where
  hex := fun number => by
    rw [argHex?, Option.bind_eq_some_iff]
    simp only [readWord?_eq_some_iff]
  int := fun number => by
    rw [argInt?, Option.bind_eq_some_iff]
    simp only [readSigned?_eq_some_iff]
  hexParsed := by
    rw [argHex?]
    cases frame.arg? index with
    | none => rfl
    | some text => exact readWord?_eq text
  intParsed := by
    rw [argInt?]
    cases frame.arg? index with
    | none => rfl
    | some text => exact readSigned?_eq text

namespace Parser

theorem pushAll_args {M : Nat} {parser : Parser M} {header : Header} {records : List Bytes}
    (inactive : parser.isActive = false) (kind : FrameKind) (crc : Bool)
    (front : Plain header.encode) (few : records.length < maxRecords)
    (plain : ∀ record ∈ records, Plain record)
    (room : (sealed crc (written header records)).length ≤ M) :
    ∃ frame, (parser.pushAll (kind.marker :: sealed crc (written header records) ++
        [endMark])).2.frame? = some frame ∧ frame.args = frame.header.name :: records := by
  obtain ⟨_, _, frame, shown, decodes⟩ := pushAll_plain inactive kind crc front few plain room
  obtain ⟨first, rest, split, _, args⟩ := decodes.records
  rw [payload_sealed (plain_written front plain).2, written, splitOn_records front.noRecord
    fun record among => (plain record among).noRecord] at split
  obtain ⟨_, rfl⟩ := List.cons.inj split
  exact ⟨frame, shown, args⟩

/-- Every frame reads its arguments as numbers by an exact grammar, and numbers that are sent are
    read back as they were, among any other records and by any parser that has room for them. -/
theorem sent_fields_read :
    (∀ (frame : Frame) (index : Nat), frame.ReadsNumbers index) ∧
      ∀ {N : Nat} (outbox : Outbox N) (kind : FrameKind) (fields : List Field),
        Plain outbox.draft.header.encode → fields.length ≤ 63 →
          (∀ bytes, Field.raw bytes ∈ fields → Plain bytes) →
        ((sealed outbox.draft.crc
            (written outbox.draft.header (fields.map Field.text))).length + 2 ≤ N →
          ∃ frame later, ((DraftM.sendFields kind fields).run outbox).2.channel.offered =
            outbox.channel.offered ++ frame :: later) ∧
        ∀ (frame : Bytes) (later : List Bytes),
          ((DraftM.sendFields kind fields).run outbox).2.channel.offered =
            outbox.channel.offered ++ frame :: later →
          ∀ (M : Nat) (parser : Parser M), parser.isActive = false → N ≤ M →
            ∃ received, (parser.pushAll frame).2.frame? = some received ∧
              ∀ (index : Nat) (field : Field), fields[index]? = some field →
                field.ReadAt received (index + 1) := by
  refine ⟨Frame.readsNumbers, fun {N} outbox kind fields front few raw => ?_⟩
  have plain : ∀ record ∈ fields.map Field.text, Plain record := by
    intro record member
    obtain ⟨field, among, rfl⟩ := List.mem_map.mp member
    exact Field.plain_text fun bytes same => raw bytes (same ▸ among)
  have count : (fields.map Field.text).length < maxRecords := by
    rw [List.length_map]
    exact Nat.lt_succ_of_le few
  have length : ∀ body : Bytes, (kind.marker :: body ++ [endMark]).length = body.length + 2 := by
    simp
  rw [DraftM.sendFields_channel]
  constructor
  · intro fits
    rw [← length] at fits
    exact ⟨_, DraftM.sendRecords_offers fits⟩
  · intro frame later handed M parser inactive room
    obtain ⟨rfl, fits⟩ := DraftM.sendRecords_handed handed
    rw [length] at fits
    obtain ⟨received, shown, args⟩ := pushAll_args inactive kind outbox.draft.crc front count plain
      (by omega)
    refine ⟨received, shown, fun index field found => Field.readAt_of_arg ?_⟩
    rw [Frame.arg?, args, List.getElem?_cons_succ, List.getElem?_map, found]
    rfl

def numberedOutbox : Outbox 32 where
  draft := Draft.create (Buffer.zeroed 32) ⟨none, [0x61], some [0x31]⟩ true
  channel := Channel.ofPlan [.accept 5 none]
  log := []

theorem numberedOutbox_read : ∃ frame later received,
    ((DraftM.sendFields .request [.word 4294967295, .raw [], .int (-2147483648)]).run
      numberedOutbox).2.channel.offered = frame :: later ∧
      ((Parser.empty : Parser 32).pushAll frame).2.frame? = some received ∧
      received.argHex? 1 = some 4294967295 ∧ received.argInt? 3 = some (-2147483648) := by
  obtain ⟨offers, reads⟩ := sent_fields_read.2 numberedOutbox .request
    [.word 4294967295, .raw [], .int (-2147483648)] (by decide) (by decide) (by
      intro bytes member
      obtain rfl : bytes = [] := by simpa using member
      decide)
  obtain ⟨frame, later, handed⟩ := offers (by decide +kernel)
  obtain ⟨received, shown, fields⟩ := reads frame later handed 32 .empty rfl (Nat.le_refl 32)
  exact ⟨frame, later, received, handed, shown, fields 0 _ rfl, fields 2 _ rfl⟩

end Parser

end FirmwareLink

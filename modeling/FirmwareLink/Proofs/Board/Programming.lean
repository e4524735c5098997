import FirmwareLink.Proofs.Board.Answers
import FirmwareLink.Proofs.Pool.Restoration

namespace FirmwareLink

open Wire Body Pool

variable {B : Type} [Board B] {frame : Frame} {device : Device B} {order other : FlashOrder}
  {block : Nat} {lent pool : SharedPool} {decoded : Except StatusCode Nat} {content : Bytes}
  {outcome : Except StatusCode Unit} {fields : List Bytes} {calls : List BoardCall}

structure Writes (frame : Frame) (device : Device B) (calls : List BoardCall) : Prop where
  alone : ∀ lent partition offset data, .write lent partition offset data ∈ calls →
    calls = [.write lent partition offset data]
  exactly : ∀ lent partition offset data, .write lent partition offset data ∈ calls ↔
    frame.name = Bytes.ofText "flash" ∧ ∃ length text block,
      Unpacks frame device ⟨partition, offset, length, text⟩ block lent (.ok length.toNat) data
  lends : ∀ order block lent decoded content,
    Unpacks frame device order block lent decoded content →
      device.pool.Lends order.length.toNat block lent content

theorem Frame.Orders.unique (orders : frame.Orders order) (others : frame.Orders other) :
    order = other := by
  obtain ⟨partition, offset, length, text⟩ := order
  obtain ⟨otherPartition, otherOffset, otherLength, otherText⟩ := other
  obtain rfl := Option.some.inj (orders.partition.symm.trans others.partition)
  obtain rfl := Option.some.inj (orders.offset.symm.trans others.offset)
  obtain rfl := Option.some.inj (orders.length.symm.trans others.length)
  obtain rfl := Option.some.inj (orders.text.symm.trans others.text)
  rfl

namespace Unpacks

variable (unpacks : Unpacks frame device order block lent decoded content)

include unpacks

theorem whole : content.length = order.length.toNat := by
  obtain ⟨decodedContent, rfl, _⟩ := unpacks.decodes
  exact Vector.length_toList

theorem unique {address : Nat} {leaves : SharedPool} {result : Except StatusCode Nat} {data : Bytes}
    (others : Unpacks frame device other address leaves result data) :
    order = other ∧ block = address ∧ lent = leaves ∧ decoded = result ∧ content = data := by
  obtain rfl := unpacks.orders.unique others.orders
  obtain rfl := Option.some.inj (unpacks.allocated.symm.trans others.allocated)
  obtain ⟨one, rfl, decodes⟩ := unpacks.decodes
  obtain ⟨two, rfl, otherDecodes⟩ := others.decodes
  obtain ⟨rfl, rfl⟩ := Prod.mk.inj (decodes.symm.trans otherDecodes)
  exact ⟨rfl, rfl, unpacks.pool.trans others.pool.symm, rfl, rfl⟩

theorem lends (used : device.pool.Used) :
    device.pool.Lends order.length.toNat block lent content ∧
      SharedPool.Restored 1 device.pool (lent.free block).pool := by
  rw [unpacks.pool]
  exact used.lends unpacks.allocated unpacks.whole

end Unpacks

namespace Programs

variable (programs : Programs frame device outcome calls pool)

include programs

theorem restored (used : device.pool.Used) :
    ∃ count, SharedPool.Restored count device.pool pool := by
  cases programs with
  | malformed => exact ⟨0, used.refl⟩
  | exhausted orders refused =>
    rcases used.allocateZeroed _ 1 with ⟨_, restored⟩ | ⟨block, _, granted⟩
    · exact restored
    · rw [granted] at refused
      cases refused
  | undecoded unpacks => exact ⟨1, (unpacks.lends used).2⟩
  | missized unpacks => exact ⟨1, (unpacks.lends used).2⟩
  | written unpacks => exact ⟨1, (unpacks.lends used).2⟩

theorem write_iff {partition : String} {offset : UInt32} {data : Bytes} :
    .write lent partition offset data ∈ calls ↔ ∃ length text block, Unpacks frame device
      ⟨partition, offset, length, text⟩ block lent (.ok length.toNat) data := by
  -- What was decoded is unique, so no way but `written` leaves room for a payload of full size.
  cases programs with
  | malformed malformed =>
    refine iff_of_false List.not_mem_nil ?_
    rintro ⟨length, text, block, unpacks⟩
    exact malformed _ unpacks.orders
  | exhausted orders refused =>
    refine iff_of_false List.not_mem_nil ?_
    rintro ⟨length, text, block, unpacks⟩
    obtain rfl := orders.unique unpacks.orders
    rw [unpacks.allocated] at refused
    cases refused
  | undecoded failed =>
    refine iff_of_false List.not_mem_nil ?_
    rintro ⟨length, text, block, unpacks⟩
    obtain ⟨_, _, _, differ, _⟩ := failed.unique unpacks
    cases differ
  | missized missized differ =>
    refine iff_of_false List.not_mem_nil ?_
    rintro ⟨length, text, block, unpacks⟩
    obtain ⟨rfl, _, _, same, _⟩ := missized.unique unpacks
    exact differ (Except.ok.inj same)
  | written written =>
    rw [List.mem_singleton]
    constructor
    · intro same
      obtain ⟨rfl, rfl, rfl, rfl⟩ := BoardCall.write.inj same
      exact ⟨_, _, _, written⟩
    · rintro ⟨length, text, block, unpacks⟩
      obtain ⟨rfl, _, rfl, _, rfl⟩ := written.unique unpacks
      rfl

theorem alone {partition : String} {offset : UInt32} {data : Bytes}
    (asked : .write lent partition offset data ∈ calls) :
    calls = [.write lent partition offset data] := by
  cases programs with
  | written => rw [List.mem_singleton.mp asked]
  | _ => exact absurd asked List.not_mem_nil

end Programs

namespace Fulfils

variable (fulfils : Fulfils frame device outcome fields calls pool)

include fulfils

theorem restored (used : device.pool.Used) :
    ∃ count, SharedPool.Restored count device.pool pool := by
  cases fulfils with
  | flashed _ programs => exact programs.restored used
  | _ => exact ⟨0, used.refl⟩

theorem no_write {partition : String} {offset : UInt32} {data : Bytes}
    (other : frame.name ≠ Bytes.ofText "flash") : .write lent partition offset data ∉ calls := by
  cases fulfils with
  | flashed named => exact absurd named other
  | _ => simp

theorem programs (named : frame.name = Bytes.ofText "flash") :
    Programs frame device outcome calls pool := by
  cases fulfils with
  | flashed _ programs => exact programs
  | erased other | notErased other | guarded other | notGuarded other | versions other
  | rebooted other | slot other | noSlot other =>
    rw [named] at other
    exact absurd other (by decide)

theorem writes (used : device.pool.Used) : Writes frame device calls := by
  have lends : ∀ order block lent decoded content,
      Unpacks frame device order block lent decoded content →
        device.pool.Lends order.length.toNat block lent content :=
    fun _ _ _ _ _ unpacks => (unpacks.lends used).1
  by_cases named : frame.name = Bytes.ofText "flash"
  · have programs := fulfils.programs named
    exact ⟨fun _ _ _ _ => programs.alone,
      fun _ _ _ _ => programs.write_iff.trans (and_iff_right named).symm, lends⟩
  · have never : ∀ lent partition offset data, .write lent partition offset data ∉ calls :=
      fun _ _ _ _ => fulfils.no_write named
    exact ⟨fun _ _ _ _ asked => absurd asked (never _ _ _ _),
      fun _ _ _ _ => iff_of_false (never _ _ _ _) fun flash => named flash.1, lends⟩

end Fulfils

namespace Endpoint

variable {N : Nat} {directory : Directory (Device B)} {endpoint : Endpoint (Device B) N}
  {heard record : Bytes} {byte : UInt8} {body : Bytes}

structure Serviced (directory : Directory (Device B)) (endpoint : Endpoint (Device B) N)
    (byte : UInt8) (body : Bytes) (frame : Frame) (record : Bytes) : Prop where
  refused : frame.kind = .request ∧ frame.crc = .mismatched →
    (endpoint.push directory byte).2.context = endpoint.context
  ignored : (∀ command ∈ directory.table frame.kind, Bytes.ofText command.name ≠ frame.name) →
    (endpoint.push directory byte).2.context = endpoint.context
  served : ¬(frame.kind = .request ∧ frame.crc = .mismatched) →
    (∃ command ∈ directory.table frame.kind, Bytes.ofText command.name = frame.name) →
      ∃ outcome fields calls pool, Fulfils frame endpoint.context outcome fields calls pool ∧
        Answers directory endpoint byte
          (answerFrame (decide (trailerMark ∈ body)) record outcome fields) calls pool ∧
        Writes frame endpoint.context calls

structure Takes (directory : Directory (Device B)) (heard : Bytes)
    (endpoint : Endpoint (Device B) N) (byte : UInt8) : Prop where
  goesOn : (endpoint.push directory byte).1 = false →
    (endpoint.push directory byte).2.context = endpoint.context
  completes : (endpoint.push directory byte).1 = true → ∃ kind body frame record rest,
    endpoint.parser.Completes heard byte kind body frame ∧
      (payload body).splitOn recordMark = record :: rest ∧
      Serviced directory endpoint byte body frame record

theorem Serviced.restored (serviced : Serviced directory endpoint byte body frame record)
    (used : endpoint.context.pool.Used) : ∃ count,
      SharedPool.Restored count endpoint.context.pool
        (endpoint.push directory byte).2.context.pool := by
  have unchanged : (endpoint.push directory byte).2.context = endpoint.context → ∃ count,
      SharedPool.Restored count endpoint.context.pool
        (endpoint.push directory byte).2.context.pool := by
    intro same
    rw [same]
    exact ⟨0, used.refl⟩
  by_cases refused : frame.kind = .request ∧ frame.crc = .mismatched
  · exact unchanged (serviced.refused refused)
  · by_cases listed : ∃ command ∈ directory.table frame.kind, Bytes.ofText command.name = frame.name
    · obtain ⟨_, _, _, _, fulfils, answers, _⟩ := serviced.served refused listed
      rw [answers.device]
      exact fulfils.restored used
    · refine unchanged (serviced.ignored fun command member same => ?_)
      exact listed ⟨command, member, same⟩

section Maintained

variable (entries : ∀ kind, ∀ command ∈ directory.table kind, command ∈ Maintenance.table)

include entries

theorem serviced_of_completes {kind : FrameKind} {rest : List Bytes}
    (completes : endpoint.parser.Completes heard byte kind body frame)
    (records : (payload body).splitOn recordMark = record :: rest)
    (used : endpoint.context.pool.Used) :
    Serviced directory endpoint byte body frame record := by
  have dispatches : Dispatches directory endpoint byte body frame record :=
    dispatches completes records
  refine ⟨fun refused => (dispatches.refused refused).context, fun others => ?_,
    fun passes listed => ?_⟩
  · by_cases refused : frame.kind = .request ∧ frame.crc = .mismatched
    · exact (dispatches.refused refused).context
    · exact (dispatches.ignored refused others).context
  · obtain ⟨outcome, fields, calls, pool, fulfils, answers⟩ :=
      answers_of_listed (entries frame.kind) completes records passes listed
    exact ⟨outcome, fields, calls, pool, fulfils, answers, fulfils.writes used⟩

theorem push_restores (reached : Reached directory heard endpoint)
    (used : endpoint.context.pool.Used) (byte : UInt8) :
    (∃ count, SharedPool.Restored count endpoint.context.pool
      (endpoint.push directory byte).2.context.pool) ∧ Takes directory heard endpoint byte := by
  rcases reached.push_either byte with
    ⟨told, kind, body, frame, record, rest, completes, records⟩ | ⟨told, same⟩
  · have serviced := serviced_of_completes entries completes records used
    refine ⟨serviced.restored used, fun goesOn => ?_, fun _ =>
      ⟨kind, body, frame, record, rest, completes, records, serviced⟩⟩
    rw [told] at goesOn
    cases goesOn
  · refine ⟨⟨0, ?_⟩, fun _ => same.context.symm, fun completed => ?_⟩
    · rw [← same.context]
      exact used.refl
    · rw [told] at completed
      cases completed

theorem feed_restored (reached : Reached directory heard endpoint)
    (used : endpoint.context.pool.Used) (bytes : Bytes) : ∃ count,
      SharedPool.Restored count endpoint.context.pool
        (endpoint.feed directory bytes).2.context.pool := by
  -- A pool that is restored is one in use again, which carries the induction over the bytes.
  induction bytes generalizing heard endpoint with
  | nil => exact ⟨0, used.refl⟩
  | cons byte rest ih =>
    obtain ⟨⟨one, first⟩, _⟩ := push_restores entries reached used byte
    obtain ⟨more, later⟩ := ih (reached.feed [byte]) first.used
    exact ⟨one + more, first.trans later⟩

end Maintained

/-- Whatever an endpoint of maintenance commands hears, its pool is as it was, and its board writes
    only what was announced. -/
theorem feed_restores
    (entries : ∀ kind, ∀ command ∈ directory.table kind, command ∈ Maintenance.table)
    (reached : Reached directory heard endpoint) (used : endpoint.context.pool.Used)
    (bytes : Bytes) :
    (∃ count, SharedPool.Restored count endpoint.context.pool
      (endpoint.feed directory bytes).2.context.pool) ∧
    ∀ before byte after, bytes = before ++ byte :: after →
      (endpoint.feed directory bytes).2 =
          (((endpoint.feed directory before).2.push directory byte).2.feed directory after).2 ∧
        Takes directory (heard ++ before) (endpoint.feed directory before).2 byte := by
  refine ⟨feed_restored entries reached used bytes, ?_⟩
  rintro before byte after rfl
  obtain ⟨count, restored⟩ := feed_restored entries reached used before
  exact ⟨feed_append directory endpoint before (byte :: after),
    (push_restores entries (reached.feed before) restored.used byte).2⟩

structure RecordingBoard where
  written : List (String × UInt32 × Bytes)

instance : Board RecordingBoard where
  erase board _ := (.error Status.unsupported, board)
  writeProtect board _ _ := (.error Status.unsupported, board)
  write board _ partition offset data := (.ok (), ⟨board.written ++ [(partition, offset, data)]⟩)
  decode _ text length block :=
    (.ok text.length, Vector.ofFn fun index : Fin length => text[index.val]?.getD block[index])
  appVersion _ := ""
  kernelVersion _ := ""
  buildStamp _ := ""
  activeSlot _ := .error Status.unsupported
  scheduleReboot board := board

def recordingDirectory : Directory (Device RecordingBoard) := ⟨Maintenance.table, []⟩

def sharedOut : List Event := [.call (.addArena 4096 8192), .call (.allocate 100)]

def recordingEndpoint : Endpoint (Device RecordingBoard) 64 :=
  create ⟨⟨[]⟩, ⟨((Usage.start .zeroed).run sharedOut).pool, none, false, .allocating 8⟩⟩
    (Channel.ofPlan [])

/-- The request `flash` for two bytes at 16 of the partition `b`, but for its end. -/
def flashRequest : Bytes :=
  [requestMark, 0x66, 0x6C, 0x61, 0x73, 0x68, recordMark, 0x62, recordMark, 0x31, 0x30, recordMark,
    0x32, recordMark, 0x78, 0x79]

def flashedEndpoint : Endpoint (Device RecordingBoard) 64 :=
  (recordingEndpoint.feed recordingDirectory (flashRequest ++ [endMark])).2

theorem recordingEndpoint_restores :
    flashedEndpoint.context.board.written = [("b", 16, [0x78, 0x79])] ∧
      (∃ count, SharedPool.Restored count recordingEndpoint.context.pool
        flashedEndpoint.context.pool) ∧
      Takes recordingDirectory flashRequest
        (recordingEndpoint.feed recordingDirectory flashRequest).2 endMark := by
  have entries : ∀ kind, ∀ command ∈ recordingDirectory.table kind,
      command ∈ Maintenance.table := by
    intro kind command member
    cases kind with
    | request => exact member
    | ack | nak => cases member
  have region : (Usage.start .zeroed).Proper (.call (.addArena 4096 8192)) :=
    ⟨by decide, by decide, fun _ _ _ _ => Memory.byte_zeroed _⟩
  have used : recordingEndpoint.context.pool.Used :=
    ⟨rfl, rfl, .zeroed, sharedOut, ⟨region, trivial, trivial⟩, ⟨trivial, trivial, trivial⟩, rfl⟩
  have reached : Reached recordingDirectory [] recordingEndpoint := .create _ _
  obtain ⟨restored, each⟩ := feed_restores entries reached used (flashRequest ++ [endMark])
  exact ⟨by decide +kernel, restored, (each flashRequest endMark [] rfl).2⟩

end Endpoint

end FirmwareLink

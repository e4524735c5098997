import FirmwareLink.Proofs.Board.Service
import FirmwareLink.Proofs.Endpoint.Dispatch

namespace FirmwareLink

open Wire Body

def Maintenance.names : List String := ["erase", "wrprt", "flash", "ver", "reboot", "slot"]

namespace Endpoint

variable {B : Type} [Board B] {N : Nat} {directory : Directory (Device B)}
  {endpoint : Endpoint (Device B) N} {heard : Bytes} {frame : Frame}

structure Answers (directory : Directory (Device B)) (endpoint : Endpoint (Device B) N)
    (byte : UInt8) (answer : Bytes) (calls : List BoardCall) (pool : SharedPool) : Prop where
  channel : (endpoint.push directory byte).2.channel =
    if answer.length ≤ N then (endpoint.channel.deliver answer).channel else endpoint.channel
  device : (endpoint.push directory byte).2.context = endpoint.context.after calls pool

theorem first_entry {C : Type} {entries : List (Command C)} {name : Bytes}
    (listed : ∃ command ∈ entries, Bytes.ofText command.name = name) :
    ∃ earlier command later, entries = earlier ++ command :: later ∧
      (∀ other ∈ earlier, Bytes.ofText other.name ≠ name) ∧ Bytes.ofText command.name = name := by
  obtain ⟨command, member, same⟩ := listed
  have found : (entries.find? fun command => Bytes.ofText command.name = name).isSome := by
    rw [List.find?_isSome]
    exact ⟨command, member, decide_eq_true same⟩
  obtain ⟨first, found⟩ := Option.isSome_iff_exists.mp found
  obtain ⟨matching, earlier, later, split, others⟩ := List.find?_eq_some_iff_append.mp found
  refine ⟨earlier, first, later, split, fun other among => ?_, of_decide_eq_true matching⟩
  simpa using others other among

theorem listed_of_named (requests : directory.requests = Maintenance.table)
    (named : frame.name ∈ Maintenance.names.map Bytes.ofText) :
    ∃ command ∈ directory.requests, Bytes.ofText command.name = frame.name := by
  have names : (Maintenance.table : List (Command (Device B))).map Command.name =
      Maintenance.names := rfl
  rw [← names, ← requests, List.map_map] at named
  exact List.mem_map.mp named

theorem answers_of_listed {byte : UInt8} {kind : FrameKind} {body record : Bytes}
    {rest : List Bytes}
    (known : ∀ command ∈ directory.table frame.kind, command ∈ Maintenance.table)
    (completes : endpoint.parser.Completes heard byte kind body frame)
    (records : (payload body).splitOn recordMark = record :: rest)
    (passes : ¬(frame.kind = .request ∧ frame.crc = .mismatched))
    (listed : ∃ command ∈ directory.table frame.kind,
      Bytes.ofText command.name = frame.name) :
    ∃ outcome fields calls pool, Fulfils frame endpoint.context outcome fields calls pool ∧
      Answers directory endpoint byte
        (answerFrame (decide (trailerMark ∈ body)) record outcome fields) calls pool := by
  obtain ⟨first, others, split, spelled, _⟩ := completes.decodes.records
  obtain ⟨rfl, rfl⟩ := List.cons.inj (split.symm.trans records)
  obtain ⟨earlier, command, later, table, different, same⟩ := first_entry listed
  have member : command ∈ Maintenance.table := known command (by simp [table])
  obtain ⟨_, outbox, ran, channel⟩ :=
    (dispatches completes records).served passes earlier command later table different same
  obtain ⟨outcome, fields, calls, pool, fulfils, tells⟩ :=
    Maintenance.table_settles endpoint.context member same.symm
  obtain ⟨value, sent⟩ := tells N ⟨Draft.create endpoint.transmit frame.header
    frame.crc.isPresent, endpoint.channel, endpoint.log⟩
  rw [ran] at value sent
  have trailer : frame.crc.isPresent = decide (trailerMark ∈ body) :=
    completes.decodes.crc.isPresent_eq
  refine ⟨outcome, fields, calls, pool, fulfils, ?_, value⟩
  rw [channel, sent, ← trailer, ← spelled.encode_eq]
  rfl

/-- A maintenance request is answered once, as it went, if the answer fits, and its calls of the
    board are made in any case. -/
theorem push_answers (requests : directory.requests = Maintenance.table)
    (reached : Reached directory heard endpoint) (byte : UInt8)
    (completed : (endpoint.push directory byte).1 = true) :
    ∃ kind body frame record rest,
      endpoint.parser.Completes heard byte kind body frame ∧
      (payload body).splitOn recordMark = record :: rest ∧
      (kind = .request → frame.crc ≠ .mismatched →
        frame.name ∈ Maintenance.names.map Bytes.ofText →
          ∃ outcome fields calls pool, Fulfils frame endpoint.context outcome fields calls pool ∧
            Answers directory endpoint byte
              (answerFrame (decide (trailerMark ∈ body)) record outcome fields) calls pool) := by
  rcases reached.push_either byte with
    ⟨_, kind, body, frame, record, rest, completes, records⟩ | ⟨goesOn, _⟩
  · refine ⟨kind, body, frame, record, rest, completes, records, ?_⟩
    intro request passes named
    have table : directory.table frame.kind = directory.requests := by
      rw [completes.decodes.kind, request]
      rfl
    refine answers_of_listed ?_ completes records (fun refused => passes refused.2) ?_
    · rw [table, requests]
      exact fun _ member => member
    · rw [table]
      exact listed_of_named requests named
  · rw [goesOn] at completed
    cases completed

structure ErasableBoard where
  erased : Nat

instance : Board ErasableBoard where
  erase board partition :=
    if partition = "b" then (.ok (), ⟨board.erased + 1⟩) else (.error Status.ioFailure, board)
  writeProtect board _ _ := (.error Status.unsupported, board)
  write board _ _ _ _ := (.error Status.ioFailure, board)
  decode _ _ _ block := (.error Status.malformedPayload, block)
  appVersion _ := "1"
  kernelVersion _ := "2"
  buildStamp _ := ""
  activeSlot _ := .error Status.unsupported
  scheduleReboot board := board

def erasableDirectory : Directory (Device ErasableBoard) := ⟨Maintenance.table, []⟩

/-- The request `1@erase` has been heard with its partition and its trailer, but for its end. -/
def erasingRequest : Bytes :=
  [requestMark, 0x31, idMark, 0x65, 0x72, 0x61, 0x73, 0x65, recordMark, 0x62, trailerMark, 0x39,
    0x42, 0x42, 0x37]

def erasingEndpoint : Endpoint (Device ErasableBoard) 18 :=
  ((create ⟨⟨0⟩, SharedPool.create .zeroed .plain⟩ (Channel.ofPlan [])).feed erasableDirectory
    erasingRequest).2

def erasingFrame : Frame where
  kind := .request
  header := ⟨some [0x31], [0x65, 0x72, 0x61, 0x73, 0x65], none⟩
  args := [[0x65, 0x72, 0x61, 0x73, 0x65], [0x62]]
  crc := .matched

/-- The answer fills the buffer to its last byte. -/
theorem erasingEndpoint_answers :
    (erasingEndpoint.push erasableDirectory endMark).2.context.board.erased = 1 ∧
      (erasingEndpoint.push erasableDirectory endMark).2.channel.accepted =
        [ackMark, 0x31, idMark, 0x65, 0x72, 0x61, 0x73, 0x65, recordMark, 0x30, recordMark, 0x62,
          trailerMark, 0x34, 0x46, 0x31, 0x42, endMark] ∧
      ∃ body record outcome fields calls pool,
        erasingEndpoint.parser.Completes erasingRequest endMark .request body erasingFrame ∧
          Fulfils erasingFrame erasingEndpoint.context outcome fields calls pool ∧
          Answers erasableDirectory erasingEndpoint endMark
            (answerFrame (decide (trailerMark ∈ body)) record outcome fields) calls pool := by
  have reached : Reached erasableDirectory erasingRequest erasingEndpoint :=
    .feed erasingRequest (.create _ _)
  obtain ⟨kind, body, frame, record, _, completes, _, answers⟩ :=
    push_answers rfl reached endMark (by decide +kernel)
  have shown : (erasingEndpoint.parser.push endMark).2.frame? = some erasingFrame := by
    decide +kernel
  obtain rfl : erasingFrame = frame := Option.some.inj (shown.symm.trans completes.shown)
  obtain rfl : .request = kind := completes.decodes.kind
  obtain ⟨outcome, fields, calls, pool, fulfils, told⟩ :=
    answers rfl (by decide) (by decide +kernel)
  exact ⟨by decide +kernel, by decide +kernel, body, record, outcome, fields, calls, pool,
    completes, fulfils, told⟩

end Endpoint

end FirmwareLink

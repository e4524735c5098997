import FirmwareLink.Board.Maintenance
import FirmwareLink.Proofs.Draft.Answer
import FirmwareLink.Proofs.Endpoint.Order

namespace FirmwareLink

open Wire

inductive BoardCall where
  | erase (partition : String)
  | writeProtect (partition : String) (level : Int32)
  | write (pool : SharedPool) (partition : String) (offset : UInt32) (data : Bytes)
  | scheduleReboot

def Frame.arguments (frame : Frame) (indices : List Nat) : List Bytes :=
  indices.filterMap frame.arg?

structure FlashOrder where
  partition : String
  offset : UInt32
  length : UInt32
  text : Bytes

structure Frame.Orders (frame : Frame) (order : FlashOrder) : Prop where
  partition : frame.argText? 1 = some order.partition
  offset : frame.argHex? 2 = some order.offset
  length : frame.argHex? 3 = some order.length
  text : frame.arg? 4 = some order.text
  some_byte : order.length ≠ 0

section Board

variable {B : Type} [Board B]

def BoardCall.perform : BoardCall → B → B
  | .erase partition, board => (Board.erase board partition).2
  | .writeProtect partition level, board => (Board.writeProtect board partition level).2
  | .write pool partition offset data, board =>
    (Board.write board pool partition offset data).2
  | .scheduleReboot, board => Board.scheduleReboot board

def Device.after (device : Device B) (calls : List BoardCall) (pool : SharedPool) : Device B where
  board := calls.foldl (fun board call => call.perform board) device.board
  pool := pool

structure Unpacks (frame : Frame) (device : Device B) (order : FlashOrder) (block : Nat)
    (pool : SharedPool) (decoded : Except StatusCode Nat) (content : Bytes) : Prop where
  orders : frame.Orders order
  allocated : (device.pool.allocateZeroed order.length.toNat 1).value = some block
  pool : pool = (device.pool.allocateZeroed order.length.toNat 1).pool.write block content
  decodes : ∃ decodedContent, content = decodedContent.toList ∧
    Board.decode device.board order.text
      ((device.pool.allocateZeroed order.length.toNat 1).pool.content block order.length.toNat) =
        (decoded, decodedContent)

/-- What becomes of a request to program a partition. The board writes if the text has the size
    announced, and the block is free again afterwards. -/
inductive Programs (frame : Frame) (device : Device B) :
    Except StatusCode Unit → List BoardCall → SharedPool → Prop
  | malformed (malformed : ∀ order, ¬frame.Orders order) :
      Programs frame device (.error Status.invalidArgument) [] device.pool
  | exhausted {order : FlashOrder} (orders : frame.Orders order)
      (exhausted : (device.pool.allocateZeroed order.length.toNat 1).value = none) :
      Programs frame device (.error Status.outOfMemory) []
        (device.pool.allocateZeroed order.length.toNat 1).pool
  | undecoded {order : FlashOrder} {block : Nat} {pool : SharedPool} {code : StatusCode}
      {content : Bytes} (unpacks : Unpacks frame device order block pool (.error code) content) :
      Programs frame device (.error code) [] (pool.free block).pool
  | missized {order : FlashOrder} {block : Nat} {pool : SharedPool} {size : Nat} {content : Bytes}
      (unpacks : Unpacks frame device order block pool (.ok size) content)
      (other : size ≠ order.length.toNat) :
      Programs frame device (.error Status.payloadSize) [] (pool.free block).pool
  | written {order : FlashOrder} {block : Nat} {pool : SharedPool} {content : Bytes}
      (unpacks : Unpacks frame device order block pool (.ok order.length.toNat) content) :
      Programs frame device (Board.write device.board pool order.partition order.offset content).1
        [.write pool order.partition order.offset content] (pool.free block).pool

inductive Fulfils (frame : Frame) (device : Device B) :
    Except StatusCode Unit → List Bytes → List BoardCall → SharedPool → Prop
  | erased {partition : String} (named : frame.name = Bytes.ofText "erase")
      (argument : frame.argText? 1 = some partition) :
      Fulfils frame device (Board.erase device.board partition).1 (frame.arguments [1])
        [.erase partition] device.pool
  | notErased (named : frame.name = Bytes.ofText "erase") (argument : frame.argText? 1 = none) :
      Fulfils frame device (.error Status.invalidArgument) (frame.arguments [1]) [] device.pool
  | guarded {partition : String} {level : Int32} (named : frame.name = Bytes.ofText "wrprt")
      (argument : frame.argText? 1 = some partition) (number : frame.argInt? 2 = some level) :
      Fulfils frame device (Board.writeProtect device.board partition level).1
        (frame.arguments [1]) [.writeProtect partition level] device.pool
  | notGuarded (named : frame.name = Bytes.ofText "wrprt")
      (arguments : frame.argText? 1 = none ∨ frame.argInt? 2 = none) :
      Fulfils frame device (.error Status.invalidArgument) (frame.arguments [1]) [] device.pool
  | flashed {outcome : Except StatusCode Unit} {calls : List BoardCall} {pool : SharedPool}
      (named : frame.name = Bytes.ofText "flash")
      (programs : Programs frame device outcome calls pool) :
      Fulfils frame device outcome (frame.arguments [1, 2, 3]) calls pool
  | versions (named : frame.name = Bytes.ofText "ver") :
      Fulfils frame device (.ok ())
        [Bytes.ofText (Board.appVersion device.board),
          Bytes.ofText (Board.kernelVersion device.board),
          Bytes.ofText (Board.buildStamp device.board)] [] device.pool
  | rebooted (named : frame.name = Bytes.ofText "reboot") :
      Fulfils frame device (.ok ()) [] [.scheduleReboot] device.pool
  | slot {number : UInt8} (named : frame.name = Bytes.ofText "slot")
      (active : Board.activeSlot device.board = .ok number) :
      Fulfils frame device (.ok ()) [Numeral.decimal number.toNat] [] device.pool
  | noSlot {code : StatusCode} (named : frame.name = Bytes.ofText "slot")
      (failed : Board.activeSlot device.board = .error code) :
      Fulfils frame device (.error code) [] [] device.pool

end Board

namespace DraftM

variable {α β : Type} {N : Nat} {value last : α} {outcome : Except StatusCode Unit}
  {fields : List Bytes}

def Silent (program : DraftM α) (value : α) : Prop :=
  ∀ (N : Nat) (outbox : Outbox N), (program.run outbox).1 = value ∧
    outbox.Alike (program.run outbox).2

/-- A program that sends one answer, if it fits, and nothing besides. -/
def Tells (program : DraftM α) (value : α) (outcome : Except StatusCode Unit)
    (fields : List Bytes) : Prop :=
  ∀ (N : Nat) (outbox : Outbox N), (program.run outbox).1 = value ∧
    (program.run outbox).2.channel =
      let frame := answerFrame outbox.draft.crc outbox.draft.header.encode outcome fields
      if frame.length ≤ N then (outbox.channel.deliver frame).channel else outbox.channel

theorem silent_return (value : α) : (pure value : DraftM α).Silent value :=
  fun _ _ => ⟨rfl, rfl, rfl⟩

theorem silent_log (level : LogLevel) (message : String) : (log level message).Silent () :=
  fun _ _ => ⟨rfl, rfl, rfl⟩

theorem Silent.bind {program : DraftM β} {next : β → DraftM α} {early : β}
    (first : program.Silent early) (second : (next early).Silent value) :
    (program >>= next).Silent value := by
  intro N outbox
  obtain ⟨result, alike⟩ := first N outbox
  obtain ⟨final, later⟩ := second N (program.run outbox).2
  rw [run_bind, result]
  exact ⟨final, alike.draft.trans later.draft, alike.channel.trans later.channel⟩

theorem silent_logAll (records : List LogRecord) : (logAll records).Silent () := by
  induction records with
  | nil => exact fun _ _ => ⟨rfl, rfl, rfl⟩
  | cons record rest ih =>
    intro N outbox
    obtain ⟨value, alike⟩ := ih N { outbox with log := outbox.log ++ [record] }
    exact ⟨value, alike.draft, alike.channel⟩

theorem Silent.tells {program : DraftM β} {next : β → DraftM α} {early : β}
    (silent : program.Silent early) (tells : (next early).Tells value outcome fields) :
    (program >>= next).Tells value outcome fields := by
  intro N outbox
  obtain ⟨result, alike⟩ := silent N outbox
  rw [run_bind, result, alike.draft, alike.channel]
  exact tells N _

theorem tells_of_filled {program : DraftM α} (name : String) (pieces : List Bytes)
    (ran : ∀ (N : Nat) (outbox : Outbox N), program.run outbox =
      (do Maintenance.finish name; return value : DraftM α).run
        { outbox with draft := outbox.draft.filled (Status.kind outcome) pieces })
    (flat : pieces.flatten = (Status.digits outcome :: fields).flatMap (recordMark :: ·)) :
    program.Tells value outcome fields := by
  intro N outbox
  have sent : ∀ outbox : Outbox N,
      ((Maintenance.finish name).run outbox).2.channel = outbox.send.2.channel := by
    intro outbox
    rw [Maintenance.finish, run_bind]
    split
    · rfl
    · rfl
  rw [ran, run_bind]
  refine ⟨rfl, (sent _).trans (Outbox.send_filled ?_)⟩
  rw [flat]
  rfl

theorem tells_answer (name : String) (outcome : Except StatusCode Unit) (fields : List Bytes)
    (value : α) :
    (do status outcome; recordAll fields; Maintenance.finish name; return value : DraftM α).Tells
      value outcome fields := by
  refine tells_of_filled name (answerPieces outcome fields) (fun N outbox => ?_)
    flatten_answerPieces
  rw [run_bind, run_bind, run_told]

end DraftM

namespace Maintenance

variable {B : Type} [Board B] {frame : Frame} {device : Device B}

def Settles (frame : Frame) (device : Device B) (program : DraftM (Device B)) : Prop :=
  ∃ outcome fields calls pool, Fulfils frame device outcome fields calls pool ∧
    program.Tells (device.after calls pool) outcome fields

theorem echo_one (frame : Frame) : echo frame 1 1 = DraftM.recordAll (frame.arguments [1]) := by
  obtain ⟨kind, header, args, crc⟩ := frame
  rcases args with _ | ⟨_, _ | ⟨_, _⟩⟩ <;> rfl

theorem echo_three (frame : Frame) :
    echo frame 1 3 = DraftM.recordAll (frame.arguments [1, 2, 3]) := by
  obtain ⟨kind, header, args, crc⟩ := frame
  rcases args with _ | ⟨_, _ | ⟨_, _ | ⟨_, _ | ⟨_, _⟩⟩⟩⟩ <;> rfl

theorem silent_warnOf (action : String) (result : Except StatusCode Unit) :
    (warnOf action result).Silent () := by
  cases result with
  | ok => exact DraftM.silent_return ()
  | error code => exact DraftM.silent_log _ _

theorem erase_settles (named : frame.name = Bytes.ofText "erase") :
    Settles frame device (erase frame device) := by
  rw [erase, echo_one]
  cases argument : frame.argText? 1 with
  | some partition =>
    exact ⟨_, _, _, _, .erased named argument,
      (silent_warnOf _ _).tells (DraftM.tells_answer _ _ _ _)⟩
  | none =>
    exact ⟨_, _, _, _, .notErased named argument,
      (silent_warnOf _ _).tells (DraftM.tells_answer _ _ _ _)⟩

theorem writeProtect_settles (named : frame.name = Bytes.ofText "wrprt") :
    Settles frame device (writeProtect frame device) := by
  rw [writeProtect, echo_one]
  cases argument : frame.argText? 1 with
  | none =>
    exact ⟨_, _, _, _, .notGuarded named (.inl argument), DraftM.tells_answer _ _ _ _⟩
  | some partition =>
    cases number : frame.argInt? 2 with
    | none => exact ⟨_, _, _, _, .notGuarded named (.inr number), DraftM.tells_answer _ _ _ _⟩
    | some level => exact ⟨_, _, _, _, .guarded named argument number, DraftM.tells_answer _ _ _ _⟩

theorem version_settles (named : frame.name = Bytes.ofText "ver") :
    Settles frame device (version frame device) := by
  have recorded : version frame device = (do
      DraftM.status (.ok ())
      DraftM.recordAll [Bytes.ofText (Board.appVersion device.board),
        Bytes.ofText (Board.kernelVersion device.board),
        Bytes.ofText (Board.buildStamp device.board)]
      finish "ver"
      return device) := rfl
  rw [recorded]
  exact ⟨_, _, _, _, .versions named, DraftM.tells_answer _ _ _ _⟩

theorem reboot_settles (named : frame.name = Bytes.ofText "reboot") :
    Settles frame device (reboot frame device) :=
  ⟨_, _, _, _, .rebooted named, DraftM.tells_answer "reboot" (.ok ()) [] _⟩

theorem slot_settles (named : frame.name = Bytes.ofText "slot") :
    Settles frame device (slot frame device) := by
  rw [slot]
  cases active : Board.activeSlot device.board with
  | ok number =>
    refine ⟨_, _, _, _, .slot named active, DraftM.tells_of_filled "slot"
      (([recordMark] :: Numeral.signedPieces Status.ok) ++
        ([recordMark] :: Numeral.signedPieces (Int32.ofNat number.toNat))) (fun N outbox => ?_) ?_⟩
    · -- The slot is written as a signed number, so its pieces are not those of `tells_answer`.
      have acknowledged : (DraftM.ack.run outbox).2 = _ := DraftM.run_status (.ok ()) outbox
      rw [DraftM.run_bind, DraftM.run_bind, acknowledged, DraftM.run_recordInt, Draft.filled,
        Draft.filled, Draft.appendAll_append]
      rfl
    · have digits : (Numeral.signedPieces (Int32.ofNat number.toNat)).flatten =
          Numeral.decimal number.toNat := Numeral.signed_ofNat number.toNat_lt
      rw [List.flatten_append, List.flatten_cons, List.flatten_cons, digits, Status.digits_eq]
      simp [Numeral.signed, Status.code]
  | error code =>
    exact ⟨_, _, _, _, .noSlot named active, DraftM.tells_answer _ (.error code) [] _⟩

theorem programBlock_settles {order : FlashOrder} {block : Nat} {pool : SharedPool}
    {decoded : Except StatusCode Nat} {content : Bytes}
    (unpacks : Unpacks frame device order block pool decoded content) :
    ∃ outcome calls, Programs frame device outcome calls (pool.free block).pool ∧
      (programBlock device.board (device.pool.allocateZeroed order.length.toNat 1).pool block
        order.partition order.offset order.length.toNat order.text).Silent
          (outcome, (device.after calls pool).board, pool) := by
  obtain ⟨_, _, rfl, left, rfl, decodes⟩ := id unpacks
  rw [programBlock, decodes]
  cases decoded with
  | error code => exact ⟨_, _, .undecoded unpacks, DraftM.silent_return _⟩
  | ok size =>
    by_cases whole : size = order.length.toNat
    · subst whole
      refine ⟨_, _, .written unpacks, ?_⟩
      dsimp only
      rw [if_pos rfl]
      exact DraftM.silent_return _
    · refine ⟨_, _, .missized unpacks whole, ?_⟩
      dsimp only
      rw [if_neg whole]
      exact (DraftM.silent_log _ _).bind (DraftM.silent_return _)

theorem program_settles (device : Device B) {order : FlashOrder} (orders : frame.Orders order) :
    ∃ outcome calls pool, Programs frame device outcome calls pool ∧
      (program device order.partition order.offset order.length.toNat order.text).Silent
        (outcome, device.after calls pool) := by
  have some_byte : order.length.toNat ≠ 0 :=
    fun zero => orders.some_byte (UInt32.toNat_inj.mp zero)
  rw [program, if_neg some_byte]
  cases allocated : (device.pool.allocateZeroed order.length.toNat 1).value with
  | none =>
    refine ⟨_, _, _, .exhausted orders allocated, (DraftM.silent_logAll _).bind ?_⟩
    rw [allocated]
    exact (DraftM.silent_log _ _).bind (DraftM.silent_return _)
  | some block =>
    obtain ⟨outcome, calls, programs, silent⟩ :=
      programBlock_settles ⟨orders, allocated, rfl, _, rfl, rfl⟩
    refine ⟨outcome, calls, _, programs, (DraftM.silent_logAll _).bind ?_⟩
    rw [allocated]
    exact silent.bind ((DraftM.silent_logAll _).bind (DraftM.silent_return _))

theorem malformed_tells {next : Except StatusCode Unit × Device B → DraftM (Device B)}
    {last : Device B} {outcome : Except StatusCode Unit} {fields : List Bytes}
    (malformed : ∀ order, ¬frame.Orders order)
    (tells : (next (.error Status.invalidArgument, device)).Tells last outcome fields) :
    (match frame.argText? 1, frame.argHex? 2, frame.argHex? 3, frame.arg? 4 with
      | some partition, some offset, some length, some text =>
        program device partition offset length.toNat text >>= next
      | _, _, _, _ => pure (Except.error Status.invalidArgument, device) >>= next).Tells
        last outcome fields := by
  -- Either an argument is missing, or all are there and the length is zero.
  have refused := (DraftM.silent_return (Except.error Status.invalidArgument, device)).tells tells
  cases partition : frame.argText? 1 with
  | none => exact refused
  | some partitionName =>
  cases offset : frame.argHex? 2 with
  | none => exact refused
  | some offsetNumber =>
  cases length : frame.argHex? 3 with
  | none => exact refused
  | some lengthNumber =>
  cases text : frame.arg? 4 with
  | none => exact refused
  | some textBytes =>
  have nothing : lengthNumber.toNat = 0 := by
    by_contra some_byte
    exact malformed ⟨partitionName, offsetNumber, lengthNumber, textBytes⟩
      ⟨partition, offset, length, text, fun zero => some_byte (congrArg UInt32.toNat zero)⟩
  dsimp only
  rw [program, if_pos nothing]
  exact refused

theorem flash_settles (named : frame.name = Bytes.ofText "flash") :
    Settles frame device (flash frame device) := by
  rw [flash, echo_three]
  by_cases ordered : ∃ order, frame.Orders order
  · obtain ⟨order, orders⟩ := ordered
    obtain ⟨outcome, calls, pool, programs, silent⟩ := program_settles device orders
    rw [orders.partition, orders.offset, orders.length, orders.text]
    exact ⟨outcome, _, calls, pool, .flashed named programs,
      silent.tells ((silent_warnOf _ _).tells (DraftM.tells_answer _ _ _ _))⟩
  · have malformed : ∀ order, ¬frame.Orders order := not_exists.mp ordered
    exact ⟨_, _, _, _, .flashed named (.malformed malformed),
      malformed_tells malformed ((silent_warnOf _ _).tells (DraftM.tells_answer _ _ _ _))⟩

/-- Every request of the table is settled, whatever its arguments are and whatever the board
    does. -/
theorem table_settles (device : Device B) {command : Command (Device B)}
    (member : command ∈ table) (named : frame.name = Bytes.ofText command.name) :
    Settles frame device (command.handler frame device) := by
  simp only [table, List.mem_cons, List.not_mem_nil, or_false] at member
  rcases member with rfl | rfl | rfl | rfl | rfl | rfl
  · exact erase_settles named
  · exact writeProtect_settles named
  · exact flash_settles named
  · exact version_settles named
  · exact reboot_settles named
  · exact slot_settles named

end Maintenance

end FirmwareLink

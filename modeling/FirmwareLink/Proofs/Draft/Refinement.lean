import FirmwareLink.Proofs.Draft.Answer
import FirmwareLink.Proofs.Draft.Stale

namespace FirmwareLink

open Wire

structure Sink where
  State : Type
  take : State → Bytes → Except SendError Nat × State

def Channel.sink : Sink where
  State := Channel
  take channel frame := ((channel.deliver frame).result, (channel.deliver frame).channel)

/-- The trailer that was asked for and the end marker behind what a frame holds. An empty frame
    gets no trailer. -/
def finished (crc : Bool) (built : Bytes) : Bytes :=
  let trailer :=
    if crc && built ≠ [] then trailerMark :: fourDigits (crc16 built.tail).toNat else []
  built ++ trailer ++ [endMark]

theorem length_lt_finished (crc : Bool) (built : Bytes) :
    built.length < (finished crc built).length := by
  simp [finished]

namespace Draft

variable {N : Nat} {draft one two : Draft N} {built : Bytes} {sink : Sink} {state : sink.State}

def sendTo (sink : Sink) (draft : Draft N) (state : sink.State) :
    Except SendError Nat × Draft N × sink.State :=
  let closed := draft.close
  if closed.overflow then (.error .overflow, closed.clear, state)
  else
    let (result, state) := sink.take state closed.bytes
    (result, closed.clear, state)

def performTo (sink : Sink) (draft : Draft N) (state : sink.State) :
    (call : DraftCall) → call.Result × Draft N × sink.State
  | .reset kind => ((), draft.reset kind, state)
  | .append bytes => ((), draft.append bytes, state)
  | .view => (draft.view, draft, state)
  | .send => draft.sendTo sink state
  | .log _ => ((), draft, state)

/-! ### What a draft holds -/

structure Holds (draft : Draft N) (built : Bytes) : Prop where
  kept : draft.overflow = false → draft.bytes = built
  full : draft.overflow = true → N < built.length

namespace Holds

theorem overflow_iff (holds : draft.Holds built) : draft.overflow = true ↔ N < built.length := by
  constructor
  · exact holds.full
  · intro long
    cases marked : draft.overflow with
    | true => rfl
    | false =>
      have length := congrArg List.length (holds.kept marked)
      rw [length_bytes] at length
      have bound := draft.length_le
      omega

theorem bytes_eq (holds : draft.Holds built) (fits : built.length ≤ N) : draft.bytes = built := by
  apply holds.kept
  rw [← Bool.not_eq_true, holds.overflow_iff]
  omega

theorem clear (draft : Draft N) : draft.clear.Holds [] where
  kept _ := bytes_clear
  full marked := by cases marked

theorem create (buffer : Buffer N) (header : Header) (crc : Bool) :
    (Draft.create buffer header crc).Holds [] :=
  clear (Draft.create buffer header crc)

theorem append (holds : draft.Holds built) (piece : Bytes) :
    (draft.append piece).Holds (built ++ piece) where
  kept fits := by
    rw [append_bytes fits, holds.kept ((append_overflow piece).mp fits).1]
  full marked := by
    rw [List.length_append]
    cases before : draft.overflow with
    | true =>
      have long := holds.full before
      omega
    | false =>
      have length := congrArg List.length (holds.kept before)
      rw [length_bytes] at length
      have missed := mt (append_overflow piece).mpr (ne_false_of_eq_true marked)
      have long := not_and.mp missed before
      omega

theorem appendAll (holds : draft.Holds built) (pieces : List Bytes) :
    (draft.appendAll pieces).Holds (built ++ pieces.flatten) := by
  induction pieces generalizing draft built with
  | nil =>
    rw [List.flatten_nil, List.append_nil]
    exact holds
  | cons piece rest ih =>
    rw [List.flatten_cons, ← List.append_assoc]
    exact ih (holds.append piece)

theorem reset (draft : Draft N) (kind : FrameKind) :
    (draft.reset kind).Holds (kind.marker :: draft.header.encode) :=
  (clear draft).appendAll ([kind.marker] :: draft.header.pieces)

/-- The trailer of a draft with a gap is that of its gapped bytes, but such a draft stays
    overflown. -/
theorem close (holds : draft.Holds built) : draft.close.Holds (finished draft.crc built) := by
  rw [close_eq]
  cases marked : draft.overflow with
  | true =>
    have long := holds.full marked
    have longer := length_lt_finished draft.crc built
    constructor
    · intro fits
      rw [appendAll_overflow, marked] at fits
      cases fits.1
    · intro
      omega
  | false =>
    have bytes := holds.kept marked
    have some_byte : decide (0 < draft.length) = decide (built ≠ []) := by
      rw [← length_bytes, bytes, decide_eq_decide]
      exact List.length_pos_iff
    have ending : built ++ draft.closing.flatten = finished draft.crc built := by
      rw [closing, bytes, some_byte, finished, List.append_assoc, List.flatten_append]
      split
      · rw [List.flatten_cons, Checksum.trailerPieces_flatten]
        rfl
      · rfl
    rw [← ending]
    exact holds.appendAll draft.closing

end Holds

/-! ### Sending -/

theorem sendTo_draft : (draft.sendTo sink state).2.1 = draft.close.clear := by
  unfold sendTo
  dsimp only
  split <;> rfl

end Draft

theorem Outbox.send_eq_sendTo {N : Nat} (outbox : Outbox N) :
    (outbox.send.1, outbox.send.2.draft, outbox.send.2.channel) =
      outbox.draft.sendTo Channel.sink outbox.channel := by
  unfold Draft.sendTo Outbox.send
  dsimp only
  split <;> rfl

namespace DraftM

variable {N : Nat} {α β : Type} {sink : Sink}

def runTo (sink : Sink) : DraftM α → Draft N → sink.State → α × Draft N × sink.State
  | .done value, draft, state => (value, draft, state)
  | .step call next, draft, state =>
    let (result, draft, state) := draft.performTo sink state call
    (next result).runTo sink draft state

theorem runTo_bind (program : DraftM α) (next : α → DraftM β) (draft : Draft N)
    (state : sink.State) : (program >>= next).runTo sink draft state =
      let (value, draft, state) := program.runTo sink draft state
      (next value).runTo sink draft state := by
  induction program generalizing draft state with
  | done value => rfl
  | step call rest ih => exact ih _ _ _

theorem runTo_appendAll (pieces : List Bytes) (draft : Draft N) (state : sink.State) :
    (appendAll pieces).runTo sink draft state = ((), draft.appendAll pieces, state) := by
  induction pieces generalizing draft with
  | nil => rfl
  | cons piece rest ih => exact ih (draft.append piece)

theorem run_eq_runTo (program : DraftM α) (outbox : Outbox N) :
    let (value, draft, channel) := program.runTo Channel.sink outbox.draft outbox.channel
    (program.run outbox).1 = value ∧ (program.run outbox).2.draft = draft ∧
      (program.run outbox).2.channel = channel := by
  induction program generalizing outbox with
  | done value => exact ⟨rfl, rfl, rfl⟩
  | step call next ih =>
    cases call with
    | reset kind => exact ih _ _
    | append bytes => exact ih _ _
    | view => exact ih _ _
    | log record => exact ih _ _
    | send =>
      dsimp only [runTo, Draft.performTo]
      rw [← Outbox.send_eq_sendTo]
      exact ih _ _

end DraftM

/-- What can be called on a draft. Formatted text comes as the pieces that it is written in. -/
inductive Directive where
  | reset (kind : FrameKind)
  | ack
  | nak (code : StatusCode)
  | status (outcome : Except StatusCode Unit)
  | appendBytes (bytes : Bytes)
  | appendText (text : String)
  | appendByte (byte : UInt8)
  | appendInt (number : Int32)
  | appendHex (number : UInt32)
  | recordBytes (bytes : Bytes)
  | recordText (text : String)
  | recordInt (number : Int32)
  | recordHex (number : UInt32)
  | format (pieces : List String)
  | send

namespace Directive

variable {N : Nat} {draft : Draft N} {built : Bytes} {sink : Sink} {state : sink.State}

def program : Directive → DraftM Unit
  | reset kind => DraftM.reset kind
  | ack => DraftM.ack
  | nak code => DraftM.nak code
  | status outcome => DraftM.status outcome
  | appendBytes bytes => DraftM.append bytes
  | appendText text => DraftM.appendText text
  | appendByte byte => DraftM.appendByte byte
  | appendInt number => DraftM.appendInt number
  | appendHex number => DraftM.appendHex number
  | recordBytes bytes => DraftM.recordBytes bytes
  | recordText text => DraftM.recordText text
  | recordInt number => DraftM.recordInt number
  | recordHex number => DraftM.recordHex number
  | format pieces => DraftM.appendAll (pieces.map Bytes.ofText)
  | send => do discard DraftM.send

def programAll : List Directive → DraftM Unit
  | [] => pure ()
  | directive :: rest => do
    directive.program
    programAll rest

def build (header : Header) (built : Bytes) : Directive → Bytes
  | reset kind => kind.marker :: header.encode
  | ack => ackMark :: header.encode ++ recordMark :: [0x30]
  | nak code => nakMark :: header.encode ++ recordMark :: Numeral.signed code
  | status outcome =>
    (Status.kind outcome).marker :: header.encode ++ recordMark :: Status.digits outcome
  | appendBytes bytes => built ++ bytes
  | appendText text => built ++ Bytes.ofText text
  | appendByte byte => if byte = 0 then built else built ++ [byte]
  | appendInt number => built ++ Numeral.signed number
  | appendHex number => built ++ Numeral.hex number.toNat
  | recordBytes bytes => built ++ recordMark :: bytes
  | recordText text => built ++ recordMark :: Bytes.ofText text
  | recordInt number => built ++ recordMark :: Numeral.signed number
  | recordHex number => built ++ recordMark :: Numeral.hex number.toNat
  | format pieces => built ++ pieces.flatMap Bytes.ofText
  | send => []

def opens? : Directive → Option FrameKind
  | reset kind => some kind
  | ack => some .ack
  | nak _ => some .nak
  | status outcome => some (Status.kind outcome)
  | _ => none

def pieces : Directive → List Bytes
  | reset _ | send => []
  | ack => [recordMark] :: Numeral.signedPieces Status.ok
  | nak code => [recordMark] :: Numeral.signedPieces code
  | status outcome => [recordMark] :: Numeral.signedPieces (Status.code outcome)
  | appendBytes bytes => [bytes]
  | appendText text => [Bytes.ofText text]
  | appendByte byte => if byte = 0 then [] else [[byte]]
  | appendInt number => Numeral.signedPieces number
  | appendHex number => [Numeral.hex number.toNat]
  | recordBytes bytes => [[recordMark], bytes]
  | recordText text => [[recordMark], Bytes.ofText text]
  | recordInt number => [recordMark] :: Numeral.signedPieces number
  | recordHex number => [[recordMark], Numeral.hex number.toNat]
  | format pieces => pieces.map Bytes.ofText

def write (directive : Directive) (draft : Draft N) : Draft N :=
  (directive.opens?.elim draft draft.reset).appendAll directive.pieces

theorem runTo_program {directive : Directive} (other : directive ≠ send) (draft : Draft N)
    (state : sink.State) :
    directive.program.runTo sink draft state = ((), directive.write draft, state) := by
  have record : ∀ (number : Int32) (draft : Draft N),
      (DraftM.recordInt number).runTo sink draft state =
        ((), draft.appendAll ([recordMark] :: Numeral.signedPieces number), state) := by
    intro number draft
    rw [DraftM.recordInt, DraftM.runTo_bind]
    exact DraftM.runTo_appendAll _ _ _
  cases directive with
  | send => exact absurd rfl other
  | ack => exact record _ _
  | nak code => exact record _ _
  | status outcome =>
    cases outcome with
    | ok => exact record _ _
    | error code => exact record _ _
  | appendByte byte =>
    by_cases null : byte = 0
    · subst null
      rfl
    · rw [program, DraftM.appendByte, if_neg null, write, pieces, if_neg null]
      rfl
  | appendInt number => exact DraftM.runTo_appendAll _ _ _
  | recordInt number => exact record _ _
  | format pieces => exact DraftM.runTo_appendAll _ _ _
  | _ => rfl

theorem runTo_send (draft : Draft N) (state : sink.State) :
    send.program.runTo sink draft state = ((), (draft.sendTo sink state).2) := rfl

theorem build_eq {directive : Directive} (other : directive ≠ send) (header : Header)
    (built : Bytes) : build header built directive =
      directive.opens?.elim built (fun kind => kind.marker :: header.encode) ++
        directive.pieces.flatten := by
  have zero : [0x30] = Numeral.signed Status.ok := by decide +kernel
  cases directive with
  | send => exact absurd rfl other
  | reset kind => exact (List.append_nil _).symm
  | ack => rw [build, zero]; rfl
  | nak code => rfl
  | status outcome => rw [build, Status.digits_eq]; rfl
  | appendByte byte =>
    by_cases null : byte = 0
    · rw [build, if_pos null, pieces, if_pos null]
      exact (List.append_nil _).symm
    · rw [build, if_neg null, pieces, if_neg null]
      rfl
  | appendInt number => rfl
  | recordInt number => rfl
  | format pieces => rw [build, List.flatMap_def]; rfl
  | _ => simp [build, opens?, pieces]

theorem write_holds {directive : Directive} (other : directive ≠ send)
    (holds : draft.Holds built) :
    (directive.write draft).Holds (build draft.header built directive) := by
  rw [build_eq other, write]
  apply Draft.Holds.appendAll
  cases directive.opens? with
  | none => exact holds
  | some kind => exact Draft.Holds.reset draft kind

theorem write_header (directive : Directive) (draft : Draft N) :
    (directive.write draft).header = draft.header := by
  rw [write, Draft.appendAll_header]
  cases directive.opens? with
  | none => rfl
  | some kind => exact Draft.appendAll_header _

theorem write_crc (directive : Directive) (draft : Draft N) :
    (directive.write draft).crc = draft.crc := by
  rw [write, Draft.appendAll_crc]
  cases directive.opens? with
  | none => rfl
  | some kind => exact Draft.appendAll_crc _

end Directive

/-! ### Every sequence of calls -/

structure Draft.Tracks {N : Nat} (draft : Draft N) (header : Header) (crc : Bool)
    (built : Bytes) : Prop where
  header : draft.header = header
  crc : draft.crc = crc
  holds : draft.Holds built

namespace Draft.Tracks

variable {N : Nat} {draft : Draft N} {header : Header} {crc : Bool} {built : Bytes}

theorem program (tracks : draft.Tracks header crc built) (directive : Directive) (sink : Sink)
    (state : sink.State) : (directive.program.runTo sink draft state).2.1.Tracks header crc
      (Directive.build header built directive) := by
  by_cases sending : directive = .send
  · subst sending
    rw [Directive.runTo_send]
    dsimp only
    rw [sendTo_draft, close_eq]
    exact ⟨(appendAll_header _).trans tracks.header, (appendAll_crc _).trans tracks.crc,
      Holds.clear _⟩
  · rw [Directive.runTo_program sending]
    refine ⟨(directive.write_header draft).trans tracks.header,
      (directive.write_crc draft).trans tracks.crc, ?_⟩
    rw [← tracks.header]
    exact Directive.write_holds sending tracks.holds

theorem programAll (tracks : draft.Tracks header crc built) (directives : List Directive)
    (sink : Sink) (state : sink.State) :
    ((Directive.programAll directives).runTo sink draft state).2.1.Tracks header crc
      (directives.foldl (Directive.build header) built) := by
  induction directives generalizing draft built state with
  | nil => exact tracks
  | cons directive rest ih =>
    rw [Directive.programAll, DraftM.runTo_bind, List.foldl_cons]
    exact ih (tracks.program directive sink state) _

end Draft.Tracks

end FirmwareLink

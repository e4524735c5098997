import FirmwareLink.Draft.Basic
import FirmwareLink.Status
import FirmwareLink.Transport

namespace FirmwareLink

open Wire

inductive DraftCall where
  | reset (kind : FrameKind)
  | append (bytes : Bytes)
  | view
  | send
  | log (record : LogRecord)
deriving Repr

def DraftCall.Result : DraftCall → Type
  | .reset _ | .append _ | .log _ => Unit
  | .view => DraftView
  | .send => Except SendError Nat

inductive DraftM (α : Type) where
  | done (value : α)
  | step (call : DraftCall) (next : call.Result → DraftM α)

structure Outbox (N : Nat) where
  draft : Draft N
  channel : Channel
  log : List LogRecord

namespace Outbox

variable {N : Nat}

/-- Closes the frame and hands it to the channel if it fits. The draft is empty afterwards. -/
def send (outbox : Outbox N) : Except SendError Nat × Outbox N :=
  let closed := outbox.draft.close
  if closed.overflow then
    let dropped : LogRecord := ⟨.warn, s!"reply of {closed.length} bytes does not fit, dropped"⟩
    (.error .overflow, { outbox with draft := closed.clear, log := outbox.log ++ [dropped] })
  else
    let sending : LogRecord := ⟨.trace, s!"sending {closed.length} bytes"⟩
    let delivery := outbox.channel.deliver closed.bytes
    (delivery.result,
      { draft := closed.clear
        channel := delivery.channel
        log := outbox.log ++ sending :: delivery.log })

def perform (outbox : Outbox N) : (call : DraftCall) → call.Result × Outbox N
  | .reset kind => ((), { outbox with draft := outbox.draft.reset kind })
  | .append bytes => ((), { outbox with draft := outbox.draft.append bytes })
  | .view => (outbox.draft.view, outbox)
  | .send => outbox.send
  | .log record => ((), { outbox with log := outbox.log ++ [record] })

end Outbox

namespace DraftM

variable {α β : Type}

def bind : DraftM α → (α → DraftM β) → DraftM β
  | .done value, next => next value
  | .step call rest, next => .step call fun result => (rest result).bind next

instance : Monad DraftM where
  pure := .done
  bind := bind

def run {N : Nat} : DraftM α → Outbox N → α × Outbox N
  | .done value, outbox => (value, outbox)
  | .step call next, outbox =>
    let (result, outbox) := outbox.perform call
    (next result).run outbox

def reset (kind : FrameKind) : DraftM Unit := .step (.reset kind) .done

def append (bytes : Bytes) : DraftM Unit := .step (.append bytes) .done

def view : DraftM DraftView := .step .view .done

def send : DraftM (Except SendError Nat) := .step .send .done

def log (level : LogLevel) (message : String) : DraftM Unit :=
  .step (.log ⟨level, message⟩) .done

def logAll : List LogRecord → DraftM Unit
  | [] => .done ()
  | record :: rest => .step (.log record) fun () => logAll rest

def appendAll : List Bytes → DraftM Unit
  | [] => .done ()
  | piece :: rest => do
    append piece
    appendAll rest

def appendText (text : String) : DraftM Unit := append (Bytes.ofText text)

def appendByte (byte : UInt8) : DraftM Unit :=
  if byte = 0 then .done () else append [byte]

def appendInt (number : Int32) : DraftM Unit := appendAll (Numeral.signedPieces number)

def appendHex (number : UInt32) : DraftM Unit := append (Numeral.hex number.toNat)

def recordBytes (bytes : Bytes) : DraftM Unit := do
  append [recordMark]
  append bytes

def recordText (text : String) : DraftM Unit := recordBytes (Bytes.ofText text)

def recordInt (number : Int32) : DraftM Unit := do
  append [recordMark]
  appendInt number

def recordHex (number : UInt32) : DraftM Unit := do
  append [recordMark]
  appendHex number

def recordAll : List Bytes → DraftM Unit
  | [] => .done ()
  | record :: rest => do
    recordBytes record
    recordAll rest

def ack : DraftM Unit := do
  reset .ack
  recordInt Status.ok

def nak (code : StatusCode) : DraftM Unit := do
  reset .nak
  recordInt code

def status : Except StatusCode Unit → DraftM Unit
  | .ok () => ack
  | .error code => nak code

end DraftM

end FirmwareLink

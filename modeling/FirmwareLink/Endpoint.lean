import FirmwareLink.Frame.Parser
import FirmwareLink.Directory

namespace FirmwareLink

structure Counters where
  dispatched : UInt32
  unknown : UInt32
  crcErrors : UInt32
deriving DecidableEq, Repr

structure Endpoint (C : Type) (N : Nat) where
  context : C
  parser : Parser N
  transmit : Buffer N
  counters : Counters
  channel : Channel
  log : List LogRecord

inductive PollResult where
  | completed (frames : Nat)
  | wouldBlock
  | failed
deriving DecidableEq, Repr

structure LoopEnd (C : Type) (N : Nat) where
  delays : List UInt32
  completed : Nat
  endpoint : Endpoint C N
  rest : List Reception

namespace Endpoint

variable {C : Type} {N : Nat} {α : Type}

def create (context : C) (channel : Channel) : Endpoint C N where
  context := context
  parser := Parser.empty
  transmit := Buffer.zeroed N
  counters := ⟨0, 0, 0⟩
  channel := channel
  log := []

def logged (endpoint : Endpoint C N) (records : List LogRecord) : Endpoint C N :=
  { endpoint with log := endpoint.log ++ records }

def compose (endpoint : Endpoint C N) (header : Header) (crc : Bool) (program : DraftM α) :
    α × Endpoint C N :=
  let (value, outbox) := program.run
    { draft := Draft.create endpoint.transmit header crc
      channel := endpoint.channel
      log := endpoint.log }
  (value, { endpoint with
    transmit := outbox.draft.buffer
    channel := outbox.channel
    log := outbox.log })

def refusal (name : String) : DraftM Unit := do
  DraftM.nak Status.crcMismatch
  match ← DraftM.send with
  | .ok _ => return
  | .error _ => DraftM.log .error s!"failed to send crc nak for {name}"

/-- Acts on a completed frame. A wrong checksum keeps a request, but not an answer, from its
    handler. -/
def handle (directory : Directory C) (endpoint : Endpoint C N) (frame : Frame) : Endpoint C N :=
  let name := (Bytes.text? frame.name).getD "?"
  let counters := endpoint.counters
  if frame.kind = .request ∧ frame.crc = .mismatched then
    let endpoint := { endpoint with
      counters := { counters with crcErrors := counters.crcErrors + 1 } }
    let endpoint := endpoint.logged [⟨.warn, s!"crc mismatch on request {name}"⟩]
    (endpoint.compose frame.header true (refusal name)).2
  else
    match directory.find? frame.kind frame.name with
    | some command =>
      let endpoint := { endpoint with
        counters := { counters with dispatched := counters.dispatched + 1 } }
      let endpoint := endpoint.logged [⟨.trace, s!"dispatching {name}"⟩]
      let (context, endpoint) := endpoint.compose frame.header frame.crc.isPresent
        (command.handler frame endpoint.context)
      { endpoint with context }
    | none =>
      let endpoint := { endpoint with
        counters := { counters with unknown := counters.unknown + 1 } }
      endpoint.logged [⟨.debug, s!"no handler for {name}"⟩]

def dispatch (directory : Directory C) (endpoint : Endpoint C N) : Endpoint C N :=
  let endpoint := endpoint.logged endpoint.parser.frameLog
  let endpoint := match endpoint.parser.frame? with
    | some frame => endpoint.handle directory frame
    | none => endpoint
  { endpoint with parser := endpoint.parser.reset }

def push (directory : Directory C) (endpoint : Endpoint C N) (byte : UInt8) :
    Bool × Endpoint C N :=
  let (progress, parser) := endpoint.parser.push byte
  let endpoint := { endpoint with parser }.logged progress.log
  if progress = .completed then (true, endpoint.dispatch directory) else (false, endpoint)

def feed (directory : Directory C) (endpoint : Endpoint C N) : Bytes → Nat × Endpoint C N
  | [] => (0, endpoint)
  | byte :: rest =>
    let (completed, endpoint) := endpoint.push directory byte
    let (count, endpoint) := feed directory endpoint rest
    (completed.toNat + count, endpoint)

/-- Feeds what one call of the transport gives. A call that reports no bytes would block. -/
def poll (directory : Directory C) (endpoint : Endpoint C N) :
    Reception → PollResult × Endpoint C N
  | .wouldBlock => (.wouldBlock, endpoint)
  | .failure => (.failed, endpoint.logged [⟨.error, "transport receive failed"⟩])
  | .data bytes claim =>
    match Reception.chunk bytes claim with
    | [] => (.wouldBlock, endpoint)
    | chunk =>
      let (count, endpoint) := endpoint.feed directory chunk
      (.completed count, endpoint)

def listen (directory : Directory C) (endpoint : Endpoint C N) (delay : UInt32) :
    List Reception → LoopEnd C N
  | [] => ⟨[], 0, (endpoint.poll directory .failure).2, []⟩
  | reception :: rest =>
    match endpoint.poll directory reception with
    | (.failed, endpoint) => ⟨[], 0, endpoint, rest⟩
    | (.wouldBlock, endpoint) =>
      let last := listen directory endpoint delay rest
      { last with delays := delay :: last.delays }
    | (.completed count, endpoint) =>
      let last := listen directory endpoint delay rest
      { last with completed := count + last.completed }

def sendRequest (endpoint : Endpoint C N) (header : Header) (crc : Bool) (build : DraftM α) :
    (α × Except SendError Nat) × Endpoint C N :=
  endpoint.compose header crc do
    DraftM.reset .request
    let value ← build
    let result ← DraftM.send
    return (value, result)

end Endpoint

end FirmwareLink

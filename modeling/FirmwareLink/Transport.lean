import FirmwareLink.Bytes
import FirmwareLink.Log
import FirmwareLink.Wire

namespace FirmwareLink

open Wire

inductive SendError where
  | transport
  | overflow
  | shortWrite (written expected : Nat)
deriving DecidableEq, Repr

def SendError.message : SendError → String
  | .transport => "transport failure"
  | .overflow => "transmit buffer overflow"
  | .shortWrite written expected => s!"short write: {written} of {expected} bytes"

inductive Acceptance where
  | wouldBlock
  | failure
  /-- Takes at most `limit` bytes and reports how many it took, or the number claimed. -/
  | accept (limit : Nat) (claim : Option Nat)
deriving DecidableEq, Repr

structure Channel where
  plan : List Acceptance
  offered : List Bytes
  accepted : Bytes
deriving DecidableEq, Repr

namespace Channel

def ofPlan (plan : List Acceptance) : Channel := ⟨plan, [], []⟩

def taking (channel : Channel) (rest : Bytes) (count : Nat) : Channel :=
  { channel with
    offered := channel.offered ++ [rest]
    accepted := channel.accepted ++ rest.take count }

structure Delivery where
  result : Except SendError Nat
  channel : Channel
  log : List LogRecord

/-- Offers what lies behind the first `written` bytes of a frame until the transport has
    reported as many bytes as the frame holds, has reported none, or has failed. -/
def deliverFrom (frame : Bytes) (written : Nat) (channel : Channel) : List Acceptance → Delivery
  | [] =>
    if frame.length ≤ written then ⟨.ok written, { channel with plan := [] }, []⟩
    else
      let rest := frame.drop written
      ⟨.ok frame.length, { channel.taking rest rest.length with plan := [] }, []⟩
  | acceptance :: plan =>
    if frame.length ≤ written then
      ⟨.ok written, { channel with plan := acceptance :: plan }, []⟩
    else
      let rest := frame.drop written
      match acceptance with
      | .wouldBlock => deliverFrom frame written (channel.taking rest 0) plan
      | .failure =>
        ⟨.error .transport, { channel.taking rest 0 with plan },
          [⟨.error, s!"transport send failed after {written} bytes"⟩]⟩
      | .accept limit claim =>
        let count := claim.getD (min limit rest.length)
        if count = 0 then
          ⟨.error (.shortWrite written frame.length), { channel.taking rest limit with plan },
            [⟨.warn, s!"transport stalled after {written} of {frame.length} bytes"⟩]⟩
        else deliverFrom frame (written + count) (channel.taking rest limit) plan

def deliver (channel : Channel) (frame : Bytes) : Delivery :=
  deliverFrom frame 0 channel channel.plan

end Channel

inductive Reception where
  | wouldBlock
  | failure
  /-- Puts bytes into the receive chunk and reports how many, or the number claimed. -/
  | data (bytes : Bytes) (claim : Option Nat)
deriving DecidableEq, Repr

/-- The part of a zeroed receive chunk that is taken for data. A claim past the end of the
    chunk means all of it. -/
def Reception.chunk (bytes : Bytes) (claim : Option Nat) : Bytes :=
  let copied := bytes.take chunkSize
  (copied ++ List.replicate (chunkSize - copied.length) 0).take (claim.getD copied.length)

end FirmwareLink

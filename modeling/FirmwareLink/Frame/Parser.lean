import FirmwareLink.Buffer
import FirmwareLink.Checksum
import FirmwareLink.Log
import FirmwareLink.Frame.Basic

namespace FirmwareLink

open Wire

inductive DropReason where
  | secondTrailer
  | recordInTrailer
  | tooManyRecords
  | bufferFull
deriving DecidableEq, Repr

def DropReason.text : DropReason → String
  | .secondTrailer => "second crc marker"
  | .recordInTrailer => "record separator inside crc trailer"
  | .tooManyRecords => "argument vector overflow"
  | .bufferFull => "receive buffer overflow"

inductive Progress where
  | waiting
  | completed
  | dropped (reason : DropReason)
deriving DecidableEq, Repr

def Progress.log : Progress → List LogRecord
  | .waiting | .completed => []
  | .dropped reason => [⟨.warn, s!"dropping frame: {reason.text}"⟩]

inductive Parser.Phase where
  | idle
  | active (cursor : Nat)
  | complete (length : Nat)
deriving DecidableEq, Repr

/-- A frame that cannot be kept whole is dropped whole. -/
structure Parser (N : Nat) where
  buffer : Buffer N
  phase : Parser.Phase
  kind : FrameKind
  /-- Where each record begins. The byte before every entry but the first is a separator. -/
  starts : List Nat
  trailer : Option Nat
  dropped : UInt32

namespace Parser

variable {N : Nat}

def empty : Parser N where
  buffer := Buffer.zeroed N
  phase := .idle
  kind := .request
  starts := []
  trailer := none
  dropped := 0

def reset (parser : Parser N) : Parser N :=
  { parser with phase := .idle, starts := [], trailer := none }

def isActive (parser : Parser N) : Bool :=
  match parser.phase with
  | .active _ => true
  | .idle | .complete _ => false

def start (parser : Parser N) (kind : FrameKind) : Parser N :=
  { parser with phase := .active 0, kind := kind, starts := [0], trailer := none }

def giveUp (parser : Parser N) (reason : DropReason) : Progress × Parser N :=
  (.dropped reason, { parser.reset with dropped := parser.dropped + 1 })

def keep (parser : Parser N) (cursor : Nat) (byte : UInt8) : Progress × Parser N :=
  if cursor < N then
    (.waiting, { parser with
      buffer := parser.buffer.setIfInBounds cursor byte
      phase := .active (cursor + 1) })
  else parser.giveUp .bufferFull

def collect (parser : Parser N) (cursor : Nat) (byte : UInt8) : Progress × Parser N :=
  if byte = endMark then (.completed, { parser with phase := .complete cursor })
  else if byte = trailerMark then
    if parser.trailer.isSome then parser.giveUp .secondTrailer
    else (.waiting, { parser with trailer := some cursor })
  else if byte = recordMark then
    if parser.trailer.isSome then parser.giveUp .recordInTrailer
    else if maxRecords ≤ parser.starts.length then parser.giveUp .tooManyRecords
    else { parser with starts := parser.starts ++ [cursor + 1] }.keep cursor byte
  else parser.keep cursor byte

/-- Takes one byte. Outside a frame all bytes but start markers are noise, and any byte ends
    the life of a completed frame. -/
def push (parser : Parser N) (byte : UInt8) : Progress × Parser N :=
  match parser.phase with
  | .active cursor => parser.collect cursor byte
  | .idle | .complete _ =>
    match FrameKind.ofMarker? byte with
    | some kind => (.waiting, parser.start kind)
    | none => (.waiting, { parser with phase := .idle })

/-- The pieces of a buffer that begin at the given offsets. Each ends before the separator of
    the next, the last one at `stop`. -/
def cutRecords (buffer : Buffer N) (stop : Nat) : List Nat → List Bytes
  | [] => []
  | [start] => [buffer.slice start stop]
  | start :: next :: rest =>
    buffer.slice start (next - 1) :: cutRecords buffer stop (next :: rest)

def crcStatus (parser : Parser N) (length : Nat) : CrcStatus :=
  match parser.trailer with
  | none => .absent
  | some start =>
    if Checksum.readTrailer? (parser.buffer.slice start length) =
        some (crc16 (parser.buffer.slice 0 start)) then .matched
    else .mismatched

def frame? (parser : Parser N) : Option Frame :=
  match parser.phase with
  | .complete length =>
    some (Frame.ofRecords parser.kind (parser.crcStatus length)
      (cutRecords parser.buffer (parser.trailer.getD length) parser.starts))
  | .idle | .active _ => none

/-- What is logged whenever the completed frame is looked at. -/
def frameLog (parser : Parser N) : List LogRecord :=
  match parser.phase, parser.trailer with
  | .complete length, some start =>
    if parser.crcStatus length = .mismatched then
      let calculated := (crc16 (parser.buffer.slice 0 start)).toNat
      [⟨.debug, s!"crc mismatch: calculated {calculated}"⟩]
    else []
  | _, _ => []

end Parser

end FirmwareLink

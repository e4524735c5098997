import FirmwareLink.Numeral
import FirmwareLink.Frame.Kind
import FirmwareLink.Frame.Header

namespace FirmwareLink

/-- What became of the checksum of a frame. A trailer that is no number at all mismatches. -/
inductive CrcStatus where
  | absent
  | matched
  | mismatched
deriving DecidableEq, Repr

def CrcStatus.isPresent : CrcStatus → Bool
  | .absent => false
  | .matched | .mismatched => true

structure Frame where
  kind : FrameKind
  header : Header
  args : List Bytes
  crc : CrcStatus
deriving DecidableEq, Repr

namespace Frame

def name (frame : Frame) : Bytes := frame.header.name

/-- The frame of these records, the first of which is the header as written. -/
def ofRecords (kind : FrameKind) (crc : CrcStatus) (records : List Bytes) : Frame :=
  let header := Header.parse (records.headD [])
  let args := match records with
    | [] => []
    | _ :: rest => header.name :: rest
  { kind, header, args, crc }

def arg? (frame : Frame) (index : Nat) : Option Bytes := frame.args[index]?

def argText? (frame : Frame) (index : Nat) : Option String :=
  (frame.arg? index).bind Bytes.text?

def argHex? (frame : Frame) (index : Nat) : Option UInt32 :=
  (frame.arg? index).bind Numeral.readWord?

def argInt? (frame : Frame) (index : Nat) : Option Int32 :=
  (frame.arg? index).bind Numeral.readSigned?

end Frame

end FirmwareLink

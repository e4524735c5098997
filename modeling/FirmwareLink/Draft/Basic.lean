import FirmwareLink.Buffer
import FirmwareLink.Checksum
import FirmwareLink.Frame.Header
import FirmwareLink.Frame.Kind

namespace FirmwareLink

open Wire

/-- An append fits whole or writes nothing and marks the frame as overflowing. -/
structure Draft (N : Nat) where
  buffer : Buffer N
  length : Nat
  overflow : Bool
  header : Header
  crc : Bool
  length_le : length ≤ N

structure DraftView where
  bytes : Bytes
  overflow : Bool
  header : Header
  crc : Bool
deriving DecidableEq, Repr

namespace Draft

variable {N : Nat}

def create (buffer : Buffer N) (header : Header) (crc : Bool) : Draft N where
  buffer := buffer
  length := 0
  overflow := false
  header := header
  crc := crc
  length_le := Nat.zero_le N

def bytes (draft : Draft N) : Bytes := draft.buffer.slice 0 draft.length

def view (draft : Draft N) : DraftView :=
  ⟨draft.bytes, draft.overflow, draft.header, draft.crc⟩

def clear (draft : Draft N) : Draft N :=
  { draft with length := 0, overflow := false, length_le := Nat.zero_le N }

def append (draft : Draft N) (bytes : Bytes) : Draft N :=
  if fits : draft.length + bytes.length ≤ N then
    { draft with
      buffer := draft.buffer.write draft.length bytes
      length := draft.length + bytes.length
      length_le := fits }
  else { draft with overflow := true }

def appendAll (draft : Draft N) (pieces : List Bytes) : Draft N := pieces.foldl append draft

def reset (draft : Draft N) (kind : FrameKind) : Draft N :=
  draft.clear.appendAll ([kind.marker] :: draft.header.pieces)

/-- Appends the trailer of what follows the start marker, where one is wanted, and the end
    marker. An empty draft gets no trailer. -/
def close (draft : Draft N) : Draft N :=
  let trailed :=
    if draft.crc && 0 < draft.length then
      draft.appendAll ([trailerMark] :: Checksum.trailerPieces (crc16 draft.bytes.tail))
    else draft
  trailed.append [endMark]

end Draft

end FirmwareLink

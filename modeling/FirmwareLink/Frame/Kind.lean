import FirmwareLink.Wire

namespace FirmwareLink

open Wire

inductive FrameKind where
  | request
  | ack
  | nak
deriving DecidableEq, Repr

namespace FrameKind

def marker : FrameKind → UInt8
  | .request => requestMark
  | .ack => ackMark
  | .nak => nakMark

def ofMarker? (byte : UInt8) : Option FrameKind :=
  if byte = requestMark then some .request
  else if byte = ackMark then some .ack
  else if byte = nakMark then some .nak
  else none

def isResponse : FrameKind → Bool
  | .request => false
  | .ack | .nak => true

theorem ofMarker?_marker (kind : FrameKind) : ofMarker? kind.marker = some kind := by
  cases kind <;> decide

theorem marker_of_ofMarker? {byte : UInt8} {kind : FrameKind} (marked : ofMarker? byte = some kind) :
    kind.marker = byte := by
  unfold ofMarker? at marked
  split at marked
  · rename_i request
    obtain rfl := Option.some.inj marked
    exact request.symm
  · split at marked
    · rename_i ack
      obtain rfl := Option.some.inj marked
      exact ack.symm
    · split at marked
      · rename_i nak
        obtain rfl := Option.some.inj marked
        exact nak.symm
      · cases marked

end FrameKind

end FirmwareLink

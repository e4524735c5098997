import FirmwareLink.Pool.Shared
import FirmwareLink.Status

namespace FirmwareLink

class Board (B : Type) where
  erase : B → String → Except StatusCode Unit × B
  writeProtect : B → String → Int32 → Except StatusCode Unit × B
  write : B → SharedPool → String → UInt32 → Bytes → Except StatusCode Unit × B
  /-- Decodes an ascii85 text into a block of memory and gives the decoded size. The block may
      have changed also where decoding fails. -/
  decode : B → Bytes → {length : Nat} → Vector UInt8 length →
    Except StatusCode Nat × Vector UInt8 length
  appVersion : B → String
  kernelVersion : B → String
  buildStamp : B → String
  activeSlot : B → Except StatusCode UInt8
  scheduleReboot : B → B

structure Device (B : Type) where
  board : B
  pool : SharedPool

end FirmwareLink

import FirmwareLink.Numeral

namespace FirmwareLink

namespace Checksum

def preset : UInt16 := 0

def update (crc : UInt16) (byte : UInt8) : UInt16 :=
  let mixed := (crc >>> 8) ^^^ byte.toUInt16
  let mixed := mixed ^^^ (mixed >>> 4)
  (crc <<< 8) ^^^ (mixed <<< 12) ^^^ (mixed <<< 5) ^^^ mixed

end Checksum

open Checksum

def crc16 (bytes : Bytes) : UInt16 := bytes.foldl update preset

namespace Checksum

/-- A trailer is one to four hexadecimal digits of either case. -/
def readTrailer? (text : Bytes) : Option UInt16 :=
  if text.length ≤ 4 then (Numeral.readHex? text).map Nat.toUInt16 else none

/-- The four digits of a trailer in the order they are written: each padding zero by itself,
    then the digits of the number. -/
def trailerPieces (crc : UInt16) : List Bytes :=
  let digits := Numeral.hex crc.toNat
  List.replicate (4 - digits.length) [0x30] ++ [digits]

end Checksum

end FirmwareLink

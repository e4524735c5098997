import FirmwareLink.Bytes

namespace FirmwareLink.Numeral

def digits (base number : Nat) : List Nat :=
  if base < 2 ∨ number < base then [number]
  else digits base (number / base) ++ [number % base]
termination_by number
decreasing_by exact Nat.div_lt_self (by omega) (by omega)

def value (base : Nat) (digits : List Nat) : Nat :=
  digits.foldl (fun number digit => number * base + digit) 0

def digitByte (digit : Nat) : UInt8 :=
  if digit < 10 then (0x30 + digit).toUInt8 else (0x41 + (digit - 10)).toUInt8

def decimalDigit? (byte : UInt8) : Option Nat :=
  if 0x30 ≤ byte ∧ byte ≤ 0x39 then some (byte.toNat - 0x30) else none

def hexDigit? (byte : UInt8) : Option Nat :=
  if 0x30 ≤ byte ∧ byte ≤ 0x39 then some (byte.toNat - 0x30)
  else if 0x41 ≤ byte ∧ byte ≤ 0x46 then some (byte.toNat - 0x41 + 10)
  else if 0x61 ≤ byte ∧ byte ≤ 0x66 then some (byte.toNat - 0x61 + 10)
  else none

def decimal (number : Nat) : Bytes := (digits 10 number).map digitByte

def hex (number : Nat) : Bytes := (digits 16 number).map digitByte

def read? (base : Nat) (digit? : UInt8 → Option Nat) (text : Bytes) : Option Nat :=
  if text.isEmpty then none else (text.mapM digit?).map (value base)

def readHex? (text : Bytes) : Option Nat := read? 16 hexDigit? text

def readDecimal? (text : Bytes) : Option Nat := read? 10 decimalDigit? text

def minus : UInt8 := 0x2d

def readInt? : Bytes → Option Int
  | [] => none
  | byte :: rest =>
    if byte = minus then (readDecimal? rest).map fun number => -(number : Int)
    else (readDecimal? (byte :: rest)).map fun number => (number : Int)

def readWord? (text : Bytes) : Option UInt32 := do
  let number ← readHex? text
  if number < UInt32.size then some number.toUInt32 else none

def readSigned? (text : Bytes) : Option Int32 := do
  let number ← readInt? text
  if Int32.minValue.toInt ≤ number ∧ number ≤ Int32.maxValue.toInt then some (Int32.ofInt number)
  else none

def signedPieces (number : Int32) : List Bytes :=
  let digits := decimal number.toInt.natAbs
  if number.toInt < 0 then [[minus], digits] else [digits]

end FirmwareLink.Numeral

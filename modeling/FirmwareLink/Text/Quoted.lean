import FirmwareLink.Numeral
import FirmwareLink.Text.Printable

namespace FirmwareLink.Text

def lowerHex (number : Nat) : List Char := (Numeral.digits 16 number).map Nat.digitChar

def escape (char : Char) : List Char :=
  if char = '\x00' then ['\\', '0']
  else if char = '\t' then ['\\', 't']
  else if char = '\r' then ['\\', 'r']
  else if char = '\n' then ['\\', 'n']
  else if char = '"' ∨ char = '\\' then ['\\', char]
  else if isPrintable char then [char]
  else ['\\', 'u', '\x7b'] ++ lowerHex char.toNat ++ ['\x7d']

def quote (text : String) : String :=
  String.ofList ('"' :: text.toList.flatMap escape ++ ['"'])

end FirmwareLink.Text

import FirmwareLink.Bytes
import FirmwareLink.Wire

namespace FirmwareLink

open Wire

structure Header where
  id : Option Bytes
  name : Bytes
  sequence : Option Bytes
deriving DecidableEq, Repr

namespace Header

def ofText (id : Option String) (name : String) (sequence : Option String) : Header where
  id := id.map Bytes.ofText
  name := Bytes.ofText name
  sequence := sequence.map Bytes.ofText

/-- The id ends at the first `'@'`; the sequence starts behind the first `':'` after that. -/
def parse (record : Bytes) : Header :=
  let (id, rest) := match Bytes.cut idMark record with
    | some (id, rest) => (some id, rest)
    | none => (none, record)
  match Bytes.cut sequenceMark rest with
  | some (name, sequence) => ⟨id, name, some sequence⟩
  | none => ⟨id, rest, none⟩

def pieces (header : Header) : List Bytes :=
  (match header.id with
    | some id => [id, [idMark]]
    | none => []) ++
  [header.name] ++
  (match header.sequence with
    | some sequence => [[sequenceMark], sequence]
    | none => [])

def encode (header : Header) : Bytes := header.pieces.flatten

end Header

end FirmwareLink

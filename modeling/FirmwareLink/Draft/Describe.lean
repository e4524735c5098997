import FirmwareLink.Draft.Basic
import FirmwareLink.Text.Layout

namespace FirmwareLink

open Text

def Bytes.describe (bytes : Bytes) : String := list (bytes.map fun byte => s!"{byte.toNat}")

def Header.describe (header : Header) : String := record "Header"
  [field "id" (option (header.id.map Bytes.describe)),
   field "name" header.name.describe,
   field "sequence" (option (header.sequence.map Bytes.describe))]

def DraftView.describe (view : DraftView) : String := record "Reply"
  [field "buf" view.bytes.describe,
   field "overflow" (flag view.overflow),
   field "header" view.header.describe,
   field "crc" (flag view.crc),
   more]

end FirmwareLink

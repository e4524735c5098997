import FirmwareLink.Frame.Basic
import FirmwareLink.Draft.Program
import FirmwareLink.Text.Layout
import FirmwareLink.Text.Quoted

namespace FirmwareLink

/-- A handler sees the frame and the user context, writes its answer, and leaves the context
    as it is to be from then on. -/
abbrev Handler (C : Type) := Frame → C → DraftM C

structure Command (C : Type) where
  name : String
  handler : Handler C

/-- The first entry with a name is the one that counts. -/
structure Directory (C : Type) where
  requests : List (Command C)
  responses : List (Command C)

namespace Directory

variable {C : Type}

def lookup? (table : List (Command C)) (name : Bytes) : Option (Command C) :=
  table.find? fun command => Bytes.ofText command.name = name

def request? (directory : Directory C) (name : Bytes) : Option (Command C) :=
  lookup? directory.requests name

def response? (directory : Directory C) (name : Bytes) : Option (Command C) :=
  lookup? directory.responses name

def find? (directory : Directory C) (kind : FrameKind) (name : Bytes) : Option (Command C) :=
  if kind.isResponse then directory.response? name else directory.request? name

def describe (directory : Directory C) : String :=
  let table (commands : List (Command C)) : String :=
    Text.list (commands.map fun command =>
      Text.record "Command" [Text.field "name" (Text.quote command.name)])
  Text.record "Registry"
    [Text.field "requests" (table directory.requests),
     Text.field "responses" (table directory.responses)]

end Directory

end FirmwareLink

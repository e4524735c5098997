import FirmwareLink.Bytes

namespace FirmwareLink

abbrev Buffer (N : Nat) := Vector UInt8 N

namespace Buffer

def zeroed (N : Nat) : Buffer N := Vector.replicate N 0

def write {N : Nat} (buffer : Buffer N) (start : Nat) : Bytes → Buffer N
  | [] => buffer
  | byte :: rest => write (buffer.setIfInBounds start byte) (start + 1) rest

def slice {N : Nat} (buffer : Buffer N) (start stop : Nat) : Bytes :=
  (buffer.toList.take stop).drop start

end Buffer

end FirmwareLink

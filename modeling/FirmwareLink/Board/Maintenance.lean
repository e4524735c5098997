import FirmwareLink.Board.Basic
import FirmwareLink.Directory

namespace FirmwareLink.Maintenance

variable {B : Type} [Board B]

def echo (frame : Frame) (first last : Nat) : DraftM Unit :=
  DraftM.recordAll ((frame.args.take (last + 1)).drop first)

def finish (name : String) : DraftM Unit := do
  match ← DraftM.send with
  | .ok _ => return
  | .error error => DraftM.log .error s!"{name} reply not sent: {error.message}"

def warnOf (action : String) : Except StatusCode Unit → DraftM Unit
  | .ok () => return
  | .error code => DraftM.log .warn s!"{action} failed: {code}"

def erase : Handler (Device B) := fun frame device => do
  let (result, board) := match frame.argText? 1 with
    | some partition => Board.erase device.board partition
    | none => (.error Status.invalidArgument, device.board)
  warnOf "erase" result
  DraftM.status result
  echo frame 1 1
  finish "erase"
  return { device with board }

def writeProtect : Handler (Device B) := fun frame device => do
  let (result, board) := match frame.argText? 1, frame.argInt? 2 with
    | some partition, some level => Board.writeProtect device.board partition level
    | _, _ => (.error Status.invalidArgument, device.board)
  DraftM.status result
  echo frame 1 1
  finish "wrprt"
  return { device with board }

def programBlock (board : B) (pool : SharedPool) (block : Nat) (partition : String)
    (offset : UInt32) (length : Nat) (text : Bytes) :
    DraftM (Except StatusCode Unit × B × SharedPool) := do
  let (decoded, content) := Board.decode board text (pool.content block length)
  let pool := pool.write block content.toList
  match decoded with
  | .error code => return (.error code, board, pool)
  | .ok size =>
    if size = length then
      let (result, board) := Board.write board pool partition offset content.toList
      return (result, board, pool)
    else
      DraftM.log .debug s!"decoded {size} bytes, expected {length}"
      return (.error Status.payloadSize, board, pool)

/-- Programs a partition by way of a zeroed block, which is free again afterwards. -/
def program (device : Device B) (partition : String) (offset : UInt32) (length : Nat)
    (text : Bytes) : DraftM (Except StatusCode Unit × Device B) :=
  if length = 0 then return (.error Status.invalidArgument, device)
  else do
    let allocated := device.pool.allocateZeroed length 1
    DraftM.logAll allocated.log
    match allocated.value with
    | none =>
      DraftM.log .warn s!"no pool memory for {length} bytes"
      return (.error Status.outOfMemory, { device with pool := allocated.pool })
    | some block =>
      let (result, board, pool) ←
        programBlock device.board allocated.pool block partition offset length text
      let freed := pool.free block
      DraftM.logAll freed.log
      return (result, ⟨board, freed.pool⟩)

def flash : Handler (Device B) := fun frame device => do
  let (result, device) ←
    match frame.argText? 1, frame.argHex? 2, frame.argHex? 3, frame.arg? 4 with
    | some partition, some offset, some length, some text =>
      program device partition offset length.toNat text
    | _, _, _, _ => pure (.error Status.invalidArgument, device)
  warnOf "flash" result
  DraftM.status result
  echo frame 1 3
  finish "flash"
  return device

def version : Handler (Device B) := fun _ device => do
  DraftM.ack
  DraftM.recordText (Board.appVersion device.board)
  DraftM.recordText (Board.kernelVersion device.board)
  DraftM.recordText (Board.buildStamp device.board)
  finish "ver"
  return device

def reboot : Handler (Device B) := fun _ device => do
  DraftM.ack
  finish "reboot"
  return { device with board := Board.scheduleReboot device.board }

def slot : Handler (Device B) := fun _ device => do
  match Board.activeSlot device.board with
  | .ok number => do
    DraftM.ack
    DraftM.recordInt (Int32.ofNat number.toNat)
  | .error code => DraftM.nak code
  finish "slot"
  return device

def table : List (Command (Device B)) :=
  [⟨"erase", erase⟩, ⟨"wrprt", writeProtect⟩, ⟨"flash", flash⟩, ⟨"ver", version⟩,
   ⟨"reboot", reboot⟩, ⟨"slot", slot⟩]

end FirmwareLink.Maintenance

namespace FirmwareLink.Wire

abbrev requestMark : UInt8 := 0x05

abbrev ackMark : UInt8 := 0x06

abbrev nakMark : UInt8 := 0x15

abbrev endMark : UInt8 := 0x04

abbrev trailerMark : UInt8 := 0x1a

abbrev recordMark : UInt8 := 0x1e

abbrev idMark : UInt8 := 0x40

abbrev sequenceMark : UInt8 := 0x3a

def packetSize : Nat := 1530

def maxRecords : Nat := 64

def chunkSize : Nat := 128

end FirmwareLink.Wire

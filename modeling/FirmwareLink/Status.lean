namespace FirmwareLink

abbrev StatusCode := Int32

namespace Status

def ok : StatusCode := 0

def ioFailure : StatusCode := -5

def outOfMemory : StatusCode := -12

def invalidArgument : StatusCode := -22

def unsupported : StatusCode := -134

def crcMismatch : StatusCode := -2000

def malformedPayload : StatusCode := -2001

def payloadSize : StatusCode := -2002

end Status

end FirmwareLink

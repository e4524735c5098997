namespace FirmwareLink

inductive LogLevel where
  | trace
  | debug
  | warn
  | error
deriving DecidableEq, Repr

def LogLevel.name : LogLevel → String
  | .trace => "TRACE"
  | .debug => "DEBUG"
  | .warn => "WARN"
  | .error => "ERROR"

structure LogRecord where
  level : LogLevel
  message : String
deriving DecidableEq, Repr

def LogRecord.text (record : LogRecord) : String := s!"{record.level.name} {record.message}"

end FirmwareLink

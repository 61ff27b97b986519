set_option autoImplicit false

namespace FfiBindings.Log

structure Level where
  rank : Int
deriving DecidableEq, Repr

namespace Level

def debug : Level := { rank := 10 }

def info : Level := { rank := 20 }

def warning : Level := { rank := 30 }

def error : Level := { rank := 40 }

def critical : Level := { rank := 50 }

def name (level : Level) : String :=
  match level.rank with
  | 0 => "NOTSET"
  | 10 => "DEBUG"
  | 20 => "INFO"
  | 30 => "WARNING"
  | 40 => "ERROR"
  | 50 => "CRITICAL"
  | rank => s!"Level {rank}"

end Level

def programLogger : String := "rustport"

def loggerName (component : String) : String :=
  if component.isEmpty then programLogger else programLogger ++ "." ++ component

structure Record where
  level : Level
  component : String
  message : String
deriving DecidableEq, Repr

namespace Record

def consoleLine (record : Record) : String :=
  s!"[{programLogger}] {record.level.name} {record.message}"

def detailedLine (record : Record) : String :=
  s!"{record.level.name} {loggerName record.component}: {record.message}"

end Record

end FfiBindings.Log

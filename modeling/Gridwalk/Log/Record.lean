import Gridwalk.Log.Level

/-!
# Log records and the logger

A record is one line: its level in brackets, the part of the program that wrote it, and a text. A
logger knows which records to let through and whether to colour them.
-/

namespace Gridwalk.Log

open Text (Span)

structure Record where
  level : Level
  target : String
  text : String
  deriving DecidableEq, Repr

def Record.spans (record : Record) : List Span :=
  [record.level.colour.span ("[" ++ record.level.name ++ "]"),
    .plain (" " ++ record.target ++ ": " ++ record.text)]

def Record.render (colours : Bool) (record : Record) : String :=
  Text.renderSpans colours record.spans

structure Logger where
  level : Level
  colours : Bool
  deriving DecidableEq, Repr

namespace Logger

def initial (colours : Bool) : Logger := ⟨.warn, colours⟩

def enabled (logger : Logger) (level : Level) : Bool := level ≤ logger.level

def setLevel (logger : Logger) (name : String) : Except UnknownLevel Logger :=
  (Level.parse name).map fun level => { logger with level }

def configure (logger : Logger) : Option String → Except UnknownLevel Logger
  | none => .ok logger
  | some name => logger.setLevel name

def write (logger : Logger) (record : Record) : String :=
  if logger.enabled record.level then record.render logger.colours ++ "\n" else ""

end Logger

end Gridwalk.Log

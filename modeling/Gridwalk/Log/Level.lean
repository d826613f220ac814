import Gridwalk.Text.Blank
import Gridwalk.Text.Paint
import Gridwalk.Text.Trim

/-!
# Log levels

Levels go from the most severe, `error`, to the least, `trace`. A level lets through every record
that is at least as severe as itself.
-/

namespace Gridwalk.Log

open Text (Colour)

inductive Level
  | error
  | warn
  | info
  | debug
  | trace
  deriving DecidableEq, Repr

structure UnknownLevel where
  given : String
  deriving DecidableEq, Repr

def UnknownLevel.message (unknown : UnknownLevel) : String :=
  "Invalid log level: " ++ unknown.given

namespace Level

def rank : Level → Nat
  | .error => 0
  | .warn => 1
  | .info => 2
  | .debug => 3
  | .trace => 4

instance : LE Level := ⟨fun a b => a.rank ≤ b.rank⟩

instance (a b : Level) : Decidable (a ≤ b) := inferInstanceAs (Decidable (a.rank ≤ b.rank))

def name : Level → String
  | .error => "ERROR"
  | .warn => "WARN"
  | .info => "INFO"
  | .debug => "DEBUG"
  | .trace => "TRACE"

def colour : Level → Colour
  | .error => .red
  | .warn => .yellow
  | .info => .green
  | .debug => .cyan
  | .trace => .magenta

/-- The capital of a letter, as far as capitals from A to Z go: only the letters a to z and the
dotless i have one there. -/
def capital (c : Char) : Char := if c = 'ı' then 'I' else c.toUpper

def parse (text : String) : Except UnknownLevel Level :=
  match String.ofList ((Text.trimWhile Text.isBlank text.toList).map capital) with
  | "ERROR" => .ok .error
  | "WARN" | "WARNING" => .ok .warn
  | "INFO" => .ok .info
  | "DEBUG" => .ok .debug
  | "TRACE" => .ok .trace
  | _ => .error ⟨text⟩

end Level

end Gridwalk.Log

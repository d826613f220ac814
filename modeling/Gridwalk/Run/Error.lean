import Gridwalk.Stream.Error

/-!
# Why a run fails

A command fails with a `Fault`, which says what went wrong. A run fails with a `RunError`, which
also says at which command and in which codebox.
-/

namespace Gridwalk

inductive Site
  | main
  | codebox (name : String)
  deriving DecidableEq, Repr

def Site.describe : Site → String
  | .main => "main codebox"
  | .codebox name => "codebox " ++ name

inductive Fault
  | stackUnderflow
  | velocityUnderflow
  | overflow
  | divisionByZero
  | invalidCharacter (value : Int64)
  | stream (error : Stream.Error)
  deriving DecidableEq, Repr

inductive RunError
  | noMainCodebox
  | commandNotFound (command : Char)
  | outOfBounds (site : Site)
  | divisionByZero (site : Site)
  | stackUnderflow (command : Char) (site : Site)
  | velocityUnderflow (command : Char) (site : Site)
  | overflow (command : Char) (site : Site)
  | invalidCharacter (value : Int64) (site : Site)
  | stream (error : Stream.Error)
  deriving DecidableEq, Repr

def Fault.raise (fault : Fault) (command : Char) (site : Site) : RunError :=
  match fault with
  | .stackUnderflow => .stackUnderflow command site
  | .velocityUnderflow => .velocityUnderflow command site
  | .overflow => .overflow command site
  | .divisionByZero => .divisionByZero site
  | .invalidCharacter value => .invalidCharacter value site
  | .stream error => .stream error

def RunError.message : RunError → String
  | .noMainCodebox => "No main codebox found"
  | .commandNotFound command => s!"Command not found: {command}"
  | .outOfBounds site => s!"Out of bounds in {site.describe}"
  | .divisionByZero site => s!"Division by zero in {site.describe}"
  | .stackUnderflow command site => s!"Stack underflow at '{command}' in {site.describe}"
  | .velocityUnderflow command site =>
    s!"Velocity stack underflow at '{command}' in {site.describe}"
  | .overflow command site => s!"Integer overflow at '{command}' in {site.describe}"
  | .invalidCharacter value site =>
    s!"Invalid character code {value.toInt} in {site.describe}"
  | .stream error => s!"I/O error: {error.message}"

end Gridwalk

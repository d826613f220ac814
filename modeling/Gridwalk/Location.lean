/-!
# Locations

Every rule of the format is about a whole line, so a place in a program is a unit and a line
number, counted from one.
-/

namespace Gridwalk

structure Location where
  unit : String
  line : Nat
  deriving DecidableEq, Repr

def Location.describe (place : Location) : String := s!"file {place.unit}, line {place.line}"

end Gridwalk

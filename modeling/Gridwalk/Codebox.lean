import Gridwalk.Key
import Gridwalk.Location

/-!
# Codeboxes

A codebox is a named grid of characters with an entry column on its first row. `WellFormed` says
that the grid is a rectangle and that the entry column lies in it.
-/

namespace Gridwalk

structure Codebox where
  name : String
  width : Nat
  entry : Nat
  rows : List (List Char)
  /-- The place of the opening border. -/
  origin : Location
  deriving DecidableEq, Repr

namespace Codebox

def key (box : Codebox) : Key := Key.ofName box.name

def height (box : Codebox) : Nat := box.rows.length

def row? (box : Codebox) (y : Nat) : Option (List Char) := box.rows[y]?

def cell? (box : Codebox) : Int → Int → Option Char
  | .ofNat x, .ofNat y => (box.row? y).bind (·[x]?)
  | _, _ => none

def WellFormed (box : Codebox) : Prop :=
  box.entry < box.width ∧ ∀ row ∈ box.rows, row.length = box.width

instance (box : Codebox) : Decidable box.WellFormed :=
  inferInstanceAs (Decidable (box.entry < box.width ∧ ∀ row ∈ box.rows, row.length = box.width))

end Codebox

end Gridwalk

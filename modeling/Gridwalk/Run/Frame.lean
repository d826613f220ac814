import Gridwalk.Codebox
import Gridwalk.Run.Error
import Gridwalk.Word

/-!
# Frames

A frame is one activation of a codebox: where its pointer is, how the pointer moves and whether it
stands inside a string. The stacks do not belong to a frame.
-/

namespace Gridwalk

structure Frame where
  codebox : Codebox
  /-- The key by which the codebox was called. -/
  key : Key
  x : Int64
  y : Int64
  vx : Int64
  vy : Int64
  inString : Bool
  deriving DecidableEq, Repr

namespace Frame

/-- At the entry of the first row, moving down. -/
def enter (codebox : Codebox) (key : Key) : Frame where
  codebox
  key
  x := Int64.ofNat codebox.entry
  y := 0
  vx := 0
  vy := 1
  inString := false

def current? (frame : Frame) : Option Char := frame.codebox.cell? frame.x.toInt frame.y.toInt

/-- Moves the pointer by the velocity; a coordinate stops at the end of its range. -/
def advance (frame : Frame) : Frame :=
  { frame with
    x := Word.saturate (frame.x.toInt + frame.vx.toInt)
    y := Word.saturate (frame.y.toInt + frame.vy.toInt) }

def turn (frame : Frame) (vx vy : Int64) : Frame := { frame with vx, vy }

def site (frame : Frame) : Site :=
  if frame.key.isMain then .main else .codebox frame.codebox.name

end Frame

end Gridwalk

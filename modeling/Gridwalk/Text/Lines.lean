import Gridwalk.Text.Trim

/-!
# Lines of a text

A text is split at line feeds only. What follows the last line feed is a line unless it is empty,
and every carriage return at the end of a line is dropped.
-/

namespace Gridwalk.Text

/-- The pieces of a text that line feeds end; the last piece may go without one. -/
def pieces : List Char → List (List Char)
  | [] => []
  | c :: rest =>
    if c = '\n' then [] :: pieces rest
    else
      match pieces rest with
      | [] => [[c]]
      | piece :: others => (c :: piece) :: others

def dropReturns (line : List Char) : List Char := dropEndWhile (· = '\r') line

def lines (text : String) : List (List Char) := (pieces text.toList).map dropReturns

end Gridwalk.Text

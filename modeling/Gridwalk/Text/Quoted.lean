import Gridwalk.Text.Combining
import Gridwalk.Text.Invisible
import Gridwalk.Text.Unassigned

/-!
# Quoted characters

A character in single quotes, as log records show it: the quote, the backslash and every character
that would not be seen in its place are escaped, everything else stands for itself.
-/

namespace Gridwalk.Text

def isDistinct (c : Char) : Bool :=
  (' ' ≤ c && c ≤ '~') || !(isCombining c || isInvisible c || isUnassigned c)

def escape (c : Char) : String :=
  if c = '\x27' then "\\'"
  else if c = '\\' then "\\\\"
  else if c = '\t' then "\\t"
  else if c = '\n' then "\\n"
  else if c = '\r' then "\\r"
  else if c.toNat = 0 then "\\0"
  else if isDistinct c then c.toString
  else "\\u\x7b" ++ String.ofList (Nat.toDigits 16 c.toNat) ++ "\x7d"

def quoted (c : Char) : String := "'" ++ escape c ++ "'"

end Gridwalk.Text

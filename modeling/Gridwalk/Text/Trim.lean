/-!
# Trimming

Characters are dropped from the ends of a text for as long as they satisfy a test.
-/

namespace Gridwalk.Text

def dropEndWhile (p : Char → Bool) (cs : List Char) : List Char :=
  (cs.reverse.dropWhile p).reverse

def trimWhile (p : Char → Bool) (cs : List Char) : List Char :=
  dropEndWhile p (cs.dropWhile p)

end Gridwalk.Text

/-!
# Stream errors

Reading or writing can fail. An error has a kind, which decides how readers treat it, and a
message.
-/

namespace Gridwalk.Stream

inductive ErrorKind
  /-- Readers try again. -/
  | interrupted
  | unexpectedEnd
  | invalidData
  | other
  deriving DecidableEq, Repr

structure Error where
  kind : ErrorKind
  message : String
  deriving DecidableEq, Repr

def Error.invalidText : Error := ⟨.invalidData, "stream did not contain valid UTF-8"⟩

end Gridwalk.Stream

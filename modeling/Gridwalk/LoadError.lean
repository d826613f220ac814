import Gridwalk.Key
import Gridwalk.Location

/-!
# Why a program does not load

Each constructor is one broken rule. The last two arise in strict loading only.
-/

namespace Gridwalk

inductive LoadError
  | unreadable (file reason : String)
  | widthMismatch (place : Location) (expected found : Nat)
  | badName (place : Location)
  | badEntry (place : Location)
  | badRow (place : Location)
  /-- The text ended inside the codebox that was opened at `place`. -/
  | unterminated (place : Location)
  /-- The units along the cycle; the first and the last are the same. -/
  | importCycle (chain : List String)
  | strayText (place : Location)
  /-- The codebox opened at `place` has the key of one defined elsewhere. -/
  | duplicateCommand (key : Key) (place : Location)
  deriving DecidableEq, Repr

namespace LoadError

def location? : LoadError → Option Location
  | .unreadable _ _ | .importCycle _ => none
  | .widthMismatch place _ _ | .badName place | .badEntry place | .badRow place
  | .unterminated place | .strayText place | .duplicateCommand _ place => some place

def message : LoadError → String
  | .unreadable file _ => "Can't read file " ++ file
  | .widthMismatch place _ _ => "Incorrect width: " ++ place.describe
  | .badName place => "Bad codebox name: " ++ place.describe
  | .badEntry place => "Bad entry point: " ++ place.describe
  | .badRow place => "Bad codebox row: " ++ place.describe
  | .unterminated place => "Unterminated codebox: " ++ place.describe
  | .importCycle chain => "Import cycle: " ++ " -> ".intercalate chain
  | .strayText place => "Unexpected text outside codebox: " ++ place.describe
  | .duplicateCommand .main place => "Duplicate main codebox: " ++ place.describe
  | .duplicateCommand (.command c) place =>
    "Duplicate command '" ++ c.toString ++ "': " ++ place.describe

def help? : LoadError → Option String
  | .widthMismatch _ expected found => some s!"expected {expected} characters, found {found}"
  | .badName _ => some "the second line of a codebox must look like `# name #`"
  | .badEntry _ => some "the third line of a codebox must be `=` with a single `v`"
  | .badRow _ => some "codebox rows start and end with `#`"
  | .unterminated _ => some "close the codebox with a line of `#`"
  | .strayText _ =>
    some "only blank lines and `\x7bimports\x7d` may appear outside codeboxes"
  | .duplicateCommand _ _ =>
    some "codeboxes are invoked by the first character of their name"
  | .unreadable _ _ | .importCycle _ => none

theorem exists_help {error : LoadError} {place : Location} (h : error.location? = some place) :
    ∃ help, error.help? = some help := by
  cases error with
  | unreadable | importCycle => cases h
  | _ => exact ⟨_, rfl⟩

end LoadError

end Gridwalk

import Gridwalk.Load
import Gridwalk.Run.Machine

/-!
# Programs

A program is a unit whose main codebox is run. It can fail in loading or in running.
-/

namespace Gridwalk

open Log (Journal)

inductive ProgramError
  | load (error : LoadError)
  | run (error : RunError)
  deriving DecidableEq, Repr

def ProgramError.message : ProgramError → String
  | .load error => error.message
  | .run error => error.message

structure Execution where
  result : Except ProgramError Unit
  sink : Stream.Sink
  journal : Journal

namespace Program

def target : String := "merry_interpreter"

/-- Runs a codebox on stacks of the caller's, which come back however the run ends. -/
def runOn (reg : Registry) (fuel : Nat) (key : Key) (data velocity : List Int64)
    (input : Stream.Script) (sink : Stream.Sink) (journal : Journal) :
    Option (Except RunError Unit × Machine) :=
  Machine.run reg fuel key (.start data velocity input sink journal)

def runMain (reg : Registry) (fuel : Nat) (input : Stream.Script) (sink : Stream.Sink)
    (journal : Journal) : Option Execution :=
  (runOn reg fuel .main [] [] input sink journal).map fun (result, machine) =>
    ⟨result.mapError .run, machine.store.sink, machine.journal⟩

def run (loader : Loader) (source : Source) (unit : String) (fuel : Nat) (input : Stream.Script)
    (sink : Stream.Sink) (journal : Journal) : Option Execution :=
  match loader.load source unit journal with
  | (.error error, journal) => some ⟨.error (.load error), sink, journal⟩
  | (.ok reg, journal) =>
    runMain reg fuel input sink <| journal.note .debug target fun _ =>
      s!"loaded {reg.size} codeboxes from {unit}"

end Program

end Gridwalk

import Gridwalk.Log.Journal
import Gridwalk.Registry
import Gridwalk.Run.Store
import Gridwalk.Text.Quoted

/-!
# The machine

The machine keeps a stack of frames, innermost first. A step takes the innermost frame and carries
out the command under its pointer. A call leaves the caller on its command and pushes the caller's
velocity; a return pops a velocity for the caller, whatever the callee has left there, and moves
it on. This is how programs turn.

A step that fails has taken its frame off the stack. The callers stay.
-/

namespace Gridwalk

open Log (Journal Level)

structure Machine where
  store : Store
  frames : List Frame
  /-- How many commands have been carried out. -/
  steps : Nat
  journal : Journal

inductive Outcome
  | running
  | finished
  | failed (error : RunError)
  deriving DecidableEq, Repr

namespace Machine

def target : String := "merry_interpreter::interpreter"

/-- A machine that has not run. The stacks are given top first. -/
def start (data velocity : List Int64) (input : Stream.Script) (sink : Stream.Sink)
    (journal : Journal) : Machine :=
  ⟨⟨data, velocity, input, sink⟩, [], 0, journal⟩

def depth (machine : Machine) : Nat := machine.frames.length

def note (machine : Machine) (level : Level) (text : Unit → String) : Machine :=
  { machine with journal := machine.journal.note level target text }

-- ---------------------------------------------------------------------------
-- One step
-- ---------------------------------------------------------------------------

def readString (machine : Machine) (frame : Frame) (c : Char) : Outcome × Machine :=
  if c = '"' then
    (.running,
      { machine with frames := { frame with inString := false }.advance :: machine.frames })
  else
    (.running,
      { machine with
        store := machine.store.push (Word.ofChar c)
        frames := frame.advance :: machine.frames })

def operate (machine : Machine) (frame : Frame) (c : Char) (op : Op) : Outcome × Machine :=
  match op.run frame machine.store with
  | (.error fault, store) => (.failed (fault.raise c frame.site), { machine with store })
  | (.ok (), store) =>
    (.running, { machine with store, frames := frame.advance :: machine.frames })

/-- Starts the codebox under `c`. The caller's velocity is pushed before the codebox is looked
for. -/
def call (reg : Registry) (machine : Machine) (caller : Frame) (c : Char) : Outcome × Machine :=
  let velocity := caller.vy :: caller.vx :: machine.store.velocity
  let machine := { machine with store := { machine.store with velocity } }
  match reg.get? (.command c) with
  | none => (.failed (.commandNotFound c), machine)
  | some codebox =>
    let machine := machine.note .debug fun _ =>
      s!"{caller.key.text} calls {(Key.command c).text} ('{codebox.name}') " ++
        s!"at depth {machine.depth + 1}"
    (.running,
      { machine with frames := Frame.enter codebox (.command c) :: caller :: machine.frames })

def ret (machine : Machine) (frame : Frame) : Outcome × Machine :=
  let machine := machine.note .debug fun _ => s!"{frame.key.text} returns"
  match machine.frames with
  | [] => (.finished, machine)
  | caller :: callers =>
    match machine.store.velocity with
    | vy :: vx :: velocity =>
      (.running,
        { machine with
          store := { machine.store with velocity }
          frames := (caller.turn vx vy).advance :: callers })
    | _ =>
      (.failed (.velocityUnderflow (caller.current?.getD '\uFFFD') caller.site),
        { machine with store := { machine.store with velocity := [] } })

def execute (reg : Registry) (machine : Machine) (frame : Frame) (c : Char) : Outcome × Machine :=
  let machine := { machine with steps := machine.steps + 1 }
  let machine := machine.note .trace fun _ =>
    s!"{frame.key.text} ({frame.x.toInt}, {frame.y.toInt}) {Text.quoted c}"
  if frame.inString then machine.readString frame c
  else
    match Command.decode c with
    | .op op => machine.operate frame c op
    | .quote =>
      (.running,
        { machine with frames := { frame with inString := true }.advance :: machine.frames })
    | .ret => machine.ret frame
    | .call c => call reg machine frame c

def step (reg : Registry) (machine : Machine) : Outcome × Machine :=
  match machine.frames with
  | [] => (.finished, machine)
  | frame :: callers =>
    let machine := { machine with frames := callers }
    match frame.current? with
    | none => (.failed (.outOfBounds frame.site), machine)
    | some c => execute reg machine frame c

-- ---------------------------------------------------------------------------
-- Runs
-- ---------------------------------------------------------------------------

/-- Steps until the run ends, at most `fuel` times. Without an answer the fuel was too little. -/
def drive (reg : Registry) : Nat → Machine → Option (Except RunError Unit × Machine)
  | 0, _ => none
  | fuel + 1, machine =>
    match step reg machine with
    | (.running, machine) => drive reg fuel machine
    | (.finished, machine) => some (.ok (), machine)
    | (.failed error, machine) => some (.error error, machine)

theorem drive_add {reg : Registry} {fuel : Nat} {machine : Machine}
    {answer : Except RunError Unit × Machine} (h : drive reg fuel machine = some answer)
    (more : Nat) : drive reg (fuel + more) machine = some answer := by
  induction fuel generalizing machine with
  | zero => simp [drive] at h
  | succ fuel ih =>
    rw [Nat.succ_add]
    unfold drive at h ⊢
    split at h <;> simp_all

def missing : Key → RunError
  | .main => .noMainCodebox
  | .command c => .commandNotFound c

/-- Ends the run of `key`: the output is flushed in any case, and the flush's error counts only if
there is no other. -/
def conclude (key : Key) (result : Except RunError Unit) (machine : Machine) :
    Except RunError Unit × Machine :=
  let (flushed, sink) := machine.store.sink.flush
  let machine := { machine with store := { machine.store with sink } }
  match result with
  | .error error =>
    (.error error, machine.note .debug fun _ =>
      s!"{key.text} failed after {machine.steps} steps: {error.message}")
  | .ok () =>
    (flushed.mapError .stream, machine.note .info fun _ =>
      s!"{key.text} returned after {machine.steps} steps")

/-- Runs the codebox under `key` until it returns. Frames of an earlier run are dropped. -/
def run (reg : Registry) (fuel : Nat) (key : Key) (machine : Machine) :
    Option (Except RunError Unit × Machine) :=
  match reg.get? key with
  | none => some (conclude key (.error (missing key)) { machine with frames := [] })
  | some codebox =>
    let machine := { machine with frames := [Frame.enter codebox key] }
    let machine := machine.note .debug fun _ => s!"entering {key.text} ('{codebox.name}')"
    (drive reg fuel machine).map fun (result, machine) => conclude key result machine

end Machine

end Gridwalk

import Gridwalk.Command
import Gridwalk.Run.Frame
import Gridwalk.Stream.Script
import Gridwalk.Stream.Sink

/-!
# The store

All frames of a run share a data stack, a velocity stack, the input and the output. Stacks are
lists with the top first. A command changes the store also when it fails: what it took stays
taken, and what it wrote stays written.
-/

namespace Gridwalk

structure Store where
  data : List Int64
  velocity : List Int64
  input : Stream.Script
  sink : Stream.Sink

namespace Store

def push (store : Store) (value : Int64) : Store := { store with data := value :: store.data }

def write (store : Store) (text : String) : Except Fault Unit × Store :=
  match store.sink.writeText text with
  | (.error error, sink) => (.error (.stream error), { store with sink })
  | (.ok (), sink) => (.ok (), { store with sink })

/-- Writes texts in turn, up to the first that cannot be written. -/
def writeEach (store : Store) : List String → Except Fault Unit × Store
  | [] => (.ok (), store)
  | text :: texts =>
    match store.write text with
    | (.error fault, store) => (.error fault, store)
    | (.ok (), store) => store.writeEach texts

theorem write_append (store : Store) (text more : String) :
    store.write (text ++ more) =
      match store.write text with
      | (.error fault, store) => (.error fault, store)
      | (.ok (), store) => store.write more := by
  have hbytes : Utf8.encodeText (text ++ more) = Utf8.encodeText text ++ Utf8.encodeText more := by
    simp [Utf8.encodeText]
  simp only [write, Stream.Sink.writeText, hbytes, Stream.Sink.write_append]
  rcases store.sink.write (Utf8.encodeText text) with ⟨_ | _, _⟩ <;> rfl

theorem writeEach_eq_write (store : Store) (texts : List String) :
    store.writeEach texts = store.write (String.join texts) := by
  induction texts generalizing store with
  | nil => simp [writeEach, write, Stream.Sink.writeText, Utf8.encodeText]
  | cons text texts ih =>
    rw [writeEach, String.join_cons, write_append]
    simp only [ih]

def dumpLines (store : Store) (frame : Frame) : List String :=
  [ "! DEBUG !\n",
    s!"Codebox: {frame.codebox.name}\n",
    s!"Position: ({frame.x.toInt}, {frame.y.toInt})\n",
    s!"Velocity: ({frame.vx.toInt}, {frame.vy.toInt})\n",
    s!"Data stack: {Word.showAll store.data.reverse}\n",
    s!"Velocity stack: {Word.showAll store.velocity.reverse}\n" ]

def dump (store : Store) (frame : Frame) : String := String.join (store.dumpLines frame)

def take (store : Store) (f : Int64 → Store → Except Fault Unit × Store) :
    Except Fault Unit × Store :=
  match store.data with
  | [] => (.error .stackUnderflow, store)
  | a :: data => f a { store with data }

/-- Takes two values, the top first. A single value is taken too before the second is missed. -/
def takeTwo (store : Store) (f : Int64 → Int64 → Store → Except Fault Unit × Store) :
    Except Fault Unit × Store :=
  store.take fun a store => store.take fun b store => f a b store

/-- Pushes the result of an operation; there is none where the exact one is no word. -/
def pushChecked (store : Store) (result : Option Int64) : Except Fault Unit × Store :=
  match result with
  | none => (.error .overflow, store)
  | some value => (.ok (), store.push value)

/-- Flushes the output and reads a character; the end of the input reads as -1. -/
def read (store : Store) : Except Fault Unit × Store :=
  match store.sink.flush with
  | (.error error, sink) => (.error (.stream error), { store with sink })
  | (.ok (), sink) =>
    match store.input.readChar with
    | (.error error, input) => (.error (.stream error), { store with sink, input })
    | (.ok c, input) => (.ok (), { store with sink, input }.push (c.elim (-1) Word.ofChar))

end Store

def Op.run (frame : Frame) (store : Store) : Op → Except Fault Unit × Store
  | .nop => (.ok (), store)
  | .push value => (.ok (), store.push value)
  | .add => store.takeTwo fun a b store => store.pushChecked (Word.ofInt? (a.toInt + b.toInt))
  | .subtract => store.takeTwo fun a b store => store.pushChecked (Word.ofInt? (b.toInt - a.toInt))
  | .multiply => store.takeTwo fun a b store => store.pushChecked (Word.ofInt? (a.toInt * b.toInt))
  | .divide => store.takeTwo fun a b store =>
    if a = 0 then (.error .divisionByZero, store)
    else store.pushChecked (Word.floorDiv? b a)
  | .positive => store.take fun a store => (.ok (), store.push (if 0 < a then 1 else 0))
  | .duplicate => store.take fun a store => (.ok (), (store.push a).push a)
  | .discard => store.take fun _ store => (.ok (), store)
  | .swap => store.takeTwo fun a b store => (.ok (), (store.push a).push b)
  | .fromVelocity =>
    match store.velocity with
    | [] => (.error .velocityUnderflow, store)
    | v :: velocity => (.ok (), { store with velocity }.push v)
  | .toVelocity => store.take fun a store =>
    (.ok (), { store with velocity := a :: store.velocity })
  | .input => store.read
  | .output => store.take fun a store =>
    match Word.toChar? a with
    | none => (.error (.invalidCharacter a), store)
    | some c => store.write c.toString
  | .debug => store.writeEach (store.dumpLines frame)

/-- A dump is written line by line, which comes to the same as to write it at once. -/
theorem Op.run_debug (frame : Frame) (store : Store) :
    Op.run frame store .debug = store.write (store.dump frame) :=
  store.writeEach_eq_write _

end Gridwalk

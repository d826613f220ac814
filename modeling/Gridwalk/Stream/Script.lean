import Gridwalk.Stream.Error
import Gridwalk.Text.Utf8

/-!
# Input

Input is a script of what reading yields: chunks of bytes, pauses, at which the input seems to end
once, and errors. Characters are read one at a time and no byte beyond a character is taken. Bytes
that turn out not to be a character are lost.
-/

namespace Gridwalk.Stream

inductive Piece
  | chunk (bytes : List UInt8)
  | pause
  | failure (error : Error)
  deriving DecidableEq, Repr

abbrev Script := List Piece

inductive Reading
  | byte (byte : UInt8)
  | ended
  | failed (error : Error)
  deriving DecidableEq, Repr

namespace Script

def ofBytes (bytes : List UInt8) : Script := [.chunk bytes]

def bytes (script : Script) : List UInt8 :=
  script.flatMap fun
    | .chunk bytes => bytes
    | .pause | .failure _ => []

/-- Reads a byte, trying again when interrupted. -/
def next : Script → Reading × Script
  | [] => (.ended, [])
  | .chunk [] :: rest => next rest
  | .chunk (byte :: bytes) :: rest => (.byte byte, .chunk bytes :: rest)
  | .pause :: rest => (.ended, rest)
  | .failure error :: rest =>
    if error.kind = .interrupted then next rest else (.failed error, rest)

/-- Reads the remaining `n` bytes of a character. The input must not end there. -/
def following : Nat → Script → Except Error (List UInt8) × Script
  | 0, script => (.ok [], script)
  | n + 1, script =>
    match next script with
    | (.ended, script) => (.error .invalidText, script)
    | (.failed error, script) =>
      (.error (if error.kind = .unexpectedEnd then .invalidText else error), script)
    | (.byte byte, script) =>
      match following n script with
      | (.error error, script) => (.error error, script)
      | (.ok bytes, script) => (.ok (byte :: bytes), script)

/-- Reads a character; there is none at the end of the input. -/
def readChar (script : Script) : Except Error (Option Char) × Script :=
  match next script with
  | (.ended, script) => (.ok none, script)
  | (.failed error, script) => (.error error, script)
  | (.byte lead, script) =>
    match Utf8.following? lead with
    | none => (.error .invalidText, script)
    | some n =>
      match following n script with
      | (.error error, script) => (.error error, script)
      | (.ok bytes, script) =>
        match Utf8.decode? (lead :: bytes) with
        | none => (.error .invalidText, script)
        | some c => (.ok (some c), script)

end Script

end Gridwalk.Stream

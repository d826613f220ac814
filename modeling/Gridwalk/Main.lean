import Gridwalk.CommandLine.Report

/-!
# The command

Collects the files of a program, the environment and all of standard input, and carries out what
`CommandLine.run` reports.
-/

namespace Gridwalk.Main

def readText? (path : String) : IO (Option String) := do
  if path.toList.contains '\x00' then return none
  try return some (← IO.FS.readFile path)
  catch _ => return none

partial def collect (extension : String) (waiting : List String)
    (units : List (String × String)) : IO (List (String × String)) := do
  match waiting with
  | [] => return units
  | unit :: rest =>
    if (units.lookup unit).isSome then collect extension rest units
    else
      match ← readText? (unit ++ "." ++ extension) with
      | none => collect extension rest units
      | some text =>
        collect extension ((Outline.ofText unit text).targets ++ rest) ((unit, text) :: units)

partial def readAll (stream : IO.FS.Stream) (bytes : ByteArray) : IO ByteArray := do
  let chunk ← stream.read 65536
  if chunk.isEmpty then return bytes else readAll stream (bytes ++ chunk)

/-- More steps than any run takes. -/
def fuel : Nat := 0x4000000000000000

end Gridwalk.Main

open Gridwalk in
def main (arguments : List String) : IO UInt32 := do
  let stdout ← IO.getStdout
  let stderr ← IO.getStderr
  let environment : CommandLine.Environment :=
    { logLevel := ← IO.getEnv "MERRY_LOG"
      noColour := (← IO.getEnv "NO_COLOR").isSome
      terminal := ← stderr.isTty }
  let (units, stdin) ← match CommandLine.parse arguments with
    | .ok (.run options) =>
      let units ← Main.collect options.extension [options.program] []
      pure (units, ← Main.readAll (← IO.getStdin) .empty)
    | _ => pure ([], .empty)
  let source (extension : String) := Source.ofTexts extension units
  match CommandLine.run arguments environment source (.ofBytes stdin.toList) Main.fuel with
  | none => return 1
  | some report =>
    stdout.write report.stdout.toByteArray
    stdout.flush
    stderr.putStr report.stderr
    stderr.flush
    return report.status.toUInt32

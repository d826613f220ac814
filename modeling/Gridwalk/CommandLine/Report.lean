import Gridwalk.CommandLine.Arguments
import Gridwalk.Diagnostic
import Gridwalk.Run.Program

/-!
# What the command line does

The command runs one program: output goes to standard output, log records and errors to standard
error. The exit status is 0 for a program that returned, 1 for an error and 2 for arguments that
cannot be read.

The log level comes from a setting of the environment and, over it, from an option. A setting that
is no level is reported before the choice of colours, hence in the logger's own.
-/

namespace Gridwalk.CommandLine

open Log (Journal Logger)

structure Environment where
  /-- The value of `MERRY_LOG`. -/
  logLevel : Option String
  /-- Whether `NO_COLOR` is set. -/
  noColour : Bool
  /-- Whether standard error is a terminal. -/
  terminal : Bool
  deriving DecidableEq, Repr

structure Report where
  status : Nat
  stdout : List UInt8
  stderr : String
  deriving DecidableEq, Repr

def target : String := "merry"

def versionText : String := "merry 0.3.0\n"

def usage : String := "Usage: merry [OPTIONS] <PROGRAM>\n"

def helpText : String :=
  "Run a Merriment program\n\n" ++ usage ++
  "\nArguments:\n" ++
  "  <PROGRAM>  Program to run, without its extension (e.g. `demos/hello`)\n" ++
  "\nOptions:\n" ++
  "      --strict                 Reject text outside codeboxes and duplicate command keys\n" ++
  "      --explain                Show the offending source line for load errors\n" ++
  "      --log-level <LEVEL>      " ++
  "Log level (error, warn, info, debug, trace); overrides MERRY_LOG\n" ++
  "      --no-color               Disable colored diagnostics and log output\n" ++
  "      --extension <EXTENSION>  Source file extension [default: merry]\n" ++
  "  -h, --help                   Print help\n" ++
  "  -V, --version                Print version\n"

def keyText : Key → String
  | .main => "CommandKey(None)"
  | .command c => "CommandKey(Some(" ++ Text.quoted c ++ "))"

/-- The logger that the environment sets up, and the record about a setting that is no level. -/
def configure (environment : Environment) : Logger × String :=
  let logger := Logger.initial (!environment.noColour)
  match logger.configure environment.logLevel with
  | .ok logger => (logger, "")
  | .error unknown => (logger, logger.write ⟨.warn, target, unknown.message⟩)

def runProgram (order : Enumeration) (options : Options) (source : Source) (stdin : Stream.Script)
    (fuel : Nat) (journal : Journal) : Option Execution :=
  let loader : Loader := ⟨options.strict, order⟩
  match loader.load source options.program journal with
  | (.error error, journal) => some ⟨.error (.load error), .unlimited, journal⟩
  | (.ok reg, journal) =>
    Program.runMain reg fuel stdin .unlimited <| journal.note .debug target fun _ =>
      s!"loaded {reg.size} codeboxes: [" ++ ", ".intercalate (reg.keys.map keyText) ++ "]"

/-- The excerpt for an error that has a place, or a record that there is none. -/
def explain (logger : Logger) (source : Source) (error : LoadError) : String :=
  match error.location? with
  | none => ""
  | some place =>
    match source.read place.unit with
    | .ok text => Diagnostic.render logger.colours error text
    | .error reason =>
      let unreadable := LoadError.unreadable (source.fileName place.unit) reason
      logger.write ⟨.debug, target, s!"no excerpt for {place.unit}: {unreadable.message}"⟩

def verdict (options : Options) (logger : Logger) (source : Source) :
    Except ProgramError Unit → String
  | .ok () => ""
  | .error error =>
    "Error: " ++ error.message ++ "\n" ++
      match options.explain, error with
      | true, .load error => explain logger source error
      | _, _ => ""

/-- Runs the program that the options name. `source` makes a source of an extension. -/
def runOptions (order : Enumeration) (options : Options) (environment : Environment)
    (source : String → Source) (stdin : Stream.Script) (fuel : Nat) : Option Report :=
  let (logger, warning) := configure environment
  match options.logLevel.elim (.ok logger) logger.setLevel with
  | .error unknown => some ⟨1, [], warning ++ "Error: " ++ unknown.message ++ "\n"⟩
  | .ok logger =>
    let colours := !options.noColour && !environment.noColour && environment.terminal
    let logger := { logger with colours }
    let source := source options.extension
    (runProgram order options source stdin fuel (.start logger.level)).map fun execution =>
      { status := match execution.result with
          | .ok () => 0
          | .error _ => 1
        stdout := execution.sink.written.toList
        stderr := warning ++ execution.journal.render colours ++
          verdict options logger source execution.result }

def runWith (order : Enumeration) (arguments : List String) (environment : Environment)
    (source : String → Source) (stdin : Stream.Script) (fuel : Nat) : Option Report :=
  match parse arguments with
  | .error error => some ⟨2, [], "error: " ++ error.message ++ "\n\n" ++ usage⟩
  | .ok .version => some ⟨0, Utf8.encodeText versionText, ""⟩
  | .ok .help => some ⟨0, Utf8.encodeText helpText, ""⟩
  | .ok (.run options) => runOptions order options environment source stdin fuel

def run (arguments : List String) (environment : Environment) (source : String → Source)
    (stdin : Stream.Script) (fuel : Nat) : Option Report :=
  runWith .byKey arguments environment source stdin fuel

end Gridwalk.CommandLine

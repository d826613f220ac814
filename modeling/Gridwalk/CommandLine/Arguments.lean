import Gridwalk.Source

/-!
# Arguments

The command line takes one program name and a few options, in any order. An option that takes a
value has it after `=` or as the next argument, and `--` ends the options. Each option is given at
most once.
-/

namespace Gridwalk.CommandLine

structure Options where
  program : String
  strict : Bool
  explain : Bool
  noColour : Bool
  logLevel : Option String
  extension : String
  deriving DecidableEq, Repr

inductive Request
  | run (options : Options)
  | version
  | help
  deriving DecidableEq, Repr

inductive UsageError
  | unknownOption (argument : String)
  | repeated (option : String)
  | unexpectedValue (option : String)
  | missingValue (option : String)
  | unexpectedArgument (argument : String)
  | missingProgram
  deriving DecidableEq, Repr

def UsageError.message : UsageError → String
  | .unknownOption argument => s!"unexpected argument '{argument}' found"
  | .repeated option => s!"the argument '{option}' cannot be used multiple times"
  | .unexpectedValue option => s!"unexpected value for '{option}' found; no more were expected"
  | .missingValue option => s!"a value is required for '{option}' but none was supplied"
  | .unexpectedArgument argument => s!"unexpected argument '{argument}' found"
  | .missingProgram => "the following required arguments were not provided: <PROGRAM>"

structure Settings where
  program : Option String
  strict : Bool
  explain : Bool
  noColour : Bool
  logLevel : Option String
  extension : Option String
  deriving DecidableEq, Repr

namespace Settings

def initial : Settings := ⟨none, false, false, false, none, none⟩

def request (settings : Settings) : Except UsageError Request :=
  match settings.program with
  | none => .error .missingProgram
  | some program =>
    .ok <| .run
      { settings with
        program
        extension := settings.extension.getD Source.defaultExtension }

def setProgram (settings : Settings) (argument : String) : Except UsageError Settings :=
  match settings.program with
  | none => .ok { settings with program := argument }
  | some _ => .error (.unexpectedArgument argument)

end Settings

inductive Choice
  | strict
  | explain
  | noColour
  | version
  | help
  | logLevel
  | extension
  deriving DecidableEq, Repr

namespace Choice

def ofName? : String → Option Choice
  | "--strict" => some .strict
  | "--explain" => some .explain
  | "--no-color" => some .noColour
  | "--version" => some .version
  | "--help" => some .help
  | "--log-level" => some .logLevel
  | "--extension" => some .extension
  | _ => none

/-- A cluster of short options is decided by its first letter. -/
def ofLetter? : Char → Option Choice
  | 'V' => some .version
  | 'h' => some .help
  | _ => none

def takesValue : Choice → Bool
  | .logLevel | .extension => true
  | .strict | .explain | .noColour | .version | .help => false

def switch (choice : Choice) (option : String) (settings : Settings) :
    Except UsageError (Request ⊕ Settings) :=
  match choice with
  | .strict =>
    if settings.strict then .error (.repeated option)
    else .ok (.inr { settings with strict := true })
  | .explain =>
    if settings.explain then .error (.repeated option)
    else .ok (.inr { settings with explain := true })
  | .noColour =>
    if settings.noColour then .error (.repeated option)
    else .ok (.inr { settings with noColour := true })
  | .version => .ok (.inl .version)
  | .help => .ok (.inl .help)
  | .logLevel | .extension => .error (.missingValue option)

def assign (choice : Choice) (option value : String) (settings : Settings) :
    Except UsageError Settings :=
  match choice with
  | .logLevel =>
    if settings.logLevel.isSome then .error (.repeated option)
    else .ok { settings with logLevel := value }
  | .extension =>
    if settings.extension.isSome then .error (.repeated option)
    else .ok { settings with extension := value }
  | .strict | .explain | .noColour | .version | .help => .error (.unexpectedValue option)

end Choice

/-- The shape of an argument before `--`. -/
inductive Argument
  | plain
  /-- `--` alone. -/
  | endOfOptions
  | short (letter : Char)
  | long (name : String) (value : Option String)
  deriving DecidableEq, Repr

def Argument.ofText (text : String) : Argument :=
  match text.toList with
  | ['-', '-'] => .endOfOptions
  | '-' :: '-' :: rest =>
    match rest.dropWhile (· ≠ '=') with
    | [] => .long text none
    | _ :: value =>
      .long (String.ofList ('-' :: '-' :: rest.takeWhile (· ≠ '='))) (some (String.ofList value))
  | '-' :: letter :: _ => .short letter
  | _ => .plain

def Argument.isValue : Argument → Bool
  | .plain => true
  | .endOfOptions | .short _ | .long _ _ => false

def readPlain (settings : Settings) : List String → Except UsageError Request
  | [] => settings.request
  | argument :: rest =>
    match settings.setProgram argument with
    | .error error => .error error
    | .ok settings => readPlain settings rest

/-- Reads arguments, the first error or request for information first. -/
def read (settings : Settings) : List String → Except UsageError Request
  | [] => settings.request
  | argument :: rest =>
    match Argument.ofText argument with
    | .plain =>
      match settings.setProgram argument with
      | .error error => .error error
      | .ok settings => read settings rest
    | .endOfOptions => readPlain settings rest
    | .short letter =>
      match Choice.ofLetter? letter with
      | none => .error (.unknownOption argument)
      | some choice =>
        match choice.switch argument settings with
        | .error error => .error error
        | .ok (.inl request) => .ok request
        | .ok (.inr settings) => read settings rest
    | .long name value? =>
      match Choice.ofName? name, value? with
      | none, _ => .error (.unknownOption argument)
      | some choice, some value =>
        match choice.assign name value settings with
        | .error error => .error error
        | .ok settings => read settings rest
      | some choice, none =>
        if choice.takesValue then
          match rest with
          | [] => .error (.missingValue name)
          | value :: rest =>
            if (Argument.ofText value).isValue then
              match choice.assign name value settings with
              | .error error => .error error
              | .ok settings => read settings rest
            else .error (.missingValue name)
        else
          match choice.switch name settings with
          | .error error => .error error
          | .ok (.inl request) => .ok request
          | .ok (.inr settings) => read settings rest

def parse (arguments : List String) : Except UsageError Request := read .initial arguments

end Gridwalk.CommandLine

import Gridwalk.LoadError
import Gridwalk.Text.Lines
import Gridwalk.Text.Paint

/-!
# Excerpts for load errors

The long form of a load error: its message, its place, the line it is about and what to do.

```text
error: Incorrect width: file prog, line 4
 --> prog:4
  |
4 | #:+#
  | ^^^^
  = help: expected 5 characters, found 4
```

The gutter is as wide as the line number, so the bars stand under one another.
-/

namespace Gridwalk.Diagnostic

open Text (Colour Span)

def spaces (n : Nat) : String := String.ofList (List.replicate n ' ')

/-- The line that a location names, if the text has it. Line zero is taken for the first. -/
def lineAt? (text : String) (line : Nat) : Option String :=
  (Text.lines text)[line - 1]?.map String.ofList

def excerpt (line : Nat) (source : String) : List Span :=
  let number := toString line
  let pad := spaces number.length
  let bar := Colour.blue.span "|"
  let carets := String.ofList (List.replicate (max 1 source.length) '^')
  [ .plain (pad ++ " "), bar, .plain "\n",
    Colour.blue.span number, .plain " ", bar, .plain (" " ++ source ++ "\n"),
    .plain (pad ++ " "), bar, .plain " ", Colour.red.span carets, .plain "\n" ]

def spans (error : LoadError) (text : String) : List Span :=
  [Colour.red.span "error", .plain (": " ++ error.message ++ "\n")] ++
    match error.location? with
    | none => []
    | some place =>
      let pad := spaces (toString place.line).length
      [.plain pad, Colour.blue.span "-->", .plain s!" {place.unit}:{place.line}\n"] ++
        (match lineAt? text place.line with
          | none => []
          | some source => excerpt place.line source) ++
        match error.help? with
        | none => []
        | some help =>
          [.plain (pad ++ " = "), Colour.green.span "help", .plain (": " ++ help ++ "\n")]

def render (colours : Bool) (error : LoadError) (text : String) : String :=
  Text.renderSpans colours (spans error text)

end Gridwalk.Diagnostic

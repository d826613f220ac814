/-!
# Colours

Terminal colours as escape sequences: a sequence switches the colour on, one more resets it.
-/

namespace Gridwalk.Text

inductive Colour
  | red
  | green
  | yellow
  | blue
  | magenta
  | cyan
  deriving DecidableEq, Repr

def Colour.sequence : Colour → String
  | .red => "\x1b[31m"
  | .green => "\x1b[32m"
  | .yellow => "\x1b[33m"
  | .blue => "\x1b[34m"
  | .magenta => "\x1b[35m"
  | .cyan => "\x1b[36m"

def resetSequence : String := "\x1b[0m"

/-- A piece of text, coloured where colours are shown. -/
structure Span where
  colour : Option Colour
  text : String
  deriving DecidableEq, Repr

def Span.plain (text : String) : Span := ⟨none, text⟩

def Colour.span (colour : Colour) (text : String) : Span := ⟨some colour, text⟩

def Span.render (colours : Bool) (span : Span) : String :=
  match colours, span.colour with
  | true, some colour => colour.sequence ++ span.text ++ resetSequence
  | _, _ => span.text

def renderSpans (colours : Bool) (spans : List Span) : String :=
  String.join (spans.map (Span.render colours))

end Gridwalk.Text

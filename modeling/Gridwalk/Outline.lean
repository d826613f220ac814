import Gridwalk.Codebox
import Gridwalk.LoadError
import Gridwalk.Text.Blank
import Gridwalk.Text.Lines

/-!
# Outlines of units

A unit is read line by line. Outside a codebox a line of `#` opens one, `{name}` imports another
unit and anything else is stray text. Inside a codebox every line is as wide as the opening
border:

```text
##########      opening border
# double #      the name, between spaces
#v=======#      the entry column
#:       #      rows
#+       #
#@       #
##########      closing border
```

The outline of a unit is what its lines amount to, in order, up to the end of the text or to the
first line that breaks a rule.
-/

namespace Gridwalk

inductive Item
  | box (box : Codebox)
  | imports (place : Location) (target : String)
  | stray (place : Location) (blank : Bool)
  deriving DecidableEq, Repr

def Item.target? : Item → Option String
  | .imports _ target => some target
  | .box _ | .stray _ _ => none

structure Outline where
  items : List Item
  fault : Option LoadError
  deriving DecidableEq, Repr

-- ---------------------------------------------------------------------------
-- Shapes of lines
-- ---------------------------------------------------------------------------

namespace Line

def between? (first last : Char) : List Char → Option (List Char)
  | [] => none
  | c :: rest => if c = first ∧ rest.getLast? = some last then some rest.dropLast else none

def isBorder (line : List Char) : Bool := !line.isEmpty && line.all (· = '#')

def interior? (line : List Char) : Option (List Char) := between? '#' '#' line

def importTarget? (line : List Char) : Option String :=
  (between? '{' '}' line).map String.ofList

def name? (line : List Char) : Option String :=
  (interior? line).map fun cs => String.ofList (Text.trimWhile (· = ' ') cs)

def markedColumn? (cs : List Char) : Option Nat :=
  match cs.dropWhile (· = '=') with
  | 'v' :: rest =>
    if rest.all (· = '=') then some (cs.takeWhile (· = '=')).length else none
  | _ => none

def entry? (line : List Char) : Option Nat := (interior? line).bind markedColumn?

end Line

-- ---------------------------------------------------------------------------
-- Codeboxes under way
-- ---------------------------------------------------------------------------

inductive Draft.Stage
  | bordered
  | named (name : String)
  /-- The rows so far, the latest first. -/
  | entered (name : String) (entry : Nat) (above : List (List Char))
  deriving DecidableEq, Repr

/-- A codebox whose closing border has not been met. -/
structure Draft where
  /-- The width of the opening border. -/
  width : Nat
  origin : Location
  stage : Draft.Stage
  deriving DecidableEq, Repr

namespace Draft

inductive Progress
  | more (draft : Draft)
  | closed (box : Codebox)
  deriving DecidableEq, Repr

def feed (draft : Draft) (place : Location) (line : List Char) : Except LoadError Progress :=
  if line.length ≠ draft.width then .error (.widthMismatch place draft.width line.length)
  else
    match draft.stage with
    | .bordered =>
      match Line.name? line with
      | none => .error (.badName place)
      | some name => .ok (.more { draft with stage := .named name })
    | .named name =>
      match Line.entry? line with
      | none => .error (.badEntry place)
      | some entry => .ok (.more { draft with stage := .entered name entry [] })
    | .entered name entry above =>
      if Line.isBorder line then
        .ok <| .closed
          { name, width := draft.width - 2, entry, rows := above.reverse, origin := draft.origin }
      else
        match Line.interior? line with
        | none => .error (.badRow place)
        | some row => .ok (.more { draft with stage := .entered name entry (row :: above) })

end Draft

-- ---------------------------------------------------------------------------
-- Whole units
-- ---------------------------------------------------------------------------

namespace Outline

def cons (item : Item) (outline : Outline) : Outline :=
  { outline with items := item :: outline.items }

/-- Reads the lines from line `n` on, inside the codebox `draft` if there is one. -/
def scan (unit : String) : Option Draft → Nat → List (List Char) → Outline
  | none, _, [] => ⟨[], none⟩
  | some draft, _, [] => ⟨[], some (.unterminated draft.origin)⟩
  | some draft, n, line :: rest =>
    match draft.feed ⟨unit, n⟩ line with
    | .error error => ⟨[], some error⟩
    | .ok (.more draft) => scan unit (some draft) (n + 1) rest
    | .ok (.closed box) => cons (.box box) (scan unit none (n + 1) rest)
  | none, n, line :: rest =>
    if Line.isBorder line then
      scan unit (some ⟨line.length, ⟨unit, n⟩, .bordered⟩) (n + 1) rest
    else
      match Line.importTarget? line with
      | some target => cons (.imports ⟨unit, n⟩ target) (scan unit none (n + 1) rest)
      | none => cons (.stray ⟨unit, n⟩ (line.all Text.isBlank)) (scan unit none (n + 1) rest)

def ofText (unit text : String) : Outline := scan unit none 1 (Text.lines text)

def targets (outline : Outline) : List String := outline.items.filterMap Item.target?

theorem exists_line_of_mem_targets_scan {unit target : String} {draft : Option Draft} {n : Nat}
    {lines : List (List Char)} (h : target ∈ (scan unit draft n lines).targets) :
    ∃ line ∈ lines, Line.importTarget? line = some target := by
  fun_induction scan unit draft n lines with
  | case1 | case2 | case3 => simp [targets] at h
  | case4 _ _ _ _ _ _ ih | case6 _ _ _ _ ih =>
    obtain ⟨line, hline, ht⟩ := ih h
    exact ⟨line, List.mem_cons_of_mem _ hline, ht⟩
  | case5 _ _ _ _ _ _ ih | case8 _ _ _ _ _ ih =>
    obtain ⟨line, hline, ht⟩ := ih (by simpa [targets, cons, Item.target?] using h)
    exact ⟨line, List.mem_cons_of_mem _ hline, ht⟩
  | case7 n line rest _ found hfound ih =>
    have hor : target = found ∨ target ∈ (scan unit none (n + 1) rest).targets := by
      simpa [targets, cons, Item.target?] using h
    rcases hor with rfl | hrest
    · exact ⟨line, List.mem_cons_self, hfound⟩
    · obtain ⟨line, hline, ht⟩ := ih hrest
      exact ⟨line, List.mem_cons_of_mem _ hline, ht⟩

end Outline

end Gridwalk

import Stencil.Diagnostic
import Stencil.Fault
import Stencil.Terminal
import Stencil.Text.Line

/-!
# Snippets of a source

A report may show the lines around the one it is about, with a caret under the
column. `Snippet.around` chooses the lines and `Snippet.format` lays them out.
A column is any number; `layOut` refuses one further out than text can reach.
-/

namespace Stencil

/-- Numbered lines of a source, the number of the line in question, and the
column to point at. -/
structure Snippet where
  lines : List (Int × String)
  line : Int
  column : Option Int := none
deriving DecidableEq

namespace Snippet

/-- The lines from place `first` up to place `last`, counting from zero. -/
def numbered (first last : Int) (lines : List String) : List (Int × String) :=
  ((lines.zipIdx.filter fun (_, i) => first ≤ i && i < last).map fun (text, i) => (i + 1, text))

/-- The given line of a source and `context` lines to either side of it. -/
def around (source : String) (line : Int) (context : Int) (column : Option Int) : Snippet :=
  { lines := numbered (line - 1 - context) (line + context) (Text.linesOf source), line, column }

/-- The gutter where no line number stands. -/
def gutter : String := "   |"

/-- A caret under a column, as wide as what stands between the gutter and the
line. -/
def pointer (column : Int) : String :=
  String.ofList (List.replicate (column + 1).toNat ' ') ++ "^"

/-- One line with, for the line in question, the caret below it. -/
def formatLine (colors : Bool) (s : Snippet) (number : Int) (content : String) : List String :=
  let inQuestion := number == s.line
  Terminal.sourceLine colors number content inQuestion ::
    match s.column with
    | some column =>
      if inQuestion then [Terminal.dim colors gutter ++ Terminal.caret colors (pointer column)]
      else []
    | none => []

/-- The snippet between two empty gutters. -/
def format (colors : Bool) (s : Snippet) : String :=
  let edge := Terminal.dim colors gutter
  let lines := s.lines.flatMap fun (number, content) => s.formatLine colors number content
  "\n".intercalate (edge :: lines ++ [edge])

/-- The column that a caret stands under, if the line in question is shown. -/
def pointedAt? (s : Snippet) : Option Int :=
  if s.lines.any fun (number, _) => number == s.line then s.column else none

/-- The snippet laid out, unless its caret cannot be set. -/
def layOut (colors : Bool) (s : Snippet) : Except Fault String := do
  if let some column := s.pointedAt? then checkLength (column + 1)
  return s.format colors

end Snippet

/-- The lines around a diagnostic, when its line is in the given source. -/
def Diagnostic.snippet? (source : Option String) (d : Diagnostic) : Option Snippet :=
  source.bind fun source =>
    let line := d.span.start.line
    if 0 < line && line ≤ (Text.linesOf source).length then
      some (Snippet.around source line 1 (some d.span.start.column))
    else none

/-- A diagnostic with its place and severity coloured and, when its line is in
the given source, with a snippet. -/
def Diagnostic.format (colors : Bool) (source : Option String) (d : Diagnostic) : String :=
  let header := Terminal.location colors d.span.text ++ " : " ++
    Terminal.severity colors d.severity.text ++ " : " ++ d.text
  match d.snippet? source with
  | some snippet => header ++ "\n" ++ snippet.format colors
  | none => header

/-- The diagnostic laid out, unless the caret of its snippet cannot be set. -/
def Diagnostic.layOut (colors : Bool) (source : Option String) (d : Diagnostic) :
    Except Fault String := do
  if let some snippet := d.snippet? source then
    let _ ← snippet.layOut colors
  return d.format colors source

/-- Diagnostics one after the other, each with its snippet. -/
def formatDiagnostics (colors : Bool) (source : String) (ds : List Diagnostic) : String :=
  "\n".intercalate (ds.map (Diagnostic.format colors (some source)))

end Stencil

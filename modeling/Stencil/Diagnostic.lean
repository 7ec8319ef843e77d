import Stencil.Span

/-!
# Diagnostics

What reading a template has to say about it. Reading never fails on bad
templates: it collects diagnostics, and a template with an error among them is
not evaluated.
-/

namespace Stencil

/-- How serious a diagnostic is. -/
inductive Severity where
  | error
  | warning
  | info
deriving DecidableEq

/-- A severity as text. -/
def Severity.text : Severity → String
  | .error => "error"
  | .warning => "warning"
  | .info => "info"

/-- A message about a range of a source. -/
structure Diagnostic where
  severity : Severity
  span : Span
  text : String
deriving DecidableEq

/-- Whether the diagnostic keeps its template from being evaluated. -/
def Diagnostic.isError (d : Diagnostic) : Bool := d.severity == .error

/-- A diagnostic on one line: place, severity and message. -/
def Diagnostic.summary (d : Diagnostic) : String :=
  d.span.text ++ " : " ++ d.severity.text ++ " : " ++ d.text

/-- Whether any of the diagnostics is an error. -/
def hasErrors (ds : List Diagnostic) : Bool := ds.any Diagnostic.isError

end Stencil

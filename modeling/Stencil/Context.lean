import Stencil.Loader
import Stencil.Scope
import Stencil.Template
import Stencil.Value.Computation

/-!
# Execution contexts

A context is the state of evaluation: the scopes, of which the top one takes
assignments; the sinks that output goes to, of which only the top one is
written; the files that are being executed; and the names of the templates that
are being included. Templates that were included are kept in a cache, which
several contexts may share.
-/

namespace Stencil

/-! ## The cache -/

/-- Templates by the paths they were loaded from. -/
abbrev TemplateCache := Table LoadedTemplate

/-- Keeps a template under a path, unless there is one already; the template
that is kept now. -/
def TemplateCache.addIfAbsent (cache : TemplateCache) (path : String) (t : LoadedTemplate) :
    LoadedTemplate × TemplateCache :=
  match Table.get? path cache with
  | some kept => (kept, cache)
  | none => (t, Table.set path t cache)

/-- A cache on one line. -/
def TemplateCache.description (cache : TemplateCache) : String :=
  "<TemplateCache " ++ toString cache.length ++ " template(s)>"

/-! ## Contexts -/

/-- Where output goes to: the text written so far, and the value that was written if
it was only one. -/
structure Sink where
  text : String := ""
  sole : Option Value := none

/-- A sink with the text of one more value. What is empty leaves no trace. -/
def Sink.write (sink : Sink) (v : Value) (text : String) : Sink :=
  if text = "" then sink
  else { text := sink.text ++ text, sole := if sink.text = "" then some v else none }

/-- What was written, as a value: the text of a sole value, else a new one. -/
def Sink.value (sink : Sink) : Computation Value :=
  match sink.sole with
  | some v => Computation.textOf v sink.text
  | none => Computation.newSpelling sink.text

/-- The builtins of a context that is given none. -/
def defaultBuiltins : Table Value := [("include", .function 0 .include)]

/-- An execution context. Stacks are lists from the top down; the sink at the
bottom, below all others, is always there. -/
structure Context where
  loader : Option Loader := none
  builtins : Table Value := defaultBuiltins
  /-- how included templates are read -/
  options : TemplateOptions := {}
  /-- whether an unknown name is an error -/
  strict : Bool := false
  outputEnabled : Bool := true
  scopes : List Scope := []
  sink : Sink := {}
  sinksBelow : List Sink := []
  sourceFiles : List String := []
  /-- names of templates being included; none before the first include -/
  pending : Option (List String) := none

namespace Context

/-- The sinks from the top down. -/
def sinks (c : Context) : List Sink := c.sink :: c.sinksBelow

/-- What was written to the sink at the bottom. -/
def output (c : Context) : String := (c.sinksBelow.getLast?.getD c.sink).text

/-- How high the stacks are: scopes, sinks, files. -/
def depths (c : Context) : List Nat :=
  [c.scopes.length, c.sinks.length, c.sourceFiles.length]

/-- The file being executed. -/
def sourceFile? (c : Context) : Option String := c.sourceFiles.head?

/-- A range that belongs to no file belongs to the file being executed. -/
def locate (c : Context) (span : Option Span) : Option Span :=
  match span, c.sourceFile? with
  | some ⟨none, start, stop⟩, some file => some ⟨some file, start, stop⟩
  | span, _ => span

/-- What a name is bound to, in the first scope that binds it. -/
def lookUpScopes (name : String) : List Scope → Option Value
  | [] => none
  | scope :: below => (scope.bindings.get? name).or (lookUpScopes name below)

/-- What a name means: its binding in a scope, else a builtin. -/
def lookUp (c : Context) (name : String) : Option Value :=
  (lookUpScopes name c.scopes).or (c.builtins.get? name)

/-- The arguments of the innermost include, if there is one. -/
def arguments? (c : Context) : Option Value := lookUpScopes argumentsName c.scopes

/-- Changes the bindings of the scope with a number, wherever it is. -/
def changeScope (c : Context) (id : Nat) (f : Table Value → Table Value) : Context :=
  { c with scopes := c.scopes.map fun s =>
      if s.id == id then { s with bindings := f s.bindings } else s }

/-- The names of templates being included, in order. -/
def pendingNames (c : Context) : List String := sortedNames (c.pending.getD [])

end Context

/-- A context on one line. -/
def Context.description (c : Context) (cache : TemplateCache) : String :=
  "<ExecutionContext globals=" ++ toString c.scopes.length ++ " outputs=" ++
    toString c.sinks.length ++ " sources=" ++ toString c.sourceFiles.length ++ " cached=" ++
    toString cache.length ++ ">"

end Stencil

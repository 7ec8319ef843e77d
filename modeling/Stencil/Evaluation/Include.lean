import Stencil.Evaluation.Host
import Stencil.Text.Blank

/-!
# Includes

A template can include another by name: the loader turns the name into a path,
the template is taken from the cache or read, and its output becomes the value
of the call. While it runs, its arguments are bound in the scope of the call and
its name counts as pending; a name that is pending already is refused. Whatever
happens, the binding and the pending names are put back.
-/

namespace Stencil.Eval

/-- The name that an include asks for. Any failure to show it is a failure to
convert it. -/
def includeName (span : Option Span) (v : Value) : Eval String := do
  let name ← compute (fun e => report (.cannotConvertName v.typeName e.message) span)
    (Computation.display v)
  let name := Text.strip name
  if name = "" then report .emptyName span else return name

/-- The path of a name. -/
def includePath (span : Option Span) (loader : Loader) (name : String) : Eval String := do
  match (← ask (loader.resolve span name)).map Text.strip with
  | some path => if path = "" then report (.emptyPath name) span else return path
  | none => report (.emptyPath name) span

/-- How included templates are read: never with front matter. -/
def includeOptions (o : TemplateOptions) : TemplateOptions :=
  { o with lexer := { o.lexer with
      mode := if o.lexer.mode = .scriptOnly then .scriptOnly else .default } }

/-- Reads the template at a path and keeps it. A template with errors is neither
used nor kept. -/
def readIncluded (span : Option Span) (loader : Loader) (name path : String) : Eval Template := do
  match ← ask (loader.load span path) with
  | none => report (.noContent path) span
  | some text =>
    match Template.parse (includeOptions (← context).options) (some path) text with
    | .error e => failWith e
    | .ok template =>
      if template.hasErrors then report (.unparsable name path template.diagnostics) span
      else
        modifyGet fun s =>
          let (loaded, store) := template.load s.store
          let (kept, cache) := s.cache.addIfAbsent path loaded
          (kept.numbered, { s with store, cache })

/-- The template at a path, from the cache if it is there. -/
def includedTemplate (span : Option Span) (loader : Loader) (name path : String) :
    Eval Template := do
  match (← get).cache.get? path with
  | some kept => return kept.numbered
  | none => readIncluded span loader name path

/-- Marks a name as pending. One that is pending already is a recursion. -/
def enterPending (span : Option Span) (name : String) : Eval Unit := do
  changeContext fun c => { c with pending := some (c.pending.getD []) }
  let c ← context
  if (c.pending.getD []).contains name then report (.recursive name c.pendingNames) span
  else changeContext fun c => { c with pending := some (name :: c.pending.getD []) }

/-- Marks a name as no longer pending. -/
def leavePending (name : String) : Eval Unit :=
  changeContext fun c => { c with pending := c.pending.map (·.filter (· != name)) }

/-- Puts the arguments of a scope back to what they were. -/
def restoreArguments (scope : Scope) : Eval Unit :=
  changeContext fun c => c.changeScope scope.id fun bindings =>
    match scope.bindings.get? argumentsName with
    | some previous => bindings.set argumentsName previous
    | none => bindings.erase argumentsName

/-- What an evaluation writes, taken off in a sink of its own. -/
def capture (body : Eval Unit) (after : Eval Unit) : Eval Sink := fun s =>
  match (do pushSink; body : Eval Unit) s with
  | .ok _ s =>
    match (do let sink ← popSink; after; return sink : Eval Sink) s with
    | .ok sink s => .ok sink s
    | .error e s => .error e s
  | .error e s =>
    match (do let _ ← popSink; after : Eval Unit) s with
    | .ok _ s => .error e s
    | .error e s => .error e s

/-- Renders the template of a name with arguments; `render` runs a template. -/
def includeTemplate (render : Template → Eval Unit) (span : Option Span)
    (arguments : List Value) : Eval Sink := do
  let span := (← context).locate span
  match arguments with
  | [] => report .includeArity span
  | nameValue :: arguments =>
    let name ← includeName span nameValue
    match (← context).loader with
    | none => report (.noLoader name) span
    | some loader =>
      let path ← includePath span loader name
      let scope ← currentScope
      let list ← computed (Computation.newList arguments)
      assign argumentsName list span
      ensuring (do
        let template ← includedTemplate span loader name path
        enterPending span name
        capture (render template) (leavePending name))
        (restoreArguments scope)

end Stencil.Eval

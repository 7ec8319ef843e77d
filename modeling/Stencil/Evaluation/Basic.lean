import Stencil.Context
import Stencil.Value.Computation

/-!
# Evaluation

An evaluation changes the state it runs in and yields a value or fails. What it
changed before it failed stays changed; `ensuring` runs a clean-up in either
case. The operations of this module are those on the stacks of the context.
-/

namespace Stencil

/-- What evaluation runs in: the context, the lists, the cached templates and
what the loaders answer from. -/
structure State where
  context : Context := {}
  store : Store := {}
  cache : TemplateCache := []
  library : Library := {}

/-- An evaluation. -/
abbrev Eval := EStateM Failure State

namespace Eval

/-! ## Plumbing -/

/-- The context. -/
def context : Eval Context := do return (← get).context

/-- Changes the context. -/
def changeContext (f : Context → Context) : Eval Unit :=
  modify fun s => { s with context := f s.context }

/-- A computation on values; its faults go to `onFault`. -/
def compute {α : Type} (onFault : Fault → Eval α) (c : Computation α) : Eval α :=
  fun ⟨context, store, cache, library⟩ =>
    match c store with
    | .ok a store => .ok a ⟨context, store, cache, library⟩
    | .error e store => onFault e ⟨context, store, cache, library⟩

/-- Fails with a fault, or with the script error that an object answers with. -/
def failWith {α : Type} (e : Fault) : Eval α := throw (Failure.ofFault e)

/-- A computation on values whose faults nobody reports. -/
def computed {α : Type} (c : Computation α) : Eval α := compute failWith c

/-- Fails with a script error, located in the file being executed. -/
def report {α : Type} (cause : Cause) (span : Option Span) : Eval α := do
  throw (.script ⟨cause, (← context).locate span⟩)

/-- A question to a loader. -/
def ask {α : Type} (question : Lookup α) : Eval α := fun s =>
  match question s.library with
  | .ok a library => .ok a { s with library }
  | .error e library => .error e { s with library }

/-- An evaluation with a clean-up behind it. A failure of the clean-up takes the
place of what the evaluation came to. -/
def ensuring {α : Type} (body : Eval α) (cleanUp : Eval Unit) : Eval α := fun s =>
  match body s with
  | .ok a s =>
    match cleanUp s with
    | .ok _ s => .ok a s
    | .error e s => .error e s
  | .error e s =>
    match cleanUp s with
    | .ok _ s => .error e s
    | .error e s => .error e s

/-- A number that was not handed out before. -/
def newNumber : Eval Nat := fun s =>
  let (n, store) := s.store.newNumber
  .ok n { s with store }

/-- A template ready to be run, loaded for this one run. -/
def load (t : Template) : Eval Template := fun s =>
  let (loaded, store) := t.load s.store
  .ok loaded.numbered { s with store }

/-- Whether a value counts as true. -/
def truthy (v : Value) : Eval Bool := do return (← get).store.truthy v

/-! ## Scopes -/

/-- Puts a scope on top. -/
def pushScope (bindings : Table Value) : Eval Unit := do
  let id ← newNumber
  changeContext fun c => { c with scopes := ⟨id, bindings⟩ :: c.scopes }

/-- Takes the top scope away. -/
def popScope : Eval Scope := do
  match (← context).scopes with
  | [] => throw (.script { cause := .unmatchedPop .scopes })
  | scope :: below =>
    changeContext fun c => { c with scopes := below }
    return scope

/-- The top scope. -/
def currentScope : Eval Scope := do
  match (← context).scopes with
  | [] => throw (.script { cause := .noScope })
  | scope :: _ => return scope

/-- The meaning of a name. -/
def lookUp (name : String) (span : Option Span) : Eval Value := do
  let c ← context
  match c.lookUp name with
  | some v => return v
  | none => if c.strict then report (.undefinedVariable name) span else return .null

/-- Binds a name in the top scope. -/
def assign (name : String) (v : Value) (span : Option Span) : Eval Unit := do
  match (← context).scopes with
  | [] => report (.cannotSet name) span
  | scope :: below =>
    changeContext fun c =>
      { c with scopes := { scope with bindings := scope.bindings.set name v } :: below }

/-! ## Sinks -/

/-- Opens a new sink on top. -/
def pushSink : Eval Unit :=
  changeContext fun c => { c with sink := {}, sinksBelow := c.sink :: c.sinksBelow }

/-- Closes the top sink: what was written to it. The sink at the bottom stays. -/
def popSink : Eval Sink := do
  let c ← context
  match c.sinksBelow with
  | [] => throw (.script { cause := .unmatchedPop .outputs })
  | sink :: below =>
    changeContext fun c => { c with sink, sinksBelow := below }
    return c.sink

/-- A value as text, for a place in a template. -/
def toText (span : Option Span) (v : Value) : Eval String :=
  compute (fun e =>
    match e with
    | .refused _ => failWith e
    | e => report (.cannotConvert v.typeName e.message) span)
    (Computation.display v)

/-- Writes a value to the top sink, if output is enabled. -/
def write (span : Option Span) (v : Value) : Eval Unit := do
  if (← context).outputEnabled then
    let text ← toText span v
    changeContext fun c => { c with sink := c.sink.write v text }

/-- Writes the value of a statement. Null is no output. -/
def writeResult (span : Option Span) (v : Value) : Eval Unit :=
  if v.isNull then return else write span v

/-- An evaluation with output turned off. -/
def silently {α : Type} (body : Eval α) : Eval α := do
  let enabled := (← context).outputEnabled
  changeContext fun c => { c with outputEnabled := false }
  ensuring body (changeContext fun c => { c with outputEnabled := enabled })

/-! ## Files -/

/-- Enters a file. -/
def pushSourceFile (path : String) : Eval Unit :=
  changeContext fun c => { c with sourceFiles := path :: c.sourceFiles }

/-- Leaves a file. -/
def popSourceFile : Eval String := do
  match (← context).sourceFiles with
  | [] => throw (.script { cause := .unmatchedPop .sourceFiles })
  | path :: below =>
    changeContext fun c => { c with sourceFiles := below }
    return path

/-- An evaluation inside a file, if one is given. -/
def within {α : Type} (path : Option String) (body : Eval α) : Eval α := do
  match path with
  | none => body
  | some path =>
    pushSourceFile path
    ensuring body do
      let _ ← popSourceFile

end Eval

end Stencil

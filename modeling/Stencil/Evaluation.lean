import Stencil.Evaluation.Node

/-!
# Evaluating templates

`evaluate` evaluates a node within a number of steps, and `render`, `evaluateIn`
and `frontMatterIn` run a template in a context. A template with errors is
refused. Rendering writes what the page comes to; evaluating writes nothing and
yields it.
-/

namespace Stencil.Eval

/-- Refuses a template that has errors. -/
def checkErrors (t : Template) : Eval Unit :=
  if t.hasErrors then
    throw (.script { cause := .templateHasErrors t.path t.diagnostics })
  else return

/-- Writes what a page came to, in the range of the page. -/
def writePage (t : Template) (v : Value) : Eval Unit :=
  match t.page with
  | some page => writeResult (some page.span) v
  | none => return

/-- The page of a template, evaluated in its file; nothing without a page. -/
def runPage (node : Node → Eval Value) (t : Template) : Eval Value :=
  match t.page with
  | some page => within t.path (node page.node)
  | none => return .null

/-- Renders a template, given how nodes are evaluated. -/
def renderWith (node : Node → Eval Value) (t : Template) : Eval Unit := do
  checkErrors t
  writePage t (← runPage node t)

/-- Evaluates a node, with `fuel` steps to go down. -/
def evaluate (host : Host) : Nat → Node → Eval Value
  | 0, _ => throw .exhausted
  | fuel + 1, node =>
    step host ⟨evaluate host fuel, renderWith (evaluate host fuel)⟩ fuel node

/-- Renders a template: its output goes to the top sink. -/
def render (host : Host) (fuel : Nat) (t : Template) : Eval Unit :=
  renderWith (evaluate host fuel) t

/-- Evaluates a template without output. -/
def evaluateIn (host : Host) (fuel : Nat) (t : Template) : Eval Value := do
  checkErrors t
  silently (runPage (evaluate host fuel) t)

/-- Evaluates the front matter of a template without output. -/
def frontMatterIn (host : Host) (fuel : Nat) (t : Template) : Eval Value := do
  checkErrors t
  match t.frontMatter? with
  | none => return .null
  | some node => silently (within t.path (evaluate host fuel node))

/-- The ways to run a template on a model. -/
inductive ModelRun where
  | render
  /-- renders in the background -/
  | renderLater
  | evaluate
deriving DecidableEq

/-- What a way to run a template is called. -/
def ModelRun.name : ModelRun → String
  | .render => "Template.render"
  | .renderLater => "Template.render_async"
  | .evaluate => "Template.evaluate"

/-- Runs in a new scope made from a model and further bindings. -/
def inModel {α : Type} (way : ModelRun) (model : Value) (more : List (String × Value))
    (body : Eval α) : Eval α := do
  let entries : Except Fault (List (Value × Value)) := do
    checkNames way.name ["self", "model"] more
    importModel model more
  match entries with
  | .error e => failWith e
  | .ok entries =>
    pushScope (bindingsOf entries)
    ensuring body do
      let _ ← popScope

/-- The output of a template rendered in a new scope. -/
def renderModel (host : Host) (fuel : Nat) (t : Template) (way : ModelRun) (model : Value)
    (more : List (String × Value)) : Eval String := do
  inModel way model more (do render host fuel (← load t))
  return (← context).output

/-- The value of a template evaluated in a new scope. -/
def evaluateModel (host : Host) (fuel : Nat) (t : Template) (model : Value)
    (more : List (String × Value)) : Eval Value :=
  inModel .evaluate model more (do evaluateIn host fuel (← load t))

/-- How a text is read as one expression. -/
def expressionOptions : TemplateOptions := { lexer := { mode := .scriptOnly } }

end Stencil.Eval

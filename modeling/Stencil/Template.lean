import Stencil.Grammar.Statement
import Stencil.Token.Lexer

/-!
# Templates

A template is read once and may then be evaluated any number of times. Reading
collects what is wrong as diagnostics, first those of the tokens and then those
of the grammar; a template with an error among them is not evaluated.
-/

namespace Stencil

/-- How templates are read. -/
structure TemplateOptions where
  lexer : LexerOptions := {}
  /-- how deep expressions may nest -/
  depthLimit : Int := 64

/-- A template that was read: its page unless the source was empty, where it
came from, what was found wrong, and the source. -/
structure Template where
  page : Option Page := none
  path : Option String := none
  diagnostics : List Diagnostic := []
  source : String := ""

namespace Template

/-- Reads a template. Only a number too long to be read is a fault. -/
def parse (options : TemplateOptions) (path : Option String) (source : String) :
    Except Fault Template :=
  if source = "" then .ok { path }
  else do
    let lexed := lex options.lexer source.toList
    let (page, errors) ←
      Grammar.pageOf { file := path, depthLimit := options.depthLimit } lexed.tokens
    return {
      page := some page
      path
      diagnostics := lexed.diagnostics path ++ errors.map (SyntaxError.diagnostic path)
      source }

/-- Whether the template cannot be evaluated. -/
def hasErrors (t : Template) : Bool := Stencil.hasErrors t.diagnostics

/-- The front matter, if the template has some. -/
def frontMatter? (t : Template) : Option Node :=
  match t.page with
  | some page =>
    match page.frontMatter with
    | .absent => none
    | node => some node
  | none => none

/-- The diagnostics, each with its place in the source. -/
def report (colors : Bool) (t : Template) : String :=
  formatDiagnostics colors t.source t.diagnostics

/-- A template on one line. -/
def description (t : Template) : String :=
  "<Template " ++ Text.quoted (sourceName t.path) ++ " errors=" ++
    (if t.hasErrors then "True" else "False") ++ ">"

/-- The lines on which the top statements of the body begin. -/
def statementLines (t : Template) : List Int :=
  match t.page with
  | some { body := .block _ body, .. } => body.filterMap fun n => n.span?.map (·.start.line)
  | _ => []

/-- A template with its literals numbered. -/
def numbered (t : Template) : StateM Nat Template := do
  match t.page with
  | some page => return { t with page := some (← page.numbered) }
  | none => return t

end Template

/-- A template that was loaded: what was read, and its number. The numbers behind it
are those of the literals. -/
structure LoadedTemplate where
  id : Nat
  template : Template

/-- The template to be run. -/
def LoadedTemplate.numbered (t : LoadedTemplate) : Template :=
  (t.template.numbered (t.id + 1)).1

/-- Loads a template: it and each of its literals become objects of their own. -/
def Template.load (t : Template) (s : Store) : LoadedTemplate × Store :=
  let id := s.nextNumber
  (⟨id, t⟩, { s with nextNumber := (t.numbered (id + 1)).2 })

end Stencil

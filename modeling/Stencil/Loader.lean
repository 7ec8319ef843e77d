import Stencil.Failure
import Stencil.Files
import Stencil.Text.Similarity

/-!
# Loaders

A loader turns the name of a template into a path and a path into text. The path
stands for the template: two names with one path are one template. What a
loader answers from may change between calls, so it lies in a cell of the
`Library`; the loaders themselves are plain descriptions.
-/

namespace Stencil

/-- A call that a recording loader was asked. -/
inductive LoaderCall where
  | resolve (name : String) (span : Option Span)
  | load (path : String) (span : Option Span)
deriving DecidableEq

/-- What a loader answers from. -/
structure LoaderCell where
  /-- texts by path -/
  texts : Table (Option String) := []
  /-- paths of names that are not their own path -/
  paths : Table (Option String) := []
  /-- the member of a choice that resolved a path first -/
  owners : Table Nat := []
  /-- calls since the record was last taken -/
  record : List LoaderCall := []

/-- A loader. Loaders that share a cell answer from the same table. -/
inductive Loader where
  /-- the templates of a table; the path of a template is its name -/
  | mapping (cell : Nat)
  /-- asks a function for texts; the path is the name -/
  | function (cell : Nat)
  /-- answers names and paths from two tables and records every call -/
  | recording (cell : Nat)
  /-- files below directories -/
  | files (roots : List FilePath) (encoding : Text.Encoding)
  /-- asks its members in order -/
  | choice (cell : Nat) (members : List Loader)

/-- The name of a loader's type. -/
def Loader.typeName : Loader → String
  | .mapping _ => "DictLoader"
  | .function _ => "FunctionLoader"
  | .recording _ => "TableLoader"
  | .files _ _ => "FileSystemLoader"
  | .choice _ _ => "ChoiceLoader"

/-- What the loaders of a program answer from: the cells, and the files. -/
structure Library where
  cells : Array LoaderCell := #[]
  tree : FileTree := {}

/-- A cell of the library. -/
def Library.cell (l : Library) (i : Nat) : LoaderCell := l.cells[i]?.getD {}

/-- The library with a changed cell. -/
def Library.changeCell (l : Library) (i : Nat) (f : LoaderCell → LoaderCell) : Library :=
  { l with cells := l.cells.modify i f }

/-- The library with one more cell, and the number of that cell. -/
def Library.addCell (l : Library) (c : LoaderCell) : Nat × Library :=
  (l.cells.size, { l with cells := l.cells.push c })

/-- A question to a loader. -/
abbrev Lookup := EStateM Failure Library

namespace Lookup

/-- The cell of a loader. -/
def cell (i : Nat) : Lookup LoaderCell := do return (← get).cell i

/-- Notes a call. -/
def note (i : Nat) (call : LoaderCall) : Lookup Unit :=
  modify fun l => l.changeCell i fun c => { c with record := c.record ++ [call] }

/-- Fails because a template was not found. -/
def notFound {α : Type} (reason : NotFound) (span : Option Span) : Lookup α :=
  throw (.script ⟨.notFound reason, span⟩)

end Lookup

/-- Whether a failure says that a template was not found. -/
def Failure.isNotFound : Failure → Bool
  | .script e => e.kind == .templateNotFound
  | _ => false

/-- The first directory that has a file of a name, as the path of that file.
Names that lead out of a directory are passed over; a name that is too long for
a file is a fault. -/
def findFile (tree : FileTree) (name : String) :
    List FilePath → Except Fault (Option FilePath)
  | [] => .ok none
  | root :: roots =>
    let p := FilePath.resolve root name
    if !FilePath.isWithin root p then findFile tree name roots
    else if tree.isTooLong p then .error (.nameTooLong p.text)
    else if tree.isFile p then .ok (some p)
    else findFile tree name roots

/-- Whether a name cannot be that of a file. -/
def hasNull (name : String) : Bool := name.toList.contains '\x00'

namespace Loader

mutual

/-- The path of a name. -/
def resolve (span : Option Span) (name : String) : Loader → Lookup (Option String)
  | .mapping i => do
    let names := (← Lookup.cell i).texts.names
    if names.contains name then return some name
    let available := sortedNames names
    Lookup.notFound (.names name (Text.closest? name available) available) span
  | .function _ => return some name
  | .recording i => do
    Lookup.note i (.resolve name span)
    return (Table.get? name (← Lookup.cell i).paths).getD (some name)
  | .files roots _ => do
    if hasNull name && !roots.isEmpty then throw (.fault .embeddedNull)
    match findFile (← get).tree name roots with
    | .error e => throw (.fault e)
    | .ok (some p) => return some p.text
    | .ok none => Lookup.notFound (.directories name (roots.map FilePath.text)) span
  | .choice i members => do
    match ← resolveFirst span name 0 members with
    | some (n, path) =>
      modify fun l => l.changeCell i fun c =>
        if c.owners.has path then c else { c with owners := c.owners.set path n }
      return some path
    | none => Lookup.notFound (.choices name members.length) span

/-- The first of several loaders that finds a name, counted from `n`, and the
path it gives. An empty path counts as not found. -/
def resolveFirst (span : Option Span) (name : String) (n : Nat) :
    List Loader → Lookup (Option (Nat × String))
  | [] => return none
  | loader :: rest => fun l =>
    match resolve span name loader l with
    | .ok (some path) l =>
      if path = "" then resolveFirst span name (n + 1) rest l else .ok (some (n, path)) l
    | .ok none l => resolveFirst span name (n + 1) rest l
    | .error e l => if e.isNotFound then resolveFirst span name (n + 1) rest l else .error e l

end

mutual

/-- The text at a path, if there is some. -/
def load (span : Option Span) (path : String) : Loader → Lookup (Option String)
  | .mapping i => do return ((← Lookup.cell i).texts.get? path).join
  | .function i => do return ((← Lookup.cell i).texts.get? path).join
  | .recording i => do
    Lookup.note i (.load path span)
    return ((← Lookup.cell i).texts.get? path).join
  | .files _ encoding => do
    match (← get).tree.read encoding path with
    | .ok text => return text
    | .error e => throw (.fault e)
  | .choice i members => do
    match (← Lookup.cell i).owners.get? path with
    | some n => loadAt span path n members
    | none => loadFirst span path members

/-- The text at a path through the loader at place `n`. -/
def loadAt (span : Option Span) (path : String) : Nat → List Loader → Lookup (Option String)
  | _, [] => return none
  | 0, loader :: _ => load span path loader
  | n + 1, _ :: rest => loadAt span path n rest

/-- The text at a path through the first of several loaders that has it. -/
def loadFirst (span : Option Span) (path : String) : List Loader → Lookup (Option String)
  | [] => return none
  | loader :: rest => do
    match ← load span path loader with
    | some text => return some text
    | none => loadFirst span path rest

end

/-- The names of all templates of a loader that can list them. -/
def list (loader : Loader) : Lookup (List String) := do
  let l ← get
  match loader with
  | .mapping i => return sortedNames (l.cell i).texts.names
  | .files roots _ => return sortedNames (roots.flatMap l.tree.below).eraseDups
  | loader => throw (.fault (.noAttribute loader.typeName "list_templates"))

end Loader

end Stencil

import Stencil.Fault
import Stencil.Table
import Stencil.Value.Display
import Stencil.Value.Key
import Stencil.Value.Member

/-!
# Scopes

A scope binds names to values. It is told apart from other scopes by its number,
not by its bindings: an include puts back what it changed in the very scope in
which it was called. A model is taken over into a scope by its entries, its
fields or its public attributes.
-/

namespace Stencil

/-- A scope. -/
structure Scope where
  id : Nat
  bindings : Table Value := []

/-- The entries that a model brings into a scope. -/
def Value.modelEntries : Value → Except Fault (List (Value × Value))
  | .null => .ok []
  | .dict _ entries => .ok entries
  | .record _ _ fields => .ok (fields.map fun (name, v) => (.text 0 name, v))
  | .object _ _ attributes =>
    let visible := attributes.filter fun (name, _) => !isPrivate name
    .ok (visible.map fun (name, v) => (.text 0 name, v))
  | .unprintable _ _ _ | .function _ (.plain _) | .function _ (.object _ _)
  | .function _ (.contextual _) => .ok []
  | v => .error (.notImportable v.typeName)

/-- Refuses bindings whose names a function has for arguments of its own. -/
def checkNames (callee : String) (own : List String) (more : List (String × Value)) :
    Except Fault Unit :=
  match more.find? fun (name, _) => own.contains name with
  | some (name, _) => .error (.arity callee (.twice name))
  | none => .ok ()

/-- A model with further bindings, which override it. -/
def importModel (model : Value) (more : List (String × Value)) :
    Except Fault (List (Value × Value)) := do
  checkNames "ScriptObject.from_model" ["cls", "model"] more
  return more.foldl (fun d (name, v) => Entries.set (.text 0 name) v d)
    (Entries.ofList (← model.modelEntries))

/-- The bindings of a scope among entries: those whose key is a name. -/
def bindingsOf (entries : List (Value × Value)) : Table Value :=
  entries.filterMap fun (k, v) =>
    match k with
    | .text _ name => some (name, v)
    | _ => none

/-- Entries described as a scope. -/
def Store.describeScope (s : Store) (entries : List (Value × Value)) : Except Fault String := do
  return "ScriptObject(" ++ (← s.quoted (.dict 0 entries)) ++ ")"

end Stencil

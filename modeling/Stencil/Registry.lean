import Stencil.Sorting
import Stencil.Value.Member

/-!
# Registries of builtins

A registry of builtins is a dictionary: any value may be registered, and those
that can be called become functions of templates. Asking for a name that is not
there, or freeing one, is a fault; every change leaves the registry as it was
before for those who hold it.
-/

namespace Stencil

/-- The entries of a dictionary made from a value: another dictionary, or a
sequence of pairs of keys and values. -/
def Computation.entriesOf (v : Value) : Computation (List (Value × Value)) := do
  match v with
  | .dict _ entries => return entries
  | v => (← Computation.elements v).zipIdx.foldlM addPair []
where
  /-- Adds the pair at a place. -/
  addPair (entries : List (Value × Value)) (pair : Value × Nat) :
      Computation (List (Value × Value)) := do
    match ← Computation.elements? pair.1 with
    | none => throw (.entryNoSequence pair.2)
    | some [key, v] =>
      let _ ← Computation.ofExcept (lookUp entries key)
      return Entries.set key v entries
    | some parts => throw (.entryLength pair.2 parts.length)

/-- A registry of builtins. -/
abbrev Registry := List (Value × Value)

namespace Registry

/-- A registry with the entries of a value; of a value that counts as false it
has none. -/
def ofValue (v : Value) : Computation Registry := do
  if (← get).truthy v then Computation.entriesOf v else return []

/-- What a name is registered for, if it is. -/
def get? (name : String) (r : Registry) : Option Value := Entries.get? (.text 0 name) r

/-- Registers a value. -/
def set (name : String) (v : Value) (r : Registry) : Registry := Entries.set (.text 0 name) v r

/-- What a name is registered for. -/
def item (name : String) (r : Registry) : Except Fault Value :=
  match r.get? name with
  | some v => .ok v
  | none => .error (.missingKey name)

/-- The registry without a name. -/
def remove (name : String) (r : Registry) : Except Fault Registry :=
  match r.get? name with
  | some _ => .ok (r.filter fun (key, _) => !key.sameKey (.text 0 name))
  | none => .error (.missingKey name)

/-- The registry with the entries of a value. -/
def updateFrom (v : Value) (r : Registry) : Computation Registry := do
  return (← Computation.entriesOf v).foldl (fun r (key, v) => Entries.set key v r) r

/-- The registry as a dictionary. -/
def toDict (r : Registry) : Value := .dict 0 r

/-- A registry on one line: its keys in order. -/
def description (r : Registry) : Computation String := do
  let s ← get
  match Sorting.sort (fun a b => s.compareBy .lt a b) (r.map (·.1)) with
  | (_, some e) => throw e
  | (keys, none) =>
    return "<BuiltinRegistry [" ++ ", ".intercalate (← keys.mapM Computation.quoted) ++ "]>"

end Registry

end Stencil

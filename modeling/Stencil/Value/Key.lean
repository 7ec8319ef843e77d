import Stencil.Value.Equality

/-!
# Keys of dictionaries

A dictionary keeps its entries in the order in which their keys came. A key may
be any value that never changes; lists, dictionaries, records and tuples that
hold some are refused. An entry whose key is alike to a new one keeps its key
and takes the new value.
-/

namespace Stencil

mutual

/-- The type that keeps a value from being a key, if one does. -/
def Value.unhashable? : Value → Option String
  | .list _ => some "list"
  | .dict _ _ => some "dict"
  | .record _ typeName _ => some typeName
  | .tuple _ items => Value.unhashableItem? items
  | _ => none

/-- The first type among the parts of a tuple that keeps it from being a key. -/
def Value.unhashableItem? : List Value → Option String
  | [] => none
  | v :: vs => (v.unhashable?).or (Value.unhashableItem? vs)

end

namespace Entries

/-- The value under a key. -/
def get? (key : Value) (entries : List (Value × Value)) : Option Value :=
  (entries.find? fun (k, _) => k.sameKey key).map (·.2)

/-- Puts a value under a key. -/
def set (key value : Value) : List (Value × Value) → List (Value × Value)
  | [] => [(key, value)]
  | (k, v) :: rest => if k.sameKey key then (k, value) :: rest else (k, v) :: set key value rest

/-- A dictionary of entries in order; later values of a key win. -/
def ofList (entries : List (Value × Value)) : List (Value × Value) :=
  entries.foldl (fun d (k, v) => set k v d) []

end Entries

/-- The value under a key of a dictionary; a key of a type that cannot be one is
refused. -/
def lookUp (entries : List (Value × Value)) (key : Value) : Except Fault (Option Value) :=
  match key.unhashable? with
  | some type => .error (.unhashable type)
  | none => .ok (Entries.get? key entries)

end Stencil

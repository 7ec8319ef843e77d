import Stencil.Value.Computation
import Stencil.Value.Key

/-!
# Parts of values

What stands behind a dot or in brackets. Dictionaries show their entries, all
other values their public members: a name that starts with an underscore is
never found. A part that is not there is null.
-/

namespace Stencil

/-- Whether a member of this name is kept from templates. -/
def isPrivate (name : String) : Bool := name.toList.head? == some '_'

/-- The value of an attribute; of two with one name the later. -/
def attribute? (name : String) (attributes : List (String × Value)) : Option Value :=
  (attributes.reverse.find? fun (n, _) => n == name).map (·.2)

/-- The operation of a list of operations that has a given name. -/
def named? {α : Type} (nameOf : α → String) (name : String) (all : List α) : Option α :=
  all.find? fun m => nameOf m == name

/-- The integer that an integer or a boolean is. -/
def Value.wholePart : Value → Value
  | .bool b => .int 0 (if b then 1 else 0)
  | v => v

/-- The public members of values that are not dictionaries. -/
def Value.publicMember? (v : Value) (name : String) : Option Value :=
  match v with
  | .object _ _ attributes => attribute? name attributes
  | .record _ _ fields => attribute? name fields
  | .text _ _ => (named? TextMethod.name name TextMethod.all).map fun m => .method v (.text m)
  | .list _ => (named? ListMethod.name name ListMethod.all).map fun m => .method v (.list m)
  | .tuple _ _ =>
    (named? Method.name name [.tupleCount, .tupleIndex]).map fun m => .method v m
  | .int _ _ | .bool _ =>
    if name = "real" || name = "numerator" then some v.wholePart
    else if name = "imag" then some (.int 0 0)
    else if name = "bit_length" then some (.method v .bitLength)
    else none
  | .float _ _ =>
    if name = "real" then some v
    else if name = "imag" then some (.float 0 0.0)
    else if name = "is_integer" then some (.method v .isInteger)
    else none
  | .function _ f =>
    if name = "invoke" && f.seesContext then some (.method v .invoke) else none
  | _ => none

/-- What stands behind a dot. -/
def Value.member (v : Value) (name : String) : Value :=
  match v with
  | .dict _ entries => (Entries.get? (.text 0 name) entries).getD .null
  | v => if isPrivate name then .null else (v.publicMember? name).getD .null

/-- What stands behind a dot, as an object: the imaginary part of a double is
made when it is asked for. -/
def Computation.member (v : Value) (name : String) : Computation Value :=
  match v, v.member name with
  | .float _ _, .float 0 x => newFloat x
  | _, part => pure part

/-- What stands behind a dot, where the name may be any value. Only a dictionary
has members that are not named by text. -/
def Computation.memberBy (v key : Value) : Computation Value :=
  match v, key with
  | .null, _ => pure .null
  | .dict _ entries, key => do return (← ofExcept (lookUp entries key)).getD .null
  | v, .text _ name => member v name
  | _, key => throw (.noAttribute key.typeName "startswith")

/-- What a host object is invoked through when it is called: its member of that
name, unless that is null. -/
def Value.invocation? : Value → Option Value
  | .object _ _ members | .record _ _ members =>
    (attribute? "invoke" members).filter (!·.isNull)
  | _ => none

/-- The place of an index in a sequence of a length; a negative one counts from the
end. -/
def placeOfIndex? (length : Nat) (i : Int) : Option Nat :=
  let i := if i < 0 then i + length else i
  if 0 ≤ i ∧ i < length then some i.toNat else none

/-- The part of a sequence at an index. -/
def atIndex? {α : Type} (items : List α) (i : Int) : Option α :=
  (placeOfIndex? items.length i).bind (items[·]?)

namespace Computation

/-- A character of a text. -/
def newCharacter (c : Char) : Computation Value := newText (String.singleton c)

/-- What stands behind brackets. -/
def item (v key : Value) : Computation Value :=
  match v, key with
  | .null, _ => pure .null
  | .dict _ entries, key => do return (← ofExcept (lookUp entries key)).getD .null
  | .list id, .int _ i => do
    let s ← get
    return ((placeOfIndex? (s.size id) i).bind (s.item? id)).getD .null
  | .tuple _ items, .int _ i => pure ((atIndex? items i).getD .null)
  | .text _ t, .int _ i =>
    match atIndex? t.toList i with
    | some c => newCharacter c
    | none => pure .null
  | v, .text _ name => member v name
  | v, key => throw (.notIndexable v.typeName key.typeName)

/-- The parts that a value is gone through by: characters, items, or keys. -/
def elements? (v : Value) : Computation (Option (List Value)) := do
  match v with
  | .text _ t => return some (← t.toList.mapM newCharacter)
  | .list id => return some (← contents id)
  | .tuple _ items => return some items
  | .dict _ entries => return some (entries.map (·.1))
  | _ => return none

/-- The parts of a value that must have some. -/
def elements (v : Value) : Computation (List Value) := do
  match ← elements? v with
  | some items => return items
  | none => throw (.notIterable v.typeName)

/-- The number of parts of a value. -/
def length (v : Value) : Computation Nat := do
  match ← elements? v with
  | some items => return items.length
  | none => throw (.noLength v.typeName)

end Computation

end Stencil

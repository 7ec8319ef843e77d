import Stencil.Value.Display
import Stencil.Value.Order

/-!
# Computations on values

A computation may read and change the shared lists, make new values, and fail
with a fault. What it has changed before it fails stays changed.
-/

namespace Stencil

/-- A computation on values. -/
abbrev Computation := EStateM Fault Store

namespace Computation

/-- What a function of the store yields. -/
def read {α : Type} (f : Store → Except Fault α) : Computation α := fun s =>
  match f s with
  | .ok a => .ok a s
  | .error e => .error e s

/-- What a partial result yields. -/
def ofExcept {α : Type} (r : Except Fault α) : Computation α := read fun _ => r

/-- A value as a template writes it. -/
def display (v : Value) : Computation String := read (·.display v)

/-- A value as the host writes it. -/
def bare (v : Value) : Computation String := read (·.bare v)

/-- A value in quotes. -/
def quoted (v : Value) : Computation String := read (·.quoted v)

/-- What a list holds. -/
def contents (id : ListId) : Computation (List Value) := fun s => .ok (s.contents id) s

/-- Gives a list other contents. -/
def setContents (id : ListId) (items : List Value) : Computation Unit := fun s =>
  .ok () (s.setContents id items)

/-- Puts a value behind the others of a list. -/
def push (id : ListId) (v : Value) : Computation Unit := fun s => .ok () (s.push id v)

/-- A new list. -/
def newList (items : List Value) : Computation Value := fun s =>
  let (id, s) := s.newList items
  .ok (.list id) s

/-- A new integer. -/
def newInt (n : Int) : Computation Value := modifyGet (·.newInt n)

/-- A new double. -/
def newFloat (x : Float) : Computation Value := modifyGet (·.newValue (.float · x))

/-- A new text. -/
def newText (s : String) : Computation Value := modifyGet (·.newText s)

/-- A new text, put together character by character. -/
def newSpelling (s : String) : Computation Value := modifyGet (·.newSpelling s)

/-- A new tuple. -/
def newTuple (items : List Value) : Computation Value := modifyGet (·.newTuple items)

/-- A text that came of another one: the same object if nothing was changed. -/
def changedText (before : Value) (after : Computation Value) (s : String) : Computation Value :=
  match before with
  | .text _ t => if s = t then pure before else after
  | _ => after

/-- The text that shows a value, where there is such a text already: text shows
itself, and the words for booleans and for objects without parts are always the
same. -/
def shownBy? (v : Value) (text : String) : Option Value :=
  match v with
  | .text _ _ => some v
  | .bool _ | .object _ _ _ | .function _ .include => some (.text 0 text)
  | _ => none

/-- The text that shows a value, as a value. -/
def textOf (v : Value) (text : String) : Computation Value :=
  match shownBy? v text with
  | some shown => pure shown
  | none => newSpelling text

/-- A comparison of two values. -/
def compareBy (op : Comparison) (a b : Value) : Computation Bool := read (·.compareBy op a b)

end Computation

/-- Whether a value counts as true: null, false, zero and what is empty do not. -/
def Store.truthy (s : Store) : Value → Bool
  | .null => false
  | .bool b => b
  | .int _ n => n != 0
  | .float _ x => !(x == 0.0)
  | .text _ t => t != ""
  | .list id => !(s.contents id).isEmpty
  | .tuple _ items => !items.isEmpty
  | .dict _ entries => !entries.isEmpty
  | _ => true

end Stencil

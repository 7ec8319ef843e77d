import Stencil.Fault
import Stencil.Number.Binary
import Stencil.Value.Store

/-!
# Equality of values

Integers, booleans and doubles are compared as exact numbers; sequences by
their parts, dictionaries by their entries in any order; host objects, records
and functions are equal to themselves only, and operations if they are of one
object. Parts and keys are compared for likeness: the same object is alike to
itself, whatever it is equal to, and so what is no number is found again. Only
that keeps the comparison of lists that hold themselves from going down for
ever; one that goes deeper than `depthLimit` fails.
-/

namespace Stencil

/-! ## Numbers -/

/-- A number: an integer or a double. -/
inductive Numeric where
  | whole (n : Int)
  | double (x : Float)

/-- The number a value is, booleans included. -/
def Value.numeric? (v : Value) : Option Numeric :=
  match v.integer? with
  | some n => some (.whole n)
  | none => v.double?.map .double

/-- The order of a whole number and a double; none if the double is no number. -/
def compareWhole (n : Int) (x : Float) : Option Ordering :=
  match Number.Dyadic.ofFloat? x with
  | some d => some (d.compareInt n).swap
  | none => if x.isNaN then none else some (if 0 < x then .lt else .gt)

/-- The order of two numbers; none if either is no number. -/
def Numeric.compare : Numeric → Numeric → Option Ordering
  | .whole m, .whole n => some (Ord.compare m n)
  | .whole m, .double y => compareWhole m y
  | .double x, .whole n => (compareWhole n x).map Ordering.swap
  | .double x, .double y =>
    if x < y then some .lt else if y < x then some .gt else if x == y then some .eq else none

/-! ## Values -/

/-- Equality of values without parts. -/
def Value.equalAtom (a b : Value) : Bool :=
  match a, b with
  | .null, .null => true
  | .text _ s, .text _ t => s == t
  | .object _ _ _, .object _ _ _ | .record _ _ _, .record _ _ _
  | .unprintable _ _ _, .unprintable _ _ _ | .function _ _, .function _ _
  | .method _ _, .method _ _ => a.same b
  | a, b =>
    match a.numeric?, b.numeric? with
    | some m, some n => m.compare n == some .eq
    | _, _ => false

mutual

/-- Likeness of keys, which hold no lists. -/
def Value.sameKey : Value → Value → Bool
  | .tuple _ xs, .tuple _ ys => Value.sameKeys xs ys
  | a, b => a.same b || a.equalAtom b

/-- Tuples of keys that are alike. -/
def Value.sameKeys : List Value → List Value → Bool
  | [], [] => true
  | x :: xs, y :: ys => x.sameKey y && Value.sameKeys xs ys
  | _, _ => false

end

/-- How deep values can be compared or shown. -/
def depthLimit : Nat := 1000

/-- Whether all items of two sequences are alike, pair by pair; those that have no
partner are passed over. -/
def allAlike (alike : Value → Value → Except Fault Bool) :
    List Value → List Value → Except Fault Bool
  | x :: xs, y :: ys => do if ← alike x y then allAlike alike xs ys else return false
  | _, _ => .ok true

/-- Whether every entry has one under the same key whose value is alike. -/
def allEntriesAlike (alike : Value → Value → Except Fault Bool)
    (others : List (Value × Value)) : List (Value × Value) → Except Fault Bool
  | [] => .ok true
  | (k, v) :: rest =>
    match others.find? fun (other, _) => other.sameKey k with
    | none => .ok false
    | some (_, w) => do
      if ← alike w v then allEntriesAlike alike others rest else return false

namespace Store

/-- Equality of values now, down to a depth. -/
def equalWithin (s : Store) : Nat → Value → Value → Except Fault Bool
  | 0, _, _ => .error .tooDeep
  | depth + 1, a, b =>
    let alike (x y : Value) := if x.same y then .ok true else s.equalWithin depth x y
    match a, b with
    | .list i, .list j =>
      if (s.contents i).length != (s.contents j).length then .ok false
      else allAlike alike (s.contents i) (s.contents j)
    | .tuple _ xs, .tuple _ ys => do
      if ← allAlike alike xs ys then return xs.length == ys.length else return false
    | .dict _ xs, .dict _ ys =>
      if xs.length != ys.length then .ok false else allEntriesAlike alike ys xs
    | a, b => .ok (a.equalAtom b)

/-- Equality of values now, as a template sees it. -/
def equal (s : Store) (a b : Value) : Except Fault Bool := s.equalWithin depthLimit a b

/-- Likeness of values now: equal, or one and the same. -/
def alike (s : Store) (a b : Value) : Except Fault Bool :=
  if a.same b then .ok true else s.equal a b

end Store

end Stencil

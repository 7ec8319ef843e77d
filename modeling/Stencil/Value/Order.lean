import Stencil.Value.Equality

/-!
# Comparison of values

Numbers are ordered as numbers, text by code points, lists among lists and
tuples among tuples by the first parts that are not alike. Nothing else is
ordered.
-/

namespace Stencil

/-- The operators that compare. -/
inductive Comparison where
  | eq
  | ne
  | lt
  | le
  | gt
  | ge
deriving DecidableEq

/-- How an operator is written. -/
def Comparison.symbol : Comparison → String
  | .eq => "=="
  | .ne => "!="
  | .lt => "<"
  | .le => "<="
  | .gt => ">"
  | .ge => ">="

/-- All operators that compare. -/
def Comparison.all : List Comparison := [.eq, .ne, .lt, .le, .gt, .ge]

/-- The operator that is written so. -/
def Comparison.ofSymbol? (symbol : String) : Option Comparison :=
  Comparison.all.find? fun op => op.symbol == symbol

/-- Whether an operator holds of two things in this order. -/
def Comparison.holds : Comparison → Ordering → Bool
  | .eq, o => o == .eq
  | .ne, o => o != .eq
  | .lt, o => o == .lt
  | .le, o => o != .gt
  | .gt, o => o == .gt
  | .ge, o => o != .lt

/-- The order of two texts, by code points. -/
def compareText (s t : String) : Ordering :=
  if s < t then .lt else if t < s then .gt else .eq

/-- An ordering operator on values without parts. What is no number is before,
after and beside nothing. -/
def Value.orderAtom (op : Comparison) (a b : Value) : Except Fault Bool :=
  match a, b with
  | .text _ s, .text _ t => .ok (op.holds (compareText s t))
  | a, b =>
    match a.numeric?, b.numeric? with
    | some m, some n => .ok ((m.compare n).any op.holds)
    | _, _ => .error (.unordered op.symbol a.typeName b.typeName)

/-- An ordering operator on sequences: the first parts that are not alike
decide, and without such parts the lengths. -/
def orderItems (op : Comparison) (alike order : Value → Value → Except Fault Bool) :
    List Value → List Value → Except Fault Bool
  | [], [] => .ok (op.holds .eq)
  | [], _ :: _ => .ok (op.holds .lt)
  | _ :: _, [] => .ok (op.holds .gt)
  | x :: xs, y :: ys => do
    if ← alike x y then orderItems op alike order xs ys else order x y

namespace Store

/-- An ordering operator on values now, down to a depth. -/
def orderWithin (s : Store) (op : Comparison) : Nat → Value → Value → Except Fault Bool
  | 0, _, _ => .error .tooDeep
  | depth + 1, a, b =>
    let alike (x y : Value) := if x.same y then .ok true else s.equalWithin depth x y
    match a, b with
    | .list i, .list j =>
      orderItems op alike (s.orderWithin op depth) (s.contents i) (s.contents j)
    | .tuple _ xs, .tuple _ ys => orderItems op alike (s.orderWithin op depth) xs ys
    | a, b => a.orderAtom op b

/-- Any comparison of values now. -/
def compareBy (s : Store) (op : Comparison) (a b : Value) : Except Fault Bool :=
  match op with
  | .eq => s.equal a b
  | .ne => do return !(← s.equal a b)
  | op => s.orderWithin op depthLimit a b

end Store

end Stencil

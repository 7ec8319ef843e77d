/-!
# Searching sorted items

How many of the first items pass a test, where the items that pass come before
those that fail. Halving looks at few items; galloping at fewer still if the
answer is near the beginning. The test may fail, and then so does the search.
-/

namespace Stencil.Sorting

variable {α ε : Type}

/-- How many of the first items pass a test, found by halving. Of an even number
of items the one in front of the middle is looked at if `early`, else the one
behind it. -/
def countByHalves (early : Bool) (test : α → Except ε Bool) (items : List α) : Except ε Nat :=
  let middle := (items.length - early.toNat) / 2
  match h : items.drop middle with
  | [] => .ok 0
  | x :: behind => do
    if ← test x then return middle + 1 + (← countByHalves early test behind)
    else countByHalves early test (items.take middle)
termination_by items.length
decreasing_by
  all_goals
    have h := congrArg List.length h
    simp only [List.length_drop, List.length_cons] at h
  · omega
  · simp only [List.length_take]
    omega

/-- How many of the first items pass, when `passed` items in front of them do:
the distance to the next item looked at doubles with every item that passes, and
the items skipped before the first that fails are halved. `fuel` bounds the
number of items looked at. -/
def gallopFrom (early : Bool) (test : α → Except ε Bool) :
    Nat → Nat → List α → Except ε Nat
  | 0, passed, _ => .ok passed
  | fuel + 1, passed, items =>
    match items.drop (passed - 1) with
    | [] => do return passed + (← countByHalves early test items)
    | x :: behind => do
      if ← test x then gallopFrom early test fuel (2 * passed) behind
      else return passed + (← countByHalves early test (items.take (passed - 1)))

/-- How many of the first items pass a test, found by galloping. -/
def gallop (early : Bool) (test : α → Except ε Bool) (items : List α) : Except ε Nat :=
  match items with
  | [] => .ok 0
  | x :: behind => do
    if ← test x then gallopFrom early test items.length 1 behind else return 0

end Stencil.Sorting

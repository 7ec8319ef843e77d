import Stencil.Sorting.Search

/-!
# Merging sorted runs

Two runs that stand behind each other are merged from the side of the shorter
one. Items are compared pair by pair until one run has won often in a row; then
whole stretches are found by galloping, and how soon that happens adapts to how
well it worked. A comparison may fail: then what is merged stands before (or,
from the back, behind) what is not, and no item is lost.
-/

namespace Stencil.Sorting

variable {α ε : Type}

/-- A comparison that may fail: whether one item is less than another. -/
abbrev Less (α ε : Type) := α → α → Except ε Bool

/-- The side from which two runs are merged. -/
inductive Side where
  | front
  | back
deriving DecidableEq

/-- A merge under way, seen from its side. -/
structure Merge (α : Type) where
  /-- what is merged, the last item first -/
  merged : List α := []
  /-- the run whose last item is known to be the last of all -/
  held : List α
  /-- the run whose first item is known to be the first of all -/
  other : List α
  /-- how often in a row a run must win before galloping begins -/
  patience : Nat

/-- The items as they stand. -/
def Merge.items (m : Merge α) : List α := m.merged.reverse ++ (m.held ++ m.other)

/-- Why a merge stops. -/
inductive Halt (ε : Type) where
  | finished
  | failed (e : ε)

/-- A part of a merge. -/
abbrev Merging (α ε : Type) := EStateM (Halt ε) (Merge α)

/-- How often in a row a run must win for galloping to go on. -/
def leastWins : Nat := 7

namespace Merging

/-- A search or comparison as a part of a merge. -/
def ask {β : Type} (answer : Except ε β) : Merging α ε β :=
  match answer with
  | .ok b => pure b
  | .error e => throw (.failed e)

/-- Stops if one run is used up. The last held item goes behind everything. -/
def checkHeld : Merging α ε Unit := do
  match (← get).held with
  | [] => throw .finished
  | [_] =>
    modify fun m => { m with merged := m.other.reverse ++ m.merged, other := [] }
    throw .finished
  | _ => return

/-- Stops if the other run is used up. -/
def checkOther : Merging α ε Unit := do
  if (← get).other.isEmpty then throw .finished

/-- Merges the first held items. -/
def takeHeld (count : Nat) : Merging α ε Unit := do
  modify fun m =>
    { m with merged := (m.held.take count).reverse ++ m.merged, held := m.held.drop count }
  checkHeld

/-- Merges the first items of the other run. -/
def takeOther (count : Nat) : Merging α ε Unit := do
  modify fun m =>
    { m with merged := (m.other.take count).reverse ++ m.merged, other := m.other.drop count }
  checkOther

/-- Merges item by item until a run has won often enough in a row. `wins y x`
says whether `y` of the other run goes before the held `x`. `fuel` bounds the
number of items. -/
def takeSingly (wins : Less α ε) : Nat → Nat → Nat → Merging α ε Unit
  | 0, _, _ => return
  | fuel + 1, heldWins, otherWins => do
    let m ← get
    match m.held, m.other with
    | x :: _, y :: _ =>
      if ← ask (wins y x) then
        takeOther 1
        if otherWins + 1 < m.patience then takeSingly wins fuel 0 (otherWins + 1)
      else
        takeHeld 1
        if heldWins + 1 < m.patience then takeSingly wins fuel (heldWins + 1) 0
    | _, _ => return

/-- Merges the held items that go before the next other one, and then that one.
The number of the former. -/
def gallopHeld (side : Side) (wins : Less α ε) : Merging α ε Nat := do
  let m ← get
  match m.other with
  | [] => return 0
  | y :: _ =>
    let count ← ask (gallop (side == .back) (fun x => do return !(← wins y x)) m.held)
    takeHeld count
    takeOther 1
    return count

/-- Merges the items of the other run that go before the next held one, and then
that one. The number of the former. -/
def gallopOther (side : Side) (wins : Less α ε) : Merging α ε Nat := do
  let m ← get
  match m.held with
  | [] => return 0
  | x :: _ =>
    let count ← ask (gallop (side == .back) (fun y => wins y x) m.other)
    takeOther count
    takeHeld 1
    return count

/-- Gallops as long as that finds long stretches. Every further turn lowers the
patience, the end raises it. `fuel` bounds the number of turns. -/
def gallopOn (side : Side) (wins : Less α ε) : Nat → Merging α ε Unit
  | 0 => return
  | fuel + 1 => do
    let (first, second) ← match side with
      | .front => do
        let first ← gallopHeld side wins
        pure (first, ← gallopOther side wins)
      | .back => do
        let first ← gallopOther side wins
        pure (first, ← gallopHeld side wins)
    if leastWins ≤ first || leastWins ≤ second then
      modify fun m => { m with patience := max 1 (m.patience - 1) }
      gallopOn side wins fuel
    else modify fun m => { m with patience := m.patience + 1 }

/-- Merges singly and galloping by turns. `fuel` bounds the number of turns; a
merge stops when a run is used up. -/
def takeAll (side : Side) (wins : Less α ε) : Nat → Merging α ε Unit
  | 0 => return
  | fuel + 1 => do
    let m ← get
    takeSingly wins (m.held.length + m.other.length) 0 0
    gallopOn side wins m.held.length
    takeAll side wins fuel

/-- A merge from its beginning. -/
def start (side : Side) (wins : Less α ε) : Merging α ε Unit := do
  takeOther 1
  checkHeld
  takeAll side wins (← get).held.length

end Merging

/-- The items of two runs, how soon galloping is worth while, and the failure of
a comparison if there was one. -/
structure Joined (α ε : Type) where
  items : List α
  patience : Nat
  failure : Option ε := none

/-- Merges two runs from a side; the second one begins with the least item, and
the first one ends with the greatest. -/
def mergeFrom (side : Side) (less : Less α ε) (patience : Nat) (left right : List α) :
    Joined α ε :=
  let (m, wins) : Merge α × Less α ε :=
    match side with
    | .front => ({ held := left, other := right, patience }, less)
    | .back =>
      ({ held := right.reverse, other := left.reverse, patience }, fun y x => less x y)
  let seen (m : Merge α) : List α :=
    match side with
    | .front => m.items
    | .back => m.items.reverse
  match Merging.start side wins m with
  | .ok _ m | .error .finished m => ⟨seen m, m.patience, none⟩
  | .error (.failed e) m => ⟨seen m, m.patience, some e⟩

/-- The items in front of the first that belongs behind the beginning of the
right run, and those behind the last that belongs before the end of the left
one, stay where they are: how many there are of each. -/
def settled (less : Less α ε) (left right : List α) : Except ε (Nat × Nat) :=
  match right.head? with
  | none => .ok (left.length, 0)
  | some least => do
    let before ← gallop false (fun x => do return !(← less least x)) left
    match (left.drop before).getLast? with
    | none => return (before, 0)
    | some greatest =>
      return (before, ← gallop true (fun y => do return !(← less y greatest)) right.reverse)

/-- Merges two runs that stand behind each other. -/
def join (less : Less α ε) (patience : Nat) (left right : List α) : Joined α ε :=
  match settled less left right with
  | .error e => ⟨left ++ right, patience, some e⟩
  | .ok (before, behind) =>
    let first := left.drop before
    let second := right.take (right.length - behind)
    if first.isEmpty || second.isEmpty then ⟨left ++ right, patience, none⟩
    else
      let side : Side := if first.length ≤ second.length then .front else .back
      let joined := mergeFrom side less patience first second
      { joined with
        items := left.take before ++ (joined.items ++ right.drop (right.length - behind)) }

end Stencil.Sorting

import Stencil.Sorting.Merge

/-!
# Sorting

A stable sort that makes few comparisons on items that are partly in order. It
goes through the items once and takes runs that rise or strictly fall, the short
ones made longer by insertion. Which runs are merged, and when, is decided by
where their middles lie: two runs belong together the more, the longer the
fractions of their places in the whole agree. A comparison may fail; then the
items are all there, as far sorted as they were.
-/

namespace Stencil.Sorting

variable {α ε : Type}

/-! ## Runs -/

/-- Whether the items begin with a run that strictly falls, and how many items of
a run follow the first two. -/
def runLength (less : Less α ε) (falling : Bool) : α → List α → Except ε Nat
  | _, [] => .ok 0
  | previous, x :: rest => do
    if (← less x previous) == falling then return (← runLength less falling x rest) + 1
    else return 0

/-- Whether the run at the beginning of some items falls, and its length. -/
def firstRun (less : Less α ε) : List α → Except ε (Bool × Nat)
  | x :: y :: rest => do
    let falling ← less y x
    return (falling, (← runLength less falling y rest) + 2)
  | items => .ok (false, items.length)

/-- The least length of a run among so many items: such that their number is a
power of two of runs, or a little less. -/
def leastRun (count : Nat) : Nat :=
  let bits := count.log2 - 5
  count / Nat.pow 2 bits + if count % Nat.pow 2 bits == 0 then 0 else 1

/-- A run in the whole. -/
structure Run (α : Type) where
  /-- how many items stand before it -/
  start : Nat
  items : List α
  /-- how far down the merge with the next run belongs -/
  power : Nat := 0

/-- The number of binary places up to which the middles of two neighbouring runs,
as fractions of the whole, agree. -/
def mergePower (total : Nat) (left : Run α) (length : Nat) : Nat :=
  let a := 2 * left.start + left.items.length
  let b := a + left.items.length + length
  ((List.range (total.log2 + 2)).find? fun k =>
    Nat.pow 2 k * a / total != Nat.pow 2 k * b / total).getD 0

/-! ## The sort -/

/-- A sort under way. -/
structure Progress (α : Type) where
  /-- the runs, the last one first -/
  runs : List (Run α) := []
  /-- what is not yet in a run -/
  rest : List α
  /-- how soon merges gallop -/
  patience : Nat := leastWins

/-- The items as they stand. -/
def Progress.items (p : Progress α) : List α :=
  (p.runs.reverse.flatMap (·.items)) ++ p.rest

/-- A part of a sort. -/
abbrev Sorter (α ε : Type) := EStateM ε (Progress α)

namespace Sorter

/-- A comparison or search as a part of a sort. -/
def ask {β : Type} (answer : Except ε β) : Sorter α ε β :=
  match answer with
  | .ok b => pure b
  | .error e => throw e

/-- Makes the sorted items in front of the rest `count` longer: each next item
goes behind all that are not greater. -/
def insertNext (less : Less α ε) : Nat → List α → Sorter α ε (List α)
  | 0, sorted => return sorted
  | count + 1, sorted => do
    match (← get).rest.drop sorted.length with
    | [] => return sorted
    | x :: behind =>
      let place ← ask (countByHalves false (fun y => do return !(← less x y)) sorted)
      let sorted := sorted.take place ++ x :: sorted.drop place
      modify fun p => { p with rest := sorted ++ behind }
      insertNext less count sorted

/-- Takes the next run off the rest, at least `least` long if there are as many
items. -/
def takeRun (less : Less α ε) (least : Nat) : Sorter α ε (List α) := do
  let rest := (← get).rest
  let (falling, length) ← ask (firstRun less rest)
  let run := if falling then (rest.take length).reverse else rest.take length
  modify fun p => { p with rest := run ++ rest.drop length }
  insertNext less (least - length) run

/-- Merges two neighbouring runs, with others before and behind them. -/
def mergePair (less : Less α ε) (behind : List (Run α)) (right left : Run α)
    (before : List (Run α)) : Sorter α ε Unit := do
  let joined := join less (← get).patience left.items right.items
  modify fun p =>
    { p with
      runs := behind ++ { left with items := joined.items } :: before
      patience := joined.patience }
  match joined.failure with
  | none => return
  | some e => throw e

/-- Merges the last two runs as long as the merge before them belongs further
down than `power`. `fuel` bounds the number of runs. -/
def mergeAbove (less : Less α ε) (power : Nat) : Nat → Sorter α ε Unit
  | 0 => return
  | fuel + 1 => do
    match (← get).runs with
    | right :: left :: before =>
      if power < left.power then
        mergePair less [] right left before
        mergeAbove less power fuel
    | _ => return

/-- Adds a run that was taken. -/
def addRun (less : Less α ε) (total : Nat) (items : List α) : Sorter α ε Unit := do
  match (← get).runs with
  | [] => return
  | last :: before =>
    let power := mergePower total last items.length
    mergeAbove less power before.length
    modify fun p =>
      match p.runs with
      | last :: before => { p with runs := { last with power } :: before }
      | [] => p

/-- Takes all runs. `fuel` bounds their number. -/
def takeRuns (less : Less α ε) (total least : Nat) : Nat → Nat → Sorter α ε Unit
  | 0, _ => return
  | fuel + 1, start => do
    if (← get).rest.isEmpty then return
    let items ← takeRun less least
    addRun less total items
    modify fun p =>
      { p with runs := { start, items } :: p.runs, rest := p.rest.drop items.length }
    takeRuns less total least fuel (start + items.length)

/-- Merges all runs, a short one first with the shorter of its neighbours.
`fuel` bounds their number. -/
def mergeAll (less : Less α ε) : Nat → Sorter α ε Unit
  | 0 => return
  | fuel + 1 => do
    match (← get).runs with
    | last :: right :: left :: before =>
      if left.items.length < last.items.length then mergePair less [last] right left before
      else mergePair less [] last right (left :: before)
      mergeAll less fuel
    | last :: right :: [] => mergePair less [] last right []
    | _ => return

/-- Sorts all items. -/
def all (less : Less α ε) (total : Nat) : Sorter α ε Unit := do
  takeRuns less total (leastRun total) total 0
  mergeAll less total

end Sorter

/-- The items sorted, and the failure if a comparison failed. -/
def sort (less : Less α ε) (items : List α) : List α × Option ε :=
  if items.length < 2 then (items, none)
  else
    match Sorter.all less items.length { rest := items } with
    | .ok _ p => (p.items, none)
    | .error e p => (p.items, some e)

end Stencil.Sorting

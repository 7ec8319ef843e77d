/-!
# Close matches

A name that is not known is answered with the known name most like it. Likeness
is twice the number of matching characters over the total length. Characters
match in blocks: the longest common block, the leftmost of the longest, then
the same on either side of it. In a long name characters that are too common
start no block.
-/

namespace Stencil.Text

/-- The characters too common to start a block: in a text of 200 characters or more,
those that take more than a hundredth of it, plus one. -/
def commonCharacters (whole : List Char) : List Char :=
  if whole.length < 200 then []
  else whole.eraseDups.filter fun c => whole.length / 100 + 1 < whole.count c

/-- A common block: where it starts in either text and its length. -/
structure Block where
  left : Nat
  right : Nat
  size : Nat

/-- Lengths of the common runs that end at one character of the left text and
at each character of the right text. `previous` holds those of the character
before, starting one place earlier with a zero. -/
def runRow (common : List Char) (c : Char) : List Char → List Nat → List Nat
  | d :: ds, n :: ns =>
    (if c == d && !common.contains d then n + 1 else 0) :: runRow common c ds ns
  | _, _ => []

/-- Keeps the longer block; of equal ones the earlier. -/
def improve (i : Nat) : Nat → List Nat → Block → Block
  | _, [], best => best
  | j, n :: ns, best =>
    improve i (j + 1) ns (if best.size < n then ⟨i + 1 - n, j + 1 - n, n⟩ else best)

/-- The longest block among the runs, scanning the left text. -/
def scanRows (common : List Char) (right : List Char) : Nat → List Nat → List Char → Block →
    Block
  | _, _, [], best => best
  | i, row, c :: cs, best =>
    let next := runRow common c right (0 :: row)
    scanRows common right (i + 1) next cs (improve i 0 next best)

/-- How many characters two texts share at their start. -/
def sharedLength : List Char → List Char → Nat
  | a :: as, b :: bs => if a == b then sharedLength as bs + 1 else 0
  | _, _ => 0

/-- The longest common block: the longest run without common characters,
extended to both sides over any equal characters. -/
def longestBlock (common : List Char) (left right : List Char) : Block :=
  let best := scanRows common right 0 (right.map fun _ => 0) left ⟨0, 0, 0⟩
  let back := sharedLength (left.take best.left).reverse (right.take best.right).reverse
  let onward := sharedLength (left.drop (best.left + best.size))
    (right.drop (best.right + best.size))
  ⟨best.left - back, best.right - back, back + best.size + onward⟩

/-- The number of characters in matching blocks. Each block shortens the left
text, whose length is enough as `fuel`. -/
def matchedWithin (common : List Char) : Nat → List Char → List Char → Nat
  | 0, _, _ => 0
  | fuel + 1, left, right =>
    let block := longestBlock common left right
    if block.size == 0 then 0
    else
      block.size + matchedWithin common fuel (left.take block.left) (right.take block.right) +
        matchedWithin common fuel (left.drop (block.left + block.size))
          (right.drop (block.right + block.size))

/-- A likeness as a fraction: matching characters and total length. -/
structure Likeness where
  matched : Nat
  total : Nat

/-- How like `name`, in which some characters are common, a candidate is. -/
def likeness (common name candidate : List Char) : Likeness :=
  ⟨2 * matchedWithin common candidate.length candidate name, candidate.length + name.length⟩

/-- At least three fifths; two empty texts are alike. -/
def Likeness.isClose (l : Likeness) : Bool :=
  3 * l.total ≤ 5 * l.matched

/-- Strictly less alike. -/
def Likeness.less (a b : Likeness) : Bool :=
  if a.total == 0 then false
  else if b.total == 0 then a.matched < a.total
  else a.matched * b.total < b.matched * a.total

/-- The close candidate most like `name`; of equally good ones the greatest. -/
def closest? (name : String) (candidates : List String) : Option String :=
  let common := commonCharacters name.toList
  let rated := candidates.map fun c => (likeness common name.toList c.toList, c)
  let close := rated.filter fun (l, _) => l.isClose
  (close.foldl (fun best (l, c) =>
    match best with
    | none => some (l, c)
    | some (l', c') => if l'.less l || (!l.less l' && c' < c) then some (l, c) else best)
    none).map (·.2)

end Stencil.Text

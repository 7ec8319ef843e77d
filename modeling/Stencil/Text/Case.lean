import Stencil.Text.CaseTable

/-!
# Upper, lower and title case

Case mappings of whole texts by the Unicode tables. A character may map to
several. Lower case depends on the neighbours for one letter: a capital sigma
becomes the final form at the end of a word.
-/

namespace Stencil.Text

/-- Whether `n` lies in one of the intervals. -/
def inRanges (ranges : List (Nat × Nat)) (n : Nat) : Bool :=
  ranges.any fun (low, high) => low ≤ n && n ≤ high

/-- The image of `c` by a table of runs and a table of many-character images. -/
def mapCase (runs : List (Nat × Nat × Nat × Int)) (many : List (Nat × List Nat)) (c : Char) :
    List Char :=
  let n := c.toNat
  match many.lookup n with
  | some image => image.map Char.ofNat
  | none =>
    match runs.find? fun (first, last, step, _) =>
        first ≤ n && n ≤ last && (n - first) % step == 0 with
    | some (_, _, _, distance) => [Char.ofNat (n + distance).toNat]
    | none => [c]

/-- The upper-case image of a character. -/
def upperChar (c : Char) : List Char := mapCase upperRuns upperMany c

/-- The lower-case image of a character away from the end of a word. -/
def lowerChar (c : Char) : List Char := mapCase lowerRuns lowerMany c

/-- The title-case image of a character. -/
def titleChar (c : Char) : List Char :=
  match titleOwn.lookup c.toNat with
  | some image => image.map Char.ofNat
  | none => upperChar c

/-- Whether the first character that is not passed over has case. -/
def nextIsCased (cs : List Char) : Bool :=
  match cs.dropWhile fun c => inRanges caseIgnoredRanges c.toNat with
  | [] => false
  | c :: _ => inRanges casedRanges c.toNat

/-- Lower case of `cs` after the characters `before`, nearest first. -/
def lowerAfter (before : List Char) : List Char → List Char
  | [] => []
  | c :: rest =>
    let image :=
      if c = 'Σ' then [if nextIsCased before && !nextIsCased rest then 'ς' else 'σ']
      else lowerChar c
    image ++ lowerAfter (c :: before) rest

/-- The text in upper case. -/
def upper (cs : List Char) : List Char := cs.flatMap upperChar

/-- The text in lower case. -/
def lower (cs : List Char) : List Char := lowerAfter [] cs

/-- The text with its first character in title case and the others in lower
case. -/
def capitalize : List Char → List Char
  | [] => []
  | c :: rest => titleChar c ++ lowerAfter [c] rest

end Stencil.Text

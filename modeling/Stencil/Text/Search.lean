/-!
# Searching a text

Finding, counting, replacing and splitting at a piece of text. A search goes
from left to right and what it finds does not overlap. An empty piece is found
before every character and at the end.
-/

namespace Stencil.Text

/-- The place of the first occurrence of `needle`. -/
def find? (needle : List Char) : List Char → Option Nat
  | [] => if needle.isEmpty then some 0 else none
  | c :: cs =>
    if needle.isPrefixOf (c :: cs) then some 0 else (find? needle cs).map (· + 1)

/-- Cuts at every occurrence of the non-empty `needle`, at most `limit` times.
`fuel` bounds the number of cuts; the length of the text is enough. -/
def splitWithin (needle : List Char) : Nat → Option Nat → List Char → List (List Char)
  | 0, _, cs => [cs]
  | fuel + 1, limit, cs =>
    if limit == some 0 then [cs]
    else
      match find? needle cs with
      | none => [cs]
      | some n =>
        cs.take n :: splitWithin needle fuel (limit.map (· - 1)) (cs.drop (n + needle.length))

/-- The pieces of a text between the occurrences of the non-empty `needle`, of
which at most `limit` are used. -/
def split (needle : List Char) (limit : Option Nat) (cs : List Char) : List (List Char) :=
  splitWithin needle cs.length limit cs

/-- How often `needle` occurs, without overlap. -/
def occurrences (needle cs : List Char) : Nat :=
  if needle.isEmpty then cs.length + 1 else (split needle none cs).length - 1

/-- Puts `new` before each of the first `limit` characters and, if the limit
allows, at the end. -/
def interleave (new : List Char) : Option Nat → List Char → List Char
  | some 0, cs => cs
  | _, [] => new
  | limit, c :: cs => new ++ c :: interleave new (limit.map (· - 1)) cs

/-- Replaces occurrences of `old` by `new`, at most `limit` of them. -/
def replace (old new : List Char) (limit : Option Nat) (cs : List Char) : List Char :=
  if old.isEmpty then interleave new limit cs
  else List.intercalate new (split old limit cs)

/-- Cuts at runs of white space, as `words` does, at most `limit` times; the
piece that is left then is kept as it is. -/
def splitBlank (blank : Char → Bool) : Nat → List Char → List (List Char)
  | limit, cs =>
    match cs.dropWhile blank with
    | [] => []
    | c :: rest =>
      match limit with
      | 0 => [c :: rest]
      | limit + 1 =>
        (c :: rest.takeWhile (!blank ·)) :: splitBlank blank limit (rest.dropWhile (!blank ·))

end Stencil.Text

/-!
# White space

Which characters count as white space when names are trimmed and when text is
split into words, and the trimming itself. `strip` drops the blank ends of a
text and nothing else.
-/

namespace Stencil.Text

/-- White space: the characters with the Unicode property of that name, and the
four information separators U+001C to U+001F. -/
def isBlank (c : Char) : Bool :=
  let n := c.toNat
  (0x09 ≤ n && n ≤ 0x0d) || (0x1c ≤ n && n ≤ 0x20) || n == 0x85 || n == 0xa0 || n == 0x1680 ||
    (0x2000 ≤ n && n ≤ 0x200a) || n == 0x2028 || n == 0x2029 || n == 0x202f || n == 0x205f ||
    n == 0x3000

/-- Drops what satisfies `p` from both ends. -/
def trimBoth (p : Char → Bool) (cs : List Char) : List Char :=
  ((cs.dropWhile p).reverse.dropWhile p).reverse

/-- `s` without the white space at its two ends. -/
def strip (s : String) : String :=
  String.ofList (trimBoth isBlank s.toList)

/-- The maximal runs of characters that are not white space. -/
def words (cs : List Char) : List (List Char) :=
  go cs []
where
  /-- `word` holds the characters of the current run, last first. -/
  go : List Char → List Char → List (List Char)
    | [], [] => []
    | [], word => [word.reverse]
    | c :: cs, word =>
      if isBlank c then
        match word with
        | [] => go cs []
        | word => word.reverse :: go cs []
      else go cs (c :: word)

end Stencil.Text

/-!
# Lines for display

Source snippets number the lines of a text by every boundary that Unicode
knows, not only by line feeds: `lines` cuts at each of them and keeps none.
-/

namespace Stencil.Text

/-- A character that ends a line. A carriage return followed by a line feed is
one boundary, which `lines` sees to. -/
def endsLine (c : Char) : Bool :=
  let n := c.toNat
  (0x0a ≤ n && n ≤ 0x0d) || (0x1c ≤ n && n ≤ 0x1e) || n == 0x85 || n == 0x2028 || n == 0x2029

/-- The lines of a text without their ends. A final boundary opens no further
line, so the empty text has none. -/
def lines : List Char → List (List Char)
  | [] => []
  | '\r' :: '\n' :: rest => [] :: lines rest
  | c :: rest =>
    if endsLine c then [] :: lines rest
    else
      match lines rest with
      | [] => [[c]]
      | line :: more => (c :: line) :: more

/-- The lines of a string, by `lines`. -/
def linesOf (s : String) : List String :=
  (lines s.toList).map String.ofList

end Stencil.Text

import Stencil.Fault
import Stencil.Grammar.Problem

/-!
# Reading tokens

A reader goes through the tokens of a template from left to right. It never
goes past the token that ends them. A syntax error stops the statement that is
being read; reporting it is up to who called. A number that is too long to be
read stops the whole reading.
-/

namespace Stencil.Grammar

/-- How templates are read. -/
structure Options where
  /-- the file that ranges belong to -/
  file : Option String := none
  /-- how deep expressions may nest -/
  depthLimit : Int := 64

/-- Where a reader is: the token read last, the tokens ahead, and what was
reported so far. -/
structure Cursor where
  last : Option Token := none
  rest : List Token
  reported : List SyntaxError := []

/-- Why reading stopped. -/
inductive Stop where
  | malformed (e : SyntaxError)
  | fault (e : Fault)

/-- A reader of tokens. -/
abbrev Reader := EStateM Stop Cursor

/-- The token ahead. -/
def Cursor.current (c : Cursor) : Token := c.rest.head?.getD (.eof .start)

/-- The token ahead. -/
def current : Reader Token := do return (← get).current

/-- The token after the one ahead, or the last one. -/
def following : Reader Token := do
  match (← get).rest with
  | _ :: next :: _ => return next
  | rest => return rest.head?.getD (.eof .start)

/-- Reads the token ahead, unless it is the end. -/
def advance : Reader Token := do
  let c ← get
  match c.rest with
  | t :: rest =>
    if t.kind != .eof then set { c with last := some t, rest }
    return t
  | [] => return c.current

/-- Stops at a problem with the token ahead. -/
def fail {α : Type} (problem : Problem) : Reader α := do
  throw (.malformed (problem.at (← current)))

/-- Reads a token of the given kind. -/
def expect (kind : TokenKind) (problem : Problem) : Reader Token := do
  if (← current).kind == kind then advance else fail problem

/-- Notes a syntax error. -/
def report (e : SyntaxError) : Reader Unit :=
  modify fun c => { c with reported := c.reported ++ [e] }

/-- The range from a token to the token read last, or of the token alone when
nothing was read since. -/
def spanFrom (o : Options) (start : Token) : Reader Span := do
  let stop := (← get).last.getD start
  let stop := if stop.start.before start.start then start else stop
  return ⟨o.file, start.start, stop.stop⟩

/-- Applies a reader as long as a sign stands between what is read, and combines
from the left. `fuel` bounds the number of signs. -/
def chainFrom {α : Type} (o : Options) (start : Token) (sign? : Token → Option α)
    (operand : Reader Node) (combine : Span → α → Node → Node → Node) :
    Nat → Node → Reader Node
  | 0, left => return left
  | fuel + 1, left => do
    match sign? (← current) with
    | none => return left
    | some sign =>
      let _ ← advance
      let right ← operand
      let span ← spanFrom o start
      chainFrom o start sign? operand combine fuel (combine span sign left right)

/-- Operands with signs between them, combined from the left. -/
def chain {α : Type} (o : Options) (sign? : Token → Option α) (operand : Reader Node)
    (combine : Span → α → Node → Node → Node) : Reader Node := do
  let start ← current
  let left ← operand
  chainFrom o start sign? operand combine (← get).rest.length left

end Stencil.Grammar

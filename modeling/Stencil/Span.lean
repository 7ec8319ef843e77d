/-!
# Places in a source

Lines count from one, columns from zero, in characters. A line ends with a line
feed and with nothing else. `Position.after` moves a place over text; a `Span`
is a range of places, tied to a file where one is known.
-/

namespace Stencil

/-- A place in a source. Hosts may report places that no source has. -/
structure Position where
  line : Int
  column : Int
deriving DecidableEq

/-- The place of the first character. -/
def Position.start : Position := ⟨1, 0⟩

/-- The place after one character. -/
def Position.next (p : Position) (c : Char) : Position :=
  if c = '\n' then ⟨p.line + 1, 0⟩ else ⟨p.line, p.column + 1⟩

/-- The place after a text. -/
def Position.after (p : Position) (cs : List Char) : Position :=
  cs.foldl Position.next p

/-- Strictly earlier, line before column. -/
def Position.before (p q : Position) : Bool :=
  p.line < q.line || (p.line == q.line && p.column < q.column)

/-- A place as text. -/
def Position.text (p : Position) : String :=
  toString p.line ++ "," ++ toString p.column

/-- A range of a source, with the file it belongs to if that is known. -/
structure Span where
  file : Option String
  start : Position
  stop : Position
deriving DecidableEq

/-- What a source is called in reports: its path, or a stand-in where the path
is missing or empty. -/
def sourceName (path : Option String) : String :=
  match path with
  | some name => if name = "" then "<template>" else name
  | none => "<template>"

/-- The same range in another file. -/
def Span.inFile (s : Span) (file : Option String) : Span := { s with file }

/-- A range as text: its source and where it starts. -/
def Span.text (s : Span) : String :=
  sourceName s.file ++ "(" ++ s.start.text ++ ")"

@[simp] theorem Position.after_nil (p : Position) : p.after [] = p := rfl

@[simp] theorem Position.after_cons (p : Position) (c : Char) (cs : List Char) :
    p.after (c :: cs) = (p.next c).after cs := rfl

theorem Position.after_append (p : Position) (cs ds : List Char) :
    p.after (cs ++ ds) = (p.after cs).after ds := by
  simp [Position.after]

end Stencil

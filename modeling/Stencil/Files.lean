import Stencil.Table
import Stencil.Text.Encoding

/-!
# Files

A tree of files without links, given by the absolute paths of its files. A path
is its parts; `resolve` reads a name relative to a directory, as the parts that
remain when single dots are dropped and double dots step back. `follow` goes a way
part by part instead, so that it ends where a directory is missing.
-/

namespace Stencil

/-- An absolute path: the names from the root down. -/
abbrev FilePath := List String

namespace FilePath

/-- A path as text. -/
def text (p : FilePath) : String := "/" ++ "/".intercalate p

/-- The parts of a name between slashes. -/
def parts (name : String) : List String :=
  (go name.toList []).map String.ofList
where
  /-- `part` holds the characters of the current part, last first. -/
  go : List Char → List Char → List (List Char)
    | [], part => [part.reverse]
    | '/' :: cs, part => part.reverse :: go cs []
    | c :: cs, part => go cs (c :: part)

/-- One step from a directory. -/
def step (p : FilePath) (part : String) : FilePath :=
  if part = "" || part = "." then p
  else if part = ".." then p.dropLast
  else p ++ [part]

/-- The path of a name in a directory; a name that starts with a slash stands for
itself. -/
def resolve (directory : FilePath) (name : String) : FilePath :=
  (parts name).foldl step (if name.toList.head? == some '/' then [] else directory)

/-- The parts of a path that say where to go: all but empty ones and single dots. -/
def steps (name : String) : List String :=
  (parts name).filter fun part => part != "" && part != "."

/-- Whether a path lies in a directory or is it. -/
def isWithin (directory p : FilePath) : Bool := directory.isPrefixOf p

end FilePath

/-- A tree of files: the contents of each file, by its path, and the directory that
is there even without files. -/
structure FileTree where
  files : List (FilePath × List UInt8) := []
  base : FilePath := []

namespace FileTree

/-- The contents of a file. -/
def contents? (t : FileTree) (p : FilePath) : Option (List UInt8) :=
  (t.files.find? fun (q, _) => q == p).map (·.2)

/-- Whether there is a file at a path. -/
def isFile (t : FileTree) (p : FilePath) : Bool := (t.contents? p).isSome

/-- Whether there is a directory at a path. -/
def isDirectory (t : FileTree) (p : FilePath) : Bool :=
  p.isPrefixOf t.base || t.files.any fun (q, _) => p.isPrefixOf q && p.length < q.length

/-- The largest number of bytes in a name. -/
def nameLimit : Nat := 255

/-- The least number of bytes that a path cannot have. -/
def pathLimit : Nat := 4096

/-- Whether a path is longer than paths can be, or has a name in a directory that is
longer than names can be. -/
def isTooLong (t : FileTree) (p : FilePath) : Bool :=
  pathLimit ≤ p.text.utf8ByteSize || (List.range p.length).any fun n =>
    t.isDirectory (p.take n) && (p[n]?.getD "").utf8ByteSize > nameLimit

/-- The files below a directory, by their paths relative to it. -/
def below (t : FileTree) (directory : FilePath) : List String :=
  t.files.filterMap fun (p, _) =>
    if directory.isPrefixOf p && directory.length < p.length then
      some ("/".intercalate (p.drop directory.length))
    else none

/-- Where parts lead from a path, one by one: each is looked up in a directory, and
double dots step back out of it. None where the way ends; a name longer than names
can be is a fault that tells the whole path. -/
def follow (t : FileTree) (whole : String) : FilePath → List String →
    Except Fault (Option FilePath)
  | p, [] => .ok (some p)
  | p, part :: rest =>
    if !t.isDirectory p then .ok none
    else if part.utf8ByteSize > nameLimit then .error (.nameTooLong whole)
    else t.follow whole (FilePath.step p part) rest

/-- What a path starts with when it is told again: of slashes in front one is kept, or
two if there are exactly two. -/
def leadingSlashes : List Char → String
  | '/' :: '/' :: '/' :: _ => "/"
  | '/' :: '/' :: _ => "//"
  | '/' :: _ => "/"
  | _ => ""

/-- A file as text with unified line ends; none where there is no file. -/
def read (t : FileTree) (encoding : Text.Encoding) (path : String) :
    Except Fault (Option String) := do
  let steps := FilePath.steps path
  let whole := leadingSlashes path.toList ++ "/".intercalate steps
  if pathLimit ≤ whole.utf8ByteSize then throw (.nameTooLong whole)
  match (← t.follow whole [] steps).bind t.contents? with
  | none => return none
  | some bytes => return some (String.ofList (Text.unifyLineEnds (← encoding.decode bytes)))

end FileTree

end Stencil

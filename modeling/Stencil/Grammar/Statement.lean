import Stencil.Grammar.Expression

/-!
# Reading statements

A template is statements with separators between them. Blocks run to the word
`end`, which a chain of conditions shares. A statement that does not follow the
grammar is reported and skipped, and reading goes on behind it; so every
template has a page.
-/

namespace Stencil.Grammar

/-- Whether a token may stand between statements. -/
def isSeparator (t : Token) : Bool :=
  match t.kind with
  | .newline | .semicolon | .codeEnter | .codeExit => true
  | _ => false

/-- Whether a token ends a statement. -/
def endsStatement (t : Token) : Bool :=
  match t.kind with
  | .newline | .semicolon | .codeExit | .eof | .frontMatterMarker => true
  | _ => false

/-- Whether a token ends the statements of a page or of its front matter. -/
def endsSection (t : Token) : Bool :=
  match t.kind with
  | .eof | .frontMatterMarker => true
  | _ => false

/-- Whether a token belongs to the block around the statements. -/
def belongsToBlock (t : Token) : Bool := t.isWord "end" || t.isWord "else"

/-- Checks that a statement is over, and reads what ended it if that is a line
end or a semicolon. -/
def readStatementEnd : Reader Unit := do
  let t ← current
  if !endsStatement t then fail (.expectedEnd t.value)
  if t.kind == .newline || t.kind == .semicolon then
    let _ ← advance

/-- Reads a name that is not reserved. -/
def readName (role : NameRole) : Reader String := do
  let t ← expect .identifier (.expectedName role)
  if t.value ∈ reservedWords then throw (.malformed ((Problem.reserved t.value role).at t))
  return t.value

/-- Skips to where the statement ends. `fuel` bounds the number of tokens. -/
def skipStatement : Nat → Reader Unit
  | 0 => return
  | fuel + 1 => do
    if !endsStatement (← current) then
      let _ ← advance
      skipStatement fuel

/-- Reads the end of a block that began with `start`. -/
def readBlockEnd (keyword : String) (start : Token) : Reader Unit := do
  if !(← current).isWord "end" then fail (.missingEnd keyword start.start.line)
  let _ ← advance
  readStatementEnd

/-- Reads the statements of a block. -/
def readBody (o : Options) (statements : Reader (List Node)) : Reader Node := do
  let start ← current
  let body ← statements
  return .block (← spanFrom o start) body

/-- Reads an assignment. -/
def readAssignment (o : Options) : Reader Node := do
  let start ← current
  let target ← readName .target
  let _ ← advance
  let value ← readExpression o
  let span ← spanFrom o start
  readStatementEnd
  return .assign span target value

/-- Reads a chain of conditions, from the word `if`. `fuel` bounds the number of
conditions. -/
def readBranch (o : Options) (statements : Reader (List Node)) : Nat → Reader Node
  | 0 => return .absent
  | fuel + 1 => do
    let start ← advance
    let test ← readExpression o
    readStatementEnd
    let body ← readBody o statements
    if (← current).isWord "else" then
      let _ ← advance
      if (← current).isWord "if" then
        let nested ← readBranch o statements fuel
        let otherwise :=
          match nested.span? with
          | some span => .block span [nested]
          | none => .absent
        return .branch (← spanFrom o start) test body otherwise
      else
        readStatementEnd
        let otherwise ← readBody o statements
        readBlockEnd "if" start
        return .branch (← spanFrom o start) test body otherwise
    else
      readBlockEnd "if" start
      return .branch (← spanFrom o start) test body .absent

/-- Reads a loop, from the word `for`. -/
def readLoop (o : Options) (statements : Reader (List Node)) : Reader Node := do
  let start ← advance
  let target ← readName .variable
  if !(← current).isWord "in" then fail .expectedIn
  let _ ← advance
  let source ← readExpression o
  readStatementEnd
  let body ← readBody o statements
  readBlockEnd "for" start
  return .loop (← spanFrom o start) target source body

/-- Reads an expression that stands alone. -/
def readExpressionStatement (o : Options) : Reader Node := do
  let start ← current
  let e ← readExpression o
  let span ← spanFrom o start
  readStatementEnd
  return .expression span e

/-- Reads a statement of code; `statements` reads the bodies of blocks. -/
def readStatement (o : Options) (statements : Reader (List Node)) : Reader Node := do
  let t ← current
  if t.isWord "if" then readBranch o statements (← get).rest.length
  else if t.isWord "for" then readLoop o statements
  else if t.kind == .identifier && (← following).kind == .assign then readAssignment o
  else readExpressionStatement o

/-- Reads a statement, or reports and skips it. -/
def readOrSkip (o : Options) (statements : Reader (List Node)) : Reader (Option Node) := do
  try
    return some (← readStatement o statements)
  catch
    | .malformed e =>
      report e
      skipStatement (← get).rest.length
      return none
    | .fault e => throw (.fault e)

/-- Reads statements up to the end of a section, or to a word that belongs to
the block around them. `fuel` bounds the number of statements and separators,
inner ones included. -/
def readStatements (o : Options) : Nat → Reader (List Node)
  | 0 => return []
  | fuel + 1 => do
    let t ← current
    if endsSection t || belongsToBlock t then return []
    else if isSeparator t then
      let _ ← advance
      readStatements o fuel
    else if t.kind == .text then
      let _ ← advance
      let span ← spanFrom o t
      return .text span t.value :: (← readStatements o fuel)
    else
      let node? ← readOrSkip o (readStatements o fuel)
      return node?.toList ++ (← readStatements o fuel)

/-- Reads the statements of a section. Words that belong to no block are
reported. -/
def readSectionBody (o : Options) : Nat → Reader (List Node)
  | 0 => return []
  | fuel + 1 => do
    let body ← readStatements o ((← get).rest.length + 1)
    let t ← current
    if endsSection t then return body
    else
      report ((Problem.unmatched t.value).at t)
      let _ ← advance
      return body ++ (← readSectionBody o fuel)

/-- Reads a section: the front matter or the body of a page. -/
def readSection (o : Options) : Reader Node := do
  let start ← current
  let body ← readSectionBody o ((← get).rest.length + 1)
  return .block (← spanFrom o start) body

/-- Reads a page, with front matter if it begins with a marker. -/
def readPage (o : Options) : Reader Page := do
  let start ← current
  if start.kind == .frontMatterMarker then
    let _ ← advance
    let frontMatter ← readSection o
    if (← current).kind == .frontMatterMarker then
      let _ ← advance
    let body ← readSection o
    return { span := ← spanFrom o start, body, frontMatter }
  else
    let body ← readSection o
    return { span := ← spanFrom o start, body }

/-- What tokens are read as: a page and the syntax errors in it. A number that
is too long is a fault of the whole template. -/
def pageOf (o : Options) (tokens : List Token) : Except Fault (Page × List SyntaxError) :=
  match readPage o |>.run { rest := tokens } with
  | .ok page c => .ok (page, c.reported)
  | .error (.fault e) _ => .error e
  | .error (.malformed e) c => .ok (⟨⟨o.file, .start, .start⟩, .absent, .absent⟩, c.reported ++ [e])

end Stencil.Grammar

import Stencil.Token
import Stencil.Diagnostic
import Stencil.Text.Blank
import Stencil.Text.Digit

/-!
# From text to tokens

A template is cut into pieces from left to right. Each piece is a token, blank
space, a comment or a stretch that is no token at all; together they cover the
text. What a piece is depends on the section of the template it starts in:
literal text, a code block, front matter, or a script. `Lexed.tokens` and
`Lexed.diagnostics` are read off the pieces. Nothing stops the cutting: what
is wrong becomes a diagnostic and the next piece follows.
-/

namespace Stencil

/-- How a source is read. -/
inductive ScriptMode where
  /-- text with code blocks in it -/
  | default
  /-- leading front matter alone -/
  | frontMatterOnly
  /-- front matter, then text with code blocks -/
  | frontMatterAndContent
  /-- all code -/
  | scriptOnly
deriving DecidableEq

/-- The settings of the lexer. -/
structure LexerOptions where
  mode : ScriptMode := .default
  /-- what the first and the last line of front matter start with -/
  marker : String := "+++"
deriving DecidableEq

/-- What can be wrong with the text itself. -/
inductive LexicalProblem where
  | unexpectedCharacter (c : Char)
  | unterminatedString
  | unclosedBlock
  | markerExpected (marker : String)
  | markerMissing
deriving DecidableEq

/-- The wording of a lexical problem. -/
def LexicalProblem.message : LexicalProblem → String
  | .unexpectedCharacter c => "Unexpected character " ++ Text.quoted (String.singleton c)
  | .unterminatedString => "Unterminated string literal"
  | .unclosedBlock => "Unclosed code block, expecting '\x7d\x7d'"
  | .markerExpected marker =>
    "Expecting front matter marker '" ++ marker ++ "' at the start of the template"
  | .markerMissing => "Missing closing front matter marker"

/-- What a piece of text is. -/
inductive PieceKind where
  | token (kind : TokenKind) (value : String)
  | blank
  | comment
  | flaw (problem : LexicalProblem)
deriving DecidableEq

/-- A piece of a source: what it is, its characters and where it starts. -/
structure Piece where
  kind : PieceKind
  lexeme : List Char
  start : Position
deriving DecidableEq

/-- Where a piece ends. -/
def Piece.stop (p : Piece) : Position := p.start.after p.lexeme

/-- What the lexer puts down, in order: a piece, or a complaint about a range
that covers pieces of its own. -/
inductive LexItem where
  | piece (p : Piece)
  | complaint (problem : LexicalProblem) (start stop : Position)
deriving DecidableEq

/-- The token of an item, if it is one. -/
def LexItem.token? : LexItem → Option Token
  | .piece p =>
    match p.kind with
    | .token kind value => some ⟨kind, value, p.start, p.stop⟩
    | _ => none
  | .complaint .. => none

/-- The problem of an item and its range, if it is one. -/
def LexItem.problem? : LexItem → Option (LexicalProblem × Position × Position)
  | .piece p =>
    match p.kind with
    | .flaw problem => some (problem, p.start, p.stop)
    | _ => none
  | .complaint problem start stop => some (problem, start, stop)

/-- A lexed source: the items and where the reading ended. -/
structure Lexed where
  items : List LexItem
  stop : Position

/-- The tokens of a source, the end of the source last. -/
def Lexed.tokens (l : Lexed) : List Token :=
  l.items.filterMap LexItem.token? ++ [Token.eof l.stop]

/-- The diagnostics of a source, in the order in which they came up. -/
def Lexed.diagnostics (l : Lexed) (file : Option String) : List Diagnostic :=
  l.items.filterMap fun item => item.problem?.map fun (problem, start, stop) =>
    ⟨.error, ⟨file, start, stop⟩, problem.message⟩

/-! ## Lexemes of code -/

/-- Blank space inside code. A line feed is a token of its own. -/
def isCodeBlank (c : Char) : Bool :=
  c == ' ' || c == '\t' || c == '\r' || c.toNat == 0x0c

/-- A character that may start a name. -/
def isNameStart (c : Char) : Bool := c.isAlpha || c == '_'

/-- A character that may continue a name. -/
def isNamePart (c : Char) : Bool := c.isAlphanum || c == '_'

/-- The characters before the first pair of `b`. -/
def beforePair (b : Char) : List Char → List Char
  | [] => []
  | c :: cs => if c == b && cs.head? == some b then [] else c :: beforePair b cs

/-- The characters between an opening quote and the quote that closes it, as
written. A backslash takes the next character with it. A line feed before the
closing quote leaves the string open. -/
def stringBody? (quote : Char) : List Char → Option (List Char)
  | [] => none
  | '\\' :: c :: cs =>
    if c == '\n' then none else (stringBody? quote cs).map ('\\' :: c :: ·)
  | c :: cs =>
    if c == quote then some []
    else if c == '\n' || c == '\\' then none
    else (stringBody? quote cs).map (c :: ·)

/-- The character that a backslash and `c` stand for. -/
def escaped (c : Char) : Char :=
  if c == 'n' then '\n'
  else if c == 't' then '\t'
  else if c == 'r' then '\r'
  else if c == '0' then Char.ofNat 0
  else c

/-- What the body of a string literal means. -/
def unescape : List Char → List Char
  | '\\' :: c :: cs => escaped c :: unescape cs
  | c :: cs => c :: unescape cs
  | [] => []

/-- The sign of one character. -/
def sign? (c : Char) : Option TokenKind :=
  if c == '<' then some .lt
  else if c == '>' then some .gt
  else if c == '=' then some .assign
  else if c == '+' then some .plus
  else if c == '-' then some .minus
  else if c == '*' then some .star
  else if c == '/' then some .slash
  else if c == '%' then some .percent
  else if c == '.' then some .dot
  else if c == ',' then some .comma
  else if c == '(' then some .lparen
  else if c == ')' then some .rparen
  else if c == '[' then some .lbracket
  else if c == ']' then some .rbracket
  else if c == ';' then some .semicolon
  else none

/-- The sign that `c` makes with an equals sign after it. -/
def signWithEquals? (c : Char) : Option TokenKind :=
  if c == '=' then some .eq
  else if c == '!' then some .ne
  else if c == '<' then some .le
  else if c == '>' then some .ge
  else none

/-- The sign at `c`, and whether it takes the equals sign after it. -/
def signAt? (c : Char) (cs : List Char) : Option (TokenKind × Bool) :=
  match if cs.head? == some '=' then signWithEquals? c else none with
  | some kind => some (kind, true)
  | none => (sign? c).map (·, false)

/-- The token whose value is what was written. -/
def spelled (kind : TokenKind) (lexeme : List Char) : PieceKind :=
  .token kind (String.ofList lexeme)

/-- The number that starts with the digit `c`: whole, or with digits on both
sides of a point. -/
def scanNumber (c : Char) (cs : List Char) : PieceKind × Nat :=
  let whole := cs.takeWhile Text.isDecimal
  match cs.drop whole.length with
  | '.' :: d :: ds =>
    if Text.isDecimal d then
      let part := d :: ds.takeWhile Text.isDecimal
      (spelled .float (c :: whole ++ '.' :: part), whole.length + 1 + part.length)
    else (spelled .integer (c :: whole), whole.length)
  | _ => (spelled .integer (c :: whole), whole.length)

/-- The string that starts with the quote `c`. One that its line does not close
is a flaw up to the end of the line. -/
def scanString (c : Char) (cs : List Char) : PieceKind × Nat :=
  match stringBody? c cs with
  | some body => (.token .string (String.ofList (unescape body)), body.length + 1)
  | none => (.flaw .unterminatedString, (cs.takeWhile (· != '\n')).length)

/-- The comment after a number sign: the rest of the line, or what comes before
the end of the code block. -/
def scanComment (inBlock : Bool) (cs : List Char) : PieceKind × Nat :=
  let line := cs.takeWhile (· != '\n')
  (.comment, (if inBlock then beforePair '\x7d' line else line).length)

/-- The piece of code that starts with `c`, and how many characters of `cs`
belong to it. -/
def scanCode (inBlock : Bool) (c : Char) (cs : List Char) : PieceKind × Nat :=
  if c == '#' then scanComment inBlock cs
  else if isCodeBlank c then (.blank, (cs.takeWhile isCodeBlank).length)
  else if c == '\n' then (spelled .newline [c], 0)
  else if Text.isDecimal c then scanNumber c cs
  else if c == Text.doubleQuote || c == Text.apostrophe then scanString c cs
  else if c == '$' then
    let digits := cs.takeWhile Text.isDecimal
    (spelled .argument digits, digits.length)
  else if isNameStart c then
    let part := cs.takeWhile isNamePart
    (spelled .identifier (c :: part), part.length)
  else
    match signAt? c cs with
    | some (kind, true) => (spelled kind [c, '='], 1)
    | some (kind, false) => (spelled kind [c], 0)
    | none => (.flaw (.unexpectedCharacter c), 0)

/-! ## Sections -/

/-- The section of a template that a piece starts in. -/
inductive Section where
  /-- literal text -/
  | text
  /-- a code block opened at a place -/
  | code (opened : Position)
  /-- front matter -/
  | front
  /-- a script, which nothing closes -/
  | script
  /-- nothing more is read -/
  | finished
deriving DecidableEq

/-- Whether a line that starts at `p` and goes on with `cs` is a marker line:
the marker, then blank space up to the end of the line. -/
def atMarker (marker : List Char) (p : Position) (cs : List Char) : Bool :=
  p.column == 0 && marker.isPrefixOf cs &&
    ((cs.takeWhile (· != '\n')).drop marker.length).all Text.isBlank

/-- The line that `cs` starts with, its line feed included. -/
def firstLine (cs : List Char) : List Char :=
  let line := cs.takeWhile (· != '\n')
  line ++ (cs.drop line.length).take 1

/-- The section after front matter. -/
def afterFrontMatter (options : LexerOptions) : Section :=
  if options.mode == .frontMatterAndContent then .text else .finished

/-- The piece that starts with `c` at `p`: what it is, how many characters of
`cs` belong to it, and the section that follows. -/
def nextPiece (options : LexerOptions) (inside : Section) (p : Position) (c : Char)
    (cs : List Char) : PieceKind × Nat × Section :=
  match inside with
  | .text =>
    let text := beforePair '\x7b' (c :: cs)
    if text.isEmpty then (spelled .codeEnter ['\x7b', '\x7b'], 1, .code p)
    else (spelled .text text, text.length - 1, .text)
  | .code opened =>
    if c == '\x7d' && cs.head? == some '\x7d' then
      (spelled .codeExit ['\x7d', '\x7d'], 1, .text)
    else
      let (kind, more) := scanCode true c cs
      (kind, more, .code opened)
  | .front =>
    if atMarker options.marker.toList p (c :: cs) then
      (.token .frontMatterMarker options.marker, (firstLine (c :: cs)).length - 1,
        afterFrontMatter options)
    else
      let (kind, more) := scanCode false c cs
      (kind, more, .front)
  | .script | .finished =>
    let (kind, more) := scanCode false c cs
    (kind, more, inside)

/-- What is wrong with a source that ends at `p` in a section. -/
def atEnd (inside : Section) (p : Position) : List LexItem :=
  match inside with
  | .code opened => [.complaint .unclosedBlock opened p]
  | .front => [.complaint .markerMissing Position.start p]
  | .text | .script | .finished => []

/-- Cuts `cs`, which starts at `p` in a section, into pieces. -/
def lexFrom (options : LexerOptions) (inside : Section) (p : Position) : List Char → Lexed
  | [] => ⟨atEnd inside p, p⟩
  | c :: cs =>
    if inside = .finished then ⟨[], p⟩
    else
      let (kind, more, following) := nextPiece options inside p c cs
      let lexeme := c :: cs.take more
      let rest := lexFrom options following (p.after lexeme) (cs.drop more)
      ⟨.piece ⟨kind, lexeme, p⟩ :: rest.items, rest.stop⟩
termination_by cs => cs.length
decreasing_by simp only [List.length_drop, List.length_cons]; omega

/-- Lexes a source that should start with front matter. -/
def lexFrontMatter (options : LexerOptions) (cs : List Char) : Lexed :=
  if atMarker options.marker.toList Position.start cs then
    let line := firstLine cs
    let rest := lexFrom options .front (Position.start.after line) (cs.drop line.length)
    let piece : Piece := ⟨.token .frontMatterMarker options.marker, line, Position.start⟩
    ⟨.piece piece :: rest.items, rest.stop⟩
  else
    let rest := lexFrom options (afterFrontMatter options) Position.start cs
    ⟨.complaint (.markerExpected options.marker) Position.start Position.start :: rest.items,
      rest.stop⟩

/-- Lexes a whole source. -/
def lex (options : LexerOptions) (cs : List Char) : Lexed :=
  match options.mode with
  | .default => lexFrom options .text Position.start cs
  | .scriptOnly => lexFrom options .script Position.start cs
  | .frontMatterOnly | .frontMatterAndContent => lexFrontMatter options cs

end Stencil

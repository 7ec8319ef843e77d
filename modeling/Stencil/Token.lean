import Stencil.Span
import Stencil.Text.Quoted

/-!
# Tokens

The pieces of a template that the grammar is about: literal text, the marks
around code, and the words, literals, signs and separators inside it.
-/

namespace Stencil

/-- The kinds of tokens. -/
inductive TokenKind where
  | text
  | codeEnter
  | codeExit
  | frontMatterMarker
  | newline
  | semicolon
  | identifier
  | argument
  | string
  | integer
  | float
  | dot
  | comma
  | lparen
  | rparen
  | lbracket
  | rbracket
  | assign
  | plus
  | minus
  | star
  | slash
  | percent
  | eq
  | ne
  | lt
  | le
  | gt
  | ge
  | eof
deriving DecidableEq

/-- The name of a kind in descriptions of tokens. -/
def TokenKind.name : TokenKind → String
  | .text => "TEXT"
  | .codeEnter => "CODE_ENTER"
  | .codeExit => "CODE_EXIT"
  | .frontMatterMarker => "FRONT_MATTER_MARKER"
  | .newline => "NEWLINE"
  | .semicolon => "SEMICOLON"
  | .identifier => "IDENTIFIER"
  | .argument => "ARGUMENT"
  | .string => "STRING"
  | .integer => "INTEGER"
  | .float => "FLOAT"
  | .dot => "DOT"
  | .comma => "COMMA"
  | .lparen => "LPAREN"
  | .rparen => "RPAREN"
  | .lbracket => "LBRACKET"
  | .rbracket => "RBRACKET"
  | .assign => "ASSIGN"
  | .plus => "PLUS"
  | .minus => "MINUS"
  | .star => "STAR"
  | .slash => "SLASH"
  | .percent => "PERCENT"
  | .eq => "EQ"
  | .ne => "NE"
  | .lt => "LT"
  | .le => "LE"
  | .gt => "GT"
  | .ge => "GE"
  | .eof => "EOF"

/-- All kinds of tokens. -/
def TokenKind.all : List TokenKind :=
  [.text, .codeEnter, .codeExit, .frontMatterMarker, .newline, .semicolon, .identifier, .argument,
    .string, .integer, .float, .dot, .comma, .lparen, .rparen, .lbracket, .rbracket, .assign,
    .plus, .minus, .star, .slash, .percent, .eq, .ne, .lt, .le, .gt, .ge, .eof]

/-- The kind of a name. -/
def TokenKind.ofName? (name : String) : Option TokenKind :=
  TokenKind.all.find? fun kind => kind.name == name

/-- A token: its kind, its value (what a literal means, otherwise what was
written) and its range. -/
structure Token where
  kind : TokenKind
  value : String
  start : Position
  stop : Position
deriving DecidableEq

/-- A description of a token: kind, quoted value and place. -/
def Token.description (t : Token) : String :=
  "Token(" ++ t.kind.name ++ ", " ++ Text.quoted t.value ++ ", " ++ toString t.start.line ++ ":" ++
    toString t.start.column ++ ")"

/-- Whether the token is the given word. -/
def Token.isWord (t : Token) (word : String) : Bool :=
  t.kind == .identifier && t.value == word

/-- The token after the last one of a source that ends at `p`. -/
def Token.eof (p : Position) : Token := ⟨.eof, "", p, p⟩

end Stencil

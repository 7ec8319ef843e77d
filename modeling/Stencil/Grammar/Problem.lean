import Stencil.Snippet
import Stencil.Token

/-!
# Syntax errors

What is wrong with a statement that does not follow the grammar, and at which
token. A problem has a wording and sometimes a suggestion; `SyntaxError` holds
both for any reader and lays them out.
-/

namespace Stencil

/-- What a name is needed for. -/
inductive NameRole where
  | target
  | variable
deriving DecidableEq

/-- A role in messages. -/
def NameRole.text : NameRole → String
  | .target => "an assignment target"
  | .variable => "a loop variable"

/-- The signs that close what another sign opened. -/
inductive Closing where
  | paren
  | bracket
deriving DecidableEq

/-- The kind of a closing sign. -/
def Closing.kind : Closing → TokenKind
  | .paren => .rparen
  | .bracket => .rbracket

/-- A closing sign in messages. -/
def Closing.text : Closing → String
  | .paren => "')'"
  | .bracket => "']'"

/-- What is wrong with a statement. -/
inductive Problem where
  | unmatched (word : String)
  | expectedEnd (value : String)
  | expectedName (role : NameRole)
  | reserved (word : String) (role : NameRole)
  | missingEnd (keyword : String) (line : Int)
  | expectedIn
  | tooDeep (limit : Int)
  | expectedMember
  | expectedClosing (closing : Closing)
  | expectedSeparator (closing : Closing)
  | keywordInExpression (word : String)
  | statementOver
  | unexpected (value : String)
deriving DecidableEq

/-- The wording of a problem. -/
def Problem.message : Problem → String
  | .unmatched word => "Unexpected '" ++ word ++ "' without a matching block"
  | .expectedEnd value => "Expecting end of statement, got '" ++ value ++ "'"
  | .expectedName role => "Expecting " ++ role.text
  | .reserved word role => "'" ++ word ++ "' is a reserved word and cannot be " ++ role.text
  | .missingEnd keyword line =>
    "Missing 'end' for '" ++ keyword ++ "' started at line " ++ toString line
  | .expectedIn => "Expecting 'in' after the loop variable"
  | .tooDeep _ => "Expression is nested too deeply"
  | .expectedMember => "Expecting a member name after '.'"
  | .expectedClosing closing => "Expecting " ++ closing.text
  | .expectedSeparator closing => "Expecting ',' or " ++ closing.text
  | .keywordInExpression word => "Unexpected keyword '" ++ word ++ "' in expression"
  | .statementOver => "Expecting an expression, got the end of the statement"
  | .unexpected value => "Unexpected '" ++ value ++ "', expecting an expression"

/-- What to do about a problem. -/
def Problem.suggestion? : Problem → Option String
  | .expectedEnd _ => some "Separate statements with a new line or ';'"
  | .missingEnd _ _ => some "Close the block with \x7b\x7b end \x7d\x7d"
  | .tooDeep limit => some ("The limit is " ++ toString limit ++ " levels")
  | _ => none

/-- A syntax error: a message about a token, perhaps with a suggestion. -/
structure SyntaxError where
  message : String
  token : Token
  suggestion : Option String := none
deriving DecidableEq

/-- A suggestion that says something. -/
def SyntaxError.advice? (e : SyntaxError) : Option String :=
  e.suggestion.filter (· != "")

/-- The error as a diagnostic about its token. -/
def SyntaxError.diagnostic (file : Option String) (e : SyntaxError) : Diagnostic :=
  { severity := .error
    span := ⟨file, e.token.start, e.token.stop⟩
    text :=
      match e.advice? with
      | some advice => e.message ++ ". " ++ advice
      | none => e.message }

/-- The line of a source that a token starts in, if the source has it. -/
def sourceLineOf (source : Option String) (line : Int) : Option String :=
  match source with
  | some source => if 0 < line then (Text.linesOf source)[(line - 1).toNat]? else none
  | none => none

/-- The error in full: message and place, the line with a mark under the column
where the source is at hand, and the suggestion. -/
def SyntaxError.text (file source : Option String) (e : SyntaxError) : String :=
  let place := e.token.start
  let header := "Parse Error: " ++ e.message ++ "\n  --> " ++ sourceName file ++ ":" ++
    toString place.line ++ ":" ++ toString place.column
  let excerpt :=
    match sourceLineOf source place.line with
    | some line =>
      "\n   |\n" ++ Terminal.lineNumber place.line ++ " | " ++ line ++ "\n   | " ++
        String.ofList (List.replicate place.column.toNat ' ') ++ "^"
    | none => ""
  let advice :=
    match e.advice? with
    | some advice => "\n\nSuggestion: " ++ advice
    | none => ""
  header ++ excerpt ++ advice

/-- The error in full, unless the mark under its column cannot be set. -/
def SyntaxError.layOut (file source : Option String) (e : SyntaxError) : Except Fault String := do
  if (sourceLineOf source e.token.start.line).isSome then checkLength e.token.start.column
  return e.text file source

/-- A problem at a token. -/
def Problem.at (problem : Problem) (token : Token) : SyntaxError :=
  ⟨problem.message, token, problem.suggestion?⟩

end Stencil
